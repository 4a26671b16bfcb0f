import ReleaseWarden.Admission.Queue
import ReleaseWarden.Admission.Settings
import ReleaseWarden.Admission.Verdict
import ReleaseWarden.Failure.Event
import ReleaseWarden.Profile.Basic
import ReleaseWarden.Ranking

/-! The types whose values are exchanged as JSON: records, which are objects with named fields,
words, and verdicts. -/

set_option autoImplicit false

namespace ReleaseWarden

open Text

inductive RecordType
  | quality
  | revision
  | grade
  | formatTag
  | profileItem
  | formatScore
  | profile
  | releaseInfo
  | candidate
  | libraryItem
  | rejection
  | settings
  | queueEntry
  | clientItem
  | tracked
  | failureEvent
  | searchRequest
  | historyRecord
  deriving DecidableEq, Repr

namespace RecordType

def Value : RecordType → Type
  | quality => Quality
  | revision => Revision
  | grade => Grade
  | formatTag => FormatTag
  | profileItem => ProfileItem
  | formatScore => FormatScore
  | profile => Profile
  | releaseInfo => ReleaseInfo
  | candidate => Candidate
  | libraryItem => LibraryItem
  | rejection => Rejection
  | settings => Settings
  | queueEntry => QueueEntry
  | clientItem => ClientItem
  | tracked => Tracked
  | failureEvent => FailureEvent
  | searchRequest => SearchRequest
  | historyRecord => HistoryRecord

def schema : (t : RecordType) → Schema t.Value
  | quality => Quality.schema
  | revision => Revision.schema
  | grade => Grade.schema
  | formatTag => FormatTag.schema
  | profileItem => ProfileItem.schema
  | formatScore => FormatScore.schema
  | profile => Profile.schema
  | releaseInfo => ReleaseInfo.schema
  | candidate => Candidate.schema
  | libraryItem => LibraryItem.schema
  | rejection => Rejection.schema
  | settings => Settings.schema
  | queueEntry => QueueEntry.schema
  | clientItem => ClientItem.schema
  | tracked => Tracked.schema
  | failureEvent => FailureEvent.schema
  | searchRequest => SearchRequest.schema
  | historyRecord => HistoryRecord.schema

end RecordType

inductive WordType
  | properPolicy
  | protocol
  | preference
  | rule
  | searchKind
  | clientStatus
  | downloadState
  | health
  | historyEvent
  | releaseSource
  deriving DecidableEq, Repr

namespace WordType

def Value : WordType → Type
  | properPolicy => ProperPolicy
  | protocol => Protocol
  | preference => Preference
  | rule => Rule
  | searchKind => SearchKind
  | clientStatus => ClientStatus
  | downloadState => DownloadState
  | health => Health
  | historyEvent => HistoryEvent
  | releaseSource => ReleaseSource

instance : (t : WordType) → Vocabulary t.Value
  | properPolicy => inferInstanceAs (Vocabulary ProperPolicy)
  | protocol => inferInstanceAs (Vocabulary Protocol)
  | preference => inferInstanceAs (Vocabulary Preference)
  | rule => inferInstanceAs (Vocabulary Rule)
  | searchKind => inferInstanceAs (Vocabulary SearchKind)
  | clientStatus => inferInstanceAs (Vocabulary ClientStatus)
  | downloadState => inferInstanceAs (Vocabulary DownloadState)
  | health => inferInstanceAs (Vocabulary Health)
  | historyEvent => inferInstanceAs (Vocabulary HistoryEvent)
  | releaseSource => inferInstanceAs (Vocabulary ReleaseSource)

def schema (t : WordType) : Schema t.Value := .word

end WordType

inductive DataType
  | record (t : RecordType)
  | word (t : WordType)
  | verdict
  deriving DecidableEq, Repr

namespace DataType

def Value : DataType → Type
  | record t => t.Value
  | word t => t.Value
  | verdict => Verdict

def encode : (t : DataType) → t.Value → Json
  | record t => t.schema.encode
  | word t => t.schema.encode
  | verdict => Verdict.encode

def decode : (t : DataType) → Json → Option t.Value
  | record t => t.schema.decode
  | word t => t.schema.decode
  | verdict => Verdict.decode

end DataType

end ReleaseWarden
