import ReleaseWarden.Quality.Basic
import ReleaseWarden.Text.Blank

/-! Records of history: what was sent to a download client, and what became of it. A record is
for one album; what belongs to a grab only by custom is kept in its table of data. -/

set_option autoImplicit false

namespace ReleaseWarden

open Text

inductive HistoryEvent
  | grabbed
  | downloadFailed
  | downloadImported
  | downloadIgnored
  deriving DecidableEq, Repr, Inhabited

instance : Vocabulary HistoryEvent where
  all := [.grabbed, .downloadFailed, .downloadImported, .downloadIgnored]
  word
    | .grabbed => "grabbed"
    | .downloadFailed => "download_failed"
    | .downloadImported => "download_imported"
    | .downloadIgnored => "download_ignored"
  mem_all a := by cases a <;> decide
  word_injective a b := by cases a <;> cases b <;> decide

namespace HistoryEvent

def ofText (s : String) : Except UnknownWord HistoryEvent :=
  match Vocabulary.ofWord? HistoryEvent s with
  | some event => .ok event
  | none => .error { kind := "history event type", text := s }

end HistoryEvent

inductive ReleaseSource
  | unknown
  | rss
  | search
  | userInvokedSearch
  | interactiveSearch
  deriving DecidableEq, Repr, Inhabited

instance : Vocabulary ReleaseSource where
  all := [.unknown, .rss, .search, .userInvokedSearch, .interactiveSearch]
  word
    | .unknown => "unknown"
    | .rss => "rss"
    | .search => "search"
    | .userInvokedSearch => "user_invoked_search"
    | .interactiveSearch => "interactive_search"
  mem_all a := by cases a <;> decide
  word_injective a b := by cases a <;> cases b <;> decide

namespace ReleaseSource

def ofText (s : String) : ReleaseSource := (Vocabulary.ofWord? ReleaseSource s).getD .unknown

end ReleaseSource

inductive DataKey
  | downloadClient
  | releaseSource
  | indexer
  | message
  deriving DecidableEq, Repr

namespace DataKey

def name : DataKey → String
  | downloadClient => "downloadClient"
  | releaseSource => "releaseSource"
  | indexer => "indexer"
  | message => "message"

end DataKey

structure NewRecord where
  artistId : Int64
  albumId : Int64
  sourceTitle : String
  grade : Grade
  event : HistoryEvent
  downloadId : Option String
  data : Table := .empty
  deriving DecidableEq, Repr, Inhabited

structure HistoryRecord where
  id : Int64
  artistId : Int64
  albumId : Int64
  sourceTitle : String
  grade : Grade
  event : HistoryEvent
  downloadId : Option String
  data : Table := .empty
  date : String
  deriving DecidableEq, Repr, Inhabited

namespace NewRecord

def schema : Schema NewRecord :=
  .record
    (.required "artist_id" .integer <| .required "album_id" .integer <|
      .required "source_title" .text <| .required "quality" Grade.schema <|
      .required "event_type" .word <| .nullable "download_id" .text <|
      .defaulted "data" .table .empty .done)
    (fun r => (r.artistId, r.albumId, r.sourceTitle, r.grade, r.event, r.downloadId, r.data, ()))
    (fun (artistId, albumId, sourceTitle, grade, event, downloadId, data, _) =>
      ⟨artistId, albumId, sourceTitle, grade, event, downloadId, data⟩)

end NewRecord

namespace HistoryRecord

def downloadClient? (r : HistoryRecord) : Option String :=
  r.data.get? DataKey.downloadClient.name

def releaseSource (r : HistoryRecord) : ReleaseSource :=
  (r.data.get? DataKey.releaseSource.name).elim .unknown .ofText

/-- The download id, unless it is blank. -/
def groupId? (r : HistoryRecord) : Option String := r.downloadId.filter fun d => !blank d

def schema : Schema HistoryRecord :=
  .record
    (.required "id" .integer <| .required "artist_id" .integer <|
      .required "album_id" .integer <| .required "source_title" .text <|
      .required "quality" Grade.schema <| .required "event_type" .word <|
      .nullable "download_id" .text <| .defaulted "data" .table .empty <|
      .required "date" .text .done)
    (fun r => (r.id, r.artistId, r.albumId, r.sourceTitle, r.grade, r.event, r.downloadId, r.data,
      r.date, ()))
    (fun (id, artistId, albumId, sourceTitle, grade, event, downloadId, data, date, _) =>
      ⟨id, artistId, albumId, sourceTitle, grade, event, downloadId, data, date⟩)

end HistoryRecord

end ReleaseWarden
