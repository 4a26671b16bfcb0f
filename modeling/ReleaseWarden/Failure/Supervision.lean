import ReleaseWarden.Download
import ReleaseWarden.Failure.Publisher
import ReleaseWarden.History.Lookup

/-! Supervision of downloads. A failure that the client reports is first noted, if the download
was grabbed by this system, and then announced; a download is marked as failed only once its
announcement is out. A user may declare a grab as failed at any time. -/

set_option autoImplicit false

namespace ReleaseWarden

open Text

inductive SupervisionError
  | history (cause : HistoryError)
  | publish (cause : PublishError)
  deriving DecidableEq, Repr

namespace SupervisionError

def message : SupervisionError → String
  | history cause => "history lookup failed: " ++ cause.message
  | publish cause =>
    cause.message ++ "\n  Suggestion: The download stays pending and is retried on the next pass"

def isRetryable : SupervisionError → Bool
  | history cause => cause.isTransient
  | publish _ => true

end SupervisionError

def failedMessage : String := "Failed download detected"

def encryptedMessage : String := "Encrypted download detected"

def manualMessage : String := "Manually marked as failed"

def notGrabbedWarning : String := "Download wasn't grabbed by this system, not failing download"

namespace ClientItem

def failureMessage (i : ClientItem) : String :=
  let default := if i.isEncrypted then encryptedMessage else failedMessage
  if i.status = .failed then (i.message.filter fun m => !blank m).getD default else default

end ClientItem

/-- A download under supervision, and the announcements sent so far. -/
structure Desk where
  tracked : Tracked
  sent : List FailureEvent := []
  deriving DecidableEq, Repr, Inhabited

/-- What an operation answers, and the state that it leaves behind in either case. -/
abbrev Outcome (α σ : Type) := Except SupervisionError α × σ

namespace Desk

/-- Notes a failure that the client reports. A job that was never grabbed gets a warning and is
left alone. -/
def check (history : Lookup) (d : Desk) : Outcome Unit Desk :=
  if d.tracked.state = .downloading ∧ d.tracked.item.reportsFailure then
    match history.findGrabbed d.tracked.item.downloadId with
    | .error e => (.error (.history e), d)
    | .ok [] => (.ok (), { d with tracked := d.tracked.warn notGrabbedWarning })
    | .ok (_ :: _) => (.ok (), { d with tracked := { d.tracked with state := .failedPending } })
  else (.ok (), d)

/-- Announces a noted failure. If the grab is gone from history, there is nothing to announce and
the download stays as it is. -/
def processFailed (history : Lookup) (publisher : Publisher) (d : Desk) : Outcome Unit Desk :=
  if d.tracked.state = .failedPending then
    match history.findGrabbed d.tracked.item.downloadId with
    | .error e => (.error (.history e), d)
    | .ok grabbed =>
      match FailureEvent.ofRecords? grabbed d.tracked.item.failureMessage false with
      | none => (.ok (), d)
      | some event =>
        match publisher.publish d.sent event with
        | (.error e, sent) => (.error (.publish e), { d with sent })
        | (.ok _, sent) => (.ok (), { tracked := { d.tracked with state := .failed }, sent })
  else (.ok (), d)

/-- A check and, unless it breaks off, the announcement. -/
def pass (history : Lookup) (publisher : Publisher) (d : Desk) : Outcome Unit Desk :=
  match d.check history with
  | (.error e, d) => (.error e, d)
  | (.ok _, d) => d.processFailed history publisher

end Desk

namespace Lookup

/-- The records behind a record: itself, and all grabs with its download id. -/
def recordsBehind (history : Lookup) (id : Int64) : Except HistoryError (List HistoryRecord) := do
  let record ← history.get id
  match record.groupId? with
  | none => pure [record]
  | some downloadId => do
    let grabbed ← history.findGrabbed downloadId
    let records := (if record.event = .grabbed then [record] else []) ++ grabbed
    pure (distinctBy HistoryRecord.id (if records.isEmpty then [record] else records))

end Lookup

/-- Announces a failure that a user declared. Without records nothing is announced. -/
def announceManually (publisher : Publisher) (skipRedownload : Bool)
    (records : Except HistoryError (List HistoryRecord)) (sent : List FailureEvent) :
    Outcome Bool (List FailureEvent) :=
  match records with
  | .error e => (.error (.history e), sent)
  | .ok records =>
    match FailureEvent.ofRecords? records manualMessage skipRedownload with
    | none => (.ok false, sent)
    | some event =>
      match publisher.publish sent event with
      | (.error e, sent) => (.error (.publish e), sent)
      | (.ok _, sent) => (.ok true, sent)

def markByRecord (history : Lookup) (publisher : Publisher) (id : Int64) (skipRedownload : Bool)
    (sent : List FailureEvent) : Outcome Bool (List FailureEvent) :=
  announceManually publisher skipRedownload (history.recordsBehind id) sent

def markByDownload (history : Lookup) (publisher : Publisher) (downloadId : String)
    (skipRedownload : Bool) (sent : List FailureEvent) : Outcome Bool (List FailureEvent) :=
  announceManually publisher skipRedownload
    ((history.findGrabbed downloadId).map (distinctBy HistoryRecord.id)) sent

end ReleaseWarden
