import ReleaseWarden.Release

/-! Downloads under supervision: what the download client last reported of a job, and where the
job stands. -/

set_option autoImplicit false

namespace ReleaseWarden

open Text

inductive ClientStatus
  | queued
  | paused
  | downloading
  | completed
  | failed
  | warning
  deriving DecidableEq, Repr, Inhabited

instance : Vocabulary ClientStatus where
  all := [.queued, .paused, .downloading, .completed, .failed, .warning]
  word
    | .queued => "queued"
    | .paused => "paused"
    | .downloading => "downloading"
    | .completed => "completed"
    | .failed => "failed"
    | .warning => "warning"
  mem_all a := by cases a <;> decide
  word_injective a b := by cases a <;> cases b <;> decide

structure ClientItem where
  /-- The client's name for the job; grabs are recorded under it. -/
  downloadId : String
  title : String
  downloadClient : String := ""
  protocol : Protocol := .unknown
  status : ClientStatus := .downloading
  isEncrypted : Bool := false
  message : Option String := none
  deriving DecidableEq, Repr, Inhabited

namespace ClientItem

/-- The client says that the job failed, or that its content is encrypted. -/
def reportsFailure (i : ClientItem) : Bool := i.isEncrypted || i.status == .failed

def schema : Schema ClientItem :=
  .record
    (.required "download_id" .text <| .required "title" .text <|
      .defaulted "download_client" .text "" <| .defaulted "protocol" .word .unknown <|
      .defaulted "status" .word .downloading <| .defaulted "is_encrypted" .boolean false <|
      .defaulted "message" (.nullable .text) none .done)
    (fun i => (i.downloadId, i.title, i.downloadClient, i.protocol, i.status, i.isEncrypted,
      i.message, ()))
    (fun (downloadId, title, downloadClient, protocol, status, isEncrypted, message, _) =>
      ⟨downloadId, title, downloadClient, protocol, status, isEncrypted, message⟩)

end ClientItem

inductive DownloadState
  | downloading
  | importPending
  | importing
  | imported
  | failedPending
  | failed
  | ignored
  deriving DecidableEq, Repr, Inhabited

instance : Vocabulary DownloadState where
  all := [.downloading, .importPending, .importing, .imported, .failedPending, .failed, .ignored]
  word
    | .downloading => "downloading"
    | .importPending => "import_pending"
    | .importing => "importing"
    | .imported => "imported"
    | .failedPending => "failed_pending"
    | .failed => "failed"
    | .ignored => "ignored"
  mem_all a := by cases a <;> decide
  word_injective a b := by cases a <;> cases b <;> decide

namespace DownloadState

/-- The failure is certain, whether or not it was announced. -/
def isFailed : DownloadState → Bool
  | failedPending => true
  | failed => true
  | _ => false

end DownloadState

inductive Health
  | ok
  | warning
  | error
  deriving DecidableEq, Repr, Inhabited

instance : Vocabulary Health where
  all := [.ok, .warning, .error]
  word
    | .ok => "ok"
    | .warning => "warning"
    | .error => "error"
  mem_all a := by cases a <;> decide
  word_injective a b := by cases a <;> cases b <;> decide

structure Tracked where
  item : ClientItem
  state : DownloadState := .downloading
  health : Health := .ok
  messages : List String := []
  deriving DecidableEq, Repr, Inhabited

namespace Tracked

def start (item : ClientItem) : Tracked := { item }

/-- Flags a problem. Earlier messages give way, so that repeated polls pile up none. -/
def warn (t : Tracked) (message : String) : Tracked :=
  { t with health := .warning, messages := [message] }

def schema : Schema Tracked :=
  .record
    (.required "download_item" ClientItem.schema <| .defaulted "state" .word .downloading <|
      .defaulted "status" .word .ok <| .defaulted "status_messages" (.list .text) [] .done)
    (fun t => (t.item, t.state, t.health, t.messages, ()))
    (fun (item, state, health, messages, _) => ⟨item, state, health, messages⟩)

end Tracked

end ReleaseWarden
