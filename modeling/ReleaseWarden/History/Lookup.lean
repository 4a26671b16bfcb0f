import ReleaseWarden.History.Record

/-! Looking up history. -/

set_option autoImplicit false

namespace ReleaseWarden

open Text

inductive HistoryError
  | database (message : String) (isTransient : Bool)
  | notFound (id : Int64)
  | invalid (id : Int64) (reason : String)
  deriving DecidableEq, Repr

namespace HistoryError

def isTransient : HistoryError → Bool
  | database _ isTransient => isTransient
  | _ => false

def message : HistoryError → String
  | database message _ => "history database error: " ++ message
  | notFound id =>
    "history record not found: id " ++ toString id.toInt ++
      "\n  Suggestion: The record may have been cleaned up or the ID is incorrect"
  | invalid id reason => "invalid history record " ++ toString id.toInt ++ ": " ++ reason

end HistoryError

/-- How the database driver may fail without a statement being at fault. -/
inductive DatabaseFault
  | poolTimedOut
  | poolClosed
  | rowNotFound
  deriving DecidableEq, Repr

namespace DatabaseFault

def message : DatabaseFault → String
  | poolTimedOut => "pool timed out while waiting for an open connection"
  | poolClosed => "attempted to acquire a connection on a closed pool"
  | rowNotFound => "no rows returned by a query that expected to return at least one row"

def isTransient : DatabaseFault → Bool
  | poolTimedOut => true
  | _ => false

def error (f : DatabaseFault) : HistoryError := .database f.message f.isTransient

end DatabaseFault

structure Lookup where
  get : Int64 → Except HistoryError HistoryRecord
  findGrabbed : String → Except HistoryError (List HistoryRecord)

namespace Lookup

def ofRecords (records : List HistoryRecord) : Lookup where
  get id :=
    match records.find? fun r => r.id == id with
    | some r => .ok r
    | none => .error (.notFound id)
  findGrabbed downloadId :=
    .ok (records.filter fun r => r.event == .grabbed && r.downloadId == some downloadId)

def failing (e : HistoryError) : Lookup := ⟨fun _ => .error e, fun _ => .error e⟩

end Lookup

end ReleaseWarden
