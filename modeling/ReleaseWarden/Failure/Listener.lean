import ReleaseWarden.Failure.Event

/-! The listener that answers announced failures with searches. -/

set_option autoImplicit false

namespace ReleaseWarden

structure SearchError where
  message : String
  deriving DecidableEq, Repr

namespace SearchError

def text (e : SearchError) : String := "failed to start search: " ++ e.message

end SearchError

/-- Starts searches. The outcome may hang on the calls made before, the latest one first. -/
abbrev SearchTrigger := List SearchRequest → SearchRequest → Except SearchError Unit

structure Listener where
  /-- All calls of the trigger, the latest one first. -/
  calls : List SearchRequest := []
  started : Nat := 0
  deriving DecidableEq, Repr, Inhabited

namespace Listener

/-- Calls the trigger if the failure is to be replaced; a failing call stops nothing. -/
def hear (trigger : SearchTrigger) (autoRedownload : Bool) (l : Listener) (e : FailureEvent) :
    Listener :=
  match e.replacement? autoRedownload with
  | none => l
  | some request =>
    match trigger l.calls request with
    | .ok _ => ⟨request :: l.calls, l.started + 1⟩
    | .error _ => ⟨request :: l.calls, l.started⟩

def run (trigger : SearchTrigger) (autoRedownload : Bool) (events : List FailureEvent) : Listener :=
  events.foldl (hear trigger autoRedownload) {}

end Listener

end ReleaseWarden
