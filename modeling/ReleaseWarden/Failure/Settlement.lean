import ReleaseWarden.History.Store

/-! What follows on announced failures: records of them, and searches for replacements. -/

set_option autoImplicit false

namespace ReleaseWarden

structure Settlement where
  events : List FailureEvent := []
  searches : List SearchRequest := []
  deriving DecidableEq, Repr, Inhabited

namespace Settlement

/-- Records the failures in order; the first one that cannot be recorded ends it. -/
def settle (autoRedownload : Bool) :
    Clock → List FailureEvent → Store → Except HistoryError Settlement × Store
  | _, [], s => (.ok {}, s)
  | clock, e :: es, s =>
    match s.recordFailure clock e with
    | (.error cause, s) => (.error cause, s)
    | (.ok ids, s) =>
      match settle autoRedownload (clock.later ids.length) es s with
      | (.error cause, s) => (.error cause, s)
      | (.ok rest, s) =>
        (.ok ⟨e :: rest.events, (e.replacement? autoRedownload).toList ++ rest.searches⟩, s)

def encode (s : Settlement) : List (String × Json) :=
  [("events", (Schema.list FailureEvent.schema).encode s.events),
    ("searches", (Schema.list SearchRequest.schema).encode s.searches)]

end Settlement

end ReleaseWarden
