import ReleaseWarden.Download

/-! The queue of grabs in flight. -/

set_option autoImplicit false

namespace ReleaseWarden

/-- A grab in flight. -/
structure QueueEntry where
  candidate : Candidate
  state : DownloadState := .downloading
  downloadId : Option String := none
  deriving DecidableEq, Repr, Inhabited

namespace QueueEntry

def schema : Schema QueueEntry :=
  .record
    (.required "candidate" Candidate.schema <| .defaulted "state" .word .downloading <|
      .defaulted "download_id" (.nullable .text) none .done)
    (fun e => (e.candidate, e.state, e.downloadId, ()))
    (fun (candidate, state, downloadId, _) => ⟨candidate, state, downloadId⟩)

def concerns (e : QueueEntry) (c : Candidate) : Bool :=
  e.candidate.overlaps c.artistId c.albumIds

end QueueEntry

/-- Grabs in flight, the oldest one first. -/
abbrev Queue := List QueueEntry

namespace Queue

def push (q : Queue) (e : QueueEntry) : Queue := q ++ [e]

def setState (q : Queue) (index : Nat) (state : DownloadState) : Queue :=
  q.modify index fun e => { e with state }

end Queue

end ReleaseWarden
