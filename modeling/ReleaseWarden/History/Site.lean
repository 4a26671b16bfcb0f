import ReleaseWarden.Files.Place
import ReleaseWarden.History.Handling

/-! Opening a store in its file. What other programs left beside the file, and what stands where
the database puts files of its own, may forbid it. An attempt that fails may change files all the
same. -/

set_option autoImplicit false

namespace ReleaseWarden

open Files

/-- A value for the file of a store, and one for each file that may stand beside it. -/
structure Site (α : Type) where
  main : α
  journal : α
  log : α
  index : α
  lock : α
  deriving DecidableEq, Repr, Inhabited

namespace Site

def map {α β : Type} (f : α → β) (s : Site α) : Site β :=
  ⟨f s.main, f s.journal, f s.log, f s.index, f s.lock⟩

def toList {α : Type} (s : Site α) : List α := [s.main, s.journal, s.log, s.index, s.lock]

/-- The files beside it are named after the file of the store. -/
def around (name : Name) : Site Name :=
  { main := name
    journal := name ++ .ofText "-journal"
    log := name ++ .ofText "-wal"
    index := name ++ .ofText "-shm"
    lock := name ++ .ofText ".lock" }

/-- A step may refuse to go on; it leaves a site in either case. -/
abbrev Step := Site Place → Except (Site Place) (Site Place)

def enter (h : Handling) : Step := fun s =>
  if s.main.isFile then .ok s
  else if s.main = .vacant ∧ h.access = .create then .ok { s with main := .text "" }
  else .error s

def keepOut (h : Handling) : Step := fun s =>
  if h.hasLockFile ∧ s.lock.isThere then .error s else .ok s

/-- Takes back a change that broke off. A journal beside a new file is of no use. -/
def takeBack (h : Handling) : Step := fun s =>
  if s.main.isBlank then
    .ok (if s.journal.isFilled ∧ h.access ≠ .read then { s with journal := .vacant } else s)
  else if s.journal.isDirectory then .error s
  else if ¬ s.journal.isFilled then .ok s
  else if h.access = .read then .error s
  else .ok { s with journal := .vacant }

/-- Throws away what was put in the place of the log. -/
def clearLog (h : Handling) : Step := fun s =>
  if s.log.isDirectory then .error s
  else if ¬ s.log.isFilled then .ok s
  else if s.main.isBlank ∨ h.keepsLog then .ok { s with log := .vacant }
  else .error s

/-- Changes the file under the guard of a journal, which has to find room beside it. -/
def change (h : Handling) (main : Place) : Step := fun s =>
  if h.mayChange ∧ s.journal.isFree then .ok { s with main } else .error s

/-- Changes go to a log first wherever one can be kept. -/
def useLog (h : Handling) : Step := fun s =>
  match s.main with
  | .database .ahead _ => if h.keepsLog then .ok s else .error s
  | .database .rollback store => if h.keepsLog then change h (.database .ahead store) s else .ok s
  | _ =>
    if ¬ s.main.isBlank then .error s
    else if h.keepsLog then change h (.database .ahead none) s
    else .ok s

def useIndex (h : Handling) : Step := fun s =>
  if h.sharesIndex ∧ (h.isIndexFixed ∨ s.index.isDirectory) then .error s else .ok s

def found (h : Handling) : Step := fun s =>
  match s.main with
  | .database _ (some _) => .ok s
  | .database .ahead none =>
    if h.mayChange then .ok { s with main := .database .ahead (some {}) } else .error s
  | _ => change h (.database .rollback (some {})) s

/-- A file that never changes needs nothing beside it. -/
def steps (h : Handling) : List Step :=
  if h.isFixed then [enter h]
  else [enter h, keepOut h, takeBack h, clearLog h, useLog h, useIndex h, found h]

def prepare (h : Handling) (s : Site Place) : Except (Site Place) (Site Place) :=
  (steps h).foldlM (fun s step => step s) s

def reach (h : Handling) : Reach := if h.mayChange then .full else .reading

/-- Opens the store; answers the site that is left, too. -/
def load (h : Handling) (s : Site Place) : Option Store × Site Place :=
  match prepare h s with
  | .error s => (none, s)
  | .ok s => (s.main.store?.map fun store => { store with reach := reach h }, s)

end Site

end ReleaseWarden
