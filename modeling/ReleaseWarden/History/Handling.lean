import ReleaseWarden.Files.Pathname
import ReleaseWarden.Text.Vocabulary

/-! How the file of a store is handled. -/

set_option autoImplicit false

namespace ReleaseWarden

open Text Files

inductive Access
  | read
  | write
  | create
  deriving DecidableEq, Repr, Inhabited

namespace Access

/-- More is allowed under a higher number. -/
def rank : Access → Nat
  | read => 1
  | write => 2
  | create => 3

end Access

instance : Vocabulary Access where
  all := [.read, .write, .create]
  word
    | .read => "ro"
    | .write => "rw"
    | .create => "rwc"
  mem_all a := by cases a <;> decide
  word_injective a b := by cases a <;> cases b <;> decide

/-- What keeps the files of stores, and what it keeps other programs out with. -/
inductive FileSystem
  /-- Locks that are held while something is done. -/
  | plain
  /-- Locks that are held as long as the store is open. -/
  | exclusive
  /-- A further file that is there while something is done. -/
  | lockFile
  | lockFree
  /-- The files are kept in memory, where no other program comes. -/
  | memory
  deriving DecidableEq, Repr, Inhabited

instance : Vocabulary FileSystem where
  all := [.plain, .exclusive, .lockFile, .lockFree, .memory]
  word
    | .plain => "unix"
    | .exclusive => "unix-excl"
    | .lockFile => "unix-dotfile"
    | .lockFree => "unix-none"
    | .memory => "memdb"
  mem_all a := by cases a <;> decide
  word_injective a b := by cases a <;> cases b <;> decide

structure Handling where
  access : Access := .create
  fileSystem : FileSystem := .plain
  isFixed : Bool := false
  locks : Bool := true
  /-- A file whose rights are given to new ones. -/
  model : Option Pathname := none
  /-- The index of the log may not be changed. -/
  isIndexFixed : Bool := false
  deriving DecidableEq, Repr, Inhabited

namespace Handling

def mayChange (h : Handling) : Bool := !h.isFixed && h.access != .read

/-- A log is safe only under real locks. -/
def keepsLog (h : Handling) : Bool :=
  !h.isFixed && h.locks && [FileSystem.plain, .exclusive].contains h.fileSystem

/-- The index of the log is a file that other programs see, unless they are kept out for good. -/
def sharesIndex (h : Handling) : Bool := h.keepsLog && h.fileSystem == .plain

def hasLockFile (h : Handling) : Bool := h.locks && h.fileSystem == .lockFile

end Handling

end ReleaseWarden
