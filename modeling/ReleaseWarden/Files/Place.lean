import ReleaseWarden.History.Store

/-! What stands at a path. -/

set_option autoImplicit false

namespace ReleaseWarden.Files

/-- How a database guards itself while it changes. -/
inductive Journal
  /-- What a change overwrites is kept beside the file until the change is complete. -/
  | rollback
  /-- Changes are written to a log beside the file first. -/
  | ahead
  deriving DecidableEq, Repr, Inhabited

instance : Text.Vocabulary Journal where
  all := [.rollback, .ahead]
  word
    | .rollback => "delete"
    | .ahead => "wal"
  mem_all j := by cases j <;> decide
  word_injective j k := by cases j <;> cases k <;> decide

inductive Place
  | nowhere
  | vacant
  | directory
  | text (content : String)
  | database (journal : Journal) (store : Option Store)
  deriving DecidableEq, Repr, Inhabited

namespace Place

def isThere : Place → Bool
  | nowhere | vacant => false
  | _ => true

def isFile : Place → Bool
  | text _ | database .. => true
  | _ => false

def isDirectory : Place → Bool
  | directory => true
  | _ => false

def text? : Place → Option String
  | text content => some content
  | _ => none

def store? : Place → Option Store
  | database _ store => store
  | _ => none

/-- A database takes a file for a new one if it is empty or has a single byte, which marks an empty
file on some systems. -/
def isBlank : Place → Bool
  | text content => content.utf8ByteSize ≤ 1
  | _ => false

def isFilled : Place → Bool
  | text content => content != ""
  | database .. => true
  | _ => false

def isFree : Place → Bool
  | vacant => true
  | text content => content == ""
  | _ => false

/-- A document that stands for a database where there is no other. -/
def databaseSchema : Schema (Journal × Option Store) :=
  .record
    (.required "journal" .word <| .required "store" (.nullable Store.schema) .done)
    (fun (journal, store) => (journal, store, ()))
    (fun (journal, store, _) => (journal, store))

end Place

end ReleaseWarden.Files
