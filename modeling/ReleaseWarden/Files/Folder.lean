import ReleaseWarden.Files.Pathname
import ReleaseWarden.Files.Place

/-! The files that a run sees. -/

set_option autoImplicit false

namespace ReleaseWarden.Files

/-- The directory above one, given last name first. Two dots may lead out of the tree. -/
def above : List Name → List Name
  | [] => [Name.above]
  | name :: up => if name = Name.above then name :: name :: up else up

structure Folder where
  files : List (List Name × Place) := []
  deriving Repr, Inhabited

namespace Folder

def isDirectory (f : Folder) (path : List Name) : Bool :=
  path.all (· == Name.above) ||
    f.files.any fun e => path.isPrefixOf e.1 && e.1.length != path.length

/-- Follows the names of a path from a directory, given last name first, through directories that
are there. -/
def follow (f : Folder) : List Name → List Name → Option (List Name)
  | dir, [] => some dir.reverse
  | dir, name :: names =>
    if name.isIdle then f.follow dir names
    else if name = Name.above then f.follow (above dir) names
    else if names.isEmpty ∨ f.isDirectory (name :: dir).reverse then f.follow (name :: dir) names
    else none

def locate (f : Folder) (path : Pathname) : Option (List Name) :=
  if path.bytes.isEmpty ∨ path.isAbsolute then none else f.follow [] path.names

/-- The root of all files is known to be a directory, and what is there is out of sight. -/
def place (f : Folder) (path : Pathname) : Place :=
  match f.locate path with
  | none => if path.isRoot then .directory else .nowhere
  | some names =>
    match f.files.find? fun e => e.1 == names with
    | some (_, place) => place
    | none => if f.isDirectory names then .directory else .vacant

def put (f : Folder) (path : Pathname) (place : Place) : Folder :=
  match f.locate path with
  | none => f
  | some names => ⟨f.files.filter (fun e => e.1 != names) ++ [(names, place)]⟩

def ofTexts (texts : List (String × String)) : Folder :=
  ⟨texts.map fun (path, content) =>
    ((Pathname.ofText path).names.filter fun name => !name.isIdle, .text content)⟩

end Folder

end ReleaseWarden.Files
