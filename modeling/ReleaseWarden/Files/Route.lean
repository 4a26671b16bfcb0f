import ReleaseWarden.Files.Folder

/-! Routes to files. A route is read off the names in a path alone: two dots take back the name
before them, whether or not anything has that name. -/

set_option autoImplicit false

namespace ReleaseWarden.Files

/-- A route from the working directory, or from the root of all files. -/
structure Route where
  isAbsolute : Bool := false
  /-- The names that lead to its end, the last one first. -/
  names : List Name := []
  /-- Where names were looked up on the way, as lists like `names`. -/
  entered : List (List Name) := []
  deriving DecidableEq, Repr

namespace Route

def pathOf (r : Route) (names : List Name) : Pathname := .ofNames r.isAbsolute names.reverse

def path (r : Route) : Pathname := r.pathOf r.names

/-- In bytes. -/
def longestName : Nat := 255

def longestPath : Nat := 511

def hasRoom (r : Route) (directory : List Name) (name : Name) : Bool :=
  name.length ≤ longestName && (r.pathOf (name :: directory)).bytes.length ≤ longestPath

def up (r : Route) : List Name := if r.isAbsolute then r.names.drop 1 else above r.names

def step (r : Route) (name : Name) : Option Route :=
  if name.isIdle then some r
  else if name = Name.above then some { r with names := r.up }
  else if r.hasRoom r.names name then
    some { r with names := name :: r.names, entered := r.names :: r.entered }
  else none

def ofPath? (path : Pathname) : Option Route :=
  path.names.foldlM step { isAbsolute := path.isAbsolute }

end Route

end ReleaseWarden.Files
