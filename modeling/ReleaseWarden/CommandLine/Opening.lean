import ReleaseWarden.Files.Route
import ReleaseWarden.History.Location
import ReleaseWarden.History.Site

/-! Opening a store: what has to be at its location, and what becomes of the files there. -/

set_option autoImplicit false

namespace ReleaseWarden.CommandLine

open Files

/-- What comes of opening a store. -/
structure Opening where
  store? : Option Store := none
  /-- The files that are changed by the opening itself. -/
  changes : List (Pathname × Place) := []
  /-- The file that a changed store goes to. -/
  target : Option (Pathname × Journal) := none
  deriving DecidableEq, Repr

namespace Opening

def differences (paths : Site Pathname) (before after : Site Place) : List (Pathname × Place) :=
  (paths.toList.zip (before.toList.zip after.toList)).filterMap fun (path, old, new) =>
    if new = old then none else some (path, new)

def target? (h : Handling) (path : Pathname) : Place → Option (Pathname × Journal)
  | .database journal _ => if h.mayChange then some (path, journal) else none
  | _ => none

def placeAt (place : Pathname → Place) (r : Route) (directory : List Name) (name : Name) :
    Place :=
  if r.hasRoom directory name then place (r.pathOf (name :: directory)) else .nowhere

/-- The file is in a directory that is there, and no name on the way is looked up in a file. -/
def ofRoute (place : Pathname → Place) (r : Route) (h : Handling) : Opening :=
  match r.names with
  | [] => {}
  | name :: directory =>
    if (r.entered.any fun names => (place (r.pathOf names)).isFile)
        ∨ ¬ (place (r.pathOf directory)).isDirectory
        ∨ h.model.any fun path => !(place path).isThere then {}
    else
      let paths := (Site.around name).map fun name => r.pathOf (name :: directory)
      let before := (Site.around name).map (placeAt place r directory)
      let (store?, after) := Site.load h before
      { store?
        changes := differences paths before after
        target := target? h r.path after.main }

def ofLocation (place : Pathname → Place) : Location → Opening
  | .refused => {}
  | .ephemeral => { store? := some {} }
  | .scattered => { store? := some { reach := .nothing } }
  | .file path h => ((Route.ofPath? path).map fun r => ofRoute place r h).getD {}

def pathsAt : Location → List Pathname
  | .file path h =>
    match Route.ofPath? path with
    | none => []
    | some r =>
      let beside := match r.names with
        | [] => []
        | name :: directory =>
          (Site.around name).toList.map fun name => r.pathOf (name :: directory)
      beside ++ r.entered.map r.pathOf ++ h.model.toList
  | _ => []

/-- All files that are changed once the store is left as `s`. -/
def changesWith (o : Opening) (s : Store) : List (Pathname × Place) :=
  o.changes ++ (o.target.map fun (path, journal) => (path, .database journal (some s))).toList

end Opening

end ReleaseWarden.CommandLine
