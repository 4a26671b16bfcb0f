import ReleaseWarden.Config.Basic

/-! What a run of assignments leaves behind: under each key the last value that was given to it,
and none under the keys that were given none. -/

set_option autoImplicit false

namespace ReleaseWarden

namespace Assignment

def key : Assignment → ConfigKey
  | minSizeMb _ => .minSizeMb
  | maxSizeMb _ => .maxSizeMb
  | minSeeders _ => .minSeeders
  | retentionDays _ => .retentionDays
  | minimumAgeMinutes _ => .minimumAgeMinutes
  | rejectEncrypted _ => .rejectEncrypted
  | autoRedownloadFailed _ => .autoRedownloadFailed
  | databasePath _ => .databasePath

def lastFor? (as : List Assignment) (key : ConfigKey) : Option Assignment :=
  as.findRev? fun a => a.key = key

end Assignment

namespace FileConfig

/-- What is set under a key, as an assignment to it. -/
def assignment? (c : FileConfig) : ConfigKey → Option Assignment
  | .minSizeMb => c.minSizeMb.map .minSizeMb
  | .maxSizeMb => c.maxSizeMb.map .maxSizeMb
  | .minSeeders => c.minSeeders.map .minSeeders
  | .retentionDays => c.retentionDays.map .retentionDays
  | .minimumAgeMinutes => c.minimumAgeMinutes.map .minimumAgeMinutes
  | .rejectEncrypted => c.rejectEncrypted.map .rejectEncrypted
  | .autoRedownloadFailed => c.autoRedownloadFailed.map .autoRedownloadFailed
  | .databasePath => c.databasePath.map .databasePath

variable {c d : FileConfig}

theorem eq_of_assignment?_eq (h : ∀ key, c.assignment? key = d.assignment? key) : c = d := by
  have hfield {α : Type} {make : α → Assignment} (hmake : ∀ x y, make x = make y → x = y)
      {x y : Option α} (heq : x.map make = y.map make) : x = y :=
    Option.map_injective (fun x y => hmake x y) heq
  have hmin := hfield (fun _ _ => Assignment.minSizeMb.inj) (h .minSizeMb)
  have hmax := hfield (fun _ _ => Assignment.maxSizeMb.inj) (h .maxSizeMb)
  have hseeders := hfield (fun _ _ => Assignment.minSeeders.inj) (h .minSeeders)
  have hdays := hfield (fun _ _ => Assignment.retentionDays.inj) (h .retentionDays)
  have hage := hfield (fun _ _ => Assignment.minimumAgeMinutes.inj) (h .minimumAgeMinutes)
  have hreject := hfield (fun _ _ => Assignment.rejectEncrypted.inj) (h .rejectEncrypted)
  have hauto := hfield (fun _ _ => Assignment.autoRedownloadFailed.inj) (h .autoRedownloadFailed)
  have hpath := hfield (fun _ _ => Assignment.databasePath.inj) (h .databasePath)
  cases c
  cases d
  simp only at hmin hmax hseeders hdays hage hreject hauto hpath
  rw [hmin, hmax, hseeders, hdays, hage, hreject, hauto, hpath]

theorem assignment?_assign (c : FileConfig) (a : Assignment) (key : ConfigKey) :
    (c.assign a).assignment? key = if a.key = key then some a else c.assignment? key := by
  cases a <;> cases key <;> rfl

theorem assignment?_foldl_assign (as : List Assignment) (c : FileConfig) (key : ConfigKey) :
    (as.foldl assign c).assignment? key =
      (Assignment.lastFor? as key).or (c.assignment? key) := by
  induction as generalizing c with
  | nil => rfl
  | cons a as ih =>
    rw [List.foldl_cons, ih, assignment?_assign, Assignment.lastFor?, Assignment.lastFor?,
      List.findRev?]
    cases as.findRev? fun a => a.key = key with
    | some b => rfl
    | none =>
      by_cases hkey : a.key = key
      · simp [hkey]
      · simp [hkey]

theorem foldl_assign_eq {as : List Assignment}
    (h : ∀ key, Assignment.lastFor? as key = c.assignment? key) : as.foldl assign {} = c := by
  apply eq_of_assignment?_eq
  intro key
  have hempty : assignment? {} key = none := by cases key <;> rfl
  rw [assignment?_foldl_assign, hempty, Option.or_none, h key]

end FileConfig

end ReleaseWarden
