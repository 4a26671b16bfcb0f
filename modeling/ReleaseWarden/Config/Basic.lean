import ReleaseWarden.Admission.Settings
import ReleaseWarden.Text.Integer

/-! The configuration: thresholds for admission, and where history is kept. -/

set_option autoImplicit false

namespace ReleaseWarden

open Text

inductive ConfigKey
  | minSizeMb
  | maxSizeMb
  | minSeeders
  | retentionDays
  | minimumAgeMinutes
  | rejectEncrypted
  | autoRedownloadFailed
  | databasePath
  deriving DecidableEq, Repr

instance : Vocabulary ConfigKey where
  all := [.minSizeMb, .maxSizeMb, .minSeeders, .retentionDays, .minimumAgeMinutes,
    .rejectEncrypted, .autoRedownloadFailed, .databasePath]
  word
    | .minSizeMb => "min_size_mb"
    | .maxSizeMb => "max_size_mb"
    | .minSeeders => "min_seeders"
    | .retentionDays => "retention_days"
    | .minimumAgeMinutes => "minimum_age_minutes"
    | .rejectEncrypted => "reject_encrypted"
    | .autoRedownloadFailed => "auto_redownload_failed"
    | .databasePath => "database_path"
  mem_all a := by cases a <;> decide
  word_injective a b := by cases a <;> cases b <;> decide

inductive ValueFault
  | integerExpected
  | integer (fault : IntegerFault)
  | negative
  | tooWide
  | booleanExpected
  | stringExpected
  deriving DecidableEq, Repr

namespace ValueFault

def message : ValueFault → String
  | integerExpected => "Expected integer value"
  | integer fault => fault.message
  | negative => "Expected non-negative integer"
  | tooWide => "Integer value out of range for u64"
  | booleanExpected => "Expected 'true' or 'false'"
  | stringExpected => "Expected double-quoted string"

end ValueFault

inductive ConfigError
  | noAssignment (line : Nat)
  | unknownKey (key : String) (line : Nat)
  | badValue (key : ConfigKey) (line : Nat) (fault : ValueFault)
  | seedersTooWide
  | outOfRange (key : ConfigKey) (value greatest : Nat)
  | sizesCrossed (minimum maximum : Nat)
  deriving DecidableEq, Repr

namespace ConfigError

def message : ConfigError → String
  | noAssignment line =>
    "Invalid config syntax on line " ++ toString line ++ ": expected key = value"
  | unknownKey key line =>
    "Unknown configuration key: '" ++ key ++ "' on line " ++ toString line
  | badValue key line _ =>
    "Invalid `" ++ Vocabulary.word key ++ "` value on line " ++ toString line
  | seedersTooWide => "min_seeders out of range for u32"
  | outOfRange key value greatest =>
    "Invalid config value for `" ++ Vocabulary.word key ++ "`: " ++ toString value ++
      ". Expected range: 0..=" ++ toString greatest
  | sizesCrossed minimum maximum =>
    "Invalid config value for `min_size_mb`: " ++ toString minimum ++
      ". Must not exceed `max_size_mb` (" ++ toString maximum ++ ")"

def causes : ConfigError → List String
  | badValue _ _ fault => [fault.message]
  | _ => []

end ConfigError

structure FileConfig where
  minSizeMb : Option UInt64 := none
  maxSizeMb : Option UInt64 := none
  minSeeders : Option UInt32 := none
  retentionDays : Option UInt64 := none
  minimumAgeMinutes : Option UInt64 := none
  rejectEncrypted : Option Bool := none
  autoRedownloadFailed : Option Bool := none
  databasePath : Option String := none
  deriving DecidableEq, Repr, Inhabited

inductive Assignment
  | minSizeMb (mb : UInt64)
  | maxSizeMb (mb : UInt64)
  | minSeeders (seeders : UInt32)
  | retentionDays (days : UInt64)
  | minimumAgeMinutes (minutes : UInt64)
  | rejectEncrypted (yes : Bool)
  | autoRedownloadFailed (yes : Bool)
  | databasePath (path : String)
  deriving DecidableEq, Repr

namespace FileConfig

def assign (c : FileConfig) : Assignment → FileConfig
  | .minSizeMb mb => { c with minSizeMb := some mb }
  | .maxSizeMb mb => { c with maxSizeMb := some mb }
  | .minSeeders seeders => { c with minSeeders := some seeders }
  | .retentionDays days => { c with retentionDays := some days }
  | .minimumAgeMinutes minutes => { c with minimumAgeMinutes := some minutes }
  | .rejectEncrypted yes => { c with rejectEncrypted := some yes }
  | .autoRedownloadFailed yes => { c with autoRedownloadFailed := some yes }
  | .databasePath path => { c with databasePath := some path }

def atMost (key : ConfigKey) (value : Option Nat) (greatest : Nat) : Except ConfigError Unit :=
  match value with
  | none => .ok ()
  | some value => if greatest < value then .error (.outOfRange key value greatest) else .ok ()

def sizesInOrder (c : FileConfig) : Except ConfigError Unit :=
  match c.minSizeMb, c.maxSizeMb with
  | some minimum, some maximum =>
    if maximum < minimum then .error (.sizesCrossed minimum.toNat maximum.toNat) else .ok ()
  | _, _ => .ok ()

def validate (c : FileConfig) : Except ConfigError Unit := do
  atMost .minSizeMb (c.minSizeMb.map UInt64.toNat) 1000000
  atMost .maxSizeMb (c.maxSizeMb.map UInt64.toNat) 1000000
  c.sizesInOrder
  atMost .minSeeders (c.minSeeders.map UInt32.toNat) 100000
  atMost .retentionDays (c.retentionDays.map UInt64.toNat) 36500
  atMost .minimumAgeMinutes (c.minimumAgeMinutes.map UInt64.toNat) 10080

/-- The thresholds; sizes are configured in megabytes. -/
def settings (c : FileConfig) : Settings where
  minSize := c.minSizeMb.map (· * 1048576)
  maxSize := c.maxSizeMb.map (· * 1048576)
  minSeeders := c.minSeeders
  retentionDays := c.retentionDays
  minimumAgeMinutes := c.minimumAgeMinutes
  rejectEncrypted := c.rejectEncrypted.getD true

def autoRedownload (c : FileConfig) : Bool := c.autoRedownloadFailed.getD true

end FileConfig

end ReleaseWarden
