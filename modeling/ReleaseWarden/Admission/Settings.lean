import ReleaseWarden.Schema.Basic

/-! Thresholds of the rules on release data, and the kinds of search. -/

set_option autoImplicit false

namespace ReleaseWarden

open Text

inductive SearchKind
  | automatic
  | interactive
  deriving DecidableEq, Repr, Inhabited

instance : Vocabulary SearchKind where
  all := [.automatic, .interactive]
  word
    | .automatic => "automatic"
    | .interactive => "interactive"
  mem_all a := by cases a <;> decide
  word_injective a b := by cases a <;> cases b <;> decide

namespace SearchKind

/-- Upper and lower case of ASCII letters are the same here. -/
def ofText (s : String) : Except UnknownWord SearchKind :=
  match Vocabulary.ofWord? SearchKind (s.map Char.toLower) with
  | some kind => .ok kind
  | none => .error
      { kind := "search kind"
        text := s
        expected := (Vocabulary.all : List SearchKind).map Vocabulary.word }

end SearchKind

/-- A threshold that is not set checks nothing. -/
structure Settings where
  minSize : Option UInt64 := none
  /-- Bytes for each album. -/
  maxSize : Option UInt64 := none
  minSeeders : Option UInt32 := none
  /-- Usenet posts that are older are gone; zero checks nothing. -/
  retentionDays : Option UInt64 := none
  /-- Usenet posts that are younger are held back; zero checks nothing. -/
  minimumAgeMinutes : Option UInt64 := none
  rejectEncrypted : Bool := true
  deriving DecidableEq, Repr, Inhabited

namespace Settings

def schema : Schema Settings :=
  .record
    (.defaulted "min_size" (.nullable .integer) none <|
      .defaulted "max_size" (.nullable .integer) none <|
      .defaulted "min_seeders" (.nullable .integer) none <|
      .defaulted "retention_days" (.nullable .integer) none <|
      .defaulted "minimum_age_minutes" (.nullable .integer) none <|
      .defaulted "reject_encrypted" .boolean true .done)
    (fun s => (s.minSize, s.maxSize, s.minSeeders, s.retentionDays, s.minimumAgeMinutes,
      s.rejectEncrypted, ()))
    (fun (minSize, maxSize, minSeeders, retentionDays, minimumAgeMinutes, rejectEncrypted, _) =>
      ⟨minSize, maxSize, minSeeders, retentionDays, minimumAgeMinutes, rejectEncrypted⟩)

end Settings

end ReleaseWarden
