import ReleaseWarden.Quality.Basic

/-! Quality profiles: the ranking of tiers and the policy on upgrades. The items of a profile go
from the least preferred tier to the most preferred one, and the rank of a tier is its position.
Tiers that are not wanted keep their rank, so that releases held from earlier can be compared. -/

set_option autoImplicit false

namespace ReleaseWarden

open Text

/-- What a higher revision of a held tier is worth. -/
inductive ProperPolicy
  /-- It ranks higher and replaces a held release. -/
  | allowUpgrade
  /-- It ranks higher, but a held release is not replaced for it. -/
  | preferButDoNotForce
  /-- It ranks the same. -/
  | neverUpgrade
  deriving DecidableEq, Repr, Inhabited

instance : Vocabulary ProperPolicy where
  all := [.allowUpgrade, .preferButDoNotForce, .neverUpgrade]
  word
    | .allowUpgrade => "allow-upgrade"
    | .preferButDoNotForce => "prefer-but-do-not-force"
    | .neverUpgrade => "never-upgrade"
  mem_all a := by cases a <;> decide
  word_injective a b := by cases a <;> cases b <;> decide

namespace ProperPolicy

def ofText (s : String) : Except UnknownWord ProperPolicy :=
  match Vocabulary.ofWord? ProperPolicy s with
  | some policy => .ok policy
  | none => .error { kind := "proper policy", text := s }

end ProperPolicy

structure ProfileItem where
  quality : Quality
  allowed : Bool
  deriving DecidableEq, Repr, Inhabited

structure FormatScore where
  format : FormatTag
  score : Int32
  deriving DecidableEq, Repr, Inhabited

structure Profile where
  id : Int64 := 0
  name : String := ""
  upgradeAllowed : Bool
  /-- Id of the tier from which on nothing better is sought. -/
  cutoff : Int32
  items : List ProfileItem
  formatScores : List FormatScore := []
  minFormatScore : Int32 := 0
  properPolicy : ProperPolicy := .allowUpgrade
  deriving DecidableEq, Repr, Inhabited

inductive ProfileError
  | empty (profile : String)
  | duplicateQuality (profile quality : String)
  deriving DecidableEq, Repr

namespace ProfileError

def message : ProfileError → String
  | empty profile => "profile '" ++ profile ++ "' has no quality items"
  | duplicateQuality profile quality =>
    "profile '" ++ profile ++ "' lists quality '" ++ quality ++ "' more than once"

end ProfileError

namespace ProfileItem

def schema : Schema ProfileItem :=
  .record (.required "quality" Quality.schema <| .required "allowed" .boolean .done)
    (fun i => (i.quality, i.allowed, ())) (fun (quality, allowed, _) => ⟨quality, allowed⟩)

/-- The first item whose tier is among the tiers seen or occurs before it. -/
def firstRepeated : List Int32 → List ProfileItem → Option ProfileItem
  | _, [] => none
  | seen, i :: rest =>
    if i.quality.id ∈ seen then some i else firstRepeated (i.quality.id :: seen) rest

end ProfileItem

namespace FormatScore

def schema : Schema FormatScore :=
  .record (.required "format" FormatTag.schema <| .required "score" .integer .done)
    (fun s => (s.format, s.score, ())) (fun (format, score, _) => ⟨format, score⟩)

end FormatScore

namespace Profile

def validate (p : Profile) : Except ProfileError Unit :=
  if p.items.isEmpty then .error (.empty p.name)
  else
    match ProfileItem.firstRepeated [] p.items with
    | some i => .error (.duplicateQuality p.name i.quality.name)
    | none => .ok ()

def rankOf? (p : Profile) (tier : Int32) : Option Nat :=
  p.items.findIdx? fun i => i.quality.id == tier

def rank? (p : Profile) (q : Quality) : Option Nat := p.rankOf? q.id

def cutoffRank? (p : Profile) : Option Nat := p.rankOf? p.cutoff

def allows (p : Profile) (q : Quality) : Bool :=
  p.items.any fun i => i.quality.id == q.id && i.allowed

def schema : Schema Profile :=
  .record
    (.defaulted "id" .integer 0 <| .defaulted "name" .text "" <|
      .required "upgrade_allowed" .boolean <| .required "cutoff" .integer <|
      .required "items" (.list ProfileItem.schema) <|
      .defaulted "format_items" (.list FormatScore.schema) [] <|
      .defaulted "min_format_score" .integer 0 <|
      .defaulted "proper_policy" .word .allowUpgrade .done)
    (fun p => (p.id, p.name, p.upgradeAllowed, p.cutoff, p.items, p.formatScores,
      p.minFormatScore, p.properPolicy, ()))
    (fun (id, name, upgradeAllowed, cutoff, items, formatScores, minFormatScore, properPolicy, _) =>
      ⟨id, name, upgradeAllowed, cutoff, items, formatScores, minFormatScore, properPolicy⟩)

end Profile

end ReleaseWarden
