import ReleaseWarden.Profile.Score
import ReleaseWarden.Release

/-! Which of two releases a profile prefers. The rank of the tier decides first, then the revision
unless the policy ignores it, and last the format score, which is computed only then. A tier that
the profile does not list lies below every listed one. -/

set_option autoImplicit false

namespace ReleaseWarden

open Text

inductive Preference
  | better
  | worse
  | equal
  deriving DecidableEq, Repr, Inhabited

instance : Vocabulary Preference where
  all := [.better, .worse, .equal]
  word
    | .better => "better"
    | .worse => "worse"
    | .equal => "equal"
  mem_all a := by cases a <;> decide
  word_injective a b := by cases a <;> cases b <;> decide

namespace Preference

def reverse : Preference → Preference
  | better => worse
  | worse => better
  | equal => equal

def ofOrdering : Ordering → Preference
  | .gt => better
  | .lt => worse
  | .eq => equal

end Preference

namespace Grade

def isRevisionUpgrade (held candidate : Grade) : Bool :=
  decide (held.quality.id = candidate.quality.id) &&
    candidate.revision.order held.revision == .gt

end Grade

namespace Profile

/-- Zero for a tier that is not listed, one more than its rank for a listed one. -/
def tier (p : Profile) (q : Quality) : Nat :=
  match p.rank? q with
  | none => 0
  | some r => r + 1

def gradeOrder (p : Profile) (a b : Grade) : Ordering :=
  (compare (p.tier a.quality) (p.tier b.quality)).then
    (if p.properPolicy = .neverUpgrade then .eq else a.revision.order b.revision)

def prefer (p : Profile) (held candidate : Graded) : Scored Preference :=
  match p.gradeOrder candidate.grade held.grade with
  | .eq => do
    let heldScore ← p.formatScore held.formats
    let score ← p.formatScore candidate.formats
    pure (.ofOrdering (compare score heldScore))
  | decided => pure (.ofOrdering decided)

/-- The tier is at the cutoff or past it, and the format score reaches the minimum. -/
def cutoffMet (p : Profile) (item : Graded) : Scored Bool :=
  match p.rank? item.grade.quality, p.cutoffRank? with
  | some rank, some cutoff =>
    if cutoff ≤ rank then do
      let score ← p.formatScore item.formats
      pure (decide (p.minFormatScore.toInt ≤ score))
    else pure false
  | _, _ => pure false

def cutoffUnmet (p : Profile) : List LibraryItem → Scored (List LibraryItem)
  | [] => pure []
  | item :: items => do
    let met ← p.cutoffMet item.graded
    let unmet ← p.cutoffUnmet items
    pure (if met then unmet else item :: unmet)

/-- The candidate replaces the held release. A higher revision of the same tier does not, where
the policy only prefers it. -/
def isUpgrade (p : Profile) (held candidate : Graded) : Scored Bool :=
  if p.properPolicy = .preferButDoNotForce ∧ held.grade.isRevisionUpgrade candidate.grade then
    pure false
  else do
    let preference ← p.prefer held candidate
    pure (decide (preference = .better))

end Profile

end ReleaseWarden
