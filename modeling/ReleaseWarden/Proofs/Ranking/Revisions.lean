import ReleaseWarden.Admission.Chain
import ReleaseWarden.Proofs.Ranking.Standing

/-! What a higher revision does to an upgrade. It never lowers the preference for a release, but a
policy that does not force propers withholds every upgrade in a higher revision of a held tier,
those that have a higher score as well among them. -/

set_option autoImplicit false

namespace ReleaseWarden

def Graded.revised (g : Graded) (r : Revision) : Graded :=
  { g with grade := { g.grade with revision := r } }

def Candidate.revised (c : Candidate) (r : Revision) : Candidate :=
  { c with grade := { c.grade with revision := r } }

theorem Grade.isRevisionUpgrade_iff {held c : Grade} : held.isRevisionUpgrade c = true ↔
    held.quality.id = c.quality.id ∧ c.revision.order held.revision = .gt := by
  simp [isRevisionUpgrade]

namespace Profile

variable {p : Profile} {held c : Graded} {r : Revision}

theorem revisionStanding_le {a b : Revision} (h : b.order a ≠ .lt) :
    p.revisionStanding a ≤ p.revisionStanding b := by
  apply not_lt.mp
  intro hlt
  rw [← compare_lt_iff_lt, compare_revisionStanding] at hlt
  split at hlt
  · cases hlt
  · exact h hlt

theorem gradeStanding_le_revised (hr : r.order c.grade.revision ≠ .lt) :
    p.gradeStanding c.grade ≤ p.gradeStanding (c.revised r).grade :=
  Prod.Lex.toLex_le_toLex.mpr (.inr ⟨rfl, revisionStanding_le hr⟩)

theorem prefer_of_gradeStanding_lt (h : p.gradeStanding held.grade < p.gradeStanding c.grade) :
    p.prefer held c = .ok .better := by
  have hgt : p.gradeOrder c.grade held.grade = .gt := by
    rw [gradeOrder_eq_compare]
    exact compare_gt_iff_gt.mpr h
  have hne : p.gradeOrder c.grade held.grade ≠ .eq := by
    rw [hgt]
    exact nofun
  rw [p.prefer_of_ne_eq hne, hgt]
  rfl

theorem gradeStanding_le_of_atLeast (h : p.AtLeast held c) :
    p.gradeStanding held.grade ≤ p.gradeStanding c.grade := by
  apply not_lt.mp
  intro hlt
  have hworse := prefer_of_gradeStanding_lt hlt
  rcases h with h | h
  · rw [prefer_swap, h] at hworse
    cases hworse
  · rw [prefer_swap, h] at hworse
    cases hworse

theorem prefer_congr {d : Graded} (hgrade : p.gradeStanding c.grade = p.gradeStanding held.grade)
    (hgrade' : p.gradeStanding d.grade = p.gradeStanding held.grade)
    (hformats : d.formats = c.formats) : p.prefer held d = p.prefer held c := by
  have heq : p.gradeOrder c.grade held.grade = .eq := by
    rw [gradeOrder_eq_compare]
    exact compare_eq_iff_eq.mpr hgrade
  have heq' : p.gradeOrder d.grade held.grade = .eq := by
    rw [gradeOrder_eq_compare]
    exact compare_eq_iff_eq.mpr hgrade'
  rw [p.prefer_of_eq heq, p.prefer_of_eq heq', hformats]

theorem prefer_revised (h : p.prefer held c = .ok .better)
    (hr : r.order c.grade.revision ≠ .lt) : p.prefer held (c.revised r) = .ok .better := by
  have hheld := gradeStanding_le_of_atLeast (.inl h)
  have hle : p.gradeStanding c.grade ≤ p.gradeStanding (c.revised r).grade :=
    gradeStanding_le_revised hr
  rcases (hheld.trans hle).lt_or_eq with hlt | heq
  · exact prefer_of_gradeStanding_lt hlt
  · have hc := le_antisymm hheld (heq ▸ hle)
    rw [prefer_congr hc.symm heq.symm rfl]
    exact h

/-- The policy keeps a release from replacing a held one of the same tier in a lower revision. -/
def Withholds (p : Profile) (held c : Grade) : Prop :=
  p.properPolicy = .preferButDoNotForce ∧ held.quality.id = c.quality.id ∧
    c.revision.order held.revision = .gt

theorem isUpgrade_of_withholds (h : p.Withholds held.grade c.grade) :
    p.isUpgrade held c = .ok false := by
  rw [isUpgrade, if_pos ⟨h.1, Grade.isRevisionUpgrade_iff.mpr h.2⟩]
  rfl

theorem isUpgrade_eq_map (h : ¬ p.Withholds held.grade c.grade) :
    p.isUpgrade held c = (p.prefer held c).map fun preference => decide (preference = .better) := by
  have hguard : ¬ (p.properPolicy = .preferButDoNotForce ∧
      held.grade.isRevisionUpgrade c.grade = true) :=
    fun hg => h ⟨hg.1, Grade.isRevisionUpgrade_iff.mp hg.2⟩
  rw [isUpgrade, if_neg hguard]
  cases p.prefer held c with
  | error e => rfl
  | ok preference => rfl

theorem isUpgrade_of_not_withholds (h : ¬ p.Withholds held.grade c.grade)
    (hbetter : p.prefer held c = .ok .better) : p.isUpgrade held c = .ok true := by
  rw [isUpgrade_eq_map h, hbetter]
  rfl

/-- An upgrade is one in a higher revision too, unless the policy withholds it; it is then still
preferred over the held release. -/
theorem isUpgrade_revised (h : p.isUpgrade held c = .ok true)
    (hr : r.order c.grade.revision ≠ .lt) :
    p.prefer held (c.revised r) = .ok .better ∧
      (p.isUpgrade held (c.revised r) = .ok true ↔
        ¬ p.Withholds held.grade (c.revised r).grade) ∧
      (p.isUpgrade held (c.revised r) = .ok false ↔
        p.Withholds held.grade (c.revised r).grade) := by
  have hbetter := prefer_revised (p.prefer_of_isUpgrade h) hr
  by_cases hw : p.Withholds held.grade (c.revised r).grade
  · rw [isUpgrade_of_withholds hw]
    exact ⟨hbetter, iff_of_false nofun fun hn => hn hw, iff_of_true rfl hw⟩
  · rw [isUpgrade_of_not_withholds hw hbetter]
    exact ⟨hbetter, iff_of_true rfl hw, iff_of_false nofun hw⟩

end Profile

/-- Scores one tag, and does not force propers. -/
def gentle (upgradeAllowed : Bool) : Profile where
  upgradeAllowed
  cutoff := 13
  items := [⟨⟨13, "FLAC"⟩, true⟩]
  formatScores := [⟨{ id := 1, name := "Preferred Group" }, 10⟩]
  properPolicy := .preferButDoNotForce

def plainRelease : Candidate where
  artistId := 1
  albumIds := [1]
  grade := ⟨⟨13, "FLAC"⟩, {}⟩
  release := { title := "Artist - Album" }

def groupRelease : Candidate :=
  { plainRelease with formats := [{ id := 1, name := "Preferred Group" }] }

def groupProper : Candidate := groupRelease.revised { version := 2 }

/-- Under a policy that forces propers the higher revision stays an upgrade; under one that does
not, it is withheld although it is better. -/
theorem groupProper_withheld :
    { gentle true with properPolicy := .allowUpgrade }.isUpgrade plainRelease.graded
        groupProper.graded = .ok true ∧
      (gentle true).prefer plainRelease.graded groupProper.graded = .ok .better ∧
      (gentle true).isUpgrade plainRelease.graded groupProper.graded = .ok false := by
  have hforced : { gentle true with properPolicy := .allowUpgrade }.isUpgrade plainRelease.graded
      groupRelease.graded = .ok true := rfl
  have hgentle : (gentle true).isUpgrade plainRelease.graded groupRelease.graded = .ok true := rfl
  have hhigher : ({ version := 2 } : Revision).order groupRelease.graded.grade.revision ≠ .lt := by
    decide
  obtain ⟨_, hkeeps, _⟩ := Profile.isUpgrade_revised hforced hhigher
  obtain ⟨hbetter, _, hwithheld⟩ := Profile.isUpgrade_revised hgentle hhigher
  exact ⟨hkeeps.mpr fun hw => (by cases hw.1), hbetter, hwithheld.mpr ⟨rfl, rfl, rfl⟩⟩

def plainQueued : Circumstances where
  profile := gentle true
  queue := [{ candidate := plainRelease }]

def plainHeld : Circumstances where
  profile := gentle false
  held := [⟨1, 1, plainRelease.grade, []⟩]

/-- A release with a higher score is an upgrade, and in a higher revision it is none. So the queue
turns the higher revision away, and where upgrades are not allowed, it alone is let in. -/
theorem proper_costs_upgrade :
    groupProper.grade.revision.order groupRelease.grade.revision = .gt ∧
      groupProper = groupRelease.revised groupProper.grade.revision ∧
      (gentle true).isUpgrade plainRelease.graded groupRelease.graded = .ok true ∧
      (gentle true).isUpgrade plainRelease.graded groupProper.graded = .ok false ∧
      plainQueued.judge groupRelease = .ok .accept ∧
      plainQueued.queueObjection groupProper = .ok (some (.queuedAsGood plainRelease.grade)) ∧
      plainHeld.upgradeObjection groupRelease =
        .ok (some (.wouldUpgrade plainRelease.grade "")) ∧
      plainHeld.judge groupProper = .ok .accept :=
  ⟨rfl, rfl, rfl, rfl, rfl, rfl, rfl, rfl⟩

end ReleaseWarden
