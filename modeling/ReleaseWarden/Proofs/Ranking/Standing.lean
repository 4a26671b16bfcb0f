import Mathlib
import ReleaseWarden.Proofs.Ranking.Preference

/-! Preference as an order. Under every profile each release has a standing, and as long as no score
overflows, of two releases the one with the higher standing is preferred. -/

set_option autoImplicit false

namespace ReleaseWarden

/-- Rank and revision. The first that differs decides. -/
abbrev GradeStanding := WithBot ℕ ×ₗ ℤ ×ₗ ℤ

/-- Grade and score. The first that differs decides. -/
abbrev Standing := GradeStanding ×ₗ ℤ

theorem foldlM_addScore_eq_ok {scores : List Int32} {start sum : ℤ}
    (h : scores.foldlM addScore start = .ok sum) : sum = start + (scores.map Int32.toInt).sum := by
  induction scores generalizing start with
  | nil =>
    cases h
    simp
  | cons score scores ih =>
    rw [List.foldlM_cons] at h
    obtain ⟨next, hnext, hrest⟩ := bind_eq_ok_iff.mp h
    unfold addScore at hnext
    split at hnext
    · cases hnext
      rw [ih hrest, List.map_cons, List.sum_cons, add_assoc]
    · cases hnext

namespace Profile

variable (p : Profile)

/-- A tier that is not listed lies below all listed ones. -/
def rankStanding (q : Quality) : WithBot ℕ := p.rank? q

/-- By `real` first and then by version, unless revisions count nothing. -/
def revisionStanding (r : Revision) : ℤ ×ₗ ℤ :=
  if p.properPolicy = .neverUpgrade then toLex (0, 0) else toLex (r.real.toInt, r.version.toInt)

def gradeStanding (g : Grade) : GradeStanding :=
  toLex (p.rankStanding g.quality, p.revisionStanding g.revision)

/-- The sum of the scores of the tags, however large. -/
def exactScore (tags : List FormatTag) : ℤ := ((tags.filterMap p.scoreOf?).map Int32.toInt).sum

def standing (g : Graded) : Standing := toLex (p.gradeStanding g.grade, p.exactScore g.formats)

def Scores (g : Graded) : Prop := ∃ score, p.formatScore g.formats = .ok score

theorem eq_exactScore {tags : List FormatTag} {score : ℤ} (h : p.formatScore tags = .ok score) :
    score = p.exactScore tags := by
  rw [foldlM_addScore_eq_ok h, zero_add]
  rfl

theorem compare_tier (q r : Quality) :
    compare (p.tier q) (p.tier r) = compare (p.rankStanding q) (p.rankStanding r) := by
  unfold tier rankStanding
  cases p.rank? q with
  | none =>
    cases p.rank? r with
    | none => exact (compare_eq_iff_eq.mpr rfl).symm
    | some n => exact (compare_lt_iff_lt.mpr (WithBot.bot_lt_coe n)).symm
  | some m =>
    cases p.rank? r with
    | none => exact (compare_gt_iff_gt.mpr (WithBot.bot_lt_coe m)).symm
    | some n =>
      rcases lt_trichotomy m n with h | rfl | h
      · rw [compare_lt_iff_lt.mpr (Nat.succ_lt_succ h)]
        exact (compare_lt_iff_lt.mpr (WithBot.coe_lt_coe.mpr h)).symm
      · rw [compare_eq_iff_eq.mpr rfl]
        exact (compare_eq_iff_eq.mpr rfl).symm
      · rw [compare_gt_iff_gt.mpr (Nat.succ_lt_succ h)]
        exact (compare_gt_iff_gt.mpr (WithBot.coe_lt_coe.mpr h)).symm

theorem compare_revisionStanding (a b : Revision) :
    compare (p.revisionStanding a) (p.revisionStanding b) =
      if p.properPolicy = .neverUpgrade then .eq else a.order b := by
  unfold revisionStanding
  split
  · exact compare_eq_iff_eq.mpr rfl
  · rfl

theorem gradeOrder_eq_compare (a b : Grade) :
    p.gradeOrder a b = compare (p.gradeStanding a) (p.gradeStanding b) := by
  rw [gradeOrder, compare_tier, ← compare_revisionStanding]
  rfl

theorem compare_standing (a b : Graded) : compare (p.standing a) (p.standing b) =
    (p.gradeOrder a.grade b.grade).then
      (compare (p.exactScore a.formats) (p.exactScore b.formats)) := by
  rw [gradeOrder_eq_compare]
  rfl

variable {p} {a b c : Graded}

theorem prefer_eq_compare (ha : p.Scores a) (hb : p.Scores b) :
    p.prefer a b = .ok (.ofOrdering (compare (p.standing b) (p.standing a))) := by
  obtain ⟨x, hx⟩ := ha
  obtain ⟨y, hy⟩ := hb
  rw [compare_standing]
  by_cases h : p.gradeOrder b.grade a.grade = .eq
  · rw [p.prefer_of_eq h, hx, hy, h, ← p.eq_exactScore hx, ← p.eq_exactScore hy]
    rfl
  · rw [p.prefer_of_ne_eq h]
    cases hgrade : p.gradeOrder b.grade a.grade with
    | lt => rfl
    | gt => rfl
    | eq => exact absurd hgrade h

theorem prefer_eq_better_iff (ha : p.Scores a) (hb : p.Scores b) :
    p.prefer a b = .ok .better ↔ p.standing a < p.standing b := by
  rw [prefer_eq_compare ha hb, ← compare_gt_iff_gt]
  cases compare (p.standing b) (p.standing a) with
  | lt => exact iff_of_false nofun nofun
  | eq => exact iff_of_false nofun nofun
  | gt => exact iff_of_true rfl rfl

theorem prefer_eq_equal_iff (ha : p.Scores a) (hb : p.Scores b) :
    p.prefer a b = .ok .equal ↔ p.standing a = p.standing b := by
  have heq : compare (p.standing b) (p.standing a) = .eq ↔ p.standing a = p.standing b :=
    compare_eq_iff_eq.trans eq_comm
  rw [prefer_eq_compare ha hb, ← heq]
  cases compare (p.standing b) (p.standing a) with
  | lt => exact iff_of_false nofun nofun
  | eq => exact iff_of_true rfl rfl
  | gt => exact iff_of_false nofun nofun

/-- The candidate is better than the held release or as good. -/
def AtLeast (p : Profile) (held candidate : Graded) : Prop :=
  p.prefer held candidate = .ok .better ∨ p.prefer held candidate = .ok .equal

theorem atLeast_iff (ha : p.Scores a) (hb : p.Scores b) :
    p.AtLeast a b ↔ p.standing a ≤ p.standing b := by
  rw [AtLeast, prefer_eq_better_iff ha hb, prefer_eq_equal_iff ha hb, le_iff_lt_or_eq]

theorem AtLeast.trans (ha : p.Scores a) (hb : p.Scores b) (hc : p.Scores c)
    (hab : p.AtLeast a b) (hbc : p.AtLeast b c) : p.AtLeast a c :=
  (atLeast_iff ha hc).mpr (((atLeast_iff ha hb).mp hab).trans ((atLeast_iff hb hc).mp hbc))

theorem prefer_eq_better_of_atLeast (ha : p.Scores a) (hb : p.Scores b) (hc : p.Scores c)
    (hab : p.AtLeast a b) (hbc : p.AtLeast b c)
    (hbetter : p.prefer a b = .ok .better ∨ p.prefer b c = .ok .better) :
    p.prefer a c = .ok .better := by
  have hle := (atLeast_iff ha hb).mp hab
  have hle' := (atLeast_iff hb hc).mp hbc
  rw [prefer_eq_better_iff ha hc]
  rcases hbetter with h | h
  · exact ((prefer_eq_better_iff ha hb).mp h).trans_le hle'
  · exact hle.trans_lt ((prefer_eq_better_iff hb hc).mp h)

theorem prefer_eq_error_swap (h : p.prefer a b = .error .formatScore) :
    p.prefer b a = .error .formatScore := by
  rw [prefer_swap, h]
  rfl

variable (p)

/-- Under every profile, preference is a total preorder on the releases whose scores do not
overflow: the lexicographic order by rank, revision and exact score. Where a score overflows, it
does so from both sides. -/
theorem prefer_totally_preorders :
    (∀ a, p.Scores a → p.prefer a a = .ok .equal) ∧
    (∀ a b, p.prefer a b = (p.prefer b a).map Preference.reverse) ∧
    (∀ a b, p.Scores a → p.Scores b → p.AtLeast a b ∨ p.AtLeast b a) ∧
    (∀ a b c, p.Scores a → p.Scores b → p.Scores c → p.AtLeast a b → p.AtLeast b c →
      p.AtLeast a c ∧ (p.prefer a b = .ok .better ∨ p.prefer b c = .ok .better →
        p.prefer a c = .ok .better)) ∧
    (∀ a b, p.Scores a → p.Scores b →
      p.prefer a b = .ok (.ofOrdering (compare (p.standing b) (p.standing a)))) ∧
    ∀ a b, p.prefer a b = .error .formatScore ↔ p.prefer b a = .error .formatScore := by
  refine ⟨?_, fun a b => p.prefer_swap b a, ?_, ?_, fun a b => prefer_eq_compare,
    fun a b => ⟨prefer_eq_error_swap, prefer_eq_error_swap⟩⟩
  · intro a ha
    exact (prefer_eq_equal_iff ha ha).mpr rfl
  · intro a b ha hb
    rw [atLeast_iff ha hb, atLeast_iff hb ha]
    exact le_total _ _
  · intro a b c ha hb hc hab hbc
    exact ⟨hab.trans ha hb hc hbc, prefer_eq_better_of_atLeast ha hb hc hab hbc⟩

/-- A profile that lists one tier twice; revisions count nothing under it. -/
def doubled : Profile where
  upgradeAllowed := true
  cutoff := 13
  items := [⟨⟨9, "MP3-320"⟩, true⟩, ⟨⟨13, "FLAC"⟩, true⟩, ⟨⟨9, "MP3-320"⟩, false⟩]
  formatScores := [⟨{ id := 2, name := "Cut" }, -25⟩]
  properPolicy := .neverUpgrade

def vinyl : Graded := ⟨⟨⟨40, "Vinyl"⟩, ⟨3, 1, false⟩⟩, [{ id := 2, name := "Cut" }]⟩

def tape : Graded := ⟨⟨⟨41, "Tape"⟩, {}⟩, []⟩

def mp3 : Graded := ⟨⟨⟨9, "MP3-320"⟩, {}⟩, []⟩

/-- Of two tiers that are not listed the score decides; both lie below a listed one. -/
theorem doubled_preorders : doubled.AtLeast vinyl tape ∧ doubled.AtLeast tape mp3 ∧
    doubled.prefer vinyl mp3 = .ok .better := by
  have hvinyl : doubled.Scores vinyl := ⟨-25, rfl⟩
  have htape : doubled.Scores tape := ⟨0, rfl⟩
  have hmp3 : doubled.Scores mp3 := ⟨0, rfl⟩
  have hfirst : doubled.prefer vinyl tape = .ok .better := rfl
  have hsecond : doubled.prefer tape mp3 = .ok .better := rfl
  have htrans := doubled.prefer_totally_preorders.2.2.2.1 vinyl tape mp3 hvinyl htape hmp3
  exact ⟨.inl hfirst, .inl hsecond, (htrans (.inl hfirst) (.inl hsecond)).2 (.inl hfirst)⟩

end Profile

end ReleaseWarden
