import ReleaseWarden.Proofs.Ranking.ScoreSums

/-! Tags in any order. Scores that sum to no more than the greatest one when their signs are dropped
never overflow, and what they sum to is the same for every order of the tags. -/

set_option autoImplicit false

namespace ReleaseWarden

structure Graded.Rearranged (g g' : Graded) : Prop where
  grade : g'.grade = g.grade
  formats : g.formats.Perm g'.formats

namespace Profile

/-- The absolute values of the scores of the tags sum to a score. -/
def Bounds (p : Profile) (tags : List FormatTag) : Prop :=
  ((tags.filterMap p.scoreOf?).map fun s => |s.toInt|).sum ≤ greatestScore

instance (p : Profile) (tags : List FormatTag) : Decidable (p.Bounds tags) := Int.decLe _ _

variable {p : Profile} {tags tags' : List FormatTag} {a a' b b' : Graded}

theorem gains_le_abs (p : Profile) (tags : List FormatTag) :
    p.gains tags ≤ ((tags.filterMap p.scoreOf?).map fun s => |s.toInt|).sum ∧
      -((tags.filterMap p.scoreOf?).map fun s => |s.toInt|).sum ≤ p.losses tags := by
  unfold gains losses
  induction tags with
  | nil => exact ⟨le_rfl, le_rfl⟩
  | cons tag tags ih =>
    simp only [total_filter_cons, decide_eq_true_eq]
    cases hs : p.scoreOf? tag with
    | none =>
      rw [List.filterMap_cons_none hs, tagScore_of_none hs]
      simpa using ih
    | some s =>
      have hle := le_abs_self s.toInt
      have hge := neg_abs_le s.toInt
      have hnonneg := abs_nonneg s.toInt
      rw [List.filterMap_cons_some hs, tagScore_of_some hs, List.map_cons, List.sum_cons]
      split <;> split <;> omega

theorem formatScore_of_bounds (h : p.Bounds tags) :
    p.formatScore tags = .ok (p.exactScore tags) := by
  obtain ⟨hgains, hlosses⟩ := gains_le_abs p tags
  have hrange : Int32.minValue.toInt ≤ -greatestScore := by decide
  have hfits : p.gains tags ≤ Int32.maxValue.toInt ∧ Int32.minValue.toInt ≤ p.losses tags :=
    ⟨hgains.trans h, hrange.trans ((neg_le_neg h).trans hlosses)⟩
  obtain ⟨score, hscore⟩ := all_orders_fit_iff.mpr hfits tags (.refl tags)
  rw [hscore, p.eq_exactScore hscore]

theorem bounds_iff_of_perm (h : tags.Perm tags') : p.Bounds tags' ↔ p.Bounds tags := by
  rw [Bounds, ← ((h.filterMap p.scoreOf?).map fun s => |s.toInt|).sum_eq, Bounds]

theorem formatScore_of_perm (hbounds : p.Bounds tags) (h : tags.Perm tags') :
    p.formatScore tags' = p.formatScore tags := by
  have hexact : p.exactScore tags = p.exactScore tags' :=
    ((h.filterMap p.scoreOf?).map Int32.toInt).sum_eq
  rw [formatScore_of_bounds hbounds, formatScore_of_bounds ((bounds_iff_of_perm h).mpr hbounds),
    hexact]

theorem exists_isUpgrade (ha : p.Bounds a.formats) (hb : p.Bounds b.formats) :
    ∃ replaces, p.isUpgrade a b = .ok replaces := by
  unfold isUpgrade
  split
  · exact ⟨false, rfl⟩
  · rw [prefer_eq_compare ⟨_, formatScore_of_bounds ha⟩ ⟨_, formatScore_of_bounds hb⟩]
    exact ⟨_, rfl⟩

theorem isUpgrade_of_rearranged (ha : p.Bounds a.formats) (hb : p.Bounds b.formats)
    (haa' : a.Rearranged a') (hbb' : b.Rearranged b') :
    p.isUpgrade a' b' = p.isUpgrade a b := by
  simp only [isUpgrade, prefer, haa'.grade, hbb'.grade, formatScore_of_perm ha haa'.formats,
    formatScore_of_perm hb hbb'.formats]

end Profile

end ReleaseWarden
