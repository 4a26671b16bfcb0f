import ReleaseWarden.Proofs.Ranking.Standing

/-! Sums of format scores. The sum is exact as long as no partial sum leaves the range of 32 bits,
which may depend on the order of the tags. No order of them overflows just if neither the positive
scores alone nor the negative ones do. -/

set_option autoImplicit false

namespace ReleaseWarden

/-- The number is within 32 bits. -/
def ScoreFits (n : ℤ) : Prop := Int32.minValue.toInt ≤ n ∧ n ≤ Int32.maxValue.toInt

instance (n : ℤ) : Decidable (ScoreFits n) := inferInstanceAs (Decidable (_ ∧ _))

theorem addScore_of_fits {sum : ℤ} {score : Int32} (h : ScoreFits (sum + score.toInt)) :
    addScore sum score = .ok (sum + score.toInt) := if_pos h

theorem addScore_of_not_fits {sum : ℤ} {score : Int32} (h : ¬ ScoreFits (sum + score.toInt)) :
    addScore sum score = .error .formatScore := if_neg h

/-- The score of the first entry for the tag, and zero without any. -/
def FormatScore.firstFor (tag : FormatTag) : List FormatScore → ℤ
  | [] => 0
  | s :: scores => if s.format.id = tag.id then s.score.toInt else firstFor tag scores

theorem FormatScore.firstFor_eq (tag : FormatTag) (scores : List FormatScore) :
    firstFor tag scores =
      ((scores.find? fun s => s.format.id == tag.id).map score).elim 0 Int32.toInt := by
  induction scores with
  | nil => rfl
  | cons s scores ih =>
    rw [firstFor, List.find?_cons]
    by_cases h : s.format.id = tag.id
    · rw [if_pos h, beq_iff_eq.mpr h]
      rfl
    · rw [if_neg h, beq_false_of_ne h]
      exact ih

namespace Profile

variable (p : Profile)

def tagScore (tag : FormatTag) : ℤ := FormatScore.firstFor tag p.formatScores

/-- The scores of the tags summed up, each tag as often as it is there. -/
def total (tags : List FormatTag) : ℤ := (tags.map p.tagScore).sum

/-- The positive scores of the tags summed up. -/
def gains (tags : List FormatTag) : ℤ := p.total (tags.filter fun t => 0 < p.tagScore t)

/-- The negative scores of the tags summed up. -/
def losses (tags : List FormatTag) : ℤ := p.total (tags.filter fun t => p.tagScore t < 0)

def scoreFrom (start : ℤ) (tags : List FormatTag) : Scored ℤ :=
  (tags.filterMap p.scoreOf?).foldlM addScore start

variable {p} {tag : FormatTag} {tags tags' front : List FormatTag} {start score : ℤ}

theorem tagScore_of_none (h : p.scoreOf? tag = none) : p.tagScore tag = 0 := by
  rw [tagScore, FormatScore.firstFor_eq, ← scoreOf?, h]
  rfl

theorem tagScore_of_some {s : Int32} (h : p.scoreOf? tag = some s) : p.tagScore tag = s.toInt := by
  rw [tagScore, FormatScore.firstFor_eq, ← scoreOf?, h]
  rfl

@[simp] theorem total_nil : p.total [] = 0 := rfl

@[simp] theorem total_cons : p.total (tag :: tags) = p.tagScore tag + p.total tags := by
  rw [total, List.map_cons, List.sum_cons, total]

theorem total_of_perm (h : tags.Perm tags') : p.total tags' = p.total tags :=
  (h.map p.tagScore).sum_eq.symm

theorem exactScore_eq_total : p.exactScore tags = p.total tags := by
  induction tags with
  | nil => rfl
  | cons tag tags ih =>
    rw [total_cons, ← ih]
    cases h : p.scoreOf? tag with
    | none => rw [exactScore, List.filterMap_cons_none h, tagScore_of_none h, zero_add, exactScore]
    | some s =>
      rw [exactScore, List.filterMap_cons_some h, tagScore_of_some h, List.map_cons, List.sum_cons,
        exactScore]

theorem scoreFrom_cons_of_fits (h : ScoreFits (start + p.tagScore tag)) :
    p.scoreFrom start (tag :: tags) = p.scoreFrom (start + p.tagScore tag) tags := by
  cases hs : p.scoreOf? tag with
  | none => rw [scoreFrom, List.filterMap_cons_none hs, tagScore_of_none hs, add_zero, scoreFrom]
  | some s =>
    rw [tagScore_of_some hs] at h ⊢
    rw [scoreFrom, List.filterMap_cons_some hs, List.foldlM_cons, addScore_of_fits h]
    rfl

theorem scoreFrom_cons_of_not_fits (hstart : ScoreFits start)
    (h : ¬ ScoreFits (start + p.tagScore tag)) :
    p.scoreFrom start (tag :: tags) = .error .formatScore := by
  cases hs : p.scoreOf? tag with
  | none =>
    rw [tagScore_of_none hs, add_zero] at h
    exact absurd hstart h
  | some s =>
    rw [tagScore_of_some hs] at h
    rw [scoreFrom, List.filterMap_cons_some hs, List.foldlM_cons, addScore_of_not_fits h]
    rfl

/-- The scores can be added just if all partial sums fit. -/
theorem exists_scoreFrom_iff (hstart : ScoreFits start) :
    (∃ sum, p.scoreFrom start tags = .ok sum) ↔
      ∀ front, front <+: tags → ScoreFits (start + p.total front) := by
  induction tags generalizing start with
  | nil =>
    apply iff_of_true ⟨start, rfl⟩
    intro front hfront
    rw [List.prefix_nil.mp hfront, total_nil, add_zero]
    exact hstart
  | cons tag tags ih =>
    by_cases hnext : ScoreFits (start + p.tagScore tag)
    · rw [scoreFrom_cons_of_fits hnext, ih hnext]
      constructor
      · intro hrest front hfront
        rcases List.prefix_cons_iff.mp hfront with rfl | ⟨rest, rfl, hprefix⟩
        · rwa [total_nil, add_zero]
        · rw [total_cons, ← add_assoc]
          exact hrest rest hprefix
      · intro hall front hfront
        rw [add_assoc, ← total_cons]
        exact hall (tag :: front) (List.prefix_cons_iff.mpr (.inr ⟨front, rfl, hfront⟩))
    · rw [scoreFrom_cons_of_not_fits hstart hnext]
      refine iff_of_false nofun fun hall => hnext ?_
      have hfirst := hall [tag] (List.prefix_cons_iff.mpr (.inr ⟨[], rfl, List.nil_prefix⟩))
      rwa [total_cons, total_nil, add_zero] at hfirst

theorem exists_formatScore_iff : (∃ score, p.formatScore tags = .ok score) ↔
    ∀ front, front <+: tags → ScoreFits (p.total front) := by
  have hzero : ScoreFits 0 := by decide
  change (∃ score, p.scoreFrom 0 tags = .ok score) ↔ _
  rw [exists_scoreFrom_iff hzero]
  simp only [zero_add]

theorem formatScore_eq_ok_iff : p.formatScore tags = .ok score ↔
    score = p.total tags ∧ ∀ front, front <+: tags → ScoreFits (p.total front) := by
  rw [← exists_formatScore_iff, ← exactScore_eq_total]
  constructor
  · exact fun h => ⟨p.eq_exactScore h, score, h⟩
  · rintro ⟨rfl, score, h⟩
    rw [h, p.eq_exactScore h]

theorem formatScore_eq_error_iff : p.formatScore tags = .error .formatScore ↔
    ∃ front, front <+: tags ∧ ¬ ScoreFits (p.total front) := by
  have hnone : p.formatScore tags = .error .formatScore ↔
      ¬ ∃ score, p.formatScore tags = .ok score := by
    cases p.formatScore tags with
    | error cause => exact iff_of_true rfl nofun
    | ok score => exact iff_of_false nofun fun h => h ⟨score, rfl⟩
  simp only [hnone, exists_formatScore_iff, not_forall, exists_prop]

theorem total_filter_cons (keep : FormatTag → Bool) :
    p.total ((tag :: tags).filter keep) =
      (if keep tag then p.tagScore tag else 0) + p.total (tags.filter keep) := by
  cases h : keep tag <;> simp [h]

/-- No choice among the tags sums to more than the gains or to less than the losses. -/
theorem total_between (h : front.Sublist tags) :
    p.losses tags ≤ p.total front ∧ p.total front ≤ p.gains tags := by
  unfold losses gains
  induction h with
  | slnil => simp
  | cons tag _ ih =>
    simp only [total_filter_cons, decide_eq_true_eq]
    split <;> split <;> omega
  | cons_cons tag _ ih =>
    simp only [total_filter_cons, decide_eq_true_eq, total_cons]
    split <;> split <;> omega

theorem fits_filter_of_all_orders
    (h : ∀ tags', tags.Perm tags' → ∃ score, p.formatScore tags' = .ok score)
    (keep : FormatTag → Bool) : ScoreFits (p.total (tags.filter keep)) := by
  have hperm := List.filter_append_perm keep tags
  exact exists_formatScore_iff.mp (h _ hperm.symm) _ (List.prefix_append _ _)

theorem all_orders_fit_iff : (∀ tags', tags.Perm tags' → ∃ score, p.formatScore tags' = .ok score) ↔
    p.gains tags ≤ Int32.maxValue.toInt ∧ Int32.minValue.toInt ≤ p.losses tags := by
  constructor
  · intro h
    exact ⟨(fits_filter_of_all_orders h _).2, (fits_filter_of_all_orders h _).1⟩
  · rintro ⟨hgains, hlosses⟩ tags' hperm
    apply exists_formatScore_iff.mpr
    intro front hfront
    have hbetween : p.losses tags' ≤ p.total front ∧ p.total front ≤ p.gains tags' :=
      total_between hfront.sublist
    have hlosses' : p.losses tags' = p.losses tags := total_of_perm (hperm.filter _)
    have hgains' : p.gains tags' = p.gains tags := total_of_perm (hperm.filter _)
    rw [hlosses', hgains'] at hbetween
    exact ⟨hlosses.trans hbetween.1, hbetween.2.trans hgains⟩

/-- The score is the exact sum over the tags, and it can be computed just if every partial sum fits.
Two orders of the same tags never come to different scores. All orders come to one just if the
positive scores and the negative ones fit each on their own. -/
theorem score_sums_exactly (p : Profile) (tags : List FormatTag) :
    (∀ score, p.formatScore tags = .ok score ↔
      score = (tags.map p.tagScore).sum ∧
        ∀ front, front <+: tags → ScoreFits (front.map p.tagScore).sum) ∧
    (p.formatScore tags = .error .formatScore ↔
      ∃ front, front <+: tags ∧ ¬ ScoreFits (front.map p.tagScore).sum) ∧
    (∀ tags' score score', tags.Perm tags' → p.formatScore tags = .ok score →
      p.formatScore tags' = .ok score' → score = score') ∧
    ((∀ tags', tags.Perm tags' → ∃ score, p.formatScore tags' = .ok score) ↔
      p.gains tags ≤ Int32.maxValue.toInt ∧ Int32.minValue.toInt ≤ p.losses tags) := by
  refine ⟨fun score => formatScore_eq_ok_iff, formatScore_eq_error_iff, ?_, all_orders_fit_iff⟩
  intro tags' score score' hperm hscore hscore'
  rw [(formatScore_eq_ok_iff.mp hscore).1, (formatScore_eq_ok_iff.mp hscore').1,
    total_of_perm hperm]

/-- One tag scores as high as scores go, by its first entry; the two others cancel out. -/
def brimful : Profile where
  upgradeAllowed := true
  cutoff := 13
  items := [⟨⟨13, "FLAC"⟩, true⟩]
  formatScores := [⟨{ id := 1, name := "Preferred Group" }, 0x7fffffff⟩,
    ⟨{ id := 2, name := "Web" }, 1⟩, ⟨{ id := 3, name := "Cut" }, -1⟩,
    ⟨{ id := 1, name := "Preferred Group" }, 5⟩]

def cutSecond : List FormatTag :=
  [{ id := 1, name := "Preferred Group" }, { id := 3, name := "Cut" }, { id := 2, name := "Web" }]

def cutFirst : List FormatTag :=
  [{ id := 3, name := "Cut" }, { id := 1, name := "Preferred Group" }, { id := 2, name := "Web" }]

/-- Two orders come to the greatest score there is, but not every order comes to a score. -/
theorem brimful_sums_exactly : cutSecond.Perm cutFirst ∧
    brimful.formatScore cutSecond = .ok 0x7fffffff ∧
    brimful.formatScore cutFirst = .ok 0x7fffffff ∧
    ¬ ∀ tags, cutSecond.Perm tags → ∃ score, brimful.formatScore tags = .ok score := by
  have hperm : cutSecond.Perm cutFirst := .swap _ _ _
  have hscore : brimful.formatScore cutSecond = .ok 0x7fffffff := rfl
  obtain ⟨score, hscore'⟩ : ∃ score, brimful.formatScore cutFirst = .ok score := ⟨_, rfl⟩
  obtain ⟨_, _, hsame, horders⟩ := score_sums_exactly brimful cutSecond
  have heq := hsame cutFirst _ score hperm hscore hscore'
  refine ⟨hperm, hscore, heq ▸ hscore', fun hall => ?_⟩
  exact absurd (horders.mp hall).1 (by decide)

end Profile

end ReleaseWarden
