import ReleaseWarden.Proofs.Ranking.Revisions

/-! Runs of upgrades. Each release of a run is better than all before it, so that no run comes back
to where it was. Between tiers that the profile lists, a run may be taken in one step. -/

set_option autoImplicit false

namespace ReleaseWarden

namespace Profile

variable {p : Profile} {a b c : Graded}

/-- A release is better by its grade, or by its score where the grades tie. Only in a tie do the
scores have to be sums without overflow. -/
theorem prefer_eq_better_iff_standing : p.prefer a b = .ok .better ↔
    p.gradeStanding a.grade < p.gradeStanding b.grade ∨
      (p.gradeStanding a.grade = p.gradeStanding b.grade ∧ p.Scores a ∧ p.Scores b ∧
        p.exactScore a.formats < p.exactScore b.formats) := by
  constructor
  · intro h
    rcases (gradeStanding_le_of_atLeast (.inl h)).lt_or_eq with hlt | heq
    · exact .inl hlt
    · -- In a tie the answer is read off the scores, so both of them are sums.
      have htie : p.gradeOrder b.grade a.grade = .eq := by
        rw [gradeOrder_eq_compare]
        exact compare_eq_iff_eq.mpr heq.symm
      have hscores := h
      rw [p.prefer_of_eq htie] at hscores
      obtain ⟨x, hx, hscores⟩ := bind_eq_ok_iff.mp hscores
      obtain ⟨y, hy, _⟩ := bind_eq_ok_iff.mp hscores
      have hstanding := (prefer_eq_better_iff ⟨x, hx⟩ ⟨y, hy⟩).mp h
      rcases Prod.Lex.toLex_lt_toLex.mp hstanding with hlt | ⟨_, hlt⟩
      · exact absurd heq hlt.ne
      · exact .inr ⟨heq, ⟨x, hx⟩, ⟨y, hy⟩, hlt⟩
  · rintro (hlt | ⟨heq, ha, hb, hlt⟩)
    · exact prefer_of_gradeStanding_lt hlt
    · exact (prefer_eq_better_iff ha hb).mpr (Prod.Lex.toLex_lt_toLex.mpr (.inr ⟨heq, hlt⟩))

theorem prefer_better_trans (hab : p.prefer a b = .ok .better) (hbc : p.prefer b c = .ok .better) :
    p.prefer a c = .ok .better := by
  rw [prefer_eq_better_iff_standing] at hab hbc ⊢
  rcases hab with hab | ⟨hab, ha, _, hscore⟩
  · rcases hbc with hbc | ⟨hbc, _⟩
    · exact .inl (hab.trans hbc)
    · exact .inl (hbc ▸ hab)
  · rcases hbc with hbc | ⟨hbc, _, hc, hscore'⟩
    · exact .inl (hab ▸ hbc)
    · exact .inr ⟨hab.trans hbc, ha, hc, hscore.trans hscore'⟩

theorem isUpgrade_of_prefer_worse (h : p.prefer a b = .ok .worse) :
    p.isUpgrade a b = .ok false := by
  by_cases hw : p.Withholds a.grade b.grade
  · exact isUpgrade_of_withholds hw
  · rw [isUpgrade_eq_map hw, h]
    rfl

def Lists (p : Profile) (q : Quality) : Prop := ∃ rank, p.rank? q = some rank

theorem id_eq_of_rankStanding_eq {q r : Quality} (hq : p.Lists q)
    (h : p.rankStanding q = p.rankStanding r) : q.id = r.id := by
  obtain ⟨rank, hrank⟩ := hq
  have hrank' : p.rank? r = some rank := h.symm.trans hrank
  obtain ⟨hlt, hid, _⟩ := List.findIdx?_eq_some_iff_getElem.mp hrank
  obtain ⟨_, hid', _⟩ := List.findIdx?_eq_some_iff_getElem.mp hrank'
  exact (beq_iff_eq.mp hid).symm.trans (beq_iff_eq.mp hid')

theorem not_withholds_of_isUpgrade (h : p.isUpgrade a b = .ok true) :
    ¬ p.Withholds a.grade b.grade := by
  intro hw
  rw [isUpgrade_of_withholds hw] at h
  cases h

theorem revisionStanding_eq_of_isUpgrade (hpolicy : p.properPolicy = .preferButDoNotForce)
    (hid : a.grade.quality.id = b.grade.quality.id) (h : p.isUpgrade a b = .ok true) :
    p.revisionStanding a.grade.revision = p.revisionStanding b.grade.revision := by
  have hrank : p.rankStanding a.grade.quality = p.rankStanding b.grade.quality := by
    unfold rankStanding rank?
    rw [hid]
  have hle : p.revisionStanding a.grade.revision ≤ p.revisionStanding b.grade.revision := by
    rcases Prod.Lex.toLex_le_toLex.mp
      (gradeStanding_le_of_atLeast (.inl (p.prefer_of_isUpgrade h))) with hlt | ⟨_, hle⟩
    · exact absurd hrank hlt.ne
    · exact hle
  have hge : ¬ p.revisionStanding a.grade.revision < p.revisionStanding b.grade.revision := by
    intro hlt
    rw [← compare_gt_iff_gt, compare_revisionStanding, hpolicy, if_neg (by decide)] at hlt
    exact not_withholds_of_isUpgrade h ⟨hpolicy, hid, hlt⟩
  exact hle.eq_of_not_lt hge

/-- Two upgrades make one, if the tiers are listed. Between tiers that are not, the first release
and the last may be of one tier while the one between them is of another. -/
theorem isUpgrade_trans (ha : p.Lists a.grade.quality) (hb : p.Lists b.grade.quality)
    (hab : p.isUpgrade a b = .ok true) (hbc : p.isUpgrade b c = .ok true) :
    p.isUpgrade a c = .ok true := by
  have hbetter := p.prefer_of_isUpgrade hab
  have hbetter' := p.prefer_of_isUpgrade hbc
  apply isUpgrade_of_not_withholds _ (prefer_better_trans hbetter hbetter')
  rintro ⟨hpolicy, hid, hrevision⟩
  have hrank : ∀ {x y : Graded}, p.prefer x y = .ok .better →
      p.rankStanding x.grade.quality ≤ p.rankStanding y.grade.quality := by
    intro x y h
    exact Prod.Lex.monotone_fst _ _ (gradeStanding_le_of_atLeast (.inl h))
  have hsame : p.rankStanding c.grade.quality = p.rankStanding a.grade.quality := by
    unfold rankStanding rank?
    rw [hid]
  have hab_id := id_eq_of_rankStanding_eq ha
    (le_antisymm (hrank hbetter) (hsame ▸ hrank hbetter'))
  have hbc_id := id_eq_of_rankStanding_eq hb
    (le_antisymm (hrank hbetter') (hsame ▸ hrank hbetter))
  have hkept := (revisionStanding_eq_of_isUpgrade hpolicy hab_id hab).trans
    (revisionStanding_eq_of_isUpgrade hpolicy hbc_id hbc)
  have hgt : compare (p.revisionStanding c.grade.revision)
      (p.revisionStanding a.grade.revision) = .gt := by
    rw [compare_revisionStanding, hpolicy, if_neg (by decide), hrevision]
  rw [compare_gt_iff_gt, hkept] at hgt
  exact lt_irrefl _ hgt

structure ListedUpgrade (p : Profile) (held c : Graded) : Prop where
  held_listed : p.Lists held.grade.quality
  listed : p.Lists c.grade.quality
  isUpgrade : p.isUpgrade held c = .ok true

theorem ListedUpgrade.trans (hab : p.ListedUpgrade a b) (hbc : p.ListedUpgrade b c) :
    p.ListedUpgrade a c :=
  ⟨hab.held_listed, hbc.listed,
    isUpgrade_trans hab.held_listed hab.listed hab.isUpgrade hbc.isUpgrade⟩

/-- Upgrades never run in circles. In a run of them, of whatever length, each release is better than
every earlier one, and no earlier one is an upgrade of it or as good. If all tiers of the run are
listed, each release is an upgrade of every earlier one. -/
theorem upgrades_ascend {items : List Graded}
    (h : items.IsChain fun held c => p.isUpgrade held c = .ok true) :
    (items.Pairwise fun held c => p.prefer held c = .ok .better ∧
      p.prefer c held = .ok .worse ∧ p.isUpgrade c held = .ok false) ∧
    ((∀ g ∈ items, p.Lists g.grade.quality) →
      items.Pairwise fun held c => p.isUpgrade held c = .ok true) := by
  constructor
  · have htrans : Trans (fun held c => p.prefer held c = .ok .better)
        (fun held c => p.prefer held c = .ok .better)
        (fun held c => p.prefer held c = .ok .better) := ⟨prefer_better_trans⟩
    have hbetter := (h.imp fun _ _ => p.prefer_of_isUpgrade).pairwise
    apply hbetter.imp
    intro held c hc
    have hworse : p.prefer c held = .ok .worse := by
      rw [prefer_swap, hc]
      rfl
    exact ⟨hc, hworse, isUpgrade_of_prefer_worse hworse⟩
  · intro hlists
    have htrans : Trans p.ListedUpgrade p.ListedUpgrade p.ListedUpgrade := ⟨ListedUpgrade.trans⟩
    have hlisted : items.IsChain p.ListedUpgrade := by
      apply (List.IsChain.iff_mem.mp h).imp
      rintro held c ⟨hheld, hc, hupgrade⟩
      exact ⟨hlists held hheld, hlists c hc, hupgrade⟩
    exact hlisted.pairwise.imp ListedUpgrade.isUpgrade

end Profile

/-- Scores one tag as high as scores go, and does not force propers. -/
def loud : Profile where
  upgradeAllowed := true
  cutoff := 13
  items := [⟨⟨9, "MP3-320"⟩, true⟩, ⟨⟨13, "FLAC"⟩, true⟩]
  formatScores := [⟨{ id := 1, name := "Preferred Group" }, 0x7fffffff⟩]
  properPolicy := .preferButDoNotForce

/-- From a lower tier, whose score overflows, to a higher one, and there to a higher score. -/
def climb : List Graded :=
  let group : FormatTag := { id := 1, name := "Preferred Group" }
  [⟨⟨⟨9, "MP3-320"⟩, { version := 2 }⟩, [group, group]⟩, ⟨⟨⟨13, "FLAC"⟩, {}⟩, []⟩,
    ⟨⟨⟨13, "FLAC"⟩, {}⟩, [group]⟩]

/-- The run ends in a release that is better than the first one, although the score of the first
cannot be computed. -/
theorem climb_ascends : (climb.IsChain fun held c => loud.isUpgrade held c = .ok true) ∧
    loud.formatScore climb[0].formats = .error .formatScore ∧
    loud.prefer climb[0] climb[2] = .ok .better ∧ loud.isUpgrade climb[2] climb[0] = .ok false ∧
    loud.isUpgrade climb[0] climb[2] = .ok true := by
  have hrun : climb.IsChain fun held c => loud.isUpgrade held c = .ok true :=
    .cons_cons rfl (.cons_cons rfl (.singleton _))
  have hlists : ∀ g ∈ climb, loud.Lists g.grade.quality := by
    intro g hg
    simp only [climb, List.mem_cons, List.not_mem_nil, or_false] at hg
    rcases hg with rfl | rfl | rfl
    · exact ⟨0, rfl⟩
    · exact ⟨1, rfl⟩
    · exact ⟨1, rfl⟩
  obtain ⟨hbetter, hupgrade⟩ := Profile.upgrades_ascend hrun
  have hends := List.pairwise_iff_getElem.mp hbetter 0 2 (by decide) (by decide) (by decide)
  have hstep :=
    List.pairwise_iff_getElem.mp (hupgrade hlists) 0 2 (by decide) (by decide) (by decide)
  exact ⟨hrun, rfl, hends.1, hends.2.2, hstep⟩

/-- Two tiers that are not listed: the run leaves a tier and comes back to it in a higher revision,
so that the policy withholds in one step what it grants in two. -/
example :
    let group : FormatTag := { id := 1, name := "Preferred Group" }
    let first : Graded := ⟨⟨⟨40, "Vinyl"⟩, {}⟩, []⟩
    let middle : Graded := ⟨⟨⟨41, "Tape"⟩, { version := 2 }⟩, []⟩
    let last : Graded := ⟨⟨⟨40, "Vinyl"⟩, { version := 2 }⟩, [group]⟩
    loud.isUpgrade first middle = .ok true ∧ loud.isUpgrade middle last = .ok true ∧
      loud.isUpgrade first last = .ok false ∧ loud.prefer first last = .ok .better :=
  ⟨rfl, rfl, rfl, rfl⟩

end ReleaseWarden
