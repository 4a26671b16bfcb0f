import ReleaseWarden.Proofs.Admission.Demands

/-! Thresholds on size and age. Products that do not fit into 64 bits are cut off, and the rules
decide as if they were not: nothing that is compared with a product reaches beyond 64 bits. -/

set_option autoImplicit false

namespace ReleaseWarden

section Products

variable (threshold : UInt64) (count : Nat)

theorem saturatingMul_fits : saturatingMul threshold count < UInt64.size ∧
    (threshold.toNat * count < UInt64.size →
      saturatingMul threshold count = threshold.toNat * count) := by
  have hpos : 0 < UInt64.size := by decide
  unfold saturatingMul greatestUInt64
  omega

theorem saturatingMul_le_toNat_iff (n : UInt64) : saturatingMul threshold count ≤ n.toNat ↔
    n.toNat = greatestUInt64 ∨ threshold.toNat * count ≤ n.toNat := by
  have hn : n.toNat < UInt64.size := n.toNat_lt_size
  unfold saturatingMul greatestUInt64
  omega

theorem toNat_le_saturatingMul_iff (n : UInt64) :
    n.toNat ≤ saturatingMul threshold count ↔ n.toNat ≤ threshold.toNat * count := by
  have hn : n.toNat < UInt64.size := n.toNat_lt_size
  unfold saturatingMul greatestUInt64
  omega

end Products

theorem Verdict.ofObjection_eq_accept_iff {o : Option Objection} :
    ofObjection o = accept ↔ o = none := by
  cases o with
  | none => exact iff_of_true rfl rfl
  | some o => exact iff_of_false nofun nofun

def Settings.BoundsSize (s : Settings) : Prop := s.minSize.isSome ∨ s.maxSize.isSome

namespace Circumstances

/-- A bound on ages is in force: it is not zero, and a user who picks by hand waives the minimum. -/
def BoundsAge (on : Circumstances) : Prop :=
  (∃ days ∈ on.settings.retentionDays, 0 < days) ∨
    on.search ≠ some .interactive ∧ ∃ minutes ∈ on.settings.minimumAgeMinutes, 0 < minutes

variable {on : Circumstances} {c : Candidate}

theorem isInteractive_eq_false_iff : on.isInteractive = false ↔ on.search ≠ some .interactive := by
  simp [isInteractive]

theorem judge_size : Rule.size.judge on c = .ok (.ofObjection (on.sizeObjection c)) := rfl

theorem judge_age : Rule.age.judge on c = .ok (.ofObjection (on.ageObjection c)) := rfl

theorem judge_size_eq_accept_iff {size : UInt64} (h : c.release.size = some size) :
    Rule.size.judge on c = .ok .accept ↔
      (∀ minimum ∈ on.settings.minSize, size.toNat = greatestUInt64 ∨
        minimum.toNat * max 1 c.albumIds.length ≤ size.toNat) ∧
      ∀ maximum ∈ on.settings.maxSize, size.toNat ≤ maximum.toNat * max 1 c.albumIds.length := by
  rw [judge_size, Except.ok.injEq, Verdict.ofObjection_eq_accept_iff, sizeObjection_eq_none_iff, h]
  simp only [Option.mem_some_iff, exists_eq_left', saturatingMul_le_toNat_iff,
    toNat_le_saturatingMul_iff]

theorem judge_age_eq_accept_iff {age : UInt64} (husenet : c.release.protocol = .usenet)
    (h : c.release.ageMinutes = some age) :
    Rule.age.judge on c = .ok .accept ↔
      (∀ days ∈ on.settings.retentionDays, days = 0 ∨ age.toNat ≤ days.toNat * 1440) ∧
      ∀ minutes ∈ on.settings.minimumAgeMinutes,
        minutes = 0 ∨ on.search = some .interactive ∨ minutes.toNat ≤ age.toNat := by
  rw [judge_age, Except.ok.injEq, Verdict.ofObjection_eq_accept_iff, ageObjection_eq_none_iff, h,
    forall_prop_of_true husenet]
  simp only [Option.mem_some_iff, exists_eq_left', toNat_le_saturatingMul_iff,
    isInteractive_eq_false_iff, UInt64.le_iff_toNat_le, UInt64.pos_iff_ne_zero, ne_eq,
    Decidable.or_iff_not_imp_left]

theorem sizeObjection_of_missing (h : c.release.size = none) (hbound : on.settings.BoundsSize) :
    on.sizeObjection c = some (.missing .size "size") := by
  have hset : ¬ (on.settings.minSize.isNone && on.settings.maxSize.isNone) = true := by
    simp only [Bool.and_eq_true, Option.isNone_iff_eq_none]
    rintro ⟨hmin, hmax⟩
    rcases hbound with hsome | hsome
    · rw [hmin] at hsome
      cases hsome
    · rw [hmax] at hsome
      cases hsome
  unfold sizeObjection
  rw [if_neg hset, h]

theorem ageObjection_of_missing (husenet : c.release.protocol = .usenet)
    (h : c.release.ageMinutes = none) (hbound : on.BoundsAge) :
    on.ageObjection c = some (.missing .age "age") := by
  have hset : ¬ ((on.settings.retentionDays.filter (0 < ·)).isNone &&
      (on.settings.minimumAgeMinutes.filter fun m => 0 < m && !on.isInteractive).isNone) =
        true := by
    simp only [Bool.and_eq_true, Option.isNone_iff_eq_none, Option.filter_eq_none_iff]
    rintro ⟨hretention, hminimum⟩
    rcases hbound with ⟨days, hdays, hpos⟩ | ⟨hpick, minutes, hminutes, hpos⟩
    · exact hretention days hdays (decide_eq_true hpos)
    · apply hminimum minutes hminutes
      rw [isInteractive_eq_false_iff.mpr hpick]
      simpa using hpos
  unfold ageObjection
  rw [if_pos husenet]
  dsimp only
  rw [if_neg hset, h]

theorem judge_size_of_missing (h : c.release.size = none) :
    (on.settings.BoundsSize → Rule.size.judge on c =
      .ok (.reject (Objection.missing .size "size").rejection)) ∧
    (¬ on.settings.BoundsSize → Rule.size.judge on c = .ok .accept) := by
  constructor
  · intro hbound
    rw [judge_size, sizeObjection_of_missing h hbound]
    rfl
  · intro hunbound
    have hnone : on.sizeObjection c = none := by
      apply sizeObjection_eq_none_iff.mpr
      constructor
      · intro minimum hminimum
        exact absurd (.inl (Option.isSome_of_mem hminimum)) hunbound
      · intro maximum hmaximum
        exact absurd (.inr (Option.isSome_of_mem hmaximum)) hunbound
    rw [judge_size, hnone]
    rfl

theorem judge_age_of_missing (h : c.release.ageMinutes = none) :
    (c.release.protocol = .usenet ∧ on.BoundsAge → Rule.age.judge on c =
      .ok (.reject (Objection.missing .age "age").rejection)) ∧
    (¬ (c.release.protocol = .usenet ∧ on.BoundsAge) → Rule.age.judge on c = .ok .accept) := by
  constructor
  · rintro ⟨husenet, hbound⟩
    rw [judge_age, ageObjection_of_missing husenet h hbound]
    rfl
  · intro hunbound
    have hnone : on.ageObjection c = none := by
      apply ageObjection_eq_none_iff.mpr
      intro husenet
      constructor
      · intro days hdays hpos
        exact absurd ⟨husenet, .inl ⟨days, hdays, hpos⟩⟩ hunbound
      · intro minutes hminutes hpos hauto
        have hpick := isInteractive_eq_false_iff.mp hauto
        exact absurd ⟨husenet, .inr ⟨hpick, minutes, hminutes, hpos⟩⟩ hunbound
    rw [judge_age, hnone]
    rfl

/-- The rules on size and age decide as exact products would, however large the thresholds are. A
size below the greatest one is accepted exactly if it lies within the bounds for all albums, and the
age of a Usenet post exactly if it lies within the retention and is not below the minimum, where
zero asks for nothing and a user who picks by hand waives the minimum. A size or an age that is not
known is refused exactly if a bound on it is in force. Both rules always answer, as no product
leaves 64 bits. -/
theorem thresholds_are_exact (on : Circumstances) (c : Candidate) :
    (∀ size ∈ c.release.size, size.toNat < greatestUInt64 →
      (Rule.size.judge on c = .ok .accept ↔
        (∀ minimum ∈ on.settings.minSize,
          minimum.toNat * max 1 c.albumIds.length ≤ size.toNat) ∧
        ∀ maximum ∈ on.settings.maxSize,
          size.toNat ≤ maximum.toNat * max 1 c.albumIds.length)) ∧
    (c.release.protocol = .usenet → ∀ age ∈ c.release.ageMinutes,
      (Rule.age.judge on c = .ok .accept ↔
        (∀ days ∈ on.settings.retentionDays, days = 0 ∨ age.toNat ≤ days.toNat * 1440) ∧
        ∀ minutes ∈ on.settings.minimumAgeMinutes,
          minutes = 0 ∨ on.search = some .interactive ∨ minutes.toNat ≤ age.toNat)) ∧
    (c.release.size = none →
      (on.settings.BoundsSize → Rule.size.judge on c =
        .ok (.reject (Objection.missing .size "size").rejection)) ∧
      (¬ on.settings.BoundsSize → Rule.size.judge on c = .ok .accept)) ∧
    (c.release.ageMinutes = none →
      (c.release.protocol = .usenet ∧ on.BoundsAge → Rule.age.judge on c =
        .ok (.reject (Objection.missing .age "age").rejection)) ∧
      (¬ (c.release.protocol = .usenet ∧ on.BoundsAge) → Rule.age.judge on c = .ok .accept)) ∧
    (∃ verdict, Rule.size.judge on c = .ok verdict) ∧
    (∃ verdict, Rule.age.judge on c = .ok verdict) ∧
    ∀ threshold count, saturatingMul threshold count < UInt64.size ∧
      (threshold.toNat * count < UInt64.size →
        saturatingMul threshold count = threshold.toNat * count) := by
  refine ⟨?_, ?_, judge_size_of_missing, judge_age_of_missing, ⟨_, judge_size⟩,
    ⟨_, judge_age⟩, saturatingMul_fits⟩
  · intro size hsize hlt
    rw [judge_size_eq_accept_iff hsize]
    simp only [Nat.ne_of_lt hlt, false_or]
  · intro husenet age hage
    exact judge_age_eq_accept_iff husenet hage

end Circumstances

/-- Two albums, two bytes less than 64 bits can count, posted as long ago as 64 bits can count. -/
def hugePair : Candidate where
  artistId := 7
  albumIds := [40, 41]
  grade := ⟨⟨13, "FLAC"⟩, {}⟩
  release :=
    { title := "Artist - Albums", protocol := .usenet, size := some 0xfffffffffffffffe
      ageMinutes := some 0xffffffffffffffff }

def hugeBounds : Circumstances where
  profile := { upgradeAllowed := true, cutoff := 13, items := [⟨⟨13, "FLAC"⟩, true⟩] }
  settings := { minSize := some 0x8000000000000000, retentionDays := some 0x1000000000000000 }

/-- The size is below the minimum for two albums, and the age is within the retention. -/
theorem hugePair_judged_exactly :
    Rule.size.judge hugeBounds hugePair ≠ .ok .accept ∧
      Rule.age.judge hugeBounds hugePair = .ok .accept := by
  obtain ⟨hsize, hage, _⟩ := Circumstances.thresholds_are_exact hugeBounds hugePair
  constructor
  · intro haccept
    have hbounds := (hsize 0xfffffffffffffffe rfl (by decide)).mp haccept
    exact absurd (hbounds.1 0x8000000000000000 rfl) (by decide)
  · refine (hage rfl 0xffffffffffffffff rfl).mpr ⟨fun days hdays => ?_, nofun⟩
    cases hdays
    exact .inr (by decide)

end ReleaseWarden
