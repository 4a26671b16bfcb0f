import ReleaseWarden.Proofs.Admission.Acceptance
import ReleaseWarden.Proofs.Outcome

/-! What each rule asks of a candidate. A rule that holds nothing against a candidate is spelt out
threshold by threshold, so that a threshold that is not set asks for nothing. -/

set_option autoImplicit false

namespace ReleaseWarden

theorem firstScored_eq_none_iff {α : Type} {test : α → Scored Bool} {as : List α} :
    firstScored test as = .ok none ↔ ∀ a ∈ as, test a = .ok false := by
  induction as with
  | nil => exact iff_of_true rfl nofun
  | cons a as ih =>
    rw [List.forall_mem_cons, ← ih, firstScored]
    cases test a with
    | error e => exact iff_of_false nofun fun h => nomatch h.1
    | ok found =>
      cases found with
      | false => exact ⟨fun h => ⟨rfl, h⟩, fun h => h.2⟩
      | true => exact iff_of_false nofun fun h => nomatch h.1

namespace Circumstances

variable {on : Circumstances} {c : Candidate}

theorem qualityObjection_eq_none_iff : on.qualityObjection c = none ↔
    c.albumIds ≠ [] ∧ on.profile.allows c.grade.quality = true := by
  unfold qualityObjection
  cases c.albumIds with
  | nil => exact iff_of_false nofun fun h => h.1 rfl
  | cons id ids => simp

theorem upgradeObjection_eq_none_iff : on.upgradeObjection c = .ok none ↔
    (on.profile.upgradeAllowed = false → ∀ h ∈ on.held, h.artistId = c.artistId →
      h.albumId ∈ c.albumIds → on.profile.isUpgrade h.graded c.graded = .ok false) := by
  unfold upgradeObjection
  split
  · rename_i hallowed
    exact iff_of_true rfl fun hno => nomatch hallowed.symm.trans hno
  · rename_i hallowed
    constructor
    · intro h _ held hmem hartist halbum
      obtain ⟨blocked, hfirst, hnone⟩ := bind_eq_ok_iff.mp h
      obtain rfl := Option.map_eq_none_iff.mp (Except.ok.inj hnone)
      refine firstScored_eq_none_iff.mp hfirst held (List.mem_filter.mpr ⟨hmem, ?_⟩)
      simp [hartist, halbum]
    · intro h
      have hnone : firstScored (fun h => on.profile.isUpgrade h.graded c.graded)
          (on.held.filter fun h => h.artistId == c.artistId && c.albumIds.contains h.albumId) =
          .ok none := by
        apply firstScored_eq_none_iff.mpr
        intro held hheld
        obtain ⟨hmem, hconcerned⟩ := List.mem_filter.mp hheld
        simp only [Bool.and_eq_true, beq_iff_eq, List.contains_iff_mem] at hconcerned
        exact h (by simpa using hallowed) held hmem hconcerned.1 hconcerned.2
      exact bind_eq_ok_iff.mpr ⟨none, hnone, rfl⟩

theorem scoreObjection_eq_none_iff : on.scoreObjection c = .ok none ↔
    ∃ score, on.profile.formatScore c.formats = .ok score ∧
      on.profile.minFormatScore.toInt ≤ score := by
  unfold scoreObjection
  rw [bind_eq_ok_iff]
  apply exists_congr
  intro score
  by_cases h : on.profile.minFormatScore.toInt ≤ score <;> simp [h, pure, Except.pure]

theorem sizeObjection_eq_none_iff : on.sizeObjection c = none ↔
    (∀ minimum ∈ on.settings.minSize, ∃ size ∈ c.release.size,
      saturatingMul minimum (max 1 c.albumIds.length) ≤ size.toNat) ∧
    (∀ maximum ∈ on.settings.maxSize, ∃ size ∈ c.release.size,
      size.toNat ≤ saturatingMul maximum (max 1 c.albumIds.length)) := by
  unfold sizeObjection
  cases c.release.size with
  | none => cases on.settings.minSize <;> cases on.settings.maxSize <;> simp
  | some size =>
    simp only [Option.mem_some_iff, exists_eq_left']
    split
    · rename_i hunset
      simp only [Bool.and_eq_true, Option.isNone_iff_eq_none] at hunset
      simp [hunset]
    · split
      · rename_i hsmall
        obtain ⟨hbound, hlt⟩ := Option.filter_eq_some_iff.mp hsmall
        obtain ⟨minimum, hminimum, rfl⟩ := Option.map_eq_some_iff.mp hbound
        exact iff_of_false nofun fun h =>
          Nat.not_lt.mpr (h.1 minimum hminimum) (of_decide_eq_true hlt)
      · rename_i hlarge
        obtain ⟨hbound, hlt⟩ := Option.filter_eq_some_iff.mp hlarge
        obtain ⟨maximum, hmaximum, rfl⟩ := Option.map_eq_some_iff.mp hbound
        exact iff_of_false nofun fun h =>
          Nat.not_lt.mpr (h.2 maximum hmaximum) (of_decide_eq_true hlt)
      · rename_i hsmall hlarge
        refine iff_of_true rfl ⟨fun minimum hminimum => ?_, fun maximum hmaximum => ?_⟩
        · simpa using Option.filter_eq_none_iff.mp hsmall _ (Option.mem_map_of_mem _ hminimum)
        · simpa using Option.filter_eq_none_iff.mp hlarge _ (Option.mem_map_of_mem _ hmaximum)

theorem seedersObjection_eq_none_iff : on.seedersObjection c = none ↔
    (c.release.protocol = .torrent → ∀ minimum ∈ on.settings.minSeeders,
      ∃ seeders ∈ c.release.seeders, minimum.toNat ≤ seeders.toNat) := by
  unfold seedersObjection
  cases on.settings.minSeeders <;> cases c.release.seeders <;> simp

theorem ageObjection_eq_none_iff : on.ageObjection c = none ↔
    (c.release.protocol = .usenet →
      (∀ days ∈ on.settings.retentionDays, 0 < days → ∃ age ∈ c.release.ageMinutes,
        age.toNat ≤ saturatingMul days 1440) ∧
      (∀ minimum ∈ on.settings.minimumAgeMinutes, 0 < minimum → on.isInteractive = false →
        ∃ age ∈ c.release.ageMinutes, minimum ≤ age)) := by
  unfold ageObjection
  split
  · rename_i husenet
    rw [forall_prop_of_true husenet]
    dsimp only
    have hretention {p : UInt64 → Prop} :
        (∀ days ∈ on.settings.retentionDays, 0 < days → p days) ↔
          ∀ days ∈ on.settings.retentionDays.filter (0 < ·), p days := by
      simp [Option.mem_def, Option.filter_eq_some_iff]
    have hage {p : UInt64 → Prop} :
        (∀ m ∈ on.settings.minimumAgeMinutes, 0 < m → on.isInteractive = false → p m) ↔
          ∀ m ∈ on.settings.minimumAgeMinutes.filter fun m => 0 < m && !on.isInteractive, p m := by
      simp [Option.mem_def, Option.filter_eq_some_iff]
    rw [hretention, hage]
    generalize on.settings.retentionDays.filter (0 < ·) = retention
    generalize (on.settings.minimumAgeMinutes.filter fun m => 0 < m && !on.isInteractive) =
      minimumAge
    cases c.release.ageMinutes with
    | none => cases retention <;> cases minimumAge <;> simp
    | some age =>
      simp only [Option.mem_some_iff, exists_eq_left']
      split
      · rename_i hunset
        simp only [Bool.and_eq_true, Option.isNone_iff_eq_none] at hunset
        simp [hunset]
      · split
        · rename_i hold
          obtain ⟨hdays, hlt⟩ := Option.filter_eq_some_iff.mp hold
          exact iff_of_false nofun fun h => Nat.not_lt.mpr (h.1 _ hdays) (of_decide_eq_true hlt)
        · rename_i hyoung
          obtain ⟨hminimum, hlt⟩ := Option.filter_eq_some_iff.mp hyoung
          exact iff_of_false nofun fun h =>
            UInt64.not_lt.mpr (h.2 _ hminimum) (of_decide_eq_true hlt)
        · rename_i hold hyoung
          refine iff_of_true rfl ⟨fun days hdays => ?_, fun minimum hminimum => ?_⟩
          · simpa using Option.filter_eq_none_iff.mp hold days hdays
          · simpa using Option.filter_eq_none_iff.mp hyoung minimum hminimum
  · rename_i hother
    exact iff_of_true rfl fun h => absurd h hother

theorem encryptionObjection_eq_none_iff : on.encryptionObjection c = none ↔
    (on.settings.rejectEncrypted = true → c.release.encrypted = false) := by
  unfold encryptionObjection
  cases on.settings.rejectEncrypted <;> cases c.release.encrypted <;> simp

end Circumstances

end ReleaseWarden
