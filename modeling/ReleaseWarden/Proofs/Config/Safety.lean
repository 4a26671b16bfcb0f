import ReleaseWarden.Proofs.Config.Lines
import ReleaseWarden.Proofs.Config.Readings

/-! What may be relied on once a configuration is accepted: its numbers are in range, its sizes in
bytes are exact, and each value is the last one that the text gives. One line that holds nothing
known refuses the text. -/

set_option autoImplicit false

namespace ReleaseWarden

namespace FileConfig

/-- Each number that is set is in its range, and the sizes are in order. -/
structure InRange (c : FileConfig) : Prop where
  minSizeMb : ∀ mb ∈ c.minSizeMb, mb.toNat ≤ 1000000
  maxSizeMb : ∀ mb ∈ c.maxSizeMb, mb.toNat ≤ 1000000
  sizes : ∀ minimum ∈ c.minSizeMb, ∀ maximum ∈ c.maxSizeMb, minimum ≤ maximum
  minSeeders : ∀ seeders ∈ c.minSeeders, seeders.toNat ≤ 100000
  retentionDays : ∀ days ∈ c.retentionDays, days.toNat ≤ 36500
  minimumAgeMinutes : ∀ minutes ∈ c.minimumAgeMinutes, minutes.toNat ≤ 10080

/-- The sizes in bytes are those in megabytes, multiplied without overflow, and in order. -/
structure SizesExact (c : FileConfig) : Prop where
  minSize : c.settings.minSize.map UInt64.toNat = c.minSizeMb.map fun mb => mb.toNat * 1048576
  maxSize : c.settings.maxSize.map UInt64.toNat = c.maxSizeMb.map fun mb => mb.toNat * 1048576
  sizes : ∀ minimum ∈ c.settings.minSize, ∀ maximum ∈ c.settings.maxSize, minimum ≤ maximum

variable {c : FileConfig}

theorem atMost_eq_ok_iff {α : Type} {f : α → Nat} {key : ConfigKey} {value : Option α}
    {greatest : Nat} :
    atMost key (value.map f) greatest = .ok () ↔ ∀ a ∈ value, f a ≤ greatest := by
  cases value with
  | none => exact iff_of_true rfl nofun
  | some a =>
    simp only [atMost, Option.map_some, Option.mem_some_iff, forall_eq']
    split
    · exact iff_of_false nofun (by omega)
    · exact iff_of_true rfl (by omega)

theorem sizesInOrder_eq_ok_iff :
    c.sizesInOrder = .ok () ↔
      ∀ minimum ∈ c.minSizeMb, ∀ maximum ∈ c.maxSizeMb, minimum ≤ maximum := by
  unfold sizesInOrder
  cases c.minSizeMb with
  | none => exact iff_of_true rfl nofun
  | some minimum =>
    cases c.maxSizeMb with
    | none => exact iff_of_true rfl fun _ _ => nofun
    | some maximum =>
      simp only [Option.mem_some_iff, forall_eq']
      split
      · rename_i h
        exact iff_of_false nofun (UInt64.not_le.mpr h)
      · rename_i h
        exact iff_of_true rfl (UInt64.not_lt.mp h)

theorem validate_eq_ok_iff : c.validate = .ok () ↔ c.InRange := by
  have hstep {x y : Except ConfigError Unit} :
      (x >>= fun _ => y) = .ok () ↔ x = .ok () ∧ y = .ok () := by
    rw [bind_eq_ok_iff]
    exact ⟨fun ⟨_, hx, hy⟩ => ⟨hx, hy⟩, fun ⟨hx, hy⟩ => ⟨(), hx, hy⟩⟩
  simp only [validate, hstep, atMost_eq_ok_iff, sizesInOrder_eq_ok_iff]
  constructor
  · rintro ⟨hmin, hmax, hsizes, hseeders, hdays, hage⟩
    exact ⟨hmin, hmax, hsizes, hseeders, hdays, hage⟩
  · intro h
    exact ⟨h.minSizeMb, h.maxSizeMb, h.sizes, h.minSeeders, h.retentionDays, h.minimumAgeMinutes⟩

theorem toNat_megabytes {mb : UInt64} (h : mb.toNat ≤ 1000000) :
    (mb * 1048576).toNat = mb.toNat * 1048576 := by
  have hfactor : (1048576 : UInt64).toNat = 1048576 := rfl
  rw [UInt64.toNat_mul, hfactor, Nat.mod_eq_of_lt (by omega)]

theorem map_toNat_megabytes {size : Option UInt64} (h : ∀ mb ∈ size, mb.toNat ≤ 1000000) :
    (size.map (· * 1048576)).map UInt64.toNat = size.map fun mb => mb.toNat * 1048576 := by
  rw [Option.map_map]
  apply Option.map_congr
  intro mb hmb
  rw [Function.comp_apply, toNat_megabytes (h mb hmb)]

theorem InRange.sizesExact (h : c.InRange) : c.SizesExact where
  minSize := map_toNat_megabytes h.minSizeMb
  maxSize := map_toNat_megabytes h.maxSizeMb
  sizes := by
    intro minimum hminimum maximum hmaximum
    obtain ⟨mb, hmb, rfl⟩ := Option.map_eq_some_iff.mp hminimum
    obtain ⟨mb', hmb', rfl⟩ := Option.map_eq_some_iff.mp hmaximum
    have hle : mb.toNat ≤ mb'.toNat := UInt64.le_iff_toNat_le.mp (h.sizes mb hmb mb' hmb')
    rw [UInt64.le_iff_toNat_le, toNat_megabytes (h.minSizeMb mb hmb),
      toNat_megabytes (h.maxSizeMb mb' hmb')]
    exact Nat.mul_le_mul_right 1048576 hle

end FileConfig

namespace Config

/-- What is accepted is in range, with exact sizes in bytes, and consists of the last value that a
line of the text gives to each key. A text with a line that is neither empty nor a known key with a
value of its kind is refused, whatever stands before and behind that line. -/
theorem accepted_is_safe (text : String) :
    (∀ c, parse text = .ok c → c.InRange ∧ c.SizesExact ∧
      ∃ as, Assigns as text.toList ∧ ∀ key, c.assignment? key = Assignment.lastFor? as key) ∧
    ∀ before line after, IsLine before line after →
      text = String.ofList (before ++ (line ++ after)) → (¬ ∃ a, Holds a (content line)) →
      ∃ e, parse text = .error e := by
  constructor
  · intro c h
    obtain ⟨as, has, rfl, hvalid⟩ := parse_eq_ok_iff.mp h
    have hrange := FileConfig.validate_eq_ok_iff.mp hvalid
    refine ⟨hrange, hrange.sizesExact, as, has, fun key => ?_⟩
    have hempty : FileConfig.assignment? {} key = none := by cases key <;> rfl
    rw [FileConfig.assignment?_foldl_assign, hempty, Option.or_none]
  · rintro before line after hline rfl hnone
    cases h : parse (String.ofList (before ++ (line ++ after))) with
    | error e => exact ⟨e, rfl⟩
    | ok c =>
      obtain ⟨number, a, ha⟩ := exists_readLine_of_parse hline h
      exact absurd ⟨a, readLine_eq_ok_iff.mp ha⟩ hnone

/-- The sizes are crossed at first, and the last line puts them in order. With an unknown key among
its lines the text is refused. -/
theorem crossed_sizes_put_in_order :
    let sizes := "min_size_mb = 9\nmax_size_mb = 8 # MB".toList
    let colour := "colour = red".toList
    let size := "min_size_mb = +07".toList
    let text := String.ofList (sizes ++ '\n' :: size)
    let c : FileConfig := { minSizeMb := some 7, maxSizeMb := some 8 }
    parse text = .ok c ∧ c.InRange ∧ c.SizesExact ∧
      (∃ as, Assigns as text.toList ∧ ∀ key, c.assignment? key = Assignment.lastFor? as key) ∧
      IsLine (sizes ++ ['\n']) colour ('\n' :: size) ∧ (¬ ∃ a, Holds a (content colour)) ∧
      ∃ e, parse (String.ofList (sizes ++ ['\n'] ++ (colour ++ '\n' :: size))) = .error e := by
  intro sizes colour size text c
  have hparse : parse text = .ok c := by
    rw [parse, String.toList_ofList]
    rfl
  obtain ⟨hrange, hexact, hlast⟩ := (accepted_is_safe text).1 c hparse
  have hline : IsLine (sizes ++ ['\n']) colour ('\n' :: size) :=
    ⟨.inr ⟨sizes, rfl⟩, by decide, .inr ⟨['\n'], size, .inl rfl, rfl⟩⟩
  have hnone : ¬ ∃ a, Holds a (content colour) := by
    rintro ⟨a, ha⟩
    have hread : readLine 3 colour = .error (.unknownKey "colour" 3) := by decide +kernel
    cases hread.symm.trans (readLine_eq_ok_iff.mpr ha)
  exact ⟨hparse, hrange, hexact, hlast, hline, hnone,
    (accepted_is_safe _).2 _ colour _ hline rfl hnone⟩

end Config

end ReleaseWarden
