import Mathlib.Data.List.Nodup
import ReleaseWarden.Profile.Basic

/-! Valid profiles. A profile is valid just if it lists something and each tier that it lists ranks
at its own position. A profile that lists a tier twice is refused for the first item whose tier
stands before it already. -/

set_option autoImplicit false

namespace ReleaseWarden

namespace ProfileItem

def tiers (items : List ProfileItem) : List Int32 := items.map fun i => i.quality.id

/-- The tiers of the items are different from each other and from those seen. -/
def AreNew (seen : List Int32) (items : List ProfileItem) : Prop :=
  (tiers items).Nodup ∧ ∀ tier ∈ tiers items, tier ∉ seen

/-- The item stands behind items of different tiers, and its tier is one of theirs. -/
def IsFirstRepeat (items : List ProfileItem) (item : ProfileItem) : Prop :=
  ∃ front back, items = front ++ item :: back ∧ (tiers front).Nodup ∧ item.quality.id ∈ tiers front

variable {seen : List Int32} {items : List ProfileItem} {i j : ProfileItem} {tier : Int32} {n : Nat}

@[simp] theorem tiers_cons : tiers (i :: items) = i.quality.id :: tiers items := rfl

theorem getElem?_tiers_eq_some_iff :
    (tiers items)[n]? = some tier ↔ ∃ i, items[n]? = some i ∧ i.quality.id = tier := by
  rw [tiers, List.getElem?_map, Option.map_eq_some_iff]

theorem areNew_nil_iff : AreNew [] items ↔ (tiers items).Nodup := by simp [AreNew]

theorem areNew_cons_iff :
    AreNew seen (i :: items) ↔ i.quality.id ∉ seen ∧ AreNew (i.quality.id :: seen) items := by
  simp only [AreNew, tiers_cons, List.nodup_cons]
  constructor
  · rintro ⟨⟨hi, hnodup⟩, hnew⟩
    obtain ⟨hseen, hnew⟩ := List.forall_mem_cons.mp hnew
    refine ⟨hseen, hnodup, fun t ht h => ?_⟩
    rcases List.mem_cons.mp h with rfl | h
    · exact hi ht
    · exact hnew t ht h
  · rintro ⟨hseen, hnodup, hnew⟩
    have hi : i.quality.id ∉ tiers items := fun h => hnew _ h List.mem_cons_self
    refine ⟨⟨hi, hnodup⟩, List.forall_mem_cons.mpr ⟨hseen, fun t ht h => ?_⟩⟩
    exact hnew t ht (List.mem_cons_of_mem _ h)

theorem firstRepeated_eq_none_iff : firstRepeated seen items = none ↔ AreNew seen items := by
  induction items generalizing seen with
  | nil => exact iff_of_true rfl ⟨List.nodup_nil, nofun⟩
  | cons i items ih =>
    rw [firstRepeated, areNew_cons_iff]
    by_cases hseen : i.quality.id ∈ seen
    · rw [if_pos hseen]
      exact iff_of_false nofun fun h => h.1 hseen
    · rw [if_neg hseen, ih]
      exact (and_iff_right hseen).symm

theorem firstRepeated_eq_some_iff : firstRepeated seen items = some j ↔
    ∃ front back, items = front ++ j :: back ∧ AreNew seen front ∧
      (j.quality.id ∈ seen ∨ j.quality.id ∈ tiers front) := by
  induction items generalizing seen with
  | nil => simp [firstRepeated]
  | cons i items ih =>
    rw [firstRepeated]
    by_cases hseen : i.quality.id ∈ seen
    · rw [if_pos hseen]
      constructor
      · rintro ⟨⟩
        exact ⟨[], items, rfl, ⟨List.nodup_nil, nofun⟩, .inl hseen⟩
      · rintro ⟨front, back, heq, hnew, _⟩
        cases front with
        | nil => exact congrArg some (List.cons.inj heq).1
        | cons f front =>
          obtain ⟨rfl, _⟩ := List.cons.inj heq
          exact absurd hseen (areNew_cons_iff.mp hnew).1
    · -- The item is seen from here on: it goes over from `front` to the tiers seen.
      have hmoves (front : List ProfileItem) :
          j.quality.id ∈ i.quality.id :: seen ∨ j.quality.id ∈ tiers front ↔
            j.quality.id ∈ seen ∨ j.quality.id ∈ tiers (i :: front) := by
        rw [tiers_cons, List.mem_cons, List.mem_cons, or_assoc, or_left_comm]
      rw [if_neg hseen, ih]
      constructor
      · rintro ⟨front, back, rfl, hnew, hj⟩
        exact ⟨i :: front, back, rfl, areNew_cons_iff.mpr ⟨hseen, hnew⟩, (hmoves front).mp hj⟩
      · rintro ⟨front, back, heq, hnew, hj⟩
        cases front with
        | nil =>
          obtain ⟨rfl, _⟩ := List.cons.inj heq
          exact absurd hj (not_or.mpr ⟨hseen, List.not_mem_nil⟩)
        | cons f front =>
          obtain ⟨rfl, rfl⟩ := List.cons.inj heq
          exact ⟨front, back, rfl, (areNew_cons_iff.mp hnew).2, (hmoves front).mpr hj⟩

theorem firstRepeated_nil_eq_some_iff :
    firstRepeated [] items = some j ↔ IsFirstRepeat items j := by
  simp only [firstRepeated_eq_some_iff, areNew_nil_iff, List.not_mem_nil, false_or, IsFirstRepeat]

end ProfileItem

namespace Profile

open ProfileItem (tiers IsFirstRepeat)

variable {p : Profile} {q : Quality} {tier : Int32} {n : Nat}

theorem validate_eq_ok_iff : p.validate = .ok () ↔ p.items ≠ [] ∧ (tiers p.items).Nodup := by
  rw [← ProfileItem.areNew_nil_iff, ← ProfileItem.firstRepeated_eq_none_iff, validate]
  cases p.items with
  | nil => exact iff_of_false nofun fun h => h.1 rfl
  | cons i items => cases ProfileItem.firstRepeated [] (i :: items) <;> simp

theorem validate_eq_error_iff {e : ProfileError} : p.validate = .error e ↔
    p.items = [] ∧ e = .empty p.name ∨
      ∃ item, IsFirstRepeat p.items item ∧ e = .duplicateQuality p.name item.quality.name := by
  simp only [← ProfileItem.firstRepeated_nil_eq_some_iff, validate]
  cases p.items with
  | nil => simp [ProfileItem.firstRepeated, eq_comm]
  | cons i items => cases ProfileItem.firstRepeated [] (i :: items) <;> simp [eq_comm]

theorem rankOf?_eq_some_iff : p.rankOf? tier = some n ↔
    (tiers p.items)[n]? = some tier ∧ ∀ m < n, (tiers p.items)[m]? ≠ some tier := by
  have hrank : p.rankOf? tier = (tiers p.items).idxOf? tier := by
    rw [rankOf?, tiers, List.idxOf?, List.findIdx?_map]
    rfl
  rw [hrank, List.idxOf?_eq_some_iff]
  constructor
  · rintro ⟨hn, htier, hfirst⟩
    refine ⟨List.getElem?_eq_some_iff.mpr ⟨hn, htier⟩, fun m hm h => ?_⟩
    obtain ⟨_, hm'⟩ := List.getElem?_eq_some_iff.mp h
    exact hfirst m hm hm'
  · rintro ⟨htier, hfirst⟩
    obtain ⟨hn, htier⟩ := List.getElem?_eq_some_iff.mp htier
    exact ⟨hn, htier, fun m hm h => hfirst m hm (List.getElem?_eq_some_iff.mpr ⟨_, h⟩)⟩

theorem rankOf?_of_nodup (h : (tiers p.items).Nodup) :
    p.rankOf? tier = some n ↔ (tiers p.items)[n]? = some tier := by
  rw [rankOf?_eq_some_iff]
  refine ⟨And.left, fun htier => ⟨htier, fun m hm htier' => ?_⟩⟩
  have hn : n < (tiers p.items).length := (List.getElem?_eq_some_iff.mp htier).1
  exact List.nodup_iff_getElem?_ne_getElem?.mp h m n hm hn (htier'.trans htier.symm)

theorem nodup_iff_ranked_by_position : (tiers p.items).Nodup ↔
    ∀ n item, p.items[n]? = some item → p.rankOf? item.quality.id = some n := by
  constructor
  · intro h n item hitem
    exact (rankOf?_of_nodup h).mpr (ProfileItem.getElem?_tiers_eq_some_iff.mpr ⟨item, hitem, rfl⟩)
  · intro h
    apply List.nodup_iff_getElem?_ne_getElem?.mpr
    intro m n hmn hn heq
    obtain ⟨b, hb, hid⟩ := ProfileItem.getElem?_tiers_eq_some_iff.mp (List.getElem?_eq_getElem hn)
    obtain ⟨a, ha, hid'⟩ :=
      ProfileItem.getElem?_tiers_eq_some_iff.mp (heq.trans (List.getElem?_eq_getElem hn))
    have hranks : some m = some n := by rw [← h m a ha, ← h n b hb, hid, hid']
    exact absurd (Option.some.inj hranks) (Nat.ne_of_lt hmn)

theorem allows_of_nodup (h : (tiers p.items).Nodup) : p.allows q = true ↔
    ∃ n item, p.rank? q = some n ∧ p.items[n]? = some item ∧ item.allowed = true := by
  simp only [allows, List.any_eq_true, Bool.and_eq_true, beq_iff_eq, rank?, rankOf?_of_nodup h,
    ProfileItem.getElem?_tiers_eq_some_iff]
  constructor
  · rintro ⟨item, hmem, hid, hallowed⟩
    obtain ⟨n, hn⟩ := List.mem_iff_getElem?.mp hmem
    exact ⟨n, item, ⟨item, hn, hid⟩, hn, hallowed⟩
  · rintro ⟨n, item, ⟨item', hn', hid⟩, hn, hallowed⟩
    obtain rfl := Option.some.inj (hn'.symm.trans hn)
    exact ⟨item', List.mem_of_getElem? hn, hid, hallowed⟩

/-- A profile is valid just if it has items and each of them ranks at its own position. The ranks
then go one to one with the positions, and a tier is allowed just if it has a rank and the item
there is allowed. A profile that is not valid is empty, or else the tier of the first item that
repeats an earlier one is named. -/
theorem valid_iff_ranked_by_position (p : Profile) :
    (p.validate = .ok () ↔ p.items ≠ [] ∧
      ∀ n item, p.items[n]? = some item → p.rankOf? item.quality.id = some n) ∧
    (p.validate = .ok () →
      (∀ tier n, p.rankOf? tier = some n ↔
        ∃ item, p.items[n]? = some item ∧ item.quality.id = tier) ∧
      ∀ q, p.allows q = true ↔
        ∃ n item, p.rank? q = some n ∧ p.items[n]? = some item ∧ item.allowed = true) ∧
    ∀ e, p.validate = .error e ↔ p.items = [] ∧ e = .empty p.name ∨
      ∃ item, IsFirstRepeat p.items item ∧ e = .duplicateQuality p.name item.quality.name := by
  refine ⟨?_, fun hvalid => ?_, fun e => validate_eq_error_iff⟩
  · rw [validate_eq_ok_iff, nodup_iff_ranked_by_position]
  · obtain ⟨_, hnodup⟩ := validate_eq_ok_iff.mp hvalid
    refine ⟨fun tier n => ?_, fun q => allows_of_nodup hnodup⟩
    rw [rankOf?_of_nodup hnodup, ProfileItem.getElem?_tiers_eq_some_iff]

def lossless : Profile where
  upgradeAllowed := true
  cutoff := 13
  items := [⟨⟨12, "ALAC"⟩, true⟩, ⟨⟨15, "WAV"⟩, false⟩, ⟨⟨13, "FLAC"⟩, true⟩]

theorem lossless_ranked_by_position : lossless.validate = .ok () ∧
    lossless.rankOf? 15 = some 1 ∧ lossless.allows ⟨15, "WAV"⟩ = false ∧
    lossless.allows ⟨13, "FLAC"⟩ = true := by
  have hvalid : lossless.validate = .ok () := rfl
  obtain ⟨hrank, hallows⟩ := lossless.valid_iff_ranked_by_position.2.1 hvalid
  have hwav : lossless.rankOf? 15 = some 1 := (hrank 15 1).mpr ⟨_, rfl, rfl⟩
  refine ⟨hvalid, hwav, ?_, (hallows ⟨13, "FLAC"⟩).mpr ⟨2, _, rfl, rfl, rfl⟩⟩
  rw [Bool.eq_false_iff, ne_eq, hallows]
  rintro ⟨n, item, hn, hitem, hallowed⟩
  obtain rfl := Option.some.inj (hwav.symm.trans hn)
  obtain rfl := Option.some.inj hitem
  cases hallowed

/-- Where a tier is listed twice, it may be allowed by one item and rank by the other. -/
example :
    let p : Profile :=
      { name := "Any"
        upgradeAllowed := true
        cutoff := 13
        items := [⟨⟨9, "MP3-320"⟩, false⟩, ⟨⟨13, "FLAC"⟩, true⟩, ⟨⟨9, "MP3"⟩, true⟩] }
    p.validate = .error (.duplicateQuality "Any" "MP3") ∧ p.rankOf? 9 = some 0 ∧
      p.allows ⟨9, "MP3"⟩ = true :=
  ⟨rfl, rfl, rfl⟩

end Profile

end ReleaseWarden
