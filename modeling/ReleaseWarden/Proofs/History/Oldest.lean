import ReleaseWarden.Proofs.History.Reading

/-! The grabs under a download id, and the oldest of them. A look-up answers the oldest one last. -/

set_option autoImplicit false

namespace ReleaseWarden

namespace HistoryRecord

variable {a b r : HistoryRecord}

theorem Newer.asymm (hab : a.Newer b) : ¬ b.Newer a := by
  intro hba
  rcases hab with hab | ⟨heq, hab⟩
  · rcases hba with hba | ⟨heq, _⟩
    · exact String.lt_asymm hab hba
    · exact String.lt_irrefl _ (heq ▸ hab)
  · rcases hba with hba | ⟨_, hba⟩
    · exact String.lt_irrefl _ (heq ▸ hba)
    · omega

theorem not_newer_self : ¬ a.Newer a := fun h => h.asymm h

/-- Of the records with a property, every other one is newer. -/
def IsOldestOf (p : HistoryRecord → Prop) (r : HistoryRecord) : Prop :=
  p r ∧ ∀ a, p a → a ≠ r → a.Newer r

theorem IsOldestOf.unique {p : HistoryRecord → Prop} (ha : IsOldestOf p a) (hb : IsOldestOf p b) :
    a = b := by
  by_cases heq : a = b
  · exact heq
  · have hab := hb.2 a ha.1 heq
    have hba := ha.2 b hb.1 (Ne.symm heq)
    exact absurd hba hab.asymm

theorem isOldestOf_congr {p q : HistoryRecord → Prop} (h : ∀ a, p a ↔ q a) :
    IsOldestOf p r ↔ IsOldestOf q r := by
  rw [funext fun a => propext (h a)]

variable {front : List HistoryRecord}

theorem isOldestOf_last (h : (front ++ [r]).Pairwise Newer) : IsOldestOf (· ∈ front ++ [r]) r := by
  refine ⟨List.mem_append_right _ (List.mem_singleton_self r), ?_⟩
  intro a ha hne
  rcases List.mem_append.mp ha with ha | ha
  · exact (List.pairwise_append.mp h).2.2 a ha r (List.mem_singleton_self r)
  · exact absurd (List.mem_singleton.mp ha) hne

theorem mem_front_iff (h : (front ++ [r]).Pairwise Newer) :
    a ∈ front ↔ a ∈ front ++ [r] ∧ a ≠ r := by
  constructor
  · intro ha
    refine ⟨List.mem_append_left _ ha, ?_⟩
    rintro rfl
    have := (List.pairwise_append.mp h).2.2 a ha a (List.mem_singleton_self a)
    exact not_newer_self this
  · rintro ⟨ha, hne⟩
    rcases List.mem_append.mp ha with ha | ha
    · exact ha
    · exact absurd (List.mem_singleton.mp ha) hne

end HistoryRecord

namespace Store

variable {s : Store} {d : String} {r : HistoryRecord}

/-- The store keeps the record as a grab under the download id. -/
def KeepsGrab (s : Store) (d : String) (r : HistoryRecord) : Prop :=
  ∃ row ∈ s.rows, row.record = .ok r ∧ r.downloadId = some d ∧ r.event = .grabbed

theorem keepsGrab_of_get {id : Int64} (h : s.get id = .ok r) (hd : r.downloadId = some d)
    (hevent : r.event = .grabbed) : s.KeepsGrab d r := by
  obtain ⟨_, row, hrow, hrec⟩ := get_eq_ok_iff.mp h
  exact ⟨row, List.mem_of_find?_eq_some hrow, hrec, hd, hevent⟩

theorem groupId?_of_keepsGrab (hd : Text.blank d = false) (h : s.KeepsGrab d r) :
    r.groupId? = some d := by
  obtain ⟨_, _, _, hid, _⟩ := h
  exact HistoryRecord.groupId?_eq_some_iff.mpr ⟨hid, hd⟩

theorem oldest_of_find (hs : s.DistinctIds) {front : List HistoryRecord}
    (h : s.find d .grabbed = .ok (front ++ [r])) :
    HistoryRecord.IsOldestOf (s.KeepsGrab d) r ∧
      ∀ a, a ∈ front ↔ s.KeepsGrab d a ∧ a ≠ r := by
  have hnewer := find_newer hs h
  have hmem (a : HistoryRecord) : a ∈ front ++ [r] ↔ s.KeepsGrab d a := mem_find_iff h
  constructor
  · exact (HistoryRecord.isOldestOf_congr hmem).mp (HistoryRecord.isOldestOf_last hnewer)
  · intro a
    rw [HistoryRecord.mem_front_iff hnewer, hmem a]

theorem next_of_find (hs : s.DistinctIds) {newer : List HistoryRecord} {next : HistoryRecord}
    (h : s.find d .grabbed = .ok (newer ++ [next] ++ [r])) :
    HistoryRecord.IsOldestOf (fun a => s.KeepsGrab d a ∧ a ≠ r) next := by
  obtain ⟨_, hmem⟩ := oldest_of_find hs h
  have hnewer := (List.pairwise_append.mp (find_newer hs h)).1
  exact (HistoryRecord.isOldestOf_congr hmem).mp (HistoryRecord.isOldestOf_last hnewer)

end Store

end ReleaseWarden
