import ReleaseWarden.Proofs.History.Writing

/-! Ids tell rows apart. A store that begins empty never holds two rows with one id, whatever is
written to it, taken back or removed. -/

set_option autoImplicit false

namespace ReleaseWarden

namespace Store

def DistinctIds (s : Store) : Prop := s.rows.Pairwise fun a b => a.id ≠ b.id

theorem distinctIds_empty : DistinctIds {} := .nil

variable {s : Store} {refuses : Row → Bool}

theorem distinctIds_place (h : s.DistinctIds) (row : Row) :
    (s.place row refuses).2.DistinctIds := by
  unfold place
  split
  · exact h
  · split
    · exact h
    · split
      · exact h
      · rename_i hnew
        refine List.pairwise_append.mpr ⟨h, List.pairwise_singleton _ _, ?_⟩
        intro a ha b hb heq
        obtain rfl := List.mem_singleton.mp hb
        exact hnew (List.any_eq_true.mpr ⟨a, ha, beq_iff_eq.mpr heq⟩)

theorem distinctIds_placeNext (h : s.DistinctIds) (row : Int64 → Row) :
    (s.placeNext row refuses).2.DistinctIds := by
  unfold placeNext
  split
  · exact h
  · exact distinctIds_place h _

theorem distinctIds_insertEach (clock : Clock) (rs : List NewRecord) (h : s.DistinctIds) :
    (insertEach refuses clock rs s).2.DistinctIds := by
  induction rs generalizing clock s with
  | nil => exact h
  | cons r rs ih =>
    have hinsert : (s.insert (clock.reading 0) r refuses).2.DistinctIds :=
      distinctIds_placeNext h _
    rw [insertEach]
    split
    · rename_i heq
      rw [heq] at hinsert
      exact hinsert
    · rename_i id t heq
      rw [heq] at hinsert
      have hrest := ih (clock.later 1) hinsert
      split
      · rename_i hsplit
        rw [hsplit] at hrest
        exact hrest
      · rename_i hsplit
        rw [hsplit] at hrest
        exact hrest

theorem distinctIds_insertAll (clock : Clock) (rs : List NewRecord) (h : s.DistinctIds) :
    (s.insertAll clock rs refuses).2.DistinctIds := by
  have hall : (insertEach refuses clock rs s).2.DistinctIds := distinctIds_insertEach clock rs h
  unfold insertAll
  split
  · exact h
  · split
    · exact h
    · rename_i hsplit
      rw [hsplit] at hall
      exact hall

theorem distinctIds_run (w : Write) (h : s.DistinctIds) : (w.run s refuses).2.DistinctIds := by
  cases w with
  | one now r =>
    have hinsert : (s.insert now r refuses).2.DistinctIds := distinctIds_placeNext h _
    rw [Write.run]
    split
    · rename_i heq
      rw [heq] at hinsert
      exact hinsert
    · rename_i heq
      rw [heq] at hinsert
      exact hinsert
  | batch clock rs => exact distinctIds_insertAll clock rs h
  | grab clock c downloadId downloadClient source => exact distinctIds_insertAll clock _ h
  | failure clock e => exact distinctIds_insertAll clock _ h

theorem distinctIds_after (ws : List Write) (h : s.DistinctIds) :
    (s.after ws refuses).DistinctIds := by
  induction ws generalizing s with
  | nil => exact h
  | cons w ws ih => exact ih (distinctIds_run w h)

end Store

end ReleaseWarden
