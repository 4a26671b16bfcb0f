/-! Tables from texts to texts. The entries are kept in increasing order of their keys, so that
tables with the same entries are equal. -/

set_option autoImplicit false

namespace ReleaseWarden.Text

/-- A finite map from texts to texts. -/
structure Table where
  entries : List (String × String)
  sorted : entries.Pairwise (fun a b => a.1 < b.1)
  deriving DecidableEq, Repr

namespace Table

instance : Inhabited Table := ⟨⟨[], .nil⟩⟩

def empty : Table := ⟨[], .nil⟩

theorem eq_of_entries_eq {t u : Table} (h : t.entries = u.entries) : t = u := by
  cases t
  cases u
  cases h
  rfl

/-- Puts an entry before the first greater key; an equal key gives way. -/
def put (key value : String) : List (String × String) → List (String × String)
  | [] => [(key, value)]
  | (k, v) :: rest =>
    if key < k then (key, value) :: (k, v) :: rest
    else if key = k then (key, value) :: rest
    else (k, v) :: put key value rest

theorem mem_put {key value : String} {e : String × String} {es : List (String × String)}
    (h : e ∈ put key value es) : e = (key, value) ∨ e ∈ es := by
  induction es with
  | nil => simpa [put] using h
  | cons a rest ih =>
    obtain ⟨k, v⟩ := a
    simp only [put] at h
    split at h
    · simpa using h
    · split at h
      · rcases List.mem_cons.mp h with h | h
        · exact .inl h
        · exact .inr (List.mem_cons_of_mem _ h)
      · rcases List.mem_cons.mp h with h | h
        · exact .inr (by simp [h])
        · exact (ih h).imp_right (List.mem_cons_of_mem _)

theorem put_sorted {key value : String} {es : List (String × String)}
    (h : es.Pairwise fun a b => a.1 < b.1) :
    (put key value es).Pairwise fun a b => a.1 < b.1 := by
  induction es with
  | nil => simp [put]
  | cons a rest ih =>
    obtain ⟨k, v⟩ := a
    obtain ⟨hk, hr⟩ := List.pairwise_cons.mp h
    simp only [put]
    split
    · next hlt =>
      refine List.pairwise_cons.mpr ⟨fun e he => ?_, h⟩
      rcases List.mem_cons.mp he with rfl | he
      · exact hlt
      · exact String.lt_trans hlt (hk e he)
    · next hlt =>
      split
      · next heq =>
        subst heq
        exact List.pairwise_cons.mpr ⟨hk, hr⟩
      · next hne =>
        refine List.pairwise_cons.mpr ⟨fun e he => ?_, ih hr⟩
        rcases mem_put he with rfl | he
        · have hle : k ≤ key := String.not_lt.mp hlt
          exact Std.lt_of_le_of_ne hle (Ne.symm hne)
        · exact hk e he

theorem find?_put_self (key value : String) (es : List (String × String)) :
    (put key value es).find? (fun e => e.1 == key) = some (key, value) := by
  induction es with
  | nil => simp [put]
  | cons a rest ih =>
    obtain ⟨k, v⟩ := a
    simp only [put]
    split
    · simp
    · split
      · simp
      · next hne => simpa [Ne.symm hne] using ih

theorem find?_put_of_ne {key k : String} (h : k ≠ key) (value : String)
    (es : List (String × String)) :
    (put key value es).find? (fun e => e.1 == k) = es.find? fun e => e.1 == k := by
  induction es with
  | nil => simp [put, h.symm]
  | cons a rest ih =>
    obtain ⟨k', v⟩ := a
    simp only [put]
    split
    · simp [h.symm]
    · split
      · next heq =>
        subst heq
        simp [h.symm]
      · rw [List.find?_cons, List.find?_cons, ih]

def insert (t : Table) (key value : String) : Table :=
  ⟨put key value t.entries, put_sorted t.sorted⟩

def get? (t : Table) (key : String) : Option String :=
  (t.entries.find? fun e => e.1 == key).map Prod.snd

theorem get?_insert (t : Table) (key value k : String) :
    (t.insert key value).get? k = if k = key then some value else t.get? k := by
  unfold get? insert
  split
  · next heq =>
    subst heq
    rw [find?_put_self, Option.map_some]
  · next hne => rw [find?_put_of_ne hne]

/-- Of entries with one key the last one stays. -/
def ofList (es : List (String × String)) : Table :=
  es.foldl (fun t e => t.insert e.1 e.2) empty

theorem put_perm {key value : String} {es : List (String × String)} (h : ∀ e ∈ es, e.1 ≠ key) :
    (put key value es).Perm ((key, value) :: es) := by
  induction es with
  | nil => exact .refl _
  | cons e es ih =>
    obtain ⟨k, v⟩ := e
    obtain ⟨hk, hes⟩ := List.forall_mem_cons.mp h
    have hne : key ≠ k := fun heq => hk heq.symm
    rw [put, if_neg hne]
    split
    · exact .refl _
    · exact ((ih hes).cons (k, v)).trans (.swap (key, value) (k, v) es)

theorem entries_foldl_insert_perm {t : Table} {es : List (String × String)}
    (h : (t.entries ++ es).Pairwise fun a b => a.1 ≠ b.1) :
    (es.foldl (fun t e => t.insert e.1 e.2) t).entries.Perm (t.entries ++ es) := by
  induction es generalizing t with
  | nil => rw [List.foldl_nil, List.append_nil]
  | cons e es ih =>
    have hfront : (t.insert e.1 e.2).entries.Perm (e :: t.entries) := by
      apply put_perm
      intro a ha
      exact (List.pairwise_append.mp h).2.2 a ha e List.mem_cons_self
    have hall : ((t.insert e.1 e.2).entries ++ es).Perm (t.entries ++ e :: es) :=
      (hfront.append_right es).trans List.perm_middle.symm
    rw [List.foldl_cons]
    exact (ih ((hall.pairwise_iff Ne.symm).mpr h)).trans hall

theorem ofList_of_perm {t : Table} {es : List (String × String)} (h : es.Perm t.entries) :
    ofList es = t := by
  have hdistinct : es.Pairwise fun a b => a.1 ≠ b.1 := by
    apply (h.pairwise_iff Ne.symm).mpr
    apply t.sorted.imp
    intro a b hlt heq
    exact String.lt_irrefl b.1 (heq ▸ hlt)
  have hperm : (ofList es).entries.Perm t.entries :=
    (entries_foldl_insert_perm (t := empty) hdistinct).trans h
  apply eq_of_entries_eq
  apply List.Perm.eq_of_pairwise _ (ofList es).sorted t.sorted hperm
  intro a b _ _ hab hba
  exact absurd hba (String.lt_asymm hab)

end Table

end ReleaseWarden.Text
