/-! Lists without repetition: the first of several elements with one key stays, and integers are
put in increasing order. -/

set_option autoImplicit false

namespace ReleaseWarden

/-- Keeps the first element of each key. -/
def distinctBy {α β : Type} [DecidableEq β] (key : α → β) : List α → List α
  | [] => []
  | a :: as => a :: (distinctBy key as).filter fun b => key b ≠ key a

def insertIncreasing (n : Int64) : List Int64 → List Int64
  | [] => [n]
  | m :: ms =>
    if n.toInt < m.toInt then n :: m :: ms
    else if n = m then m :: ms
    else m :: insertIncreasing n ms

/-- The elements of a list, each once, in increasing order. -/
def increasing (ns : List Int64) : List Int64 := ns.foldr insertIncreasing []

section

variable {α β : Type} [DecidableEq β] {key : α → β}

theorem distinctBy_sublist (as : List α) : (distinctBy key as).Sublist as := by
  induction as with
  | nil => exact .slnil
  | cons a as ih => exact (List.filter_sublist.trans ih).cons_cons a

theorem distinctBy_pairwise (as : List α) :
    (distinctBy key as).Pairwise fun a b => key a ≠ key b := by
  induction as with
  | nil => exact .nil
  | cons a as ih =>
    refine List.pairwise_cons.mpr ⟨fun b hb => ?_, ih.filter _⟩
    have := (List.mem_filter.mp hb).2
    exact fun h => by simp [h] at this

theorem exists_mem_distinctBy {a : α} {as : List α} (h : a ∈ as) :
    ∃ b ∈ distinctBy key as, key b = key a := by
  induction as with
  | nil => cases h
  | cons c as ih =>
    by_cases hc : key c = key a
    · exact ⟨c, by simp [distinctBy], hc⟩
    · rcases List.mem_cons.mp h with rfl | h
      · exact absurd rfl hc
      · obtain ⟨b, hb, hba⟩ := ih h
        refine ⟨b, ?_, hba⟩
        simp only [distinctBy, List.mem_cons, List.mem_filter]
        exact .inr ⟨hb, by simpa [hba] using fun h => hc h.symm⟩

omit [DecidableEq β] in
theorem eq_of_mem_of_key_eq {a b : α} {as : List α} (h : as.Pairwise fun a b => key a ≠ key b)
    (ha : a ∈ as) (hb : b ∈ as) (heq : key a = key b) : a = b := by
  have hpair : as.Pairwise fun x y => key x = key y → x = y :=
    h.imp fun hne heq => absurd heq hne
  have hflip : as.Pairwise (flip fun x y => key x = key y → x = y) :=
    h.imp fun hne heq => absurd heq.symm hne
  exact hpair.forall_of_forall_of_flip (fun _ _ _ => rfl) hflip ha hb heq

theorem distinctBy_eq_self {as : List α} (h : as.Pairwise fun a b => key a ≠ key b) :
    distinctBy key as = as := by
  induction as with
  | nil => rfl
  | cons a as ih =>
    obtain ⟨ha, has⟩ := List.pairwise_cons.mp h
    rw [distinctBy, ih has]
    congr 1
    apply List.filter_eq_self.mpr
    intro b hb
    simpa using (ha b hb).symm

theorem distinctBy_distinctBy (as : List α) :
    distinctBy key (distinctBy key as) = distinctBy key as :=
  distinctBy_eq_self (distinctBy_pairwise as)

theorem distinctBy_eq_nil_iff {as : List α} : distinctBy key as = [] ↔ as = [] := by
  cases as <;> simp [distinctBy]

theorem mem_distinctBy_iff {a : α} {as : List α} :
    a ∈ distinctBy key as ↔ as.find? (fun b => key b = key a) = some a := by
  induction as with
  | nil => simp [distinctBy]
  | cons c as ih =>
    rw [distinctBy, List.mem_cons, List.mem_filter, ih, List.find?_cons]
    by_cases hc : key c = key a
    · simp [hc, eq_comm]
    · have hne : a ≠ c := fun h => hc (congrArg key h.symm)
      simp [hc, hne, Ne.symm hc]

theorem mem_distinctBy_of_eq {a : α} {as : List α}
    (h : ∀ a ∈ as, ∀ b ∈ as, key a = key b → a = b) : a ∈ distinctBy key as ↔ a ∈ as := by
  constructor
  · exact fun ha => (distinctBy_sublist as).subset ha
  · intro ha
    have hkept : ∃ b ∈ distinctBy key as, key b = key a := exists_mem_distinctBy ha
    obtain ⟨b, hb, hkey⟩ := hkept
    exact h b ((distinctBy_sublist as).subset hb) a ha hkey ▸ hb

theorem map_distinctBy (as : List α) :
    (distinctBy key as).map key = distinctBy id (as.map key) := by
  induction as with
  | nil => rfl
  | cons a as ih =>
    rw [distinctBy, List.map_cons, List.map_cons, distinctBy, ← ih, List.filter_map]
    rfl

theorem distinctBy_map_distinctBy (as : List α) :
    distinctBy id ((distinctBy key as).map key) = distinctBy id (as.map key) := by
  rw [map_distinctBy, distinctBy_distinctBy]

theorem mem_distinctBy_id [DecidableEq α] {a : α} {as : List α} :
    a ∈ distinctBy id as ↔ a ∈ as := by
  constructor
  · exact fun h => (distinctBy_sublist as).subset h
  · intro h
    have hkey : ∃ b ∈ distinctBy id as, id b = id a := exists_mem_distinctBy h
    obtain ⟨b, hb, rfl⟩ := hkey
    exact hb

theorem distinctBy_id_pairwise (bs : List β) :
    (distinctBy id bs).Pairwise fun b c => bs.idxOf b < bs.idxOf c := by
  induction bs with
  | nil => exact .nil
  | cons b bs ih =>
    have hlater {c : β} (h : c ≠ b) : (b :: bs).idxOf c = bs.idxOf c + 1 := by
      rw [List.idxOf_cons, beq_false_of_ne h.symm, cond_false]
    rw [distinctBy]
    refine List.pairwise_cons.mpr ⟨fun c hc => ?_, List.pairwise_filter.mpr (ih.imp ?_)⟩
    · have hne : c ≠ b := by simpa using (List.mem_filter.mp hc).2
      rw [List.idxOf_cons_self, hlater hne]
      exact Nat.succ_pos _
    · intro c d hlt hc hd
      rw [hlater (by simpa using hc), hlater (by simpa using hd)]
      exact Nat.succ_lt_succ hlt

end

theorem mem_insertIncreasing {n m : Int64} {ms : List Int64} :
    m ∈ insertIncreasing n ms ↔ m = n ∨ m ∈ ms := by
  induction ms with
  | nil => simp [insertIncreasing]
  | cons k ms ih =>
    simp only [insertIncreasing]
    split
    · simp
    · split
      · next h => subst h; simp
      · simp [ih, or_left_comm]

theorem insertIncreasing_pairwise {n : Int64} {ms : List Int64}
    (h : ms.Pairwise fun a b => a.toInt < b.toInt) :
    (insertIncreasing n ms).Pairwise fun a b => a.toInt < b.toInt := by
  induction ms with
  | nil => simp [insertIncreasing]
  | cons k ms ih =>
    obtain ⟨hk, hms⟩ := List.pairwise_cons.mp h
    simp only [insertIncreasing]
    split
    · next hlt =>
      refine List.pairwise_cons.mpr ⟨fun b hb => ?_, h⟩
      rcases List.mem_cons.mp hb with rfl | hb
      · exact hlt
      · exact Int.lt_trans hlt (hk b hb)
    · split
      · exact h
      · next hnlt hne =>
        refine List.pairwise_cons.mpr ⟨fun b hb => ?_, ih hms⟩
        rcases mem_insertIncreasing.mp hb with rfl | hb
        · have : b.toInt ≠ k.toInt := fun he => hne (Int64.toInt_inj.mp he)
          omega
        · exact hk b hb

@[simp] theorem mem_increasing {n : Int64} {ns : List Int64} : n ∈ increasing ns ↔ n ∈ ns := by
  induction ns with
  | nil => simp [increasing]
  | cons m ns ih =>
    simp only [increasing, List.foldr_cons] at ih ⊢
    simp [mem_insertIncreasing, ih]

theorem increasing_pairwise (ns : List Int64) :
    (increasing ns).Pairwise fun a b => a.toInt < b.toInt := by
  induction ns with
  | nil => exact .nil
  | cons n ns ih => exact insertIncreasing_pairwise ih

theorem increasing_nodup (ns : List Int64) : (increasing ns).Nodup := by
  apply (increasing_pairwise ns).imp
  intro a b hlt heq
  subst heq
  exact Int.lt_irrefl _ hlt

theorem increasing_congr {ns ms : List Int64} (h : ∀ n, n ∈ ns ↔ n ∈ ms) :
    increasing ns = increasing ms := by
  have hn := increasing_pairwise ns
  have hm := increasing_pairwise ms
  apply List.Perm.eq_of_pairwise _ hn hm
  · apply (List.perm_ext_iff_of_nodup (increasing_nodup ns) (increasing_nodup ms)).mpr
    intro n
    rw [mem_increasing, mem_increasing, h n]
  · intro a b _ _ hab hba
    omega

theorem increasing_map_distinctBy {α β : Type} [DecidableEq β] {key : α → β} {as : List α}
    (h : ∀ a ∈ as, ∀ b ∈ as, key a = key b → a = b) (f : α → Int64) :
    increasing ((distinctBy key as).map f) = increasing (as.map f) := by
  apply increasing_congr
  intro n
  simp only [List.mem_map, mem_distinctBy_of_eq h]

end ReleaseWarden
