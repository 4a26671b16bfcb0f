import ReleaseWarden.Lists.Distinct

/-! Lists that may hold an element several times, but only in a row. Leaving out the repetitions
changes neither the elements of such a list nor which of them stands last. -/

set_option autoImplicit false

namespace ReleaseWarden

variable {α β : Type} {key : α → β} {a b : α} {as : List α}

/-- Elements of one key are equal, and between two of them stand only others of that key. -/
structure CopiesAdjoin (key : α → β) (as : List α) : Prop where
  eq_of_key_eq : ∀ a ∈ as, ∀ b ∈ as, key a = key b → a = b
  adjoin : ∀ front a mid b back, as = front ++ a :: (mid ++ b :: back) → key a = key b →
    ∀ m ∈ mid, key m = key a

namespace CopiesAdjoin

theorem tail (h : CopiesAdjoin key (a :: as)) : CopiesAdjoin key as := by
  constructor
  · intro b hb c hc
    exact h.eq_of_key_eq b (List.mem_cons_of_mem a hb) c (List.mem_cons_of_mem a hc)
  · rintro front b mid c back rfl
    exact h.adjoin (a :: front) b mid c back rfl

theorem of_pairwise (h : as.Pairwise fun a b => key a ≠ key b) : CopiesAdjoin key as := by
  constructor
  · intro a ha b hb
    exact eq_of_mem_of_key_eq h ha hb
  · rintro front a mid b back rfl heq
    have hrest := (List.pairwise_append.mp h).2.1
    have hne : key a ≠ key b := (List.pairwise_cons.mp hrest).1 b (by simp)
    exact absurd heq hne

theorem of_sorted {R : α → α → Prop} (hsorted : as.Pairwise fun a b => ¬ R b a)
    (heq : ∀ a ∈ as, ∀ b ∈ as, key a = key b → a = b)
    (hkey : ∀ a b, ¬ R a b → ¬ R b a → key a = key b) : CopiesAdjoin key as := by
  refine ⟨heq, ?_⟩
  rintro front a mid b back rfl hab m hm
  obtain rfl := heq a (by simp) b (by simp) hab
  obtain ⟨hfirst, hrest⟩ := List.pairwise_cons.mp (List.pairwise_append.mp hsorted).2.1
  have hma : ¬ R m a := hfirst m (List.mem_append_left _ hm)
  have ham : ¬ R a m := (List.pairwise_append.mp hrest).2.2 m hm a List.mem_cons_self
  exact hkey m a hma ham

variable [DecidableEq β]

theorem getLast?_distinctBy (h : CopiesAdjoin key as) :
    (distinctBy key as).getLast? = as.getLast? := by
  induction as with
  | nil => rfl
  | cons a as ih =>
    have hrest := ih h.tail
    rcases List.eq_nil_or_concat as with rfl | ⟨front, b, hconcat⟩
    · rfl
    · rw [List.concat_eq_append] at hconcat
      subst hconcat
      rw [distinctBy]
      by_cases hkey : key a = key b
      · -- All that follows are copies of the first element.
        have hall : ∀ c ∈ front ++ [b], key c = key a := by
          intro c hc
          rcases List.mem_append.mp hc with hc | hc
          · exact h.adjoin [] a front b [] rfl hkey c hc
          · rw [List.mem_singleton.mp hc, hkey]
        have hnone : (distinctBy key (front ++ [b])).filter (fun c => key c ≠ key a) = [] := by
          apply List.filter_eq_nil_iff.mpr
          intro c hc
          simpa using hall c ((distinctBy_sublist _).subset hc)
        have hab : a = b := h.eq_of_key_eq a (by simp) b (by simp) hkey
        rw [hnone, hab, ← List.cons_append, List.getLast?_concat]
        rfl
      · rw [List.getLast?_concat] at hrest
        obtain ⟨kept, hkept⟩ := List.getLast?_eq_some_iff.mp hrest
        have hb : [b].filter (fun c => key c ≠ key a) = [b] := by simp [Ne.symm hkey]
        rw [hkept, List.filter_append, hb, ← List.cons_append, ← List.cons_append,
          List.getLast?_concat, List.getLast?_concat]

end CopiesAdjoin

end ReleaseWarden
