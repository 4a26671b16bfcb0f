import ReleaseWarden.Proofs.Outcome
import ReleaseWarden.Ranking

/-! Comparisons read from the other side. Exchanging the two releases turns every preference
round; a sum of scores that overflows does so from either side. -/

set_option autoImplicit false

namespace ReleaseWarden

namespace Preference

theorem reverse_ofOrdering (o : Ordering) : (ofOrdering o).reverse = ofOrdering o.swap := by
  cases o <;> rfl

end Preference

namespace Revision

theorem swap_order (a b : Revision) : (a.order b).swap = b.order a := by
  unfold order
  rw [Ordering.swap_then, Int.compare_swap, Int.compare_swap]

end Revision

namespace Profile

variable (p : Profile)

theorem swap_gradeOrder (a b : Grade) : (p.gradeOrder a b).swap = p.gradeOrder b a := by
  unfold gradeOrder
  rw [Ordering.swap_then, Nat.compare_swap]
  split
  · rfl
  · rw [Revision.swap_order]

theorem prefer_of_ne_eq {held candidate : Graded}
    (h : p.gradeOrder candidate.grade held.grade ≠ .eq) :
    p.prefer held candidate =
      .ok (.ofOrdering (p.gradeOrder candidate.grade held.grade)) := by
  unfold prefer
  split
  · contradiction
  · rfl

theorem prefer_of_eq {held candidate : Graded}
    (h : p.gradeOrder candidate.grade held.grade = .eq) :
    p.prefer held candidate = (do
      let heldScore ← p.formatScore held.formats
      let score ← p.formatScore candidate.formats
      pure (.ofOrdering (compare score heldScore))) := by
  unfold prefer
  rw [h]

theorem prefer_swap (a b : Graded) : p.prefer b a = (p.prefer a b).map Preference.reverse := by
  by_cases h : p.gradeOrder b.grade a.grade = .eq
  · have h' : p.gradeOrder a.grade b.grade = .eq := by
      rw [← swap_gradeOrder, h]
      rfl
    rw [p.prefer_of_eq h, p.prefer_of_eq h']
    cases p.formatScore a.formats with
    | error e =>
      cases e
      cases p.formatScore b.formats with
      | error e =>
        cases e
        rfl
      | ok s => rfl
    | ok r =>
      cases p.formatScore b.formats with
      | error e => rfl
      | ok s =>
        show Except.ok (Preference.ofOrdering (compare r s)) =
          Except.ok (Preference.ofOrdering (compare s r)).reverse
        rw [Preference.reverse_ofOrdering, Int.compare_swap]
  · have h' : p.gradeOrder a.grade b.grade ≠ .eq := by
      intro he
      rw [← swap_gradeOrder, he] at h
      exact h rfl
    rw [p.prefer_of_ne_eq h, p.prefer_of_ne_eq h', ← swap_gradeOrder]
    exact congrArg Except.ok (Preference.reverse_ofOrdering _).symm

theorem prefer_of_isUpgrade {held candidate : Graded}
    (h : p.isUpgrade held candidate = .ok true) : p.prefer held candidate = .ok .better := by
  unfold isUpgrade at h
  split at h
  · cases h
  · obtain ⟨preference, hp, hb⟩ := bind_eq_ok_iff.mp h
    have hbetter : decide (preference = .better) = true := Except.ok.inj hb
    rw [hp, of_decide_eq_true hbetter]

end Profile

end ReleaseWarden
