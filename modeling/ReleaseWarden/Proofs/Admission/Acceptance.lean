import ReleaseWarden.Admission.Chain

/-! Acceptance. A chain accepts exactly if none of its rules holds anything against the candidate;
what that means for the rule on the queue is spelt out entry by entry. -/

set_option autoImplicit false

namespace ReleaseWarden

theorem Rule.judge_eq_accept_iff {on : Circumstances} {c : Candidate} {r : Rule} :
    r.judge on c = .ok .accept ↔ r.objection on c = .ok none := by
  unfold Rule.judge
  cases r.objection on c with
  | error e => exact iff_of_false nofun nofun
  | ok objection =>
    cases objection with
    | none => exact ⟨fun _ => rfl, fun _ => rfl⟩
    | some o => exact iff_of_false nofun nofun

namespace Checks

variable {on : Circumstances} {c : Candidate} {k : Check} {ks : Checks}

theorem judge_cons_of_accept (h : k.judge on c = .ok .accept) :
    Checks.judge on c (k :: ks) = Checks.judge on c ks := by
  rw [judge, h]
  rfl

theorem judge_cons_of_ne_accept (h : k.judge on c ≠ .ok .accept) :
    Checks.judge on c (k :: ks) = k.judge on c := by
  rw [judge]
  cases hk : k.judge on c with
  | error e => rfl
  | ok verdict =>
    cases verdict with
    | accept => exact absurd hk h
    | reject rejection => rfl

theorem judge_eq_accept_iff : Checks.judge on c ks = .ok .accept ↔
    ∀ k ∈ ks, k.judge on c = .ok .accept := by
  induction ks with
  | nil => exact iff_of_true rfl nofun
  | cons l ks ih =>
    rw [List.forall_mem_cons, ← ih]
    by_cases hl : l.judge on c = .ok .accept
    · rw [judge_cons_of_accept hl]
      exact (and_iff_right hl).symm
    · rw [judge_cons_of_ne_accept hl]
      exact iff_of_false hl fun h => hl h.1

end Checks

theorem Chain.judge_eq_accept_iff {on : Circumstances} {c : Candidate} {rs : Chain} :
    Chain.judge on c rs = .ok .accept ↔ ∀ r ∈ rs, r.objection on c = .ok none := by
  rw [Chain.judge, Checks.judge_eq_accept_iff, List.forall_mem_map]
  exact forall₂_congr fun r _ => Rule.judge_eq_accept_iff

namespace Circumstances

variable {on : Circumstances} {c : Candidate}

theorem objection_of_accept (h : on.judge c = .ok .accept) {r : Rule} (hr : r ∈ Chain.standard) :
    r.objection on c = .ok none := Chain.judge_eq_accept_iff.mp h r hr

theorem albumIds_ne_nil (h : on.judge c = .ok .accept) : c.albumIds ≠ [] := by
  intro hn
  have hq : on.qualityObjection c = none :=
    Except.ok.inj (objection_of_accept h (r := .qualityAllowed) (by decide))
  simp [qualityObjection, hn] at hq

theorem liveObjection_eq_none_iff {p : Profile} {es : List QueueEntry} :
    liveObjection p c es = .ok none ↔
      ∀ e ∈ es, e.state.isFailed = false →
        p.upgradeAllowed = true ∧ p.isUpgrade e.candidate.graded c.graded = .ok true := by
  induction es with
  | nil => exact iff_of_true rfl (fun _ h => by cases h)
  | cons e es ih =>
    rw [List.forall_mem_cons, ← ih, liveObjection]
    by_cases hf : e.state.isFailed = true
    · simp [hf]
    · by_cases hu : p.upgradeAllowed = true
      · simp only [hf, hu, Bool.not_true, Bool.false_eq_true, if_false]
        cases p.isUpgrade e.candidate.graded c.graded with
        | error cause =>
          exact iff_of_false (fun h => by cases h) (fun h => by cases (h.1 trivial).2)
        | ok upgrades =>
          cases upgrades with
          | false => exact iff_of_false (fun h => by cases h) (fun h => by cases (h.1 trivial).2)
          | true => exact ⟨fun h => ⟨fun _ => ⟨trivial, rfl⟩, h⟩, fun h => h.2⟩
      · simp only [hf, hu]
        exact iff_of_false (fun h => by cases h) (fun h => by cases (h.1 trivial).1)

theorem queueObjection_eq_none_iff :
    on.queueObjection c = .ok none ↔
      (∀ e ∈ on.queue, e.concerns c = false) ∨
        (c.isMultiAlbum = false ∧ ∀ e ∈ on.queue, e.concerns c = true →
          e.state.isFailed = false → on.profile.upgradeAllowed = true ∧
            on.profile.isUpgrade e.candidate.graded c.graded = .ok true) := by
  unfold queueObjection
  split
  · rename_i hnil
    have hall : ∀ e ∈ on.queue, e.concerns c = false := by
      intro e he
      simpa using List.filter_eq_nil_iff.mp hnil e he
    exact ⟨fun _ => .inl hall, fun _ => rfl⟩
  · rename_i first rest hcons
    have hfirst : first ∈ on.queue.filter (·.concerns c) := by rw [hcons]; exact List.mem_cons_self
    obtain ⟨hmem, hconcerns⟩ := List.mem_filter.mp hfirst
    have hsome : ¬ ∀ e ∈ on.queue, e.concerns c = false := by
      intro hall
      rw [hall first hmem] at hconcerns
      cases hconcerns
    split
    · rename_i hmulti
      apply iff_of_false nofun
      intro h
      rcases h with h | h
      · exact hsome h
      · rw [hmulti] at h
        cases h.1
    · rename_i hmulti
      rw [← hcons, liveObjection_eq_none_iff]
      constructor
      · intro h
        refine .inr ⟨by simpa using hmulti, fun e he hc hl => ?_⟩
        exact h e (List.mem_filter.mpr ⟨he, hc⟩) hl
      · rintro (h | h) e he hl
        · exact absurd h hsome
        · obtain ⟨he, hc⟩ := List.mem_filter.mp he
          exact h.2 e he hc hl

theorem isUpgrade_of_accept (h : on.judge c = .ok .accept) {e : QueueEntry} (he : e ∈ on.queue)
    (hc : e.concerns c = true) :
    c.isMultiAlbum = false ∧ (e.state.isFailed = false → on.profile.upgradeAllowed = true ∧
      on.profile.isUpgrade e.candidate.graded c.graded = .ok true) := by
  have hq : on.queueObjection c = .ok none :=
    objection_of_accept h (r := .queueConflict) (by decide)
  rcases queueObjection_eq_none_iff.mp hq with hn | ⟨hm, hl⟩
  · rw [hn e he] at hc
    cases hc
  · exact ⟨hm, hl e he hc⟩

end Circumstances

end ReleaseWarden
