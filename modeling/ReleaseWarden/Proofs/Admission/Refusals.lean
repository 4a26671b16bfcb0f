import ReleaseWarden.Proofs.Admission.Acceptance
import ReleaseWarden.Proofs.Admission.Demands

/-! Where a chain stops. The decision of a chain is the rule that turns the candidate away, if
any; what the rules behind it say has no part in it. -/

set_option autoImplicit false

namespace ReleaseWarden

def Verdict.rule? (v : Verdict) : Option Rule := v.rejection?.map Rejection.rule

namespace Circumstances

variable {on : Circumstances} {c : Candidate} {o : Objection}

theorem rule_of_qualityObjection (h : on.qualityObjection c = some o) :
    o.rule = .qualityAllowed := by
  unfold qualityObjection at h
  split at h
  · cases h
    rfl
  · split at h
    · cases h
    · cases h
      rfl

theorem rule_of_upgradeObjection (h : on.upgradeObjection c = .ok (some o)) :
    o.rule = .upgradePermitted := by
  unfold upgradeObjection at h
  split at h
  · cases h
  · obtain ⟨blocked, _, hmap⟩ := bind_eq_ok_iff.mp h
    obtain ⟨held, _, rfl⟩ := Option.map_eq_some_iff.mp (Except.ok.inj hmap)
    rfl

theorem rule_of_scoreObjection (h : on.scoreObjection c = .ok (some o)) :
    o.rule = .minimumFormatScore := by
  obtain ⟨score, _, hscore⟩ := bind_eq_ok_iff.mp h
  dsimp only at hscore
  split at hscore
  · cases hscore
  · cases hscore
    rfl

theorem rule_of_sizeObjection (h : on.sizeObjection c = some o) : o.rule = .size := by
  unfold sizeObjection at h
  split at h
  · cases h
  · split at h
    · cases h
      rfl
    · dsimp only at h
      split at h
      · cases h
        rfl
      · cases h
        rfl
      · cases h

theorem rule_of_seedersObjection (h : on.seedersObjection c = some o) : o.rule = .seeders := by
  unfold seedersObjection at h
  split at h
  · cases h
  · split at h
    · split at h
      · cases h
        rfl
      · split at h
        · cases h
          rfl
        · cases h
    · cases h

theorem rule_of_ageObjection (h : on.ageObjection c = some o) : o.rule = .age := by
  unfold ageObjection at h
  split at h
  · dsimp only at h
    split at h
    · cases h
    · split at h
      · cases h
        rfl
      · split at h
        · cases h
          rfl
        · cases h
          rfl
        · cases h
  · cases h

theorem rule_of_encryptionObjection (h : on.encryptionObjection c = some o) :
    o.rule = .encryption := by
  unfold encryptionObjection at h
  split at h
  · cases h
    rfl
  · cases h

theorem rule_of_liveObjection {p : Profile} {es : List QueueEntry}
    (h : liveObjection p c es = .ok (some o)) : o.rule = .queueConflict := by
  induction es with
  | nil => cases h
  | cons e es ih =>
    rw [liveObjection] at h
    split at h
    · exact ih h
    · split at h
      · cases h
        rfl
      · obtain ⟨upgrades, _, hrest⟩ := bind_eq_ok_iff.mp h
        split at hrest
        · exact ih hrest
        · cases hrest
          rfl

theorem rule_of_queueObjection (h : on.queueObjection c = .ok (some o)) :
    o.rule = .queueConflict := by
  unfold queueObjection at h
  split at h
  · cases h
  · split at h
    · cases h
      rfl
    · exact rule_of_liveObjection h

theorem rule_of_objection {r : Rule} (h : r.objection on c = .ok (some o)) : o.rule = r := by
  cases r with
  | qualityAllowed => exact rule_of_qualityObjection (Except.ok.inj h)
  | upgradePermitted => exact rule_of_upgradeObjection h
  | minimumFormatScore => exact rule_of_scoreObjection h
  | size => exact rule_of_sizeObjection (Except.ok.inj h)
  | seeders => exact rule_of_seedersObjection (Except.ok.inj h)
  | age => exact rule_of_ageObjection (Except.ok.inj h)
  | encryption => exact rule_of_encryptionObjection (Except.ok.inj h)
  | queueConflict => exact rule_of_queueObjection h

end Circumstances

def Rule.refuses (on : Circumstances) (c : Candidate) (r : Rule) : Scored Bool :=
  (r.objection on c).map Option.isSome

namespace Chain

variable {on on' : Circumstances} {c c' : Candidate} {r : Rule} {rs : Chain}

theorem judge_cons_of_none (h : r.objection on c = .ok none) :
    Chain.judge on c (r :: rs) = Chain.judge on c rs := by
  rw [judge_cons, Rule.judge_eq_accept_iff.mpr h]
  rfl

theorem judge_cons_of_some {o : Objection} (h : r.objection on c = .ok (some o)) :
    Chain.judge on c (r :: rs) = .ok (.reject o.rejection) := by
  rw [judge_cons, Rule.judge, h]
  rfl

theorem judge_cons_of_error {e : Overflow} (h : r.objection on c = .error e) :
    Chain.judge on c (r :: rs) = .error e := by
  rw [judge_cons, Rule.judge, h]
  rfl

theorem judge_congr (h : ∀ r ∈ rs, r.objection on' c' = r.objection on c) :
    rs.judge on' c' = rs.judge on c := by
  induction rs with
  | nil => rfl
  | cons r rs ih =>
    obtain ⟨hr, hrs⟩ := List.forall_mem_cons.mp h
    rw [judge_cons, judge_cons, Rule.judge, Rule.judge, hr, ih hrs]

theorem exists_of_judge_eq_error {e : Overflow} (h : rs.judge on c = .error e) :
    ∃ r ∈ rs, r.objection on c = .error e ∧
      ∀ s ∈ rs.takeWhile (· ≠ r), s.objection on c = .ok none := by
  induction rs with
  | nil => cases h
  | cons r rs ih =>
    cases hr : r.objection on c with
    | error e' =>
      rw [judge_cons_of_error hr] at h
      cases h
      exact ⟨r, List.mem_cons_self, hr, by simp⟩
    | ok objection =>
      cases objection with
      | some o =>
        rw [judge_cons_of_some hr] at h
        cases h
      | none =>
        rw [judge_cons_of_none hr] at h
        obtain ⟨s, hs, herror, hbefore⟩ := ih h
        have hne : r ≠ s := by
          rintro rfl
          rw [hr] at herror
          cases herror
        refine ⟨s, List.mem_cons_of_mem r hs, herror, ?_⟩
        rw [List.takeWhile_cons_of_pos (by simpa using hne)]
        exact List.forall_mem_cons.mpr ⟨hr, hbefore⟩

/-- A chain overflows exactly if a rule does and the rules before it have nothing against the
candidate. -/
theorem judge_eq_error_iff {e : Overflow} : rs.judge on c = .error e ↔
    ∃ r ∈ rs, r.objection on c = .error e ∧
      ∀ s ∈ rs.takeWhile (· ≠ r), s.objection on c = .ok none := by
  refine ⟨exists_of_judge_eq_error, ?_⟩
  rintro ⟨r, hr, herror, hbefore⟩
  induction rs with
  | nil => cases hr
  | cons s rs ih =>
    by_cases hs : s = r
    · subst s
      exact judge_cons_of_error herror
    · rw [List.takeWhile_cons_of_pos (by simpa using hs)] at hbefore
      obtain ⟨hnone, hbefore⟩ := List.forall_mem_cons.mp hbefore
      rw [judge_cons_of_none hnone]
      exact ih (List.mem_of_ne_of_mem (Ne.symm hs) hr) hbefore

/-- What the chain decides: the rule that turns the candidate away, and nothing if it is
accepted. -/
def refusal (on : Circumstances) (c : Candidate) (rs : Chain) : Scored (Option Rule) :=
  (rs.judge on c).map Verdict.rule?

theorem refusal_congr (h : ∀ r ∈ rs, r.objection on' c' = r.objection on c) :
    rs.refusal on' c' = rs.refusal on c := by
  rw [refusal, judge_congr h, refusal]

theorem refusal_cons_of_none (h : r.objection on c = .ok none) :
    Chain.refusal on c (r :: rs) = Chain.refusal on c rs := by
  rw [refusal, judge_cons_of_none h, refusal]

theorem refusal_cons_of_some {o : Objection} (h : r.objection on c = .ok (some o)) :
    Chain.refusal on c (r :: rs) = .ok (some r) := by
  rw [refusal, judge_cons_of_some h]
  exact congrArg (fun r => Except.ok (some r)) (Circumstances.rule_of_objection h)

theorem refusal_cons_of_error {e : Overflow} (h : r.objection on c = .error e) :
    Chain.refusal on c (r :: rs) = .error e := by
  rw [refusal, judge_cons_of_error h]
  rfl

theorem mem_of_refusal (h : rs.refusal on c = .ok (some r)) : r ∈ rs := by
  induction rs with
  | nil => cases h
  | cons s rs ih =>
    cases hs : s.objection on c with
    | error e =>
      rw [refusal_cons_of_error hs] at h
      cases h
    | ok objection =>
      cases objection with
      | none =>
        rw [refusal_cons_of_none hs] at h
        exact List.mem_cons_of_mem s (ih h)
      | some o =>
        rw [refusal_cons_of_some hs] at h
        cases h
        exact List.mem_cons_self

theorem refusal_singleton_iff : Chain.refusal on c [r] = .ok (some r) ↔
    ∃ o, r.objection on c = .ok (some o) := by
  cases hr : r.objection on c with
  | error e =>
    rw [refusal_cons_of_error hr]
    exact iff_of_false nofun nofun
  | ok objection =>
    cases objection with
    | none =>
      rw [refusal_cons_of_none hr]
      exact iff_of_false nofun nofun
    | some o =>
      rw [refusal_cons_of_some hr]
      exact iff_of_true rfl ⟨o, rfl⟩

theorem refusal_congr_of_refuses (h : ∀ r ∈ rs, r.refuses on' c' = r.refuses on c) :
    rs.refusal on' c' = rs.refusal on c := by
  induction rs with
  | nil => rfl
  | cons r rs ih =>
    obtain ⟨hr, hrs⟩ := List.forall_mem_cons.mp h
    unfold Rule.refuses at hr
    cases hon : r.objection on c with
    | error e =>
      rw [hon] at hr
      rw [refusal_cons_of_error hon, refusal_cons_of_error (map_eq_error_iff.mp hr)]
    | ok objection =>
      rw [hon] at hr
      obtain ⟨objection', hon', hsome⟩ := map_eq_ok_iff.mp hr
      cases objection with
      | none =>
        obtain rfl : objection' = none := Option.isNone_iff_eq_none.mp (by simpa using hsome)
        rw [refusal_cons_of_none hon, refusal_cons_of_none hon', ih hrs]
      | some o =>
        obtain ⟨o', rfl⟩ := Option.isSome_iff_exists.mp hsome
        rw [refusal_cons_of_some hon, refusal_cons_of_some hon']

theorem refusal_cons_iff {x x' : Option Objection} (hr : r ∉ rs) (h : r.objection on c = .ok x)
    (h' : r.objection on' c' = .ok x') :
    Chain.refusal on' c' (r :: rs) = Chain.refusal on c (r :: rs) ↔
      (x' = none ↔ x = none) ∧
        (x = none → Chain.refusal on' c' rs = Chain.refusal on c rs) := by
  cases x with
  | none =>
    rw [refusal_cons_of_none h]
    cases x' with
    | none =>
      rw [refusal_cons_of_none h']
      simp
    | some o =>
      rw [refusal_cons_of_some h']
      apply iff_of_false
      · intro heq
        exact hr (mem_of_refusal heq.symm)
      · simp
  | some o =>
    rw [refusal_cons_of_some h]
    cases x' with
    | none =>
      rw [refusal_cons_of_none h']
      apply iff_of_false
      · intro heq
        exact hr (mem_of_refusal heq)
      · simp
    | some o' =>
      rw [refusal_cons_of_some h']
      simp

/-- Rules in front that say the same leave the decision to the rules behind them, where they let
the candidate pass. -/
theorem refusal_append_iff {front : Chain}
    (h : ∀ r ∈ front, r.objection on' c' = r.objection on c) :
    Chain.refusal on' c' (front ++ rs) = Chain.refusal on c (front ++ rs) ↔
      ((∀ r ∈ front, r.objection on c = .ok none) →
        Chain.refusal on' c' rs = Chain.refusal on c rs) := by
  induction front with
  | nil => simp
  | cons r front ih =>
    obtain ⟨hr, hfront⟩ := List.forall_mem_cons.mp h
    rw [List.cons_append, List.forall_mem_cons]
    cases hon : r.objection on c with
    | error e =>
      rw [refusal_cons_of_error hon, refusal_cons_of_error (hr.trans hon)]
      exact iff_of_true rfl fun hnone => nomatch hnone.1
    | ok objection =>
      cases objection with
      | some o =>
        rw [refusal_cons_of_some hon, refusal_cons_of_some (hr.trans hon)]
        exact iff_of_true rfl fun hnone => nomatch hnone.1
      | none =>
        rw [refusal_cons_of_none hon, refusal_cons_of_none (hr.trans hon), ih hfront]
        simp

end Chain

end ReleaseWarden
