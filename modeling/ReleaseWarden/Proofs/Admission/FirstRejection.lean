import ReleaseWarden.Proofs.Admission.Refusals

/-! First rejection wins, in every chain. The answer of a chain is that of its first rule that does
not accept, whatever stands behind it, and acceptance where there is none. Each rule may go by
thresholds and a queue of its own. -/

set_option autoImplicit false

namespace ReleaseWarden

variable {on : Circumstances} {c : Candidate} {r : Rule}

theorem Rule.rule_of_judge {rejection : Rejection}
    (h : r.judge on c = .ok (.reject rejection)) : rejection.rule = r := by
  obtain ⟨objection, hobjection, hverdict⟩ := bind_eq_ok_iff.mp h
  cases objection with
  | none => cases hverdict
  | some o =>
    cases hverdict
    exact Circumstances.rule_of_objection hobjection

theorem Check.rule_of_judge {k : Check} {rejection : Rejection}
    (h : k.judge on c = .ok (.reject rejection)) : rejection.rule = k.rule :=
  Rule.rule_of_judge h

namespace Checks

variable {k : Check} {ks : Checks}

theorem judge_first {front back : Checks} (hfront : ∀ l ∈ front, l.judge on c = .ok .accept)
    (h : k.judge on c ≠ .ok .accept) :
    Checks.judge on c (front ++ k :: back) = k.judge on c := by
  induction front with
  | nil => exact judge_cons_of_ne_accept h
  | cons l front ih =>
    obtain ⟨hl, hfront⟩ := List.forall_mem_cons.mp hfront
    rw [List.cons_append, judge_cons_of_accept hl]
    exact ih hfront

theorem exists_first (h : Checks.judge on c ks ≠ .ok .accept) :
    ∃ front k back, ks = front ++ k :: back ∧ (∀ l ∈ front, l.judge on c = .ok .accept) ∧
      k.judge on c ≠ .ok .accept := by
  induction ks with
  | nil => exact absurd rfl h
  | cons l ks ih =>
    by_cases hl : l.judge on c = .ok .accept
    · rw [judge_cons_of_accept hl] at h
      obtain ⟨front, k, back, hks, hfront, hk⟩ := ih h
      refine ⟨l :: front, k, back, by rw [hks, List.cons_append], ?_, hk⟩
      exact List.forall_mem_cons.mpr ⟨hl, hfront⟩
    · exact ⟨[], l, ks, rfl, nofun, hl⟩

theorem judge_eq_iff_first {answer : Scored Verdict} (h : answer ≠ .ok .accept) :
    Checks.judge on c ks = answer ↔ ∃ front k back, ks = front ++ k :: back ∧
      (∀ l ∈ front, l.judge on c = .ok .accept) ∧ k.judge on c = answer := by
  constructor
  · rintro rfl
    obtain ⟨front, k, back, hks, hfront, hk⟩ := exists_first h
    refine ⟨front, k, back, hks, hfront, ?_⟩
    rw [hks, judge_first hfront hk]
  · rintro ⟨front, k, back, rfl, hfront, rfl⟩
    exact judge_first hfront h

end Checks

namespace Chain

/-- First rejection wins, in every chain of rules, whatever thresholds and whatever queue each of
them goes by. The chain accepts if all rules do, in whatever order they stand. Otherwise it answers
as its first rule that does not accept, and the rules behind that one have no part in the answer: a
rejection bears the name of its rule, and the chain overflows if a rule does and every rule before
it accepts. -/
theorem first_rejection_wins (on : Circumstances) (c : Candidate) :
    (∀ ks : Checks, ks.judge on c = .ok .accept ↔ ∀ k ∈ ks, k.judge on c = .ok .accept) ∧
    (∀ ks ks' : Checks, ks.Perm ks' →
      (ks.judge on c = .ok .accept ↔ ks'.judge on c = .ok .accept)) ∧
    (∀ (front back : Checks) (k : Check), (∀ l ∈ front, l.judge on c = .ok .accept) →
      k.judge on c ≠ .ok .accept → Checks.judge on c (front ++ k :: back) = k.judge on c) ∧
    (∀ (ks : Checks) (rejection : Rejection), ks.judge on c = .ok (.reject rejection) ↔
      ∃ front k back, ks = front ++ k :: back ∧ (∀ l ∈ front, l.judge on c = .ok .accept) ∧
        k.judge on c = .ok (.reject rejection)) ∧
    (∀ (k : Check) (rejection : Rejection),
      k.judge on c = .ok (.reject rejection) → rejection.rule = k.rule) ∧
    (∀ (ks : Checks) (e : Overflow), ks.judge on c = .error e ↔
      ∃ front k back, ks = front ++ k :: back ∧ (∀ l ∈ front, l.judge on c = .ok .accept) ∧
        k.judge on c = .error e) ∧
    ∀ rs : Chain, rs.judge on c = Checks.judge on c (rs.map on.check) ∧
      ∀ r ∈ rs, (on.check r).judge on c = r.judge on c := by
  refine ⟨fun ks => Checks.judge_eq_accept_iff, ?_, fun front back k => Checks.judge_first, ?_,
    fun k rejection => Check.rule_of_judge, ?_, fun rs => ⟨rfl, fun r _ => rfl⟩⟩
  · intro ks ks' hperm
    rw [Checks.judge_eq_accept_iff, Checks.judge_eq_accept_iff]
    exact forall_congr' fun k => by rw [hperm.mem_iff]
  · intro ks rejection
    exact Checks.judge_eq_iff_first fun h => nomatch h
  · intro ks e
    exact Checks.judge_eq_iff_first fun h => nomatch h

end Chain

/-- Nothing of the release is known but that it is encrypted, and its tags add up to more than a
score can be. -/
def sealedRelease : Candidate where
  artistId := 7
  albumIds := [40]
  grade := ⟨⟨13, "FLAC"⟩, {}⟩
  formats := [{ id := 1, name := "Preferred Group" }, { id := 1, name := "Preferred Group" }]
  release := { title := "Artist - Album", encrypted := true }

def sealedOffer : Circumstances where
  profile :=
    { upgradeAllowed := true, cutoff := 13, items := [⟨⟨13, "FLAC"⟩, true⟩]
      formatScores := [⟨{ id := 1, name := "Preferred Group" }, 0x7fffffff⟩] }

/-- Behind the rule on encryption the rule on scores is not asked; before it, it overflows. The rule
on encryption stands there twice, once without effect. -/
theorem sealedRelease_refused_before_overflow :
    Checks.judge sealedOffer sealedRelease [⟨.encryption, { rejectEncrypted := false }, []⟩,
          ⟨.encryption, {}, []⟩, ⟨.minimumFormatScore, {}, []⟩] =
        .ok (.reject ⟨.encryption, "Release is encrypted"⟩) ∧
      Chain.judge sealedOffer sealedRelease [.size, .minimumFormatScore, .encryption] =
        .error .formatScore := by
  obtain ⟨_, _, hfirst, _, _, hoverflow, hchain⟩ :=
    Chain.first_rejection_wins sealedOffer sealedRelease
  constructor
  · exact hfirst [⟨.encryption, { rejectEncrypted := false }, []⟩]
      [⟨.minimumFormatScore, {}, []⟩] ⟨.encryption, {}, []⟩ (List.forall_mem_singleton.mpr rfl)
      (fun h => nomatch h)
  · rw [(hchain _).1]
    exact (hoverflow _ _).mpr ⟨[⟨.size, {}, []⟩], ⟨.minimumFormatScore, {}, []⟩,
      [⟨.encryption, {}, []⟩], rfl, List.forall_mem_singleton.mpr rfl, rfl⟩

end ReleaseWarden
