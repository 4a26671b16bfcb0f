import ReleaseWarden.Proofs.Admission.Albums

/-! The rule on the queue. It looks through the queue up to the first entry that a candidate may not
stand beside, and answers for that entry alone; what stands behind it is not looked at. -/

set_option autoImplicit false

namespace ReleaseWarden

/-- The tier and, unless the release is a plain first issue, its revision. -/
def Grade.shown (g : Grade) : String :=
  g.quality.name ++
    if 1 < g.revision.version ∨ 0 < g.revision.real then
      " v" ++ toString g.revision.version.toInt ++ if 0 < g.revision.real then " REAL" else ""
    else ""

theorem Grade.label_eq_shown (g : Grade) : g.label = g.shown := by
  unfold label shown
  split
  · simp only [String.append_assoc]
  · rw [String.append_empty]

namespace QueueEntry

/-- The candidate is for an album of the entry, and neither has the entry failed nor may the
candidate replace it. A candidate for several albums replaces nothing. -/
def Stops (e : QueueEntry) (p : Profile) (c : Candidate) : Prop :=
  e.Meets { candidate := c } ∧ (1 < c.albumIds.length ∨
    e.IsLive ∧ ¬ (p.upgradeAllowed = true ∧
      p.isUpgrade e.candidate.graded c.graded = .ok true))

end QueueEntry

namespace QueueEntry

variable {e : QueueEntry} {p : Profile} {c : Candidate}

theorem stops_iff_of_several (h : 1 < c.albumIds.length) :
    e.Stops p c ↔ e.Meets { candidate := c } := by
  simp [Stops, h]

theorem stops_iff_of_no_upgrades (h : c.albumIds.length ≤ 1) (hno : p.upgradeAllowed = false) :
    e.Stops p c ↔ e.Meets { candidate := c } ∧ e.IsLive := by
  simp [Stops, Nat.not_lt.mpr h, hno]

theorem stops_iff_of_upgrades (h : c.albumIds.length ≤ 1) (hallowed : p.upgradeAllowed = true) :
    e.Stops p c ↔ e.Meets { candidate := c } ∧ e.IsLive ∧
      p.isUpgrade e.candidate.graded c.graded ≠ .ok true := by
  simp [Stops, Nat.not_lt.mpr h, hallowed]

end QueueEntry

namespace Queue

def First (q : Queue) (P : QueueEntry → Prop) (e : QueueEntry) : Prop :=
  ∃ front back, q = front ++ e :: back ∧ (∀ f ∈ front, ¬ P f) ∧ P e

variable {q : Queue} {P Q : QueueEntry → Prop} {e : QueueEntry}

theorem first_congr (h : ∀ f, P f ↔ Q f) : q.First P e ↔ q.First Q e := by
  rw [funext fun f => propext (h f)]

theorem exists_first (q : Queue) (P : QueueEntry → Prop) :
    (∀ e ∈ q, ¬ P e) ∨ ∃ e, q.First P e := by
  induction q with
  | nil => exact .inl fun _ he => absurd he List.not_mem_nil
  | cons e q ih =>
    by_cases he : P e
    · exact .inr ⟨e, [], q, rfl, fun _ hf => absurd hf List.not_mem_nil, he⟩
    · rcases ih with hnone | ⟨f, front, back, rfl, hfront, hf⟩
      · exact .inl (List.forall_mem_cons.mpr ⟨he, hnone⟩)
      · exact .inr ⟨f, e :: front, back, rfl, List.forall_mem_cons.mpr ⟨he, hfront⟩, hf⟩

end Queue

namespace Circumstances

variable {on : Circumstances} {c : Candidate} {e : QueueEntry} {front back q : Queue}

/-- What is held against a candidate that an entry stops. -/
def objectionTo (on : Circumstances) (c : Candidate) (e : QueueEntry) : Scored Objection :=
  if c.isMultiAlbum then .ok (.overlapsQueued e.candidate.release.title)
  else if on.profile.upgradeAllowed then
    (on.profile.isUpgrade e.candidate.graded c.graded).map fun _ => .queuedAsGood e.candidate.grade
  else .ok (.queuedWithoutUpgrades on.profile.name e.candidate.grade)

theorem queueObjection_skip (h : ¬ e.Stops on.profile c) :
    { on with queue := e :: q }.queueObjection c = { on with queue := q }.queueObjection c := by
  unfold QueueEntry.Stops at h
  by_cases hmeets : e.Meets { candidate := c }
  · have hpass := not_or.mp fun hstops => h ⟨hmeets, hstops⟩
    have hsingle : c.isMultiAlbum = false := by simpa [Candidate.isMultiAlbum] using hpass.1
    have hconcerns : e.concerns c = true := QueueEntry.concerns_iff.mpr hmeets
    have hfilter : (e :: q).filter (·.concerns c) = e :: q.filter (·.concerns c) :=
      List.filter_cons_of_pos hconcerns
    rw [queueObjection_of_single hsingle, queueObjection_of_single hsingle]
    simp only [hfilter, liveObjection]
    by_cases hfailed : e.state.isFailed = true
    · rw [if_pos hfailed]
    · have hlive : e.IsLive := by simpa [QueueEntry.IsLive] using hfailed
      obtain ⟨hallowed, hup⟩ := Classical.not_not.mp fun hnot => hpass.2 ⟨hlive, hnot⟩
      simp only [if_neg hfailed, hallowed, hup]
      rfl
  · have hconcerns : ¬ e.concerns c = true := fun h => hmeets (QueueEntry.concerns_iff.mp h)
    have hfilter : (e :: q).filter (·.concerns c) = q.filter (·.concerns c) :=
      List.filter_cons_of_neg hconcerns
    simp only [queueObjection, hfilter]

theorem queueObjection_stop (h : e.Stops on.profile c) :
    { on with queue := e :: q }.queueObjection c = (on.objectionTo c e).map some := by
  obtain ⟨hmeets, hstops⟩ := h
  have hconcerns : e.concerns c = true := QueueEntry.concerns_iff.mpr hmeets
  have hfilter : (e :: q).filter (·.concerns c) = e :: q.filter (·.concerns c) :=
    List.filter_cons_of_pos hconcerns
  simp only [queueObjection, hfilter, objectionTo]
  by_cases hmulti : c.isMultiAlbum = true
  · rw [if_pos hmulti, if_pos hmulti]
    rfl
  · obtain ⟨hlive, hnot⟩ := hstops.resolve_left (by simpa [Candidate.isMultiAlbum] using hmulti)
    have hfailed : ¬ e.state.isFailed = true := by rw [hlive]; exact Bool.false_ne_true
    rw [if_neg hmulti, if_neg hmulti, liveObjection, if_neg hfailed]
    by_cases hallowed : on.profile.upgradeAllowed = true
    · simp only [hallowed]
      cases hup : on.profile.isUpgrade e.candidate.graded c.graded with
      | error cause => rfl
      | ok upgrades =>
        cases upgrades with
        | false => rfl
        | true => exact absurd ⟨hallowed, hup⟩ hnot
    · simp only [hallowed]
      rfl

theorem queueObjection_first (hfront : ∀ f ∈ front, ¬ f.Stops on.profile c)
    (he : e.Stops on.profile c) :
    { on with queue := front ++ e :: back }.queueObjection c = (on.objectionTo c e).map some := by
  induction front with
  | nil => exact queueObjection_stop he
  | cons f front ih =>
    obtain ⟨hf, hfront⟩ := List.forall_mem_cons.mp hfront
    rw [List.cons_append, queueObjection_skip hf, ih hfront]

theorem queueObjection_clear (h : ∀ e ∈ q, ¬ e.Stops on.profile c) :
    { on with queue := q }.queueObjection c = .ok none := by
  induction q with
  | nil => rfl
  | cons e q ih =>
    obtain ⟨he, hq⟩ := List.forall_mem_cons.mp h
    rw [queueObjection_skip he, ih hq]

theorem judge_queue_clear (h : ∀ e ∈ on.queue, ¬ e.Stops on.profile c) :
    Rule.queueConflict.judge on c = .ok .accept := by
  have hclear : on.queueObjection c = .ok none := queueObjection_clear h
  rw [Rule.judge_eq_accept_iff, Rule.objection, hclear]

theorem judge_queue_first (h : on.queue.First (·.Stops on.profile c) e) :
    Rule.queueConflict.judge on c = (on.objectionTo c e).map fun o => .reject o.rejection := by
  obtain ⟨front, back, hqueue, hfront, he⟩ := h
  have hfirst : { on with queue := front ++ e :: back }.queueObjection c =
      (on.objectionTo c e).map some := queueObjection_first hfront he
  rw [← hqueue] at hfirst
  have hobjection : on.queueObjection c = (on.objectionTo c e).map some := hfirst
  rw [Rule.judge, Rule.objection, hobjection]
  cases on.objectionTo c e <;> rfl

theorem judge_queue_eq_accept_iff :
    Rule.queueConflict.judge on c = .ok .accept ↔ ∀ e ∈ on.queue, ¬ e.Stops on.profile c := by
  constructor
  · intro h
    rcases on.queue.exists_first (·.Stops on.profile c) with hclear | ⟨e, hfirst⟩
    · exact hclear
    · rw [judge_queue_first hfirst] at h
      cases ho : on.objectionTo c e with
      | error cause =>
        rw [ho] at h
        cases h
      | ok o =>
        rw [ho] at h
        cases h
  · exact judge_queue_clear

theorem judge_queue_eq_iff {answer : Scored Verdict} (h : answer ≠ .ok .accept) :
    Rule.queueConflict.judge on c = answer ↔ ∃ e, on.queue.First (·.Stops on.profile c) e ∧
      (on.objectionTo c e).map (fun o => .reject o.rejection) = answer := by
  constructor
  · intro hjudge
    rcases on.queue.exists_first (·.Stops on.profile c) with hclear | ⟨e, hfirst⟩
    · exact absurd (hjudge.symm.trans (judge_queue_clear hclear)) h
    · exact ⟨e, hfirst, (judge_queue_first hfirst).symm.trans hjudge⟩
  · rintro ⟨e, hfirst, rfl⟩
    exact judge_queue_first hfirst

theorem judge_queue_front (hqueue : on.queue = front ++ e :: back) (he : e.Stops on.profile c) :
    Rule.queueConflict.judge on c =
      Rule.queueConflict.judge { on with queue := front ++ [e] } c := by
  rcases Queue.exists_first (front ++ [e]) (·.Stops on.profile c) with hclear | ⟨f, hfirst⟩
  · exact absurd he (hclear e (List.mem_append_right front (List.mem_singleton_self e)))
  · have hshort : Rule.queueConflict.judge { on with queue := front ++ [e] } c =
        (on.objectionTo c f).map fun o => .reject o.rejection := judge_queue_first hfirst
    obtain ⟨front', back', hfront, hnot, hf⟩ := hfirst
    have hsame : on.queue = front' ++ f :: (back' ++ back) := by
      rw [hqueue, ← List.singleton_append, ← List.append_assoc, hfront, List.append_assoc,
        List.cons_append]
    rw [hshort]
    exact judge_queue_first ⟨front', back' ++ back, hsame, hnot, hf⟩

theorem objectionTo_of_several (h : 1 < c.albumIds.length) :
    on.objectionTo c e = .ok (.overlapsQueued e.candidate.release.title) := by
  simp [objectionTo, Candidate.isMultiAlbum, h]

theorem objectionTo_of_no_upgrades (h : c.albumIds.length ≤ 1)
    (hno : on.profile.upgradeAllowed = false) :
    on.objectionTo c e = .ok (.queuedWithoutUpgrades on.profile.name e.candidate.grade) := by
  simp [objectionTo, Candidate.isMultiAlbum, Nat.not_lt.mpr h, hno]

theorem objectionTo_of_upgrades (h : c.albumIds.length ≤ 1)
    (hallowed : on.profile.upgradeAllowed = true) :
    on.objectionTo c e = (on.profile.isUpgrade e.candidate.graded c.graded).map fun _ =>
      .queuedAsGood e.candidate.grade := by
  simp [objectionTo, Candidate.isMultiAlbum, Nat.not_lt.mpr h, hallowed]

theorem rule_of_objectionTo {o : Objection} (h : on.objectionTo c e = .ok o) :
    o.rule = .queueConflict := by
  by_cases hseveral : 1 < c.albumIds.length
  · cases (objectionTo_of_several hseveral).symm.trans h
    rfl
  · have hle : c.albumIds.length ≤ 1 := Nat.not_lt.mp hseveral
    cases hallowed : on.profile.upgradeAllowed with
    | false =>
      cases (objectionTo_of_no_upgrades hle hallowed).symm.trans h
      rfl
    | true =>
      rw [objectionTo_of_upgrades hle hallowed] at h
      obtain ⟨_, _, rfl⟩ := map_eq_ok_iff.mp h
      rfl

/-- For which entry a candidate is turned away, and with which words. -/
inductive Refuses (on : Circumstances) (c : Candidate) (e : QueueEntry) : String → Prop
  | overlapping : 1 < c.albumIds.length → on.queue.First (fun f => f.Meets { candidate := c }) e →
      Refuses on c e
        ("Multi-album release overlaps a release already in queue: " ++ e.candidate.release.title)
  | withoutUpgrades : c.albumIds.length ≤ 1 → on.profile.upgradeAllowed = false →
      on.queue.First (fun f => f.Meets { candidate := c } ∧ f.IsLive) e →
      Refuses on c e
        ("Release already in queue and profile " ++ on.profile.name ++
          " does not allow upgrades: " ++ e.candidate.grade.shown)
  | asGood : c.albumIds.length ≤ 1 → on.profile.upgradeAllowed = true →
      on.queue.First (fun f => f.Meets { candidate := c } ∧ f.IsLive ∧
        on.profile.isUpgrade f.candidate.graded c.graded ≠ .ok true) e →
      on.profile.isUpgrade e.candidate.graded c.graded = .ok false →
      Refuses on c e
        ("Release already in queue with equal or better quality: " ++ e.candidate.grade.shown)

theorem refuses_iff {reason : String} : on.Refuses c e reason ↔
    on.queue.First (·.Stops on.profile c) e ∧
      ∃ o, on.objectionTo c e = .ok o ∧ o.reason = reason := by
  constructor
  · intro h
    cases h with
    | overlapping hseveral hfirst =>
      rw [Queue.first_congr fun f => QueueEntry.stops_iff_of_several hseveral]
      exact ⟨hfirst, _, objectionTo_of_several hseveral, rfl⟩
    | withoutUpgrades hle hno hfirst =>
      rw [Queue.first_congr fun f => QueueEntry.stops_iff_of_no_upgrades hle hno,
        ← Grade.label_eq_shown]
      exact ⟨hfirst, _, objectionTo_of_no_upgrades hle hno, rfl⟩
    | asGood hle hallowed hfirst hup =>
      rw [Queue.first_congr fun f => QueueEntry.stops_iff_of_upgrades hle hallowed,
        objectionTo_of_upgrades hle hallowed, hup, ← Grade.label_eq_shown]
      exact ⟨hfirst, _, rfl, rfl⟩
  · rintro ⟨hfirst, o, ho, rfl⟩
    by_cases hseveral : 1 < c.albumIds.length
    · rw [Queue.first_congr fun f => QueueEntry.stops_iff_of_several hseveral] at hfirst
      cases (objectionTo_of_several hseveral).symm.trans ho
      exact .overlapping hseveral hfirst
    · have hle : c.albumIds.length ≤ 1 := Nat.not_lt.mp hseveral
      cases hallowed : on.profile.upgradeAllowed with
      | false =>
        rw [Queue.first_congr fun f => QueueEntry.stops_iff_of_no_upgrades hle hallowed] at hfirst
        obtain rfl := Except.ok.inj ((objectionTo_of_no_upgrades hle hallowed).symm.trans ho)
        have hrefuses := Refuses.withoutUpgrades hle hallowed hfirst
        rw [← Grade.label_eq_shown] at hrefuses
        exact hrefuses
      | true =>
        rw [Queue.first_congr fun f => QueueEntry.stops_iff_of_upgrades hle hallowed] at hfirst
        have hfirst' := hfirst
        obtain ⟨_, _, _, _, _, _, hnot⟩ := hfirst'
        rw [objectionTo_of_upgrades hle hallowed] at ho
        obtain ⟨upgrades, hup, rfl⟩ := map_eq_ok_iff.mp ho
        cases upgrades with
        | false =>
          have hrefuses := Refuses.asGood hle hallowed hfirst hup
          rw [← Grade.label_eq_shown] at hrefuses
          exact hrefuses
        | true => exact absurd hup hnot

theorem objectionTo_eq_error_iff {cause : Overflow} : on.objectionTo c e = .error cause ↔
    c.albumIds.length ≤ 1 ∧ on.profile.upgradeAllowed = true ∧
      on.profile.isUpgrade e.candidate.graded c.graded = .error cause := by
  by_cases hseveral : 1 < c.albumIds.length
  · rw [objectionTo_of_several hseveral]
    exact iff_of_false nofun fun h => absurd hseveral (Nat.not_lt.mpr h.1)
  · have hle : c.albumIds.length ≤ 1 := Nat.not_lt.mp hseveral
    cases hallowed : on.profile.upgradeAllowed with
    | false =>
      rw [objectionTo_of_no_upgrades hle hallowed]
      exact iff_of_false nofun fun h => nomatch h.2.1
    | true =>
      rw [objectionTo_of_upgrades hle hallowed]
      cases on.profile.isUpgrade e.candidate.graded c.graded with
      | error cause' => simp [Except.map, hle]
      | ok upgrades => exact iff_of_false nofun fun h => nomatch h.2.2

theorem judge_queue_eq_reject_iff {rule : Rule} {reason : String} :
    Rule.queueConflict.judge on c = .ok (.reject ⟨rule, reason⟩) ↔
      rule = .queueConflict ∧ ∃ e, on.Refuses c e reason := by
  have hreject : (.ok (.reject ⟨rule, reason⟩) : Scored Verdict) ≠ .ok .accept :=
    fun h => nomatch h
  rw [judge_queue_eq_iff hreject]
  constructor
  · rintro ⟨e, hfirst, hanswer⟩
    obtain ⟨o, ho, hverdict⟩ := map_eq_ok_iff.mp hanswer
    cases hverdict
    exact ⟨rule_of_objectionTo ho, e, refuses_iff.mpr ⟨hfirst, o, ho, rfl⟩⟩
  · rintro ⟨rfl, e, hrefuses⟩
    obtain ⟨hfirst, o, ho, rfl⟩ := refuses_iff.mp hrefuses
    refine ⟨e, hfirst, map_eq_ok_iff.mpr ⟨o, ho, ?_⟩⟩
    rw [Objection.rejection, rule_of_objectionTo ho]

theorem judge_queue_eq_error_iff {cause : Overflow} :
    Rule.queueConflict.judge on c = .error cause ↔ ∃ e,
      c.albumIds.length ≤ 1 ∧ on.profile.upgradeAllowed = true ∧
        on.queue.First (fun f => f.Meets { candidate := c } ∧ f.IsLive ∧
          on.profile.isUpgrade f.candidate.graded c.graded ≠ .ok true) e ∧
        on.profile.isUpgrade e.candidate.graded c.graded = .error cause := by
  have herror : (.error cause : Scored Verdict) ≠ .ok .accept := fun h => nomatch h
  rw [judge_queue_eq_iff herror]
  apply exists_congr
  intro e
  have hanswer : (on.objectionTo c e).map (fun o => Verdict.reject o.rejection) = .error cause ↔
      on.objectionTo c e = .error cause := by
    cases on.objectionTo c e <;> simp [Except.map]
  rw [hanswer, objectionTo_eq_error_iff]
  constructor
  · rintro ⟨hfirst, hle, hallowed, hup⟩
    rw [Queue.first_congr fun f => QueueEntry.stops_iff_of_upgrades hle hallowed] at hfirst
    exact ⟨hle, hallowed, hfirst, hup⟩
  · rintro ⟨hle, hallowed, hfirst, hup⟩
    rw [Queue.first_congr fun f => QueueEntry.stops_iff_of_upgrades hle hallowed]
    exact ⟨hfirst, hle, hallowed, hup⟩

theorem not_stops_iff (h : c.albumIds.length ≤ 1) : ¬ e.Stops on.profile c ↔
    (e.Meets { candidate := c } → e.state.isFailed = true ∨ on.profile.upgradeAllowed = true ∧
      on.profile.isUpgrade e.candidate.graded c.graded = .ok true) := by
  have hnot : ¬ 1 < c.albumIds.length := Nat.not_lt.mpr h
  constructor
  · intro hpass hmeets
    by_cases hfailed : e.state.isFailed = true
    · exact .inl hfailed
    · have hlive : e.IsLive := by simpa [QueueEntry.IsLive] using hfailed
      exact .inr (Classical.not_not.mp fun hup => hpass ⟨hmeets, .inr ⟨hlive, hup⟩⟩)
  · rintro hpass ⟨hmeets, hstops⟩
    obtain ⟨hlive, hup⟩ := hstops.resolve_left hnot
    rcases hpass hmeets with hfailed | hpass
    · exact nomatch hlive.symm.trans hfailed
    · exact hup hpass

theorem forall_not_stops_iff : (∀ e ∈ on.queue, ¬ e.Stops on.profile c) ↔
    (∀ e ∈ on.queue, ¬ e.Meets { candidate := c }) ∨
      c.albumIds.length ≤ 1 ∧ ∀ e ∈ on.queue, e.Meets { candidate := c } →
        e.state.isFailed = true ∨ on.profile.upgradeAllowed = true ∧
          on.profile.isUpgrade e.candidate.graded c.graded = .ok true := by
  by_cases hseveral : 1 < c.albumIds.length
  · simp only [QueueEntry.stops_iff_of_several hseveral, Nat.not_le.mpr hseveral, false_and,
      or_false]
  · have hle : c.albumIds.length ≤ 1 := Nat.not_lt.mp hseveral
    constructor
    · intro h
      exact .inr ⟨hle, fun e he => (not_stops_iff hle).mp (h e he)⟩
    · rintro (hapart | ⟨_, hall⟩) e he
      · exact fun hstops => hapart e he hstops.1
      · exact (not_stops_iff hle).mpr (hall e he)

/-- What the rule on the queue answers, entry by entry. It accepts if no entry shares an album with
the candidate, or if the candidate is for one album at most and every such entry has failed or may
be replaced by it. It rejects a candidate for several albums for the first entry that shares one,
and a candidate for one album for the first such entry that has not failed and, if the profile
allows upgrades, is not improved on; its reason names that entry. It overflows only where the scores
of that entry do, and entries behind it have no part in the answer. -/
theorem queue_rule_decides (on : Circumstances) (c : Candidate) :
    (Rule.queueConflict.judge on c = .ok .accept ↔
      (∀ e ∈ on.queue, ¬ e.Meets { candidate := c }) ∨
      c.albumIds.length ≤ 1 ∧ ∀ e ∈ on.queue, e.Meets { candidate := c } →
        e.state.isFailed = true ∨ on.profile.upgradeAllowed = true ∧
          on.profile.isUpgrade e.candidate.graded c.graded = .ok true) ∧
    (∀ rule reason, Rule.queueConflict.judge on c = .ok (.reject ⟨rule, reason⟩) ↔
      rule = .queueConflict ∧ ∃ e, on.Refuses c e reason) ∧
    (∀ cause, Rule.queueConflict.judge on c = .error cause ↔ ∃ e,
      c.albumIds.length ≤ 1 ∧ on.profile.upgradeAllowed = true ∧
        on.queue.First (fun f => f.Meets { candidate := c } ∧ f.IsLive ∧
          on.profile.isUpgrade f.candidate.graded c.graded ≠ .ok true) e ∧
        on.profile.isUpgrade e.candidate.graded c.graded = .error cause) ∧
    ∀ front e back, on.queue = front ++ e :: back → e.Stops on.profile c →
      Rule.queueConflict.judge on c =
        Rule.queueConflict.judge { on with queue := front ++ [e] } c :=
  ⟨judge_queue_eq_accept_iff.trans forall_not_stops_iff, fun _ _ => judge_queue_eq_reject_iff,
    fun _ => judge_queue_eq_error_iff, fun _ _ _ => judge_queue_front⟩

end Circumstances

end ReleaseWarden
