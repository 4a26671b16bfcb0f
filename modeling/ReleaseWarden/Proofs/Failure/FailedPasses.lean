import ReleaseWarden.CommandLine.Run
import ReleaseWarden.Proofs.Failure.Calls

/-! Passes that break off. A call that fails changes nothing, so that of a pass that fails nothing
is left but a failure that its check has noted. However many passes fail first, the one that
succeeds comes to the same as if it had been the only one. -/

set_option autoImplicit false

namespace ReleaseWarden

open CommandLine (Surroundings FailureTask breakOff)

/-- What a pass meets. History may turn out differently at each look-up. -/
structure Attempt where
  checking : Lookup
  processing : Lookup
  publisher : Publisher

namespace Desk

/-- A pass whose steps each meet history as it is by then. -/
def attempt (d : Desk) (a : Attempt) : Outcome Unit Desk :=
  match d.check a.checking with
  | (.error cause, d) => (.error cause, d)
  | (.ok _, d) => d.processFailed a.processing a.publisher

def noted (d : Desk) : Desk := { d with tracked := { d.tracked with state := .failedPending } }

/-- The attempts all fail, one after the other, and leave the second desk behind. -/
inductive Fails : Desk → List Attempt → Desk → Prop
  | nil (d : Desk) : Fails d [] d
  | cons {d e f : Desk} {a : Attempt} {as : List Attempt} {cause : SupervisionError} :
      d.attempt a = (.error cause, e) → Fails e as f → Fails d (a :: as) f

/-- The check of one of the attempts notes the failure. -/
def NotedBy (d : Desk) (as : List Attempt) : Prop :=
  d.tracked.state = .downloading ∧ d.tracked.item.reportsFailure = true ∧
    ∃ a ∈ as, ∃ r rs, a.checking.findGrabbed d.tracked.item.downloadId = .ok (r :: rs)

variable {d e f : Desk} {history : Lookup} {publisher : Publisher} {cause : SupervisionError}

theorem pass_eq_attempt (d : Desk) (history : Lookup) (publisher : Publisher) :
    d.pass history publisher = d.attempt ⟨history, history, publisher⟩ := rfl

theorem call_eq_error {c : Call} (h : d.call c = (.error cause, e)) : e = d := by
  have heffect := effect_call d c
  rw [h] at heffect
  cases heffect with
  | checkBroken => rfl
  | processBroken => rfl
  | refused => rfl

theorem processFailed_eq_error (h : d.processFailed history publisher = (.error cause, e)) :
    d.tracked.state = .failedPending ∧ e = d := by
  have heffect := effect_processFailed d history publisher
  rw [h] at heffect
  cases heffect with
  | processBroken hs => exact ⟨hs, rfl⟩
  | refused hs => exact ⟨hs, rfl⟩

theorem attempt_eq_error {a : Attempt} (h : d.attempt a = (.error cause, e)) :
    e = d ∨ d.NotedBy [a] ∧ e = d.noted := by
  have hcheck := effect_check d a.checking
  unfold attempt at h
  generalize d.check a.checking = outcome at hcheck h
  cases hcheck with
  | nothingReported => exact .inl (processFailed_eq_error h).2
  | checkBroken =>
    cases h
    exact .inl rfl
  | warned hs =>
    have hpending : (d.tracked.warn notGrabbedWarning).state = .failedPending :=
      (processFailed_eq_error h).1
    exact absurd (hs.symm.trans hpending) nofun
  | noted hs hr hf =>
    exact .inr ⟨⟨hs, hr, a, List.mem_singleton_self a, _, _, hf⟩, (processFailed_eq_error h).2⟩

theorem NotedBy.mono {as bs : List Attempt} (h : d.NotedBy as) (hsub : ∀ a ∈ as, a ∈ bs) :
    d.NotedBy bs := by
  obtain ⟨hs, hr, a, ha, hfound⟩ := h
  exact ⟨hs, hr, a, hsub a ha, hfound⟩

/-- Any number of failed attempts leave no more behind than one does. -/
theorem fails_cases {as : List Attempt} (h : Fails d as e) :
    e = d ∨ d.NotedBy as ∧ e = d.noted := by
  induction h with
  | nil d => exact .inl rfl
  | @cons d e f a as cause hfirst _ ih =>
    rcases attempt_eq_error hfirst with rfl | ⟨hnoted, rfl⟩
    · rcases ih with rfl | ⟨hnoted, rfl⟩
      · exact .inl rfl
      · exact .inr ⟨hnoted.mono fun _ => List.mem_cons_of_mem a, rfl⟩
    · refine .inr ⟨hnoted.mono fun _ hb => List.mem_singleton.mp hb ▸ List.mem_cons_self, ?_⟩
      rcases ih with rfl | ⟨⟨hs, _⟩, _⟩
      · rfl
      · exact absurd hs nofun

theorem pass_noted (d : Desk) (history : Lookup) (publisher : Publisher) :
    d.noted.pass history publisher = d.noted.processFailed history publisher := by
  have hidle : d.noted.check history = (.ok (), d.noted) := if_neg fun h => nomatch h.1
  rw [pass, hidle]

/-- A pass that succeeds where the failure is noted succeeds where it is not. Both come to the same,
unless the grabs are gone by then. -/
theorem pass_of_pass_noted (hs : d.tracked.state = .downloading)
    (hr : d.tracked.item.reportsFailure = true)
    (h : d.noted.pass history publisher = (.ok (), f)) :
    d.pass history publisher = (.ok (), f) ∨
      history.findGrabbed d.tracked.item.downloadId = .ok [] ∧ f = d.noted ∧
        d.pass history publisher =
          (.ok (), { d with tracked := d.tracked.warn notGrabbedWarning }) := by
  rw [pass_noted] at h
  have hprocess := effect_processFailed d.noted history publisher
  rw [h] at hprocess
  cases hprocess with
  | nothingNoted hnot => exact absurd rfl hnot
  | vanished _ hf =>
    have hf' : history.findGrabbed d.tracked.item.downloadId = .ok [] := hf
    have hnot : ¬ (d.tracked.warn notGrabbedWarning).state = .failedPending :=
      fun hpending => nomatch hs.symm.trans hpending
    have hcheck : d.check history =
        (.ok (), { d with tracked := d.tracked.warn notGrabbedWarning }) := by
      rw [check, if_pos ⟨hs, hr⟩, hf']
    refine .inr ⟨hf', rfl, ?_⟩
    rw [pass, hcheck]
    exact if_neg hnot
  | announced _ hf =>
    have hf' : history.findGrabbed d.tracked.item.downloadId = .ok (_ :: _) := hf
    have hcheck : d.check history = (.ok (), d.noted) := by
      rw [check, if_pos ⟨hs, hr⟩, hf']
      rfl
    rw [pass, hcheck]
    exact .inl h

theorem sent_of_pass_eq_error (h : d.pass history publisher = (.error cause, e)) :
    e.sent = d.sent := by
  rw [pass_eq_attempt] at h
  rcases attempt_eq_error h with rfl | ⟨_, rfl⟩
  · rfl
  · rfl

end Desk

theorem announceManually_eq_error {publisher : Publisher} {skip : Bool}
    {records : Except HistoryError (List HistoryRecord)} {sent sent' : List FailureEvent}
    {cause : SupervisionError}
    (h : announceManually publisher skip records sent = (.error cause, sent')) : sent' = sent := by
  unfold announceManually at h
  split at h
  · cases h
    rfl
  · split at h
    · cases h
    · rename_i event _
      rcases publisher.publish_cases sent event with ⟨hp, _⟩ | ⟨_, hp, _⟩
      · rw [hp] at h
        cases h
      · rw [hp] at h
        cases h
        rfl

namespace CommandLine.FailureTask

theorem supervise_eq_error {task : FailureTask} {history : Lookup} {sent : List FailureEvent}
    {cause : SupervisionError} (h : task.supervise history = (.error cause, sent)) : sent = [] := by
  cases task with
  | check tracked =>
    rw [supervise] at h
    split at h
    · rename_i hpass
      cases h
      exact Desk.sent_of_pass_eq_error hpass
    · cases h
  | mark target skip =>
    have hmark : ∀ outcome : Outcome Bool (List FailureEvent),
        (outcome.1.map fun _ => ([] : List (String × Json)), outcome.2) = (.error cause, sent) →
          outcome = (.error cause, sent) := by
      rintro ⟨answer, sent'⟩ heq
      cases answer <;> cases heq
      rfl
    cases target with
    | history id => exact announceManually_eq_error (hmark _ h)
    | download id => exact announceManually_eq_error (hmark _ h)

end CommandLine.FailureTask

/-- A call that fails changes nothing of the tracked download, announces nothing, and the store of a
command that breaks off is left as it was. Where attempts fail until a pass succeeds, that pass
comes to the same as if it had been the only one, provided that the attempts saw the same history
where they saw it; and whatever they saw, the same is announced, and the download differs at most in
that its failure was noted earlier. -/
theorem failed_passes_leave_no_trace :
    (∀ (d : Desk) (c : Call) cause e, d.call c = (.error cause, e) → e = d) ∧
    (∀ history publisher id skip sent cause sent',
      markByRecord history publisher id skip sent = (.error cause, sent') → sent' = sent) ∧
    (∀ history publisher downloadId skip sent cause sent',
      markByDownload history publisher downloadId skip sent = (.error cause, sent') →
        sent' = sent) ∧
    (∀ (task : FailureTask) (w : Surroundings) config (s : Store) cause sent,
      task.supervise s.lookup = (.error cause, sent) →
        sent = [] ∧ task.run w config s = (breakOff cause, none, s)) ∧
    ∀ (d : Desk) as e history publisher f, Desk.Fails d as e →
      e.pass history publisher = (.ok (), f) →
      (e = d ∨ d.NotedBy as ∧ e = d.noted) ∧
      ((∀ a ∈ as, ∀ rs, a.checking.findGrabbed d.tracked.item.downloadId = .ok rs →
          history.findGrabbed d.tracked.item.downloadId = .ok rs) →
        d.pass history publisher = (.ok (), f)) ∧
      ∃ g, d.pass history publisher = (.ok (), g) ∧ g.sent = f.sent ∧
        (g = f ∨ d.NotedBy as ∧ f = d.noted ∧
          history.findGrabbed d.tracked.item.downloadId = .ok []) := by
  refine ⟨fun d c cause e => Desk.call_eq_error, fun _ _ _ _ _ _ _ => announceManually_eq_error,
    fun _ _ _ _ _ _ _ => announceManually_eq_error, ?_, ?_⟩
  · intro task w config s cause sent h
    refine ⟨FailureTask.supervise_eq_error h, ?_⟩
    rw [FailureTask.run, h]
  · intro d as e history publisher f hfails hpass
    rcases Desk.fails_cases hfails with rfl | ⟨hnoted, rfl⟩
    · exact ⟨.inl rfl, fun _ => hpass, f, hpass, rfl, .inl rfl⟩
    · obtain ⟨hs, hr, a, ha, r, rs, hfound⟩ := hnoted
      refine ⟨.inr ⟨⟨hs, hr, a, ha, r, rs, hfound⟩, rfl⟩, ?_, ?_⟩
      · intro hsame
        rcases Desk.pass_of_pass_noted hs hr hpass with h | ⟨hnone, _⟩
        · exact h
        · exact nomatch hnone.symm.trans (hsame a ha _ hfound)
      · rcases Desk.pass_of_pass_noted hs hr hpass with h | ⟨hnone, rfl, h⟩
        · exact ⟨f, h, rfl, .inl rfl⟩
        · exact ⟨_, h, rfl, .inr ⟨⟨hs, hr, a, ha, r, rs, hfound⟩, rfl, hnone⟩⟩

def lostJob : Desk where
  tracked := .start { downloadId := "d", title := "Artist - Album", status := .failed }

def lostGrab : HistoryRecord where
  id := 1
  artistId := 7
  albumId := 40
  sourceTitle := "Artist - Album"
  grade := ⟨⟨13, "FLAC"⟩, {}⟩
  event := .grabbed
  downloadId := some "d"
  date := "2024-05-01T08:00:00Z"

def failures : List Attempt :=
  [⟨.ofRecords [lostGrab], .ofRecords [lostGrab], .closed⟩,
    ⟨.failing DatabaseFault.poolTimedOut.error, .failing DatabaseFault.poolTimedOut.error,
      .listening⟩]

/-- The third pass succeeds, and announces what the first one would have announced. -/
theorem lostJob_announced_after_failures : ∃ f, Desk.Fails lostJob failures lostJob.noted ∧
    lostJob.noted.pass (.ofRecords [lostGrab]) .listening = (.ok (), f) ∧
    lostJob.pass (.ofRecords [lostGrab]) .listening = (.ok (), f) ∧
    f.tracked.state = .failed ∧ f.sent.length = 1 := by
  have hfails : Desk.Fails lostJob failures lostJob.noted :=
    .cons rfl (.cons rfl (.nil lostJob.noted))
  have hsame : ∀ a ∈ failures, ∀ rs, a.checking.findGrabbed "d" = .ok rs →
      (Lookup.ofRecords [lostGrab]).findGrabbed "d" = .ok rs := by
    intro a ha rs h
    rcases List.mem_cons.mp ha with rfl | ha
    · exact h
    · obtain rfl := List.mem_singleton.mp ha
      cases h
  obtain ⟨f, hpass⟩ : ∃ f,
      lostJob.noted.pass (.ofRecords [lostGrab]) .listening = (.ok (), f) := ⟨_, rfl⟩
  have halone := (failed_passes_leave_no_trace.2.2.2.2 _ _ _ _ _ _ hfails hpass).2.1 hsame
  refine ⟨f, hfails, hpass, halone, ?_⟩
  cases hpass
  exact ⟨rfl, rfl⟩

end ReleaseWarden
