import ReleaseWarden.Proofs.Failure.Calls

/-! A failure is announced once. Whatever history and the way out do from one call to the next, a
download goes from downloading over a noted failure to an announced one and never back, and the
announcement goes out in the call that takes the second of these steps. -/

set_option autoImplicit false

namespace ReleaseWarden

namespace DownloadState

/-- Supervision leaves the download alone. -/
def IsSettled (s : DownloadState) : Prop := s ≠ .downloading ∧ s ≠ .failedPending

end DownloadState

namespace Desk

/-- What one call may change, and when it does. -/
structure Keeps (d : Desk) (c : Call) (e : Desk) : Prop where
  state : e.tracked.state = d.tracked.state ∨
    d.tracked.state = .downloading ∧ e.tracked.state = .failedPending ∨
    d.tracked.state = .failedPending ∧ e.tracked.state = .failed
  noted : d.tracked.state = .downloading ∧ e.tracked.state = .failedPending ↔
    ∃ history r rs, c = .check history ∧ d.tracked.state = .downloading ∧
      d.tracked.item.reportsFailure = true ∧
      history.findGrabbed d.tracked.item.downloadId = .ok (r :: rs)
  announced : d.tracked.state = .failedPending ∧ e.tracked.state = .failed ↔
    ∃ history r rs, c = .process history .listening ∧ d.tracked.state = .failedPending ∧
      history.findGrabbed d.tracked.item.downloadId = .ok (r :: rs)
  sent : e.sent = d.sent ∨ ∃ event, e.sent = d.sent ++ [event]
  sent_iff : (∃ event, e.sent = d.sent ++ [event]) ↔
    d.tracked.state = .failedPending ∧ e.tracked.state = .failed
  settled : d.tracked.state.IsSettled → e = d
  item : e.tracked.item = d.tracked.item
  warned : e.tracked.health ≠ d.tracked.health ∨ e.tracked.messages ≠ d.tracked.messages →
    ∃ history, c = .check history ∧ history.findGrabbed d.tracked.item.downloadId = .ok [] ∧
      d.tracked.state = .downloading ∧ e.tracked.state = .downloading

theorem not_append_self {sent : List FailureEvent} : ¬ ∃ event, sent = sent ++ [event] := by
  rintro ⟨event, h⟩
  have := congrArg List.length h
  simp at this

variable {d : Desk} {history : Lookup}

theorem keeps_self {c : Call}
    (hcheck : ∀ history r rs, c = .check history → d.tracked.state = .downloading →
      d.tracked.item.reportsFailure = true →
      history.findGrabbed d.tracked.item.downloadId ≠ .ok (r :: rs))
    (hprocess : ∀ history r rs, c = .process history .listening →
      d.tracked.state = .failedPending →
      history.findGrabbed d.tracked.item.downloadId ≠ .ok (r :: rs)) : Keeps d c d where
  state := .inl rfl
  noted := by
    apply iff_of_false
    · rintro ⟨hs, hs'⟩
      exact nomatch hs.symm.trans hs'
    · rintro ⟨history, r, rs, hc, hs, hr, hf⟩
      exact hcheck history r rs hc hs hr hf
  announced := by
    apply iff_of_false
    · rintro ⟨hs, hs'⟩
      exact nomatch hs.symm.trans hs'
    · rintro ⟨history, r, rs, hc, hs, hf⟩
      exact hprocess history r rs hc hs hf
  sent := .inl rfl
  sent_iff := by
    apply iff_of_false not_append_self
    rintro ⟨hs, hs'⟩
    exact nomatch hs.symm.trans hs'
  settled _ := rfl
  item := rfl
  warned h := h.elim (absurd rfl) (absurd rfl)

theorem keeps_idle_check (h : d.tracked.state = .downloading →
    d.tracked.item.reportsFailure = true →
    ∀ r rs, history.findGrabbed d.tracked.item.downloadId ≠ .ok (r :: rs)) :
    Keeps d (.check history) d := by
  apply keeps_self
  · rintro _ r rs ⟨⟩ hs hr
    exact h hs hr r rs
  · nofun

theorem keeps_idle_process {publisher : Publisher} (h : publisher = .listening →
    d.tracked.state = .failedPending →
    ∀ r rs, history.findGrabbed d.tracked.item.downloadId ≠ .ok (r :: rs)) :
    Keeps d (.process history publisher) d := by
  apply keeps_self
  · nofun
  · rintro _ r rs ⟨⟩ hs
    exact h rfl hs r rs

theorem keeps_warned (hs : d.tracked.state = .downloading)
    (hf : history.findGrabbed d.tracked.item.downloadId = .ok []) :
    Keeps d (.check history) { d with tracked := d.tracked.warn notGrabbedWarning } where
  state := .inl rfl
  noted := by
    apply iff_of_false
    · rintro ⟨_, hpending⟩
      exact nomatch hs.symm.trans hpending
    · rintro ⟨_, r, rs, ⟨⟩, _, _, hf'⟩
      exact nomatch hf.symm.trans hf'
  announced := by
    apply iff_of_false
    · rintro ⟨hpending, _⟩
      exact nomatch hs.symm.trans hpending
    · nofun
  sent := .inl rfl
  sent_iff := by
    apply iff_of_false not_append_self
    rintro ⟨hpending, _⟩
    exact nomatch hs.symm.trans hpending
  settled hsettled := absurd hs hsettled.1
  item := rfl
  warned _ := ⟨_, rfl, hf, hs, hs⟩

theorem keeps_noted {r : HistoryRecord} {rs : List HistoryRecord}
    (hs : d.tracked.state = .downloading) (hr : d.tracked.item.reportsFailure = true)
    (hf : history.findGrabbed d.tracked.item.downloadId = .ok (r :: rs)) :
    Keeps d (.check history) { d with tracked := { d.tracked with state := .failedPending } } where
  state := .inr (.inl ⟨hs, rfl⟩)
  noted := ⟨fun _ => ⟨_, _, _, rfl, hs, hr, hf⟩, fun _ => ⟨hs, rfl⟩⟩
  announced := iff_of_false (fun h => nomatch h.2) nofun
  sent := .inl rfl
  sent_iff := iff_of_false not_append_self fun h => nomatch h.2
  settled hsettled := absurd hs hsettled.1
  item := rfl
  warned h := h.elim (absurd rfl) (absurd rfl)

theorem keeps_announced {r : HistoryRecord} {rs : List HistoryRecord} {event : FailureEvent}
    (hs : d.tracked.state = .failedPending)
    (hf : history.findGrabbed d.tracked.item.downloadId = .ok (r :: rs)) :
    Keeps d (.process history .listening)
      { tracked := { d.tracked with state := .failed }, sent := d.sent ++ [event] } where
  state := .inr (.inr ⟨hs, rfl⟩)
  noted := iff_of_false (fun h => nomatch h.2) nofun
  announced := ⟨fun _ => ⟨_, _, _, rfl, hs, hf⟩, fun _ => ⟨hs, rfl⟩⟩
  sent := .inr ⟨event, rfl⟩
  sent_iff := ⟨fun _ => ⟨hs, rfl⟩, fun _ => ⟨event, rfl⟩⟩
  settled hsettled := absurd hs hsettled.2
  item := rfl
  warned h := h.elim (absurd rfl) (absurd rfl)

theorem keeps_of_effect {c : Call} {o : Outcome Unit Desk} (h : Effect d c o) :
    Keeps d c o.2 := by
  cases h with
  | nothingReported hguard => exact keeps_idle_check fun hs hr => absurd ⟨hs, hr⟩ hguard
  | checkBroken _ _ hf => exact keeps_idle_check fun _ _ _ _ hf' => nomatch hf.symm.trans hf'
  | warned hs _ hf => exact keeps_warned hs hf
  | noted hs hr hf => exact keeps_noted hs hr hf
  | nothingNoted hs => exact keeps_idle_process fun _ hs' => absurd hs' hs
  | processBroken _ hf => exact keeps_idle_process fun _ _ _ _ hf' => nomatch hf.symm.trans hf'
  | vanished _ hf => exact keeps_idle_process fun _ _ _ _ hf' => nomatch hf.symm.trans hf'
  | refused _ _ hne => exact keeps_idle_process fun hlistening => absurd hlistening hne
  | announced hs hf _ => exact keeps_announced hs hf

theorem keeps_call (d : Desk) (c : Call) : Keeps d c (d.call c).2 :=
  keeps_of_effect (effect_call d c)

theorem after_of_settled (h : d.tracked.state.IsSettled) (cs : List Call) :
    d.after cs = d := by
  induction cs with
  | nil => rfl
  | cons c cs ih => rw [after_cons, (keeps_call d c).settled h, ih]

/-- What a run sends: one announcement if it brings the download to failed, else none. -/
theorem sent_after (d : Desk) (cs : List Call) :
    ∃ events, (d.after cs).sent = d.sent ++ events ∧ events.length ≤ 1 ∧
      (events.length = 1 ↔
        d.tracked.state ≠ .failed ∧ (d.after cs).tracked.state = .failed) := by
  induction cs generalizing d with
  | nil =>
    refine ⟨[], (List.append_nil _).symm, Nat.zero_le 1, ?_⟩
    exact iff_of_false (by simp) fun h => h.1 h.2
  | cons c cs ih =>
    rw [after_cons]
    have hkeeps := keeps_call d c
    rcases hkeeps.sent with hsame | ⟨event, hnew⟩
    · obtain ⟨events, hsent, hle, hiff⟩ := ih (d.call c).2
      refine ⟨events, by rw [hsent, hsame], hle, hiff.trans ?_⟩
      have hnot : ¬ (d.tracked.state = .failedPending ∧ (d.call c).2.tracked.state = .failed) := by
        intro h
        obtain ⟨event, hnew⟩ := hkeeps.sent_iff.mpr h
        exact not_append_self ⟨event, hsame.symm.trans hnew⟩
      have hfailed : (d.call c).2.tracked.state = .failed ↔ d.tracked.state = .failed := by
        rcases hkeeps.state with h | ⟨h, h'⟩ | h
        · rw [h]
        · simp [h, h']
        · exact absurd h hnot
      rw [Ne, hfailed]
    · obtain ⟨hpending, hfailed⟩ := hkeeps.sent_iff.mp ⟨event, hnew⟩
      have hsettled : (d.call c).2.tracked.state.IsSettled := by
        rw [hfailed]
        exact ⟨nofun, nofun⟩
      rw [after_of_settled hsettled]
      refine ⟨[event], hnew, Nat.le_refl 1, ?_⟩
      exact iff_of_true rfl ⟨by rw [hpending]; exact nofun, hfailed⟩

/-- Along every run of calls each call keeps to the rules, and the run as a whole announces the
failure at most once: exactly if it began before the download was failed and ended after. -/
theorem announces_once (d : Desk) (cs : List Call) :
    (∀ c, Keeps (d.after cs) c (d.after (cs ++ [c]))) ∧
      ∃ events, (d.after cs).sent = d.sent ++ events ∧ events.length ≤ 1 ∧
        (events.length = 1 ↔
          d.tracked.state ≠ .failed ∧ (d.after cs).tracked.state = .failed) := by
  refine ⟨fun c => ?_, sent_after d cs⟩
  have hlast : d.after (cs ++ [c]) = ((d.after cs).call c).2 := by
    simp only [after, List.foldl_append, List.foldl_cons, List.foldl_nil]
  rw [hlast]
  exact keeps_call (d.after cs) c

end Desk

end ReleaseWarden
