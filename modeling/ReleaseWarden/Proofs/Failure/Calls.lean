import ReleaseWarden.Failure.Supervision

/-! Calls of supervision as transitions of a desk. Each call looks history up at most once and
announces at most once, and both may turn out differently at every call. -/

set_option autoImplicit false

namespace ReleaseWarden

inductive Call
  | check (history : Lookup)
  | process (history : Lookup) (publisher : Publisher)

theorem FailureEvent.ofRecords?_cons (r : HistoryRecord) (rs : List HistoryRecord)
    (message : String) (skipRedownload : Bool) :
    ∃ e, ofRecords? (r :: rs) message skipRedownload = some e := by
  simp [ofRecords?, List.getLast?_cons]

theorem Publisher.publish_cases (p : Publisher) (sent : List FailureEvent) (e : FailureEvent) :
    p.publish sent e = (.ok (), sent ++ [e]) ∧ p = .listening ∨
      ∃ cause, p.publish sent e = (.error cause, sent) ∧ p ≠ .listening := by
  cases p with
  | listening => exact .inl ⟨rfl, rfl⟩
  | refusing reason => exact .inr ⟨_, rfl, nofun⟩
  | closed => exact .inr ⟨_, rfl, nofun⟩

namespace Desk

def call (d : Desk) : Call → Outcome Unit Desk
  | .check history => d.check history
  | .process history publisher => d.processFailed history publisher

/-- The desk that a run of calls leaves behind, broken off ones included. -/
def after (d : Desk) (calls : List Call) : Desk := calls.foldl (fun d c => (d.call c).2) d

theorem after_cons (d : Desk) (c : Call) (cs : List Call) :
    d.after (c :: cs) = (d.call c).2.after cs := rfl

/-- All that a call can come to. -/
inductive Effect (d : Desk) : Call → Outcome Unit Desk → Prop
  | nothingReported {history : Lookup} :
      ¬ (d.tracked.state = .downloading ∧ d.tracked.item.reportsFailure = true) →
      Effect d (.check history) (.ok (), d)
  | checkBroken {history : Lookup} {cause : HistoryError} :
      d.tracked.state = .downloading → d.tracked.item.reportsFailure = true →
      history.findGrabbed d.tracked.item.downloadId = .error cause →
      Effect d (.check history) (.error (.history cause), d)
  | warned {history : Lookup} :
      d.tracked.state = .downloading → d.tracked.item.reportsFailure = true →
      history.findGrabbed d.tracked.item.downloadId = .ok [] →
      Effect d (.check history) (.ok (), { d with tracked := d.tracked.warn notGrabbedWarning })
  | noted {history : Lookup} {r : HistoryRecord} {rs : List HistoryRecord} :
      d.tracked.state = .downloading → d.tracked.item.reportsFailure = true →
      history.findGrabbed d.tracked.item.downloadId = .ok (r :: rs) →
      Effect d (.check history)
        (.ok (), { d with tracked := { d.tracked with state := .failedPending } })
  | nothingNoted {history : Lookup} {publisher : Publisher} :
      d.tracked.state ≠ .failedPending → Effect d (.process history publisher) (.ok (), d)
  | processBroken {history : Lookup} {publisher : Publisher} {cause : HistoryError} :
      d.tracked.state = .failedPending →
      history.findGrabbed d.tracked.item.downloadId = .error cause →
      Effect d (.process history publisher) (.error (.history cause), d)
  | vanished {history : Lookup} {publisher : Publisher} :
      d.tracked.state = .failedPending →
      history.findGrabbed d.tracked.item.downloadId = .ok [] →
      Effect d (.process history publisher) (.ok (), d)
  | refused {history : Lookup} {publisher : Publisher} {r : HistoryRecord}
      {rs : List HistoryRecord} {cause : PublishError} :
      d.tracked.state = .failedPending →
      history.findGrabbed d.tracked.item.downloadId = .ok (r :: rs) → publisher ≠ .listening →
      Effect d (.process history publisher) (.error (.publish cause), d)
  | announced {history : Lookup} {r : HistoryRecord} {rs : List HistoryRecord}
      {event : FailureEvent} :
      d.tracked.state = .failedPending →
      history.findGrabbed d.tracked.item.downloadId = .ok (r :: rs) →
      FailureEvent.ofRecords? (r :: rs) d.tracked.item.failureMessage false = some event →
      Effect d (.process history .listening)
        (.ok (), { tracked := { d.tracked with state := .failed }, sent := d.sent ++ [event] })

theorem effect_check (d : Desk) (history : Lookup) :
    Effect d (.check history) (d.check history) := by
  unfold check
  split
  · rename_i hguard
    obtain ⟨hs, hr⟩ := hguard
    cases hf : history.findGrabbed d.tracked.item.downloadId with
    | error cause => exact .checkBroken hs hr hf
    | ok grabbed =>
      cases grabbed with
      | nil => exact .warned hs hr hf
      | cons r rs => exact .noted hs hr hf
  · exact .nothingReported ‹_›

theorem effect_processFailed (d : Desk) (history : Lookup) (publisher : Publisher) :
    Effect d (.process history publisher) (d.processFailed history publisher) := by
  unfold processFailed
  split
  · rename_i hs
    cases hf : history.findGrabbed d.tracked.item.downloadId with
    | error cause => exact .processBroken hs hf
    | ok grabbed =>
      cases grabbed with
      | nil => exact .vanished hs hf
      | cons r rs =>
        obtain ⟨event, he⟩ :=
          FailureEvent.ofRecords?_cons r rs d.tracked.item.failureMessage false
        simp only [he]
        rcases publisher.publish_cases d.sent event with ⟨hp, rfl⟩ | ⟨cause, hp, hne⟩
        · simp only [hp]
          exact .announced hs hf he
        · simp only [hp]
          exact .refused hs hf hne
  · exact .nothingNoted ‹_›

theorem effect_call (d : Desk) (c : Call) : Effect d c (d.call c) := by
  cases c with
  | check history => exact effect_check d history
  | process history publisher => exact effect_processFailed d history publisher

end Desk

end ReleaseWarden
