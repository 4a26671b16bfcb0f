import Mathlib.Data.List.Induction
import ReleaseWarden.Failure.Listener
import ReleaseWarden.Failure.Publisher

/-! The searches that replace failed downloads. The listener hears the announcements in the order in
which they were published and calls the trigger once for each that is to be replaced, whatever came
of the calls before. -/

set_option autoImplicit false

namespace ReleaseWarden

namespace FailureEvent

def IsWanted (autoRedownload : Bool) (e : FailureEvent) : Prop :=
  autoRedownload = true ∧ e.skipRedownload = false ∧ e.albumIds ≠ []

instance (autoRedownload : Bool) (e : FailureEvent) : Decidable (e.IsWanted autoRedownload) :=
  inferInstanceAs (Decidable (_ ∧ _))

/-- One search for all albums of the download. -/
def request (e : FailureEvent) : SearchRequest := ⟨e.artistId, e.albumIds, e.sourceTitle⟩

theorem isWanted_iff {autoRedownload : Bool} {e : FailureEvent} : e.IsWanted autoRedownload ↔
    (e.skipRedownload || !autoRedownload || e.albumIds.isEmpty) = false := by
  simp only [IsWanted, Bool.or_eq_false_iff, Bool.not_eq_false', List.isEmpty_eq_false_iff]
  rw [and_assoc]
  exact and_left_comm

theorem replacement?_eq (autoRedownload : Bool) (e : FailureEvent) :
    e.replacement? autoRedownload =
      if e.IsWanted autoRedownload then some e.request else none := by
  rw [replacement?]
  by_cases h : e.IsWanted autoRedownload
  · rw [if_pos h, isWanted_iff.mp h]
    rfl
  · rw [if_neg h, if_pos (Bool.not_eq_false _ ▸ mt isWanted_iff.mpr h)]

theorem toList_replacement? (autoRedownload : Bool) (e : FailureEvent) :
    (e.replacement? autoRedownload).toList =
      if e.IsWanted autoRedownload then [e.request] else [] := by
  rw [replacement?_eq]
  split <;> rfl

def requests (autoRedownload : Bool) (events : List FailureEvent) : List SearchRequest :=
  (events.filter fun e => e.IsWanted autoRedownload).map request

end FailureEvent

namespace Publisher

/-- What arrives where somebody listens. -/
def arrivals (events : List FailureEvent) : List FailureEvent :=
  events.foldl (fun sent e => (listening.publish sent e).2) []

theorem foldl_publish (events sent : List FailureEvent) :
    events.foldl (fun sent e => (listening.publish sent e).2) sent = sent ++ events := by
  induction events generalizing sent with
  | nil => exact (List.append_nil sent).symm
  | cons e events ih =>
    rw [List.foldl_cons, ih, publish, List.append_assoc]
    rfl

theorem arrivals_eq (events : List FailureEvent) : arrivals events = events :=
  foldl_publish events []

end Publisher

namespace SearchTrigger

/-- What the trigger answers to one call after the other. -/
def answers (trigger : SearchTrigger) (requests : List SearchRequest) :
    List (Except SearchError Unit) :=
  requests.mapIdx fun n request => trigger (requests.take n).reverse request

theorem answers_concat (trigger : SearchTrigger) (requests : List SearchRequest)
    (request : SearchRequest) : answers trigger (requests ++ [request]) =
      answers trigger requests ++ [trigger requests.reverse request] := by
  rw [answers, List.mapIdx_concat, List.take_left', answers]
  · congr 1
    apply List.ext_getElem
    · rw [List.length_mapIdx, List.length_mapIdx]
    · intro n hn _
      have hlt : n < requests.length := by simpa using hn
      rw [List.getElem_mapIdx, List.getElem_mapIdx, List.take_append_of_le_length (by omega)]
  · rfl

end SearchTrigger

namespace Listener

variable {trigger : SearchTrigger} {autoRedownload : Bool}

theorem hear_of_isWanted {e : FailureEvent} (h : e.IsWanted autoRedownload) (l : Listener) :
    l.hear trigger autoRedownload e = ⟨e.request :: l.calls,
      l.started + if (trigger l.calls e.request).isOk then 1 else 0⟩ := by
  simp only [hear, FailureEvent.replacement?_eq, if_pos h]
  cases trigger l.calls e.request <;> rfl

theorem hear_of_not_isWanted {e : FailureEvent} (h : ¬ e.IsWanted autoRedownload) (l : Listener) :
    l.hear trigger autoRedownload e = l := by
  simp only [hear, FailureEvent.replacement?_eq, if_neg h]

theorem run_eq (trigger : SearchTrigger) (autoRedownload : Bool) (events : List FailureEvent) :
    run trigger autoRedownload events =
      ⟨(FailureEvent.requests autoRedownload events).reverse,
        (SearchTrigger.answers trigger
          (FailureEvent.requests autoRedownload events)).countP Except.isOk⟩ := by
  induction events using List.reverseRecOn with
  | nil => rfl
  | append_singleton events e ih =>
    rw [run, List.foldl_append, List.foldl_cons, List.foldl_nil, ← run, ih]
    by_cases h : e.IsWanted autoRedownload
    · have hlast : FailureEvent.requests autoRedownload (events ++ [e]) =
          FailureEvent.requests autoRedownload events ++ [e.request] := by
        simp [FailureEvent.requests, h]
      rw [hear_of_isWanted h, hlast, List.reverse_concat, SearchTrigger.answers_concat,
        List.countP_append, List.countP_singleton]
    · have hlast : FailureEvent.requests autoRedownload (events ++ [e]) =
          FailureEvent.requests autoRedownload events := by
        simp [FailureEvent.requests, h]
      rw [hear_of_not_isWanted h, hlast]

/-- The trigger is called once for each published failure that is to be replaced, in the order of
publication and for no other. Whichever calls fail, the others are made all the same, and those that
succeed are counted. -/
theorem searches_each_wanted_once (trigger : SearchTrigger) (autoRedownload : Bool)
    (events : List FailureEvent) :
    let l := run trigger autoRedownload (Publisher.arrivals events)
    l.calls.reverse = (events.filter fun e => e.IsWanted autoRedownload).map FailureEvent.request ∧
      l.started = (SearchTrigger.answers trigger l.calls.reverse).countP Except.isOk ∧
      ∀ trigger', (run trigger' autoRedownload (Publisher.arrivals events)).calls = l.calls := by
  rw [Publisher.arrivals_eq]
  intro l
  have hl : l = ⟨_, _⟩ := run_eq trigger autoRedownload events
  have horder : l.calls.reverse = FailureEvent.requests autoRedownload events := by
    rw [hl, List.reverse_reverse]
  refine ⟨horder, ?_, fun trigger' => ?_⟩
  · rw [horder, hl]
  · rw [run_eq, hl]

end Listener

end ReleaseWarden
