import ReleaseWarden.Failure.Settlement
import ReleaseWarden.Proofs.History.AppendOnly
import ReleaseWarden.Proofs.History.Batches

/-! Records of failures. They are added behind all other rows and are no grabs, so that whatever
failures are recorded, the grabs under a download id are found as before, and a record that was
there can still be looked up. -/

set_option autoImplicit false

namespace ReleaseWarden

open Text

/-- The record tells of the announced failure. Its data is that of the announcement, but for the
message, which is added or takes the place of another one. -/
structure HistoryRecord.TellsFailure (r : HistoryRecord) (e : FailureEvent) : Prop where
  event : r.event = .downloadFailed
  artistId : r.artistId = e.artistId
  sourceTitle : r.sourceTitle = e.sourceTitle
  grade : r.grade = e.grade
  downloadId : r.downloadId = e.downloadId
  data : ∀ key, r.data.get? key =
    if key = "message" then some e.message else e.data.get? key

namespace Store

variable {s t u : Store} {p : NewRecord → Prop} {e : FailureEvent} {r : NewRecord}

theorem Grows.get_eq_ok (h : Grows p s t) {id : Int64} {r : HistoryRecord}
    (hget : s.get id = .ok r) : t.get id = .ok r := by
  obtain ⟨hread, row, hfind, hrec⟩ := get_eq_ok_iff.mp hget
  obtain ⟨rows, hrows, _⟩ := h.rows
  refine get_eq_ok_iff.mpr ⟨h.readFault.trans hread, row, ?_, hrec⟩
  rw [hrows, List.find?_append, hfind, Option.some_or]

/-- Nothing is added but records of failures. -/
abbrev LogsFailures (s t : Store) : Prop := Grows (fun r => r.event = .downloadFailed) s t

theorem LogsFailures.find_grabbed (h : LogsFailures s t) (d : String) :
    t.find d .grabbed = s.find d .grabbed := by
  apply Grows.find_eq h
  rintro r hfailed ⟨_, hgrabbed⟩
  exact nomatch hfailed.symm.trans hgrabbed

theorem logsFailures_recordFailure (s : Store) (clock : Clock) (e : FailureEvent) :
    LogsFailures s (s.recordFailure clock e).2 := by
  have hfailed : ∀ r ∈ (Write.failure clock e).newRecords, r.event = .downloadFailed := by
    intro r hr
    obtain ⟨_, _, rfl⟩ := List.mem_map.mp hr
    rfl
  exact grows_run hfailed s

theorem tellsFailure_stored (h : r ∈ failureRecords e) (id : Int64) (date : String) :
    (r.stored id date).TellsFailure e := by
  obtain ⟨_, _, rfl⟩ := List.mem_map.mp h
  exact ⟨rfl, rfl, rfl, rfl, rfl, e.data.get?_insert "message" e.message⟩

/-- The failure is recorded once for each of its albums, and nothing else is changed. -/
structure RecordsFailure (s : Store) (e : FailureEvent) (t : Store) : Prop where
  rows : ∃ rows, t.rows = s.rows ++ rows ∧ rows.map Row.albumId = e.albumIds ∧
    ∀ row ∈ rows, ∃ r, row.record = .ok r ∧ r.TellsFailure e
  rest : t = { s with rows := t.rows, lastId := t.lastId }

theorem recordsFailure {clock : Clock} {ids : List Int64}
    (h : s.recordFailure clock e = (.ok ids, t)) : RecordsFailure s e t := by
  obtain ⟨hlength, _, rfl, _⟩ := insertAll_eq_ok h
  refine ⟨⟨batchRows clock ids (failureRecords e), rfl, ?_, ?_⟩, rfl⟩
  · rw [map_albumId_of_holds (forall₂_holds_batchRows clock hlength)]
    exact (Write.failure clock e).map_albumId_newRecords
  · intro row hrow
    obtain ⟨id, _, n, _, r, hr, rfl⟩ := mem_batchRows hrow
    exact ⟨_, Row.record_ofNew id (clock.reading n) r, tellsFailure_stored hr id _⟩

end Store

namespace Settlement

open Store (LogsFailures)

theorem logsFailures_settle (autoRedownload : Bool) (clock : Clock) (es : List FailureEvent)
    (s : Store) : LogsFailures s (settle autoRedownload clock es s).2 := by
  induction es generalizing clock s with
  | nil => exact .refl s
  | cons e es ih =>
    have hfirst := Store.logsFailures_recordFailure s clock e
    rw [settle]
    generalize s.recordFailure clock e = outcome at hfirst
    obtain ⟨answer, t⟩ := outcome
    cases answer with
    | error cause => exact hfirst
    | ok ids =>
      have hrest := ih (clock.later ids.length) t
      dsimp only
      generalize settle autoRedownload (clock.later ids.length) es t = outcome at hrest
      obtain ⟨answer, u⟩ := outcome
      cases answer with
      | error cause => exact hfirst.trans hrest
      | ok rest => exact hfirst.trans hrest

theorem settle_one {autoRedownload : Bool} {clock : Clock} {e : FailureEvent} {s t : Store}
    {ids : List Int64} (h : s.recordFailure clock e = (.ok ids, t)) :
    settle autoRedownload clock [e] s =
      (.ok ⟨[e], (e.replacement? autoRedownload).toList⟩, t) := by
  simp only [settle, h, List.append_nil]

end Settlement

end ReleaseWarden
