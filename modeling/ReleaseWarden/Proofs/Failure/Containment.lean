import ReleaseWarden.Failure.Supervision
import ReleaseWarden.Proofs.History.Corruption

/-! Corrupt rows under supervision. An operation on a download, or on a record, is hindered by the
corrupt rows that it looks up and by no others. -/

set_option autoImplicit false

namespace ReleaseWarden

open Text

namespace Store

/-- Neither the row with the id nor a grab under its download id is corrupt. -/
structure SoundBehind (s : Store) (id : Int64) : Prop where
  named : s.SoundAt id
  grabs : ∀ row ∈ s.rows, row.id = id → ∀ d, row.downloadId = some d → blank d = false →
    s.SoundUnder d .grabbed

variable {s : Store} {d : String} {id : Int64}

theorem findGrabbed_intact (h : s.SoundUnder d .grabbed) :
    s.intact.lookup.findGrabbed d = s.lookup.findGrabbed d := find_intact h

theorem recordsBehind_intact (h : s.SoundBehind id) :
    s.intact.lookup.recordsBehind id = s.lookup.recordsBehind id := by
  have hget : s.intact.lookup.get id = s.lookup.get id := get_intact h.named
  unfold Lookup.recordsBehind
  rw [hget]
  cases hrecord : s.lookup.get id with
  | error e => rfl
  | ok r =>
    have hfind : ∀ d, r.groupId? = some d →
        s.intact.lookup.findGrabbed d = s.lookup.findGrabbed d := by
      intro d hd
      obtain ⟨_, row, hrow, hrec⟩ := get_eq_ok_iff.mp hrecord
      obtain ⟨hgroup, hblank⟩ := HistoryRecord.groupId?_eq_some_iff.mp hd
      obtain ⟨_, hdownload, _⟩ := Row.columns_of_record hrec
      have hid : row.id = id := by simpa using List.find?_some hrow
      exact findGrabbed_intact (h.grabs row (List.mem_of_find?_eq_some hrow) hid d
        (hdownload.symm.trans hgroup) hblank)
    simp only [bind, Except.bind]
    cases hgroup : r.groupId? with
    | none => rfl
    | some d =>
      dsimp only
      rw [hfind d hgroup]

end Store

namespace Desk

variable {s : Store} {desk : Desk}

theorem check_intact (h : s.SoundUnder desk.tracked.item.downloadId .grabbed) :
    desk.check s.intact.lookup = desk.check s.lookup := by
  rw [check, Store.findGrabbed_intact h, check]

theorem processFailed_intact (h : s.SoundUnder desk.tracked.item.downloadId .grabbed)
    (publisher : Publisher) :
    desk.processFailed s.intact.lookup publisher = desk.processFailed s.lookup publisher := by
  rw [processFailed, Store.findGrabbed_intact h, processFailed]

end Desk

/-- A corrupt row is in the way of what looks it up, and of nothing else. Let any texts stand in the
data of the rows, and let the other columns be in order. A look-up by download id and event fails
exactly if one of the rows that it asks for is corrupt, and it names the newest of them; a look-up
by id finds its row to be no record exactly if that row is corrupt. Whatever looks up no corrupt
row answers, and leaves things behind, as it would without all corrupt rows: both look-ups, the
check of a download, the announcement of its failure, and marking grabs as failed by a download id
or by a record. -/
theorem corrupt_rows_are_contained {s : Store} (h : s.Readable) :
    (∀ d event,
      ((∃ e, s.find d event = .error e) ↔ ∃ row ∈ s.rows, row.downloadId = some d ∧
        row.event = Vocabulary.word event ∧ row.IsCorrupt) ∧
      ∀ e, s.find d event = .error e ↔
        ∃ row, s.NewestCorrupt d event row ∧ e = .invalid row.id Row.badData) ∧
    (∀ id n reason, s.get id = .error (.invalid n reason) ↔
      n = id ∧ reason = Row.badData ∧ ∃ row ∈ s.rows, row.id = id ∧ row.IsCorrupt) ∧
    (∀ d event, s.SoundUnder d event → s.intact.find d event = s.find d event) ∧
    (∀ id, s.SoundAt id → s.intact.get id = s.get id) ∧
    (∀ desk : Desk, s.SoundUnder desk.tracked.item.downloadId .grabbed →
      desk.check s.intact.lookup = desk.check s.lookup ∧
      ∀ publisher, desk.processFailed s.intact.lookup publisher =
        desk.processFailed s.lookup publisher) ∧
    ∀ publisher skip sent,
      (∀ d, s.SoundUnder d .grabbed → markByDownload s.intact.lookup publisher d skip sent =
        markByDownload s.lookup publisher d skip sent) ∧
      ∀ id, s.SoundBehind id → markByRecord s.intact.lookup publisher id skip sent =
        markByRecord s.lookup publisher id skip sent := by
  refine ⟨fun d event => ⟨Store.find_fails_iff h, fun e => Store.find_eq_error_iff h⟩,
    fun id n reason => Store.get_eq_invalid_iff h, fun d event => Store.find_intact,
    fun id => Store.get_intact,
    fun desk hsound => ⟨Desk.check_intact hsound, Desk.processFailed_intact hsound⟩,
    fun publisher skip sent => ⟨fun d hsound => ?_, fun id hsound => ?_⟩⟩
  · rw [markByDownload, Store.findGrabbed_intact hsound, markByDownload]
  · rw [markByRecord, Store.recordsBehind_intact hsound, markByRecord]

def grabRow (id : Int64) (downloadId data : String) : Row :=
  { Row.ofNew id "2024-05-01 10:00:00"
      { artistId := 7
        albumId := 40
        sourceTitle := "Artist - Album"
        grade := ⟨⟨13, "FLAC"⟩, {}⟩
        event := .grabbed
        downloadId := some downloadId } with
    data }

/-- Of three grabs under one download id the two newer ones have lost their data. -/
def damaged : Store where
  rows :=
    [grabRow 1 "nzo_1" "\x7b\x7d", grabRow 2 "nzo_1" "\x7b", grabRow 3 "nzo_1" "[]",
      grabRow 4 "nzo_2" "\x7b\x7d"]
  lastId := 4

theorem isSound_grabRow (id : Int64) (downloadId data : String) :
    (grabRow id downloadId data).IsSound := by
  have hgrade : (grabRow id downloadId data).grade = .ok ⟨⟨13, "FLAC"⟩, {}⟩ := rfl
  exact ⟨⟨_, hgrade⟩, .grabbed, rfl⟩

theorem readable_damaged : damaged.Readable := by
  refine ⟨rfl, by unfold Store.DistinctIds; decide, ?_⟩
  intro row hrow
  simp only [damaged, List.mem_cons, List.not_mem_nil, or_false] at hrow
  rcases hrow with rfl | rfl | rfl | rfl <;> exact isSound_grabRow _ _ _

/-- The newest of them is named, and the other download is not affected. -/
theorem damaged_names_newest :
    damaged.find "nzo_1" .grabbed = .error (.invalid 3 Row.badData) ∧
      damaged.get 2 = .error (.invalid 2 Row.badData) ∧
      ∀ publisher skip sent, markByDownload damaged.intact.lookup publisher "nzo_2" skip sent =
        markByDownload damaged.lookup publisher "nzo_2" skip sent := by
  obtain ⟨hfind, hget, _, _, _, hmarks⟩ := corrupt_rows_are_contained readable_damaged
  refine ⟨((hfind "nzo_1" .grabbed).2 _).mpr ⟨grabRow 3 "nzo_1" "[]", ?_, rfl⟩,
    (hget 2 2 _).mpr ⟨rfl, rfl, grabRow 2 "nzo_1" "\x7b", ?_, rfl, by decide +kernel⟩,
    fun publisher skip sent => (hmarks publisher skip sent).1 "nzo_2" ?_⟩
  · exact ⟨by decide +kernel, rfl, rfl, by decide +kernel, by decide +kernel⟩
  · decide +kernel
  · unfold Store.SoundUnder
    decide +kernel

end ReleaseWarden
