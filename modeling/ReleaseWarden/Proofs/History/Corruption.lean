import Mathlib.Data.List.Find
import ReleaseWarden.Proofs.History.ReadBack

/-! Rows whose data is corrupt: any text may stand there. A look-up that meets such a row fails and
names it; a look-up that meets none answers as if no such row were in the table. -/

set_option autoImplicit false

namespace ReleaseWarden

open Text Schema

theorem decodeEntry_eq_some_iff {m : Option String × Json} {e : String × String} :
    decodeEntry m = some e ↔ m = (some e.1, Json.text e.2) := by
  constructor
  · intro h
    unfold decodeEntry at h
    split at h
    · cases h
      rfl
    · cases h
  · rintro rfl
    rfl

theorem eq_of_mapM_decodeEntry {ms : List (Option String × Json)} {es : List (String × String)}
    (h : ms.mapM decodeEntry = some es) :
    ms = (es.map fun e => (e.1, Json.text e.2)).map fun m => (some m.1, m.2) := by
  induction ms generalizing es with
  | nil =>
    cases h
    rfl
  | cons m ms ih =>
    rw [List.mapM_cons] at h
    obtain ⟨e, he, h⟩ := Option.bind_eq_some_iff.mp h
    obtain ⟨rest, hrest, hpure⟩ := Option.bind_eq_some_iff.mp h
    cases hpure
    rw [decodeEntry_eq_some_iff.mp he, ih hrest]
    rfl

namespace Row

variable {row : Row}

/-- The data is the text of a JSON object in which every value is a text. -/
def HoldsTexts (row : Row) : Prop := ∃ members : List (String × String),
  Json.parse row.data = some (Json.record (members.map fun m => (m.1, Json.text m.2)))

def IsCorrupt (row : Row) : Prop := ¬ row.HoldsTexts

/-- All columns beside the data hold what they may hold in a record. -/
structure IsSound (row : Row) : Prop where
  grade : ∃ g, row.grade = .ok g
  event : ∃ event : HistoryEvent, row.event = Vocabulary.word event

theorem holdsTexts_iff : row.HoldsTexts ↔ ∃ t, readData? row.data = some t := by
  unfold HoldsTexts readData?
  constructor
  · rintro ⟨members, hparse⟩
    rw [hparse, Option.bind_some]
    refine ⟨Table.ofList members, ?_⟩
    simp only [Schema.decode, Json.record, mapM_decodeEntry, Option.map_some]
  · rintro ⟨t, h⟩
    obtain ⟨j, hparse, hdecode⟩ := Option.bind_eq_some_iff.mp h
    rw [hparse]
    cases j with
    | object ms =>
      obtain ⟨members, hmembers, _⟩ := Option.map_eq_some_iff.mp hdecode
      exact ⟨members, congrArg (some ∘ Json.object) (eq_of_mapM_decodeEntry hmembers)⟩
    | _ => cases hdecode

theorem isCorrupt_iff : row.IsCorrupt ↔ readData? row.data = none := by
  rw [IsCorrupt, holdsTexts_iff, ← Option.isSome_iff_exists, Option.not_isSome_iff_eq_none]

instance (row : Row) : Decidable row.IsCorrupt := decidable_of_iff _ isCorrupt_iff.symm

def badData : String := "bad data: not an object of texts"

theorem record_of_corrupt (hsound : row.IsSound) (h : row.IsCorrupt) :
    row.record = .error (.invalid row.id badData) := by
  obtain ⟨g, hg⟩ := hsound.grade
  obtain ⟨event, hevent⟩ := hsound.event
  refine bind_eq_error_iff.mpr (.inr ⟨g, hg, ?_⟩)
  rw [toRecord, hevent, HistoryEvent.ofText_word, isCorrupt_iff.mp h]
  rfl

theorem exists_record (hsound : row.IsSound) (h : ¬ row.IsCorrupt) :
    ∃ r, row.record = .ok r := by
  obtain ⟨g, hg⟩ := hsound.grade
  obtain ⟨event, hevent⟩ := hsound.event
  obtain ⟨t, ht⟩ := holdsTexts_iff.mp (Classical.not_not.mp h)
  have hrecord : ∃ r, row.toRecord g = .ok r := by
    rw [toRecord, hevent, HistoryEvent.ofText_word, ht]
    exact ⟨_, rfl⟩
  obtain ⟨r, hr⟩ := hrecord
  exact ⟨r, record_eq_ok_iff.mpr ⟨g, hg, hr⟩⟩

theorem record_eq_error_iff (hsound : row.IsSound) {e : HistoryError} :
    row.record = .error e ↔ row.IsCorrupt ∧ e = .invalid row.id badData := by
  by_cases h : row.IsCorrupt
  · rw [record_of_corrupt hsound h, Except.error.injEq, and_iff_right h, eq_comm]
  · obtain ⟨r, hr⟩ := exists_record hsound h
    rw [hr]
    exact iff_of_false nofun fun hcorrupt => h hcorrupt.1

theorem records_of_grades {rows : List Row} (h : ∀ row ∈ rows, ∃ g, row.grade = .ok g) :
    records rows = rows.mapM record := by
  obtain ⟨grades, hgrades⟩ := exists_map_eq_ok h
  rw [records, mapM_eq_ok_iff.mpr hgrades]
  clear h
  change (rows.zip grades).mapM (fun p => p.1.toRecord p.2) = rows.mapM record
  induction rows generalizing grades with
  | nil => rfl
  | cons row rows ih =>
    cases grades with
    | nil => cases hgrades
    | cons g grades =>
      obtain ⟨hg, hgs⟩ := List.cons.inj hgrades
      have hrecord : row.record = row.toRecord g := by
        rw [record, hg]
        rfl
      rw [List.zip_cons_cons, List.mapM_cons, List.mapM_cons, ih grades hgs, hrecord]

end Row

namespace Store

variable {s : Store} {d : String} {event : HistoryEvent} {id : Int64} {row : Row} {e : HistoryError}

/-- The store can be read, and nothing but the data of its rows may be out of order. -/
structure Readable (s : Store) : Prop where
  readFault : s.readFault? = none
  distinctIds : s.DistinctIds
  sound : ∀ row ∈ s.rows, row.IsSound

/-- The newest of the corrupt rows under a download id that tell of an event. -/
structure NewestCorrupt (s : Store) (d : String) (event : HistoryEvent) (row : Row) : Prop where
  mem : row ∈ s.rows
  downloadId : row.downloadId = some d
  tells : row.event = Vocabulary.word event
  corrupt : row.IsCorrupt
  newest : ∀ other ∈ s.rows, other.downloadId = some d → other.event = Vocabulary.word event →
    other.IsCorrupt → other.id ≠ row.id → row.Newer other

/-- No corrupt row stands under the download id with the event. -/
def SoundUnder (s : Store) (d : String) (event : HistoryEvent) : Prop :=
  ∀ row ∈ s.rows, row.downloadId = some d → row.event = Vocabulary.word event → ¬ row.IsCorrupt

/-- The row with the id, if there is one, is not corrupt. -/
def SoundAt (s : Store) (id : Int64) : Prop := ∀ row ∈ s.rows, row.id = id → ¬ row.IsCorrupt

/-- The store without its corrupt rows. -/
def intact (s : Store) : Store := { s with rows := s.rows.filter fun row => ¬ row.IsCorrupt }

theorem find_eq_mapM (h : s.Readable) : s.find d event = (s.rowsFor d event).mapM Row.record := by
  rw [find, h.readFault]
  exact Row.records_of_grades fun row hrow => (h.sound row (mem_rowsFor.mp hrow).1).grade

theorem newestCorrupt_of_find (h : s.Readable) (hfind : s.find d event = .error e) :
    ∃ row, s.NewestCorrupt d event row ∧ e = .invalid row.id Row.badData := by
  rw [find_eq_mapM h] at hfind
  obtain ⟨front, row, back, hsplit, hfront, herror⟩ := exists_of_mapM_eq_error hfind
  have hrow : row ∈ s.rowsFor d event := hsplit ▸ List.mem_append_right front List.mem_cons_self
  obtain ⟨hmem, hd, hevent⟩ := mem_rowsFor.mp hrow
  obtain ⟨hcorrupt, rfl⟩ := (Row.record_eq_error_iff (h.sound row hmem)).mp herror
  refine ⟨row, ⟨hmem, hd, hevent, hcorrupt, fun other ho hod hoevent hocorrupt hne => ?_⟩, rfl⟩
  have hother : other ∈ s.rowsFor d event := mem_rowsFor.mpr ⟨ho, hod, hoevent⟩
  rw [hsplit] at hother
  rcases List.mem_append.mp hother with hother | hother
  · obtain ⟨r, hr⟩ := hfront other hother
    exact nomatch hr.symm.trans (Row.record_of_corrupt (h.sound other ho) hocorrupt)
  · -- Rows behind this one in the answer are older.
    have hpair : (s.rowsFor d event).Pairwise fun a b => a.newerFirst b = true := rowsFor_pairwise
    rw [hsplit] at hpair
    have hnewer : row.newerFirst other = true :=
      (List.pairwise_cons.mp (List.pairwise_append.mp hpair).2.1).1 other
        (List.mem_of_ne_of_mem (fun heq => hne (congrArg Row.id heq)) hother)
    exact Row.newer_of_newerFirst hnewer hne.symm

theorem newestCorrupt_unique (hs : s.DistinctIds) {row' : Row} (h : s.NewestCorrupt d event row)
    (h' : s.NewestCorrupt d event row') : row = row' := by
  by_cases hid : row.id = row'.id
  · exact eq_of_mem_of_key_eq hs h.mem h'.mem hid
  · have hnewer := h.newest row' h'.mem h'.downloadId h'.tells h'.corrupt (Ne.symm hid)
    have hnewer' := h'.newest row h.mem h.downloadId h.tells h.corrupt hid
    exact absurd (Row.newer_iff.mp hnewer').1 (Row.newer_iff.mp hnewer).2

theorem find_fails_iff (h : s.Readable) : (∃ e, s.find d event = .error e) ↔
    ∃ row ∈ s.rows, row.downloadId = some d ∧ row.event = Vocabulary.word event ∧
      row.IsCorrupt := by
  constructor
  · rintro ⟨e, hfind⟩
    obtain ⟨row, hnewest, _⟩ := newestCorrupt_of_find h hfind
    exact ⟨row, hnewest.mem, hnewest.downloadId, hnewest.tells, hnewest.corrupt⟩
  · rintro ⟨row, hmem, hd, hevent, hcorrupt⟩
    cases hfind : s.find d event with
    | error e => exact ⟨e, rfl⟩
    | ok rs =>
      have herror : row.record = .error (.invalid row.id Row.badData) :=
        Row.record_of_corrupt (h.sound row hmem) hcorrupt
      have hrecord : row.record ∈ (s.rowsFor d event).map Row.record :=
        List.mem_map_of_mem (mem_rowsFor.mpr ⟨hmem, hd, hevent⟩)
      rw [(find_eq_ok_iff.mp hfind).2, herror] at hrecord
      obtain ⟨r, _, heq⟩ := List.mem_map.mp hrecord
      cases heq

theorem find_eq_error_iff (h : s.Readable) : s.find d event = .error e ↔
    ∃ row, s.NewestCorrupt d event row ∧ e = .invalid row.id Row.badData := by
  constructor
  · exact newestCorrupt_of_find h
  · rintro ⟨row, hnewest, rfl⟩
    obtain ⟨e, hfind⟩ := (find_fails_iff h).mpr
      ⟨row, hnewest.mem, hnewest.downloadId, hnewest.tells, hnewest.corrupt⟩
    obtain ⟨row', hnewest', rfl⟩ := newestCorrupt_of_find h hfind
    rw [hfind, newestCorrupt_unique h.distinctIds hnewest hnewest']

theorem get_eq_invalid_iff (h : s.Readable) {n : Int64} {reason : String} :
    s.get id = .error (.invalid n reason) ↔
      n = id ∧ reason = Row.badData ∧ ∃ row ∈ s.rows, row.id = id ∧ row.IsCorrupt := by
  rw [get, h.readFault]
  constructor
  · intro hget
    cases hfind : s.rows.find? fun r => r.id == id with
    | none =>
      rw [hfind] at hget
      cases hget
    | some row =>
      rw [hfind] at hget
      have hmem := List.mem_of_find?_eq_some hfind
      have hid : row.id = id := by simpa using List.find?_some hfind
      obtain ⟨hcorrupt, heq⟩ := (Row.record_eq_error_iff (h.sound row hmem)).mp hget
      cases heq
      exact ⟨hid, rfl, row, hmem, hid, hcorrupt⟩
  · rintro ⟨rfl, rfl, row, hmem, rfl, hcorrupt⟩
    rw [find?_id_of_mem h.distinctIds hmem]
    exact Row.record_of_corrupt (h.sound row hmem) hcorrupt

/-! What meets no corrupt row. -/

theorem find_intact (h : s.SoundUnder d event) : s.intact.find d event = s.find d event := by
  have hrows : s.intact.rowsFor d event = s.rowsFor d event := by
    have hkept : (s.intact.rows.filter fun r =>
        r.downloadId == some d && r.event == Vocabulary.word event) =
          s.rows.filter fun r => r.downloadId == some d && r.event == Vocabulary.word event := by
      rw [intact, List.filter_filter]
      apply List.filter_congr
      intro row hrow
      have hsound := h row hrow
      by_cases hselected : row.downloadId = some d ∧ row.event = Vocabulary.word event
      · simp [hselected, hsound hselected.1 hselected.2]
      · simp [hselected]
    rw [rowsFor, hkept, rowsFor]
  have hfault : s.intact.readFault? = s.readFault? := rfl
  rw [find, hfault, hrows, find]

theorem get_intact (h : s.SoundAt id) : s.intact.get id = s.get id := by
  have hfind : (s.intact.rows.find? fun r => r.id == id) = s.rows.find? fun r => r.id == id := by
    rw [intact, List.find?_filter]
    apply List.find?_congr
    intro row hrow
    have hsound := h row hrow
    by_cases hid : row.id = id
    · simp [hid, hsound hid]
    · simp [hid]
  have hfault : s.intact.readFault? = s.readFault? := rfl
  rw [get, hfault, hfind, get]

end Store

end ReleaseWarden
