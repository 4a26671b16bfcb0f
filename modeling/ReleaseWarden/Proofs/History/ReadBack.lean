import ReleaseWarden.Proofs.History.Failures
import ReleaseWarden.Proofs.History.Grabs

/-! Reading back what was written. A run of writes leaves one record for each that was given, for
each album of a grab and for each album of a failure. The table is the list of these records, and
both look-ups answer what the list says, whatever texts the records hold. -/

set_option autoImplicit false

namespace ReleaseWarden

/-- The record is as it was given. -/
structure HistoryRecord.Keeps (r : HistoryRecord) (given : NewRecord) : Prop where
  artistId : r.artistId = given.artistId
  albumId : r.albumId = given.albumId
  sourceTitle : r.sourceTitle = given.sourceTitle
  grade : r.grade = given.grade
  event : r.event = given.event
  downloadId : r.downloadId = given.downloadId
  data : r.data = given.data

namespace Write

/-- These are records of what is written. -/
def Tells (records : List HistoryRecord) : Write → Prop
  | one _ r => List.Forall₂ HistoryRecord.Keeps records [r]
  | batch _ rs => List.Forall₂ HistoryRecord.Keeps records rs
  | grab _ c downloadId downloadClient source =>
    records.map HistoryRecord.albumId = c.albumIds ∧
      ∀ r ∈ records, r.TellsGrab c downloadId downloadClient source
  | failure _ e =>
    records.map HistoryRecord.albumId = e.albumIds ∧ ∀ r ∈ records, r.TellsFailure e

/-- These records are left of a write that answers these ids. -/
structure Leaves (w : Write) (ids : List Int64) (records : List HistoryRecord) : Prop where
  ids : records.map HistoryRecord.id = ids
  dates : records.map HistoryRecord.date = (List.range records.length).map w.clock.reading
  tells : w.Tells records

end Write

namespace Store

/-- These records are left of a run of writes. -/
inductive Leaves (refuses : Row → Bool) : Store → List Write → List HistoryRecord → Prop
  | nil (s : Store) : Leaves refuses s [] []
  | failed {s t : Store} {w : Write} {ws : List Write} {cause : HistoryError}
      {records : List HistoryRecord} :
      w.run s refuses = (.error cause, t) → Leaves refuses t ws records →
      Leaves refuses s (w :: ws) records
  | kept {s t : Store} {w : Write} {ws : List Write} {ids : List Int64}
      {records more : List HistoryRecord} :
      w.run s refuses = (.ok ids, t) → w.Leaves ids records → Leaves refuses t ws more →
      Leaves refuses s (w :: ws) (records ++ more)

variable {clock : Clock} {ids : List Int64} {rs : List NewRecord}

theorem map_date_batchRecords (clock : Clock) (h : ids.length = rs.length) :
    (batchRecords clock ids rs).map HistoryRecord.date =
      (List.range rs.length).map clock.reading := by
  refine batch_induction (fun clock => rfl) (fun clock id ids r rs ih => ?_) clock ids rs h
  have hlater : (clock.later 1).reading = clock.reading ∘ Nat.succ :=
    funext fun n => congrArg clock.reading (Nat.add_comm 1 n)
  rw [batchRecords, List.map_cons, ih, List.length_cons, List.range_succ_eq_map, List.map_cons,
    List.map_map, hlater]
  rfl

theorem length_batchRecords (clock : Clock) (h : ids.length = rs.length) :
    (batchRecords clock ids rs).length = rs.length := by
  have hids := congrArg List.length (map_id_batchRecords clock h)
  rw [List.length_map] at hids
  exact hids.trans h

theorem forall₂_keeps_batchRecords (clock : Clock) (h : ids.length = rs.length) :
    List.Forall₂ HistoryRecord.Keeps (batchRecords clock ids rs) rs := by
  refine batch_induction (fun clock => .nil) (fun clock id ids r rs ih => ?_) clock ids rs h
  exact .cons ⟨rfl, rfl, rfl, rfl, rfl, rfl, rfl⟩ ih

theorem tells_batchRecords {w : Write} (h : ids.length = w.newRecords.length) :
    w.Tells (batchRecords w.clock ids w.newRecords) := by
  have halbums : (batchRecords w.clock ids w.newRecords).map HistoryRecord.albumId = w.albumIds :=
    (map_albumId_batchRecords w.clock h).trans w.map_albumId_newRecords
  cases w with
  | one now r => exact forall₂_keeps_batchRecords now h
  | batch clock rs => exact forall₂_keeps_batchRecords clock h
  | grab clock c downloadId downloadClient source =>
    refine ⟨halbums, fun record hrecord => ?_⟩
    obtain ⟨r, hr, id, date, rfl⟩ := exists_stored_of_mem hrecord
    exact tellsGrab_stored hr id date
  | failure clock e =>
    refine ⟨halbums, fun record hrecord => ?_⟩
    obtain ⟨r, hr, id, date, rfl⟩ := exists_stored_of_mem hrecord
    exact tellsFailure_stored hr id date

theorem leaves_batchRecords {w : Write} (h : ids.length = w.newRecords.length) :
    w.Leaves ids (batchRecords w.clock ids w.newRecords) where
  ids := map_id_batchRecords w.clock h
  dates := by rw [map_date_batchRecords w.clock h, length_batchRecords w.clock h]
  tells := tells_batchRecords h

def recorded (refuses : Row → Bool) : Store → List Write → List HistoryRecord
  | _, [] => []
  | s, w :: ws =>
    match w.run s refuses with
    | (.error _, t) => recorded refuses t ws
    | (.ok ids, t) => batchRecords w.clock ids w.newRecords ++ recorded refuses t ws

variable {s t : Store} {refuses : Row → Bool} {records : List HistoryRecord}

theorem map_id_recorded (s : Store) (ws : List Write) :
    (s.recorded refuses ws).map HistoryRecord.id = s.assigned refuses ws := by
  induction ws generalizing s with
  | nil => rfl
  | cons w ws ih =>
    rw [recorded, assigned]
    cases hrun : w.run s refuses with
    | mk answer t =>
      cases answer with
      | error cause => exact ih t
      | ok ids =>
        obtain ⟨hlength, _⟩ := Write.run_eq_ok hrun
        simp only [List.map_append, map_id_batchRecords _ hlength, ih t]

theorem leaves_recorded (s : Store) (ws : List Write) :
    Leaves refuses s ws (s.recorded refuses ws) := by
  induction ws generalizing s with
  | nil => exact .nil s
  | cons w ws ih =>
    rw [recorded]
    cases hrun : w.run s refuses with
    | mk answer t =>
      cases answer with
      | error cause => exact .failed hrun (ih t)
      | ok ids =>
        obtain ⟨hlength, _⟩ := Write.run_eq_ok hrun
        exact .kept hrun (leaves_batchRecords hlength) (ih t)

theorem map_record_after (s : Store) (ws : List Write) :
    (s.after ws refuses).rows.map Row.record =
      s.rows.map Row.record ++ (s.recorded refuses ws).map .ok := by
  induction ws generalizing s with
  | nil => exact (List.append_nil _).symm
  | cons w ws ih =>
    rw [recorded, after, List.foldl_cons]
    have hrest := ih (w.run s refuses).2
    cases hrun : w.run s refuses with
    | mk answer t =>
      rw [hrun] at hrest
      cases answer with
      | error cause =>
        obtain rfl := Write.run_eq_error hrun
        exact hrest
      | ok ids =>
        obtain ⟨_, _, rfl⟩ := Write.run_eq_ok hrun
        rw [after] at hrest
        rw [hrest, added, List.map_append, map_record_batchRows, List.map_append,
          List.append_assoc]

/-- The table holds the rows of these records, and can be read. -/
structure Tells (s : Store) (records : List HistoryRecord) : Prop where
  rows : s.rows.map Row.record = records.map .ok
  distinctIds : s.DistinctIds
  readFault : s.readFault? = none

theorem Tells.mem_iff (h : s.Tells records) {r : HistoryRecord} :
    r ∈ records ↔ ∃ row ∈ s.rows, row.record = .ok r := by
  constructor
  · intro hr
    have hok : Except.ok r ∈ s.rows.map Row.record := h.rows ▸ List.mem_map_of_mem hr
    exact List.mem_map.mp hok
  · rintro ⟨row, hrow, hrec⟩
    have hok : Except.ok r ∈ records.map (Except.ok (ε := HistoryError)) :=
      h.rows ▸ List.mem_map.mpr ⟨row, hrow, hrec⟩
    obtain ⟨r', hr', heq⟩ := List.mem_map.mp hok
    exact Except.ok.inj heq ▸ hr'

theorem Tells.exists_record (h : s.Tells records) {row : Row} (hrow : row ∈ s.rows) :
    ∃ r ∈ records, row.record = .ok r := by
  have hok : row.record ∈ records.map (Except.ok (ε := HistoryError)) :=
    h.rows ▸ List.mem_map_of_mem hrow
  obtain ⟨r, hr, heq⟩ := List.mem_map.mp hok
  exact ⟨r, hr, heq.symm⟩

theorem Tells.records_distinctIds (h : s.Tells records) :
    records.Pairwise fun a b => a.id ≠ b.id := by
  apply pairwise_of_map_eq_ok h.rows _ h.distinctIds
  intro row row' r r' hr hr' hne
  rw [(Row.columns_of_record hr).1, (Row.columns_of_record hr').1]
  exact hne

theorem find?_id_of_mem (hs : s.DistinctIds) {row : Row} (hrow : row ∈ s.rows) :
    s.rows.find? (fun r => r.id == row.id) = some row := by
  cases hfind : s.rows.find? fun r => r.id == row.id with
  | none => exact absurd BEq.rfl (List.find?_eq_none.mp hfind row hrow)
  | some other =>
    have hmem := List.mem_of_find?_eq_some hfind
    have hid : other.id = row.id := by simpa using List.find?_some hfind
    rw [eq_of_mem_of_key_eq hs hmem hrow hid]

theorem Tells.get_of_mem (h : s.Tells records) {r : HistoryRecord} (hr : r ∈ records) :
    s.get r.id = .ok r := by
  obtain ⟨row, hrow, hrec⟩ := h.mem_iff.mp hr
  have hid : r.id = row.id := (Row.columns_of_record hrec).1
  exact get_eq_ok_iff.mpr ⟨h.readFault, row, hid ▸ find?_id_of_mem h.distinctIds hrow, hrec⟩

theorem Tells.get_of_not_mem (h : s.Tells records) {id : Int64}
    (hid : id ∉ records.map HistoryRecord.id) : s.get id = .error (.notFound id) := by
  have hnone : (s.rows.find? fun r => r.id == id) = none := by
    apply List.find?_eq_none.mpr
    intro row hrow heq
    obtain ⟨r, hr, hrec⟩ := h.exists_record hrow
    have hmem := List.mem_map_of_mem (f := HistoryRecord.id) hr
    rw [(Row.columns_of_record hrec).1, beq_iff_eq.mp heq] at hmem
    exact hid hmem
  unfold get
  rw [h.readFault, hnone]

theorem Tells.find (h : s.Tells records) (d : String) (event : HistoryEvent) :
    ∃ found, s.find d event = .ok found ∧ found.Pairwise HistoryRecord.Newer ∧
      found.Perm (records.filter fun r => r.downloadId == some d && r.event == event) := by
  have hrows : ∀ row ∈ s.rowsFor d event, ∃ r, row.record = .ok r := by
    intro row hrow
    obtain ⟨r, _, hrec⟩ := h.exists_record (mem_rowsFor.mp hrow).1
    exact ⟨r, hrec⟩
  obtain ⟨found, hfound⟩ := exists_map_eq_ok hrows
  have hfind : s.find d event = .ok found := find_eq_ok_iff.mpr ⟨h.readFault, hfound⟩
  refine ⟨found, hfind, find_newer h.distinctIds hfind, ?_⟩
  have hnodup : found.Nodup := (find_distinctIds h.distinctIds hfind).imp (ne_of_apply_ne _)
  have hrecords : records.Nodup := h.records_distinctIds.imp (ne_of_apply_ne _)
  apply (List.perm_ext_iff_of_nodup hnodup (hrecords.filter _)).mpr
  intro r
  rw [mem_find_iff hfind, List.mem_filter, h.mem_iff]
  simp only [Bool.and_eq_true, beq_iff_eq]
  constructor
  · rintro ⟨row, hrow, hrec, hmatch⟩
    exact ⟨⟨row, hrow, hrec⟩, hmatch⟩
  · rintro ⟨⟨row, hrow, hrec⟩, hmatch⟩
    exact ⟨row, hrow, hrec, hmatch⟩

theorem tells_after (refuses : Row → Bool) (ws : List Write) :
    (({} : Store).after ws refuses).Tells (({} : Store).recorded refuses ws) where
  rows := map_record_after {} ws
  distinctIds := distinctIds_after ws distinctIds_empty
  readFault := (grows_after (p := fun _ => True) (fun _ _ _ _ => trivial) {} refuses).readFault

/-- Any run of writes on a new store leaves one record for each that was given, or for each album of
what was grabbed or failed, as far as the writes succeed. A look-up by an id that was given answers
the record that was written under it, and by any other id that there is none. A look-up by download
id and event answers all records with both, each once, the newest one first. -/
theorem reads_back_writes (refuses : Row → Bool) (ws : List Write) :
    ∃ records, Leaves refuses {} ws records ∧
      records.map HistoryRecord.id = ({} : Store).assigned refuses ws ∧
      (∀ r ∈ records, (({} : Store).after ws refuses).get r.id = .ok r) ∧
      (∀ id ∉ ({} : Store).assigned refuses ws,
        (({} : Store).after ws refuses).get id = .error (.notFound id)) ∧
      ∀ d event, ∃ found, (({} : Store).after ws refuses).find d event = .ok found ∧
        found.Pairwise HistoryRecord.Newer ∧
        found.Perm (records.filter fun r => r.downloadId == some d && r.event == event) := by
  have htells := tells_after refuses ws
  have hids : (({} : Store).recorded refuses ws).map HistoryRecord.id =
      ({} : Store).assigned refuses ws := map_id_recorded {} ws
  refine ⟨_, leaves_recorded {} ws, hids, fun r => htells.get_of_mem, ?_, htells.find⟩
  intro id hid
  rw [← hids] at hid
  exact htells.get_of_not_mem hid

def liveAlbums : Candidate where
  artistId := 7
  albumIds := [40, 41]
  grade := ⟨⟨13, "FLAC"⟩, ⟨2, 1, true⟩⟩
  release := { title := "\"Live\" \\ I & II", indexer := "A" }

theorem reads_back_grab_behind_refused_batch :
    ∃ (s : Store) (records : List HistoryRecord),
      ({} : Store).after [.batch "8:00" [entitled "Studio", entitled "Live"],
        .grab "8:01" liveAlbums "d" "SABnzbd" .rss] refusesLive = s ∧
      records.map HistoryRecord.id = [1, 2] ∧
      records.map HistoryRecord.albumId = [40, 41] ∧
      (∀ r ∈ records, r.TellsGrab liveAlbums "d" "SABnzbd" .rss ∧ s.get r.id = .ok r) ∧
      s.get 3 = .error (.notFound 3) := by
  obtain ⟨records, hleaves, hids, hget, hmissing, _⟩ := reads_back_writes refusesLive
    [.batch "8:00" [entitled "Studio", entitled "Live"],
      .grab "8:01" liveAlbums "d" "SABnzbd" .rss]
  refine ⟨_, records, rfl, hids, ?_⟩
  cases hleaves with
  | kept hbatch _ _ => exact nomatch hbatch
  | failed hbatch hgrab =>
    obtain rfl := Write.run_eq_error hbatch
    cases hgrab with
    | failed hgrab _ => exact nomatch hgrab
    | @kept _ _ _ _ _ records more _ hgrab hmore =>
      cases hmore
      rw [List.append_nil] at hget ⊢
      obtain ⟨halbums, htells⟩ := hgrab.tells
      exact ⟨halbums, fun r hr => ⟨htells r hr, hget r hr⟩, hmissing 3 (by decide)⟩

end Store

end ReleaseWarden
