import ReleaseWarden.History.Store

/-! What a write does to a store. A write that succeeds adds one row for each record, under ids that
count up, and changes nothing else; a write that fails changes nothing at all. -/

set_option autoImplicit false

namespace ReleaseWarden

open Text

/-- Each id is the one after the id before it. -/
def CountUp : Int64 → List Int64 → Prop
  | _, [] => True
  | last, id :: ids => id.toInt = last.toInt + 1 ∧ CountUp id ids

theorem CountUp.lt {last : Int64} {ids : List Int64} (h : CountUp last ids) :
    ∀ id ∈ ids, last.toInt < id.toInt := by
  induction ids generalizing last with
  | nil => nofun
  | cons id ids ih =>
    obtain ⟨hid, hids⟩ := h
    intro other hother
    rcases List.mem_cons.mp hother with rfl | hother
    · omega
    · have := ih hids other hother
      omega

theorem CountUp.pairwise {last : Int64} {ids : List Int64} (h : CountUp last ids) :
    ids.Pairwise fun a b => a.toInt < b.toInt := by
  induction ids generalizing last with
  | nil => exact .nil
  | cons id ids ih => exact List.pairwise_cons.mpr ⟨h.2.lt, ih h.2⟩

namespace Store

def batchRows : Clock → List Int64 → List NewRecord → List Row
  | clock, id :: ids, r :: rs =>
    .ofNew id (clock.reading 0) r :: batchRows (clock.later 1) ids rs
  | _, _, _ => []

def added (s : Store) (clock : Clock) (ids : List Int64) (rs : List NewRecord) : Store :=
  { s with rows := s.rows ++ batchRows clock ids rs, lastId := ids.getLastD s.lastId }

/-- Ids and records of a batch are taken off in pairs. -/
@[elab_as_elim]
theorem batch_induction {motive : Clock → List Int64 → List NewRecord → Prop}
    (nil : ∀ clock, motive clock [] [])
    (cons : ∀ clock id ids r rs, motive (clock.later 1) ids rs → motive clock (id :: ids) (r :: rs))
    (clock : Clock) (ids : List Int64) (rs : List NewRecord) (h : ids.length = rs.length) :
    motive clock ids rs := by
  induction rs generalizing clock ids with
  | nil =>
    obtain rfl := List.eq_nil_of_length_eq_zero h
    exact nil clock
  | cons r rs ih =>
    cases ids with
    | nil => cases h
    | cons id ids => exact cons clock id ids r rs (ih _ ids (Nat.succ.inj h))

theorem mem_batchRows {clock : Clock} {ids : List Int64} {rs : List NewRecord} {row : Row}
    (h : row ∈ batchRows clock ids rs) :
    ∃ id ∈ ids, ∃ n < rs.length, ∃ r ∈ rs, row = .ofNew id (clock.reading n) r := by
  induction rs generalizing clock ids with
  | nil => cases ids <;> cases h
  | cons r rs ih =>
    cases ids with
    | nil => cases h
    | cons id ids =>
      rcases List.mem_cons.mp h with rfl | h
      · exact ⟨id, List.mem_cons_self, 0, Nat.succ_pos _, r, List.mem_cons_self, rfl⟩
      · obtain ⟨id', hid, n, hn, r', hr, rfl⟩ := ih h
        have hn' : 1 + n < (r :: rs).length := by
          rw [List.length_cons]
          omega
        exact ⟨id', List.mem_cons_of_mem _ hid, 1 + n, hn', r', List.mem_cons_of_mem _ hr, rfl⟩

variable {s t : Store} {id : Int64} {ids : List Int64} {rs : List NewRecord} {clock : Clock}
  {cause : HistoryError} {refuses : Row → Bool}

theorem readFault?_of_writeFault? (h : s.writeFault? = none) : s.readFault? = none := by
  unfold writeFault? at h
  cases hread : s.readFault? with
  | none => rfl
  | some cause =>
    rw [hread] at h
    cases h

theorem place_eq_error {row : Row} (h : s.place row refuses = (.error cause, t)) : t = s := by
  unfold place at h
  split at h
  · cases h; rfl
  · split at h
    · cases h; rfl
    · split at h
      · cases h; rfl
      · cases h

theorem place_eq_ok {row : Row} (h : s.place row refuses = (.ok id, t)) : s.writeFault? = none ∧
    id = row.id ∧
    t = { s with
      rows := s.rows ++ [row]
      lastId := if s.lastId.toInt < row.id.toInt then row.id else s.lastId } := by
  unfold place at h
  split at h
  · cases h
  · rename_i hfault
    split at h
    · cases h
    · split at h
      · cases h
      · cases h
        exact ⟨hfault, rfl, rfl⟩

theorem insert_eq_error {now : String} {r : NewRecord}
    (h : s.insert now r refuses = (.error cause, t)) : t = s := by
  unfold insert placeNext at h
  split at h
  · cases h; rfl
  · exact place_eq_error h

theorem insert_eq_ok {now : String} {r : NewRecord} (h : s.insert now r refuses = (.ok id, t)) :
    s.writeFault? = none ∧ id.toInt = s.lastId.toInt + 1 ∧ t = s.added now [id] [r] := by
  unfold insert placeNext at h
  split at h
  · cases h
  · rename_i next hnext
    obtain ⟨hfault, hid, ht⟩ := place_eq_ok h
    have hid' : id = next := hid
    subst hid'
    have hcount : id.toInt = s.lastId.toInt + 1 := Schema.Bounded.toInt_of_ofInt?_eq_some hnext
    refine ⟨hfault, hcount, ?_⟩
    rw [ht]
    have hlt : s.lastId.toInt < id.toInt := by omega
    simp [added, batchRows, Row.ofNew, hlt]

theorem insertEach_eq_ok (h : insertEach refuses clock rs s = (.ok ids, t)) :
    ids.length = rs.length ∧ CountUp s.lastId ids ∧ t = s.added clock ids rs ∧
      (rs ≠ [] → s.writeFault? = none) := by
  induction rs generalizing clock s ids with
  | nil =>
    cases h
    refine ⟨rfl, trivial, ?_, fun hne => absurd rfl hne⟩
    simp [added, batchRows]
  | cons r rs ih =>
    rw [insertEach] at h
    split at h
    · cases h
    · rename_i id u hinsert
      obtain ⟨hfault, hid, hu⟩ := insert_eq_ok hinsert
      split at h
      · cases h
      · rename_i ids' t' hrest
        cases h
        obtain ⟨hlength, hcount, ht, _⟩ := ih hrest
        subst hu
        have hcount' : CountUp id ids' := hcount
        refine ⟨by rw [List.length_cons, hlength, List.length_cons], ⟨hid, hcount'⟩, ?_,
          fun _ => hfault⟩
        rw [ht]
        simp [added, batchRows, List.getLast?_cons]

theorem insertAll_eq_error (h : s.insertAll clock rs refuses = (.error cause, t)) : t = s := by
  unfold insertAll at h
  split at h
  · cases h; rfl
  · split at h
    · cases h; rfl
    · cases h

theorem insertAll_eq_ok (h : s.insertAll clock rs refuses = (.ok ids, t)) :
    ids.length = rs.length ∧ CountUp s.lastId ids ∧ t = s.added clock ids rs ∧
      (rs ≠ [] → s.writeFault? = none) := by
  unfold insertAll at h
  split at h
  · cases h
  · split at h
    · cases h
    · rename_i heach
      cases h
      exact insertEach_eq_ok heach

end Store

inductive Write
  | one (now : String) (r : NewRecord)
  | batch (clock : Clock) (rs : List NewRecord)
  | grab (clock : Clock) (c : Candidate) (downloadId downloadClient : String)
      (source : ReleaseSource)
  | failure (clock : Clock) (e : FailureEvent)

namespace Write

def clock : Write → Clock
  | one now _ => now
  | batch clock _ => clock
  | grab clock .. => clock
  | failure clock _ => clock

def newRecords : Write → List NewRecord
  | one _ r => [r]
  | batch _ rs => rs
  | grab _ c downloadId downloadClient source =>
    Store.grabRecords c downloadId downloadClient source
  | failure _ e => Store.failureRecords e

def albumIds : Write → List Int64
  | one _ r => [r.albumId]
  | batch _ rs => rs.map NewRecord.albumId
  | grab _ c .. => c.albumIds
  | failure _ e => e.albumIds

theorem map_albumId_newRecords (w : Write) : w.newRecords.map NewRecord.albumId = w.albumIds := by
  cases w with
  | one now r => rfl
  | batch clock rs => rfl
  | grab clock c downloadId downloadClient source =>
    rw [newRecords, Store.grabRecords, List.map_map]
    exact List.map_id _
  | failure clock e =>
    rw [newRecords, Store.failureRecords, List.map_map]
    exact List.map_id _

def run (w : Write) (s : Store) (refuses : Row → Bool := s.refusesRow) :
    Except HistoryError (List Int64) × Store :=
  match w with
  | one now r =>
    match s.insert now r refuses with
    | (.error cause, s) => (.error cause, s)
    | (.ok id, s) => (.ok [id], s)
  | batch clock rs => s.insertAll clock rs refuses
  | grab clock c downloadId downloadClient source =>
    s.recordGrab clock c downloadId downloadClient source refuses
  | failure clock e => s.recordFailure clock e refuses

variable {w : Write} {s t : Store} {ids : List Int64} {cause : HistoryError}
  {refuses : Row → Bool}

theorem run_eq_error (h : w.run s refuses = (.error cause, t)) : t = s := by
  cases w with
  | one now r =>
    rw [run] at h
    split at h
    · rename_i hinsert
      cases h
      exact Store.insert_eq_error hinsert
    · cases h
  | batch clock rs => exact Store.insertAll_eq_error h
  | grab clock c downloadId downloadClient source => exact Store.insertAll_eq_error h
  | failure clock e => exact Store.insertAll_eq_error h

theorem run_eq_ok (h : w.run s refuses = (.ok ids, t)) : ids.length = w.newRecords.length ∧
    CountUp s.lastId ids ∧ t = s.added w.clock ids w.newRecords := by
  cases w with
  | one now r =>
    rw [run] at h
    split at h
    · cases h
    · rename_i id u hinsert
      cases h
      obtain ⟨_, hid, ht⟩ := Store.insert_eq_ok hinsert
      exact ⟨rfl, ⟨hid, trivial⟩, ht⟩
  | batch clock rs =>
    obtain ⟨hlength, hcount, ht, _⟩ := Store.insertAll_eq_ok h
    exact ⟨hlength, hcount, ht⟩
  | grab clock c downloadId downloadClient source =>
    obtain ⟨hlength, hcount, ht, _⟩ := Store.insertAll_eq_ok h
    exact ⟨hlength, hcount, ht⟩
  | failure clock e =>
    obtain ⟨hlength, hcount, ht, _⟩ := Store.insertAll_eq_ok h
    exact ⟨hlength, hcount, ht⟩

end Write

namespace Store

/-- The store after a run of writes, failed ones included. -/
def after (s : Store) (ws : List Write) (refuses : Row → Bool := s.refusesRow) : Store :=
  ws.foldl (fun s w => (w.run s refuses).2) s

/-- Only rows of such records were added, and what can be read can still be read. -/
structure Grows (p : NewRecord → Prop) (s t : Store) : Prop where
  rows : ∃ rows, t.rows = s.rows ++ rows ∧
    ∀ row ∈ rows, ∃ id date r, p r ∧ row = .ofNew id date r
  readFault : t.readFault? = s.readFault?

variable {p : NewRecord → Prop} {s t u : Store}

theorem Grows.refl (s : Store) : Grows p s s := ⟨⟨[], (List.append_nil _).symm, nofun⟩, rfl⟩

theorem Grows.trans (hst : Grows p s t) (htu : Grows p t u) : Grows p s u := by
  obtain ⟨rows, hrows, hp⟩ := hst.rows
  obtain ⟨rows', hrows', hp'⟩ := htu.rows
  refine ⟨⟨rows ++ rows', by rw [hrows', hrows, List.append_assoc], ?_⟩,
    htu.readFault.trans hst.readFault⟩
  intro row hrow
  rcases List.mem_append.mp hrow with hrow | hrow
  · exact hp row hrow
  · exact hp' row hrow

theorem grows_run {w : Write} (hw : ∀ r ∈ w.newRecords, p r) (s : Store)
    (refuses : Row → Bool := s.refusesRow) : Grows p s (w.run s refuses).2 := by
  cases hrun : w.run s refuses with
  | mk answer t =>
    cases answer with
    | error cause =>
      obtain rfl := Write.run_eq_error hrun
      exact .refl t
    | ok ids =>
      obtain ⟨_, _, rfl⟩ := Write.run_eq_ok hrun
      refine ⟨⟨_, rfl, ?_⟩, rfl⟩
      intro row hrow
      obtain ⟨id, _, n, _, r, hr, rfl⟩ := mem_batchRows hrow
      exact ⟨id, _, r, hw r hr, rfl⟩

theorem grows_after {ws : List Write} (hws : ∀ w ∈ ws, ∀ r ∈ w.newRecords, p r) (s : Store)
    (refuses : Row → Bool := s.refusesRow) : Grows p s (s.after ws refuses) := by
  induction ws generalizing s with
  | nil => exact .refl s
  | cons w ws ih =>
    have hfirst := grows_run (hws w List.mem_cons_self) s refuses
    have hrest := ih (fun w' hw' => hws w' (List.mem_cons_of_mem _ hw')) (w.run s refuses).2
    exact hfirst.trans hrest

end Store

end ReleaseWarden
