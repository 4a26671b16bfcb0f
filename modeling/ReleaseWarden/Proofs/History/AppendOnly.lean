import Mathlib.Data.List.Forall2
import ReleaseWarden.Proofs.History.Writing

/-! What a run of writes comes to. Whatever rows the database refuses, a write is kept as a whole or
leaves the store as it was, rows are only added behind those there are, and no id is given twice. -/

set_option autoImplicit false

namespace ReleaseWarden

theorem CountUp.le_getLastD {last : Int64} {ids : List Int64} (h : CountUp last ids) :
    last.toInt ≤ (ids.getLastD last).toInt ∧ ∀ id ∈ ids, id.toInt ≤ (ids.getLastD last).toInt := by
  induction ids generalizing last with
  | nil => exact ⟨Int.le_refl _, nofun⟩
  | cons id ids ih =>
    obtain ⟨hid, hids⟩ := h
    obtain ⟨hle, hall⟩ := ih hids
    rw [List.getLastD_cons]
    refine ⟨by omega, ?_⟩
    intro other hother
    rcases List.mem_cons.mp hother with rfl | hother
    · exact hle
    · exact hall other hother

theorem CountUp.append {last : Int64} {ids ids' : List Int64} (h : CountUp last ids)
    (h' : CountUp (ids.getLastD last) ids') : CountUp last (ids ++ ids') := by
  induction ids generalizing last with
  | nil => exact h'
  | cons id ids ih =>
    rw [List.getLastD_cons] at h'
    exact ⟨h.1, ih h.2 h'⟩

def Row.Holds (row : Row) (r : NewRecord) : Prop := row = .ofNew row.id row.date r

namespace Store

/-- The store with rows for the records added, under ids that count up from the greatest one that
was given before. -/
structure Extends (s : Store) (ids : List Int64) (rs : List NewRecord) (t : Store) : Prop where
  rows : ∃ rows, t.rows = s.rows ++ rows ∧ rows.map Row.id = ids ∧ List.Forall₂ Row.Holds rows rs
  countUp : CountUp s.lastId ids
  lastId : t.lastId = ids.getLastD s.lastId

variable {s t u : Store} {ids ids' : List Int64} {rs rs' : List NewRecord} {clock : Clock}
  {refuses : Row → Bool}

theorem Extends.refl (s : Store) : Extends s [] [] s :=
  ⟨⟨[], (List.append_nil _).symm, rfl, .nil⟩, trivial, rfl⟩

theorem Extends.trans (h : Extends s ids rs t) (h' : Extends t ids' rs' u) :
    Extends s (ids ++ ids') (rs ++ rs') u := by
  obtain ⟨rows, hrows, hids, hrs⟩ := h.rows
  obtain ⟨rows', hrows', hids', hrs'⟩ := h'.rows
  refine ⟨⟨rows ++ rows', ?_, ?_, List.rel_append hrs hrs'⟩, ?_, ?_⟩
  · rw [hrows', hrows, List.append_assoc]
  · rw [List.map_append, hids, hids']
  · exact h.countUp.append (h.lastId ▸ h'.countUp)
  · rw [h'.lastId, h.lastId]
    simp only [List.getLastD_eq_getLast?, List.getLast?_append, Option.getD_or]

theorem map_id_batchRows (clock : Clock) (h : ids.length = rs.length) :
    (batchRows clock ids rs).map Row.id = ids := by
  refine batch_induction (fun clock => rfl) (fun clock id ids r rs ih => ?_) clock ids rs h
  rw [batchRows, List.map_cons, ih]
  rfl

theorem forall₂_holds_batchRows (clock : Clock) (h : ids.length = rs.length) :
    List.Forall₂ Row.Holds (batchRows clock ids rs) rs := by
  refine batch_induction (fun clock => .nil) (fun clock id ids r rs ih => ?_) clock ids rs h
  exact .cons rfl ih

theorem extends_added (hlength : ids.length = rs.length) (hcount : CountUp s.lastId ids) :
    Extends s ids rs (s.added clock ids rs) :=
  ⟨⟨_, rfl, map_id_batchRows _ hlength, forall₂_holds_batchRows _ hlength⟩, hcount, rfl⟩

theorem extends_of_run {w : Write} (h : w.run s refuses = (.ok ids, t)) :
    Extends s ids w.newRecords t := by
  obtain ⟨hlength, hcount, rfl⟩ := Write.run_eq_ok h
  exact extends_added hlength hcount

/-- The ids that a run of writes gives. -/
def assigned (refuses : Row → Bool) : Store → List Write → List Int64
  | _, [] => []
  | s, w :: ws =>
    match w.run s refuses with
    | (.error _, t) => assigned refuses t ws
    | (.ok ids, t) => ids ++ assigned refuses t ws

/-- The records that are kept of a run of writes. -/
def kept (refuses : Row → Bool) : Store → List Write → List NewRecord
  | _, [] => []
  | s, w :: ws =>
    match w.run s refuses with
    | (.error _, t) => kept refuses t ws
    | (.ok _, t) => w.newRecords ++ kept refuses t ws

theorem extends_after (s : Store) (ws : List Write) :
    Extends s (s.assigned refuses ws) (s.kept refuses ws) (s.after ws refuses) := by
  induction ws generalizing s with
  | nil => exact .refl s
  | cons w ws ih =>
    rw [assigned, kept, after, List.foldl_cons]
    cases hrun : w.run s refuses with
    | mk answer t =>
      cases answer with
      | error cause =>
        obtain rfl := Write.run_eq_error hrun
        exact ih t
      | ok ids => exact (extends_of_run hrun).trans (ih t)

/-- No row has an id that is still to be given. -/
def CountsIds (s : Store) : Prop := ∀ row ∈ s.rows, row.id.toInt ≤ s.lastId.toInt

theorem countsIds_empty : CountsIds {} := nofun

theorem Extends.countsIds (h : Extends s ids rs t) (hs : s.CountsIds) : t.CountsIds := by
  obtain ⟨rows, hrows, hids, _⟩ := h.rows
  obtain ⟨hle, hall⟩ := h.countUp.le_getLastD
  intro row hrow
  rw [hrows] at hrow
  rw [h.lastId]
  rcases List.mem_append.mp hrow with hrow | hrow
  · exact Int.le_trans (hs row hrow) hle
  · exact hall row.id (hids ▸ List.mem_map_of_mem hrow)

theorem place_not_refused {id : Int64} {row : Row} (h : s.place row refuses = (.ok id, t)) :
    refuses row = false := by
  unfold place at h
  split at h
  · cases h
  · split at h
    · cases h
    · rename_i hr
      exact Bool.eq_false_iff.mpr hr

theorem insert_not_refused {id : Int64} {now : String} {r : NewRecord}
    (h : s.insert now r refuses = (.ok id, t)) : refuses (.ofNew id now r) = false := by
  unfold insert placeNext at h
  split at h
  · cases h
  · obtain ⟨_, hid, _⟩ := place_eq_ok h
    have hid' : id = _ := hid
    rw [hid']
    exact place_not_refused h

theorem insertEach_not_refused (h : insertEach refuses clock rs s = (.ok ids, t)) :
    ∀ row ∈ batchRows clock ids rs, refuses row = false := by
  induction rs generalizing clock s ids with
  | nil => cases h; nofun
  | cons r rs ih =>
    rw [insertEach] at h
    split at h
    · cases h
    · rename_i hinsert
      split at h
      · cases h
      · rename_i hrest
        cases h
        rw [batchRows]
        exact List.forall_mem_cons.mpr ⟨insert_not_refused hinsert, ih hrest⟩

theorem place_next (hs : s.CountsIds) (hfault : s.writeFault? = none) {row : Row}
    (hlt : s.lastId.toInt < row.id.toInt) (hr : refuses row = false) :
    s.place row refuses = (.ok row.id, { s with rows := s.rows ++ [row], lastId := row.id }) := by
  have hfree : (s.rows.any fun r => r.id == row.id) = false := by
    apply List.any_eq_false.mpr
    intro r hmem heq
    have hle := hs r hmem
    rw [beq_iff_eq.mp heq] at hle
    omega
  simp [place, hfault, hr, hfree, hlt]

theorem insert_next (hs : s.CountsIds) (hfault : s.writeFault? = none) {id : Int64}
    (hid : id.toInt = s.lastId.toInt + 1) {now : String} {r : NewRecord}
    (hr : refuses (.ofNew id now r) = false) :
    s.insert now r refuses = (.ok id, s.added now [id] [r]) := by
  have hnext : Schema.Bounded.ofInt? Int64 (s.lastId.toInt + 1) = some id := by
    rw [← hid]
    exact Schema.Bounded.ofInt?_toInt id
  have hlt : s.lastId.toInt < (Row.ofNew id now r).id.toInt := by
    show s.lastId.toInt < id.toInt
    omega
  simp only [insert, placeNext, hnext]
  exact place_next hs hfault hlt hr

/-- The database can be written to, there are ids left for the records, and it refuses none of
their rows. -/
def Takes (s : Store) (refuses : Row → Bool) (clock : Clock) (rs : List NewRecord) : Prop :=
  s.writeFault? = none ∧ ∃ ids, ids.length = rs.length ∧ CountUp s.lastId ids ∧
    ∀ row ∈ batchRows clock ids rs, refuses row = false

theorem insertEach_of_takes (hs : s.CountsIds) (h : s.Takes refuses clock rs) :
    ∃ ids, insertEach refuses clock rs s = (.ok ids, s.added clock ids rs) := by
  obtain ⟨hfault, ids, hlength, hcount, hr⟩ := h
  refine ⟨ids, ?_⟩
  induction rs generalizing clock s ids with
  | nil =>
    obtain rfl := List.eq_nil_of_length_eq_zero hlength
    simp [insertEach, added, batchRows]
  | cons r rs ih =>
    cases ids with
    | nil => cases hlength
    | cons id ids =>
      obtain ⟨hid, hcount⟩ := hcount
      obtain ⟨hfirst, hrest⟩ := List.forall_mem_cons.mp hr
      have hone : CountUp s.lastId [id] := ⟨hid, trivial⟩
      have hnext : (s.added (clock.reading 0) [id] [r]).CountsIds :=
        (extends_added rfl hone).countsIds hs
      rw [insertEach, insert_next hs hfault hid hfirst]
      dsimp only
      rw [ih hnext hfault ids (Nat.succ.inj hlength) hcount hrest]
      simp [added, batchRows, List.getLast?_cons]

theorem takes_of_insertEach (h : insertEach refuses clock rs s = (.ok ids, t)) (hrs : rs ≠ []) :
    s.Takes refuses clock rs := by
  obtain ⟨hlength, hcount, _, hfault⟩ := insertEach_eq_ok h
  exact ⟨hfault hrs, ids, hlength, hcount, insertEach_not_refused h⟩

theorem exists_insertAll_eq_ok_iff (hs : s.CountsIds) :
    (∃ ids t, s.insertAll clock rs refuses = (.ok ids, t)) ↔
      s.isClosed = false ∧ (rs = [] ∨ s.Takes refuses clock rs) := by
  unfold insertAll
  cases s.isClosed with
  | true => exact iff_of_false nofun nofun
  | false =>
    constructor
    · rintro ⟨ids, t, h⟩
      refine ⟨rfl, ?_⟩
      by_cases hrs : rs = []
      · exact .inl hrs
      · right
        split at h
        · contradiction
        · split at h
          · cases h
          · exact takes_of_insertEach ‹_› hrs
    · rintro ⟨_, rfl | h⟩
      · exact ⟨[], s, rfl⟩
      · obtain ⟨ids, hall⟩ := insertEach_of_takes hs h
        rw [hall]
        exact ⟨ids, _, rfl⟩

theorem isClosed_of_writeFault? (h : s.writeFault? = none) : s.isClosed = false := by
  have hread := readFault?_of_writeFault? h
  unfold readFault? at hread
  split at hread
  · cases hread
  · exact Bool.eq_false_iff.mpr ‹_›

theorem exists_run_eq_ok_iff (hs : s.CountsIds) (w : Write) :
    (∃ ids t, w.run s refuses = (.ok ids, t)) ↔
      s.isClosed = false ∧ (w.newRecords = [] ∨ s.Takes refuses w.clock w.newRecords) := by
  cases w with
  | one now r =>
    constructor
    · rintro ⟨ids, t, h⟩
      rw [Write.run] at h
      split at h
      · cases h
      · rename_i id u hinsert
        obtain ⟨hfault, hid, _⟩ := insert_eq_ok hinsert
        have hr : ∀ row ∈ batchRows now [id] [r], refuses row = false :=
          List.forall_mem_singleton.mpr (insert_not_refused hinsert)
        exact ⟨isClosed_of_writeFault? hfault, .inr ⟨hfault, [id], rfl, ⟨hid, trivial⟩, hr⟩⟩
    · rintro ⟨_, h | ⟨hfault, ids, hlength, hcount, hr⟩⟩
      · cases h
      · obtain ⟨id, rfl⟩ := List.length_eq_one_iff.mp hlength
        have hfirst : refuses (.ofNew id now r) = false := hr _ List.mem_cons_self
        have hone := insert_next hs hfault hcount.1 hfirst
        exact ⟨[id], s.added now [id] [r], by rw [Write.run, hone]⟩
  | batch clock rs => exact exists_insertAll_eq_ok_iff hs
  | grab clock c downloadId downloadClient source => exact exists_insertAll_eq_ok_iff hs
  | failure clock e => exact exists_insertAll_eq_ok_iff hs

theorem map_albumId_of_holds {rows : List Row} (h : List.Forall₂ Row.Holds rows rs) :
    rows.map Row.albumId = rs.map NewRecord.albumId := by
  induction h with
  | nil => rfl
  | @cons row r rows rs hrow _ ih =>
    rw [List.map_cons, List.map_cons, ih, hrow]
    rfl

/-- In a run of writes, rows are only added. A write that fails leaves the store as it was; one that
succeeds adds one row for each of its records, in their order, under the ids that it answers, which
increase and are greater than every id there is or was given before. It fails only if the database
cannot be written to or does not take one of the records. -/
theorem writes_append_or_leave (s : Store) (refuses : Row → Bool) (ws : List Write)
    (ht : s.after ws refuses = t) (w : Write) :
    (∃ rows, t.rows = s.rows ++ rows ∧ rows.map Row.id = s.assigned refuses ws ∧
      List.Forall₂ Row.Holds rows (s.kept refuses ws)) ∧
    (∀ cause u, w.run t refuses = (.error cause, u) → u = t) ∧
    (∀ ids u, w.run t refuses = (.ok ids, u) →
      (∃ rows, u.rows = t.rows ++ rows ∧ rows.map Row.id = ids ∧
        rows.map Row.albumId = w.albumIds ∧ List.Forall₂ Row.Holds rows w.newRecords) ∧
      ids.Pairwise (fun a b => a.toInt < b.toInt) ∧
      (∀ id ∈ ids, ∀ earlier ∈ s.assigned refuses ws, earlier.toInt < id.toInt) ∧
      (s.CountsIds → ∀ id ∈ ids, ∀ row ∈ t.rows, row.id.toInt < id.toInt)) ∧
    (s.CountsIds → ((∃ ids u, w.run t refuses = (.ok ids, u)) ↔
      t.isClosed = false ∧ (w.newRecords = [] ∨ t.Takes refuses w.clock w.newRecords))) := by
  have hrun : Extends s (s.assigned refuses ws) (s.kept refuses ws) t := ht ▸ extends_after s ws
  refine ⟨hrun.rows, fun cause u h => Write.run_eq_error h, ?_,
    fun hs => exists_run_eq_ok_iff (hrun.countsIds hs) w⟩
  intro ids u h
  have hwrite := extends_of_run h
  obtain ⟨rows, hrows, hids, hholds⟩ := hwrite.rows
  have halbums : rows.map Row.albumId = w.albumIds :=
    (map_albumId_of_holds hholds).trans w.map_albumId_newRecords
  have hlast := hwrite.countUp.lt
  refine ⟨⟨rows, hrows, hids, halbums, hholds⟩, hwrite.countUp.pairwise, ?_, ?_⟩
  · intro id hid earlier hearlier
    have hle := hrun.countUp.le_getLastD.2 earlier hearlier
    rw [← hrun.lastId] at hle
    have hlt := hlast id hid
    omega
  · intro hs id hid row hrow
    have hle := hrun.countsIds hs row hrow
    have hlt := hlast id hid
    omega

def entitled (title : String) : NewRecord where
  artistId := 7
  albumId := 40
  sourceTitle := title
  grade := ⟨⟨13, "FLAC"⟩, {}⟩
  event := .grabbed
  downloadId := some "d"

def refusesLive (row : Row) : Bool := row.sourceTitle == "Live"

/-- The first batch is refused at its second record, when its first one was already added. -/
theorem appends_behind_refused_batch :
    (insertEach refusesLive "8:00" [entitled "Studio", entitled "Live"] {}).2.rows.map Row.id =
        [1] ∧
      ((Write.batch "8:00" [entitled "Studio", entitled "Live"]).run {} refusesLive).2 = {} ∧
      ∃ t u rows, ({} : Store).after [.batch "8:00" [entitled "Studio", entitled "Live"],
          .one "8:01" (entitled "Studio")] refusesLive = t ∧
        (Write.batch "8:02" [entitled "Studio", entitled "Studio"]).run t refusesLive =
          (.ok [2, 3], u) ∧
        u.rows = t.rows ++ rows ∧ rows.map Row.id = [2, 3] ∧ rows.map Row.albumId = [40, 40] ∧
        ∀ row ∈ t.rows, row.id.toInt < (2 : Int64).toInt := by
  have hfirst := (writes_append_or_leave {} refusesLive [] rfl
    (.batch "8:00" [entitled "Studio", entitled "Live"])).2.1 _ _ rfl
  have hlast := (writes_append_or_leave {} refusesLive
    [.batch "8:00" [entitled "Studio", entitled "Live"], .one "8:01" (entitled "Studio")] rfl
    (.batch "8:02" [entitled "Studio", entitled "Studio"])).2.2.1 [2, 3] _ rfl
  obtain ⟨⟨rows, hrows, hids, halbums, _⟩, _, _, hbefore⟩ := hlast
  have htwo := hbefore countsIds_empty 2 List.mem_cons_self
  exact ⟨rfl, hfirst, _, _, rows, rfl, rfl, hrows, hids, halbums, htwo⟩

end Store

end ReleaseWarden
