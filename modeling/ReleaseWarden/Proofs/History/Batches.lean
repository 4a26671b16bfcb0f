import ReleaseWarden.Proofs.History.Reading
import ReleaseWarden.Proofs.History.Stored
import ReleaseWarden.Proofs.History.Writing

/-! Reading a batch back. If the clock never went back while a batch was added, and nothing else
was ever recorded under its download id, then a look-up answers the records of the batch, the last
one first. -/

set_option autoImplicit false

namespace ReleaseWarden

open Text

namespace Clock

/-- The first readings of the clock never go back. -/
def IsSteady (clock : Clock) (readings : Nat) : Prop :=
  ∀ m n, m ≤ n → n < readings → clock.reading m ≤ clock.reading n

theorem IsSteady.later {clock : Clock} {readings : Nat} (h : clock.IsSteady (readings + 1)) :
    (clock.later 1).IsSteady readings := by
  intro m n hmn hn
  exact h (1 + m) (1 + n) (by omega) (by omega)

end Clock

namespace Store

def batchRecords : Clock → List Int64 → List NewRecord → List HistoryRecord
  | clock, id :: ids, r :: rs =>
    r.stored id (clock.reading 0) :: batchRecords (clock.later 1) ids rs
  | _, _, _ => []

variable {clock : Clock} {ids : List Int64} {rs : List NewRecord}

theorem map_record_batchRows (clock : Clock) (ids : List Int64) (rs : List NewRecord) :
    (batchRows clock ids rs).map Row.record = (batchRecords clock ids rs).map .ok := by
  induction rs generalizing clock ids with
  | nil => cases ids <;> rfl
  | cons r rs ih =>
    cases ids with
    | nil => rfl
    | cons id ids =>
      rw [batchRows, batchRecords, List.map_cons, List.map_cons, Row.record_ofNew, ih]

theorem map_id_batchRecords (clock : Clock) (h : ids.length = rs.length) :
    (batchRecords clock ids rs).map HistoryRecord.id = ids := by
  refine batch_induction (fun clock => rfl) (fun clock id ids r rs ih => ?_) clock ids rs h
  rw [batchRecords, List.map_cons, ih]
  rfl

theorem map_albumId_batchRecords (clock : Clock) (h : ids.length = rs.length) :
    (batchRecords clock ids rs).map HistoryRecord.albumId = rs.map NewRecord.albumId := by
  refine batch_induction (fun clock => rfl) (fun clock id ids r rs ih => ?_) clock ids rs h
  rw [batchRecords, List.map_cons, ih]
  rfl

theorem exists_stored_of_mem {record : HistoryRecord} (h : record ∈ batchRecords clock ids rs) :
    ∃ r ∈ rs, ∃ id date, record = r.stored id date := by
  induction rs generalizing clock ids with
  | nil => cases ids <;> cases h
  | cons r rs ih =>
    cases ids with
    | nil => cases h
    | cons id ids =>
      rcases List.mem_cons.mp h with rfl | h
      · exact ⟨r, List.mem_cons_self, id, _, rfl⟩
      · obtain ⟨r', hr, hstored⟩ := ih h
        exact ⟨r', List.mem_cons_of_mem _ hr, hstored⟩

theorem pairwise_batchRows (hclock : clock.IsSteady rs.length) {last : Int64}
    (hids : CountUp last ids) : (batchRows clock ids rs).Pairwise fun a b => b.Newer a := by
  induction rs generalizing clock ids last with
  | nil => cases ids <;> exact .nil
  | cons r rs ih =>
    cases ids with
    | nil => exact .nil
    | cons id ids =>
      refine List.pairwise_cons.mpr ⟨?_, ih hclock.later hids.2⟩
      intro row hrow
      obtain ⟨id', hid, n, hn, r', _, rfl⟩ := mem_batchRows hrow
      have hlt : id.toInt < id'.toInt := hids.2.lt id' hid
      have hle : clock.reading 0 ≤ clock.reading (1 + n) := by
        apply hclock 0 (1 + n) (Nat.zero_le _)
        rw [List.length_cons]
        omega
      by_cases heq : clock.reading 0 = clock.reading (1 + n)
      · exact .inr ⟨heq.symm, hlt⟩
      · exact .inl (Std.lt_of_le_of_ne hle heq)

/-- Nothing is recorded under the download id as that event. -/
def Lacks (s : Store) (d : String) (event : HistoryEvent) : Prop :=
  ∀ row ∈ s.rows, ¬ (row.downloadId = some d ∧ row.event = Vocabulary.word event)

variable {s u : Store} {d : String} {event : HistoryEvent}

theorem filter_eq_nil_of_not {rows : List Row}
    (h : ∀ row ∈ rows, ¬ (row.downloadId = some d ∧ row.event = Vocabulary.word event)) :
    (rows.filter fun r => r.downloadId == some d && r.event == Vocabulary.word event) = [] := by
  apply List.filter_eq_nil_iff.mpr
  intro row hrow
  simpa using h row hrow

theorem Grows.find_eq {t : Store} {p : NewRecord → Prop} (h : Grows p s t)
    (hp : ∀ r, p r → ¬ (r.downloadId = some d ∧ r.event = event)) :
    t.find d event = s.find d event := by
  obtain ⟨rows, hrows, hadded⟩ := h.rows
  have hnone : (rows.filter fun r =>
      r.downloadId == some d && r.event == Vocabulary.word event) = [] := by
    apply filter_eq_nil_of_not
    rintro row hrow ⟨hd, hword⟩
    obtain ⟨_, _, r, hr, rfl⟩ := hadded row hrow
    exact hp r hr ⟨hd, Vocabulary.word_injective _ _ hword⟩
  have hsame : t.rowsFor d event = s.rowsFor d event := by
    rw [rowsFor, rowsFor, hrows, List.filter_append, hnone, List.append_nil]
  rw [find, find, h.readFault, hsame]

theorem rowsFor_added (hs : s.Lacks d event) (hclock : clock.IsSteady rs.length)
    (hids : CountUp s.lastId ids) (hrs : ∀ r ∈ rs, r.downloadId = some d ∧ r.event = event) :
    (s.added clock ids rs).rowsFor d event = (batchRows clock ids rs).reverse := by
  have hnewer := List.pairwise_reverse.mpr (pairwise_batchRows hclock hids)
  apply rowsFor_eq hnewer
  have hbatch : ((batchRows clock ids rs).filter fun r =>
      r.downloadId == some d && r.event == Vocabulary.word event) = batchRows clock ids rs := by
    apply List.filter_eq_self.mpr
    intro row hrow
    obtain ⟨_, _, _, _, r, hr, rfl⟩ := mem_batchRows hrow
    obtain ⟨hd, he⟩ := hrs r hr
    simp [Row.ofNew, hd, he]
  rw [added, List.filter_append, filter_eq_nil_of_not hs, hbatch, List.nil_append]
  exact (batchRows clock ids rs).reverse_perm

theorem find_added (hs : s.Lacks d event) (hclock : clock.IsSteady rs.length)
    (hids : CountUp s.lastId ids) (hrs : ∀ r ∈ rs, r.downloadId = some d ∧ r.event = event)
    (hu : Grows (fun r => r.downloadId ≠ some d) (s.added clock ids rs) u)
    (hread : s.readFault? = none) :
    u.find d event = .ok (batchRecords clock ids rs).reverse := by
  have hfault : (s.added clock ids rs).readFault? = none := hread
  rw [hu.find_eq fun r hne heq => hne heq.1, find_eq_ok_iff, rowsFor_added hs hclock hids hrs,
    List.map_reverse, List.map_reverse, map_record_batchRows]
  exact ⟨hfault, rfl⟩

end Store

end ReleaseWarden
