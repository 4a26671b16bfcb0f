import ReleaseWarden.Proofs.History.Ids
import ReleaseWarden.Proofs.Outcome

/-! Reading a store. A look-up by download id answers the records of exactly the rows on it, newest
first; a look-up by id answers the record of a row with that id. -/

set_option autoImplicit false

namespace ReleaseWarden

open Text

namespace HistoryRecord

theorem groupId?_eq_some_iff {r : HistoryRecord} {d : String} :
    r.groupId? = some d ↔ r.downloadId = some d ∧ blank d = false := by
  simp [groupId?, Option.filter_eq_some_iff]

/-- By date, and among records of one date by id. -/
def Newer (a b : HistoryRecord) : Prop :=
  b.date < a.date ∨ a.date = b.date ∧ b.id.toInt < a.id.toInt

instance (a b : HistoryRecord) : Decidable (a.Newer b) := inferInstanceAs (Decidable (_ ∨ _))

end HistoryRecord

namespace Row

variable {row : Row} {r : HistoryRecord}

theorem record_eq_ok_iff :
    row.record = .ok r ↔ ∃ g, row.grade = .ok g ∧ row.toRecord g = .ok r := bind_eq_ok_iff

theorem columns_of_record (h : row.record = .ok r) :
    r.id = row.id ∧ r.downloadId = row.downloadId ∧ r.date = row.date ∧
      Vocabulary.word r.event = row.event := by
  obtain ⟨g, _, h⟩ := record_eq_ok_iff.mp h
  unfold toRecord HistoryEvent.ofText at h
  cases hw : Vocabulary.ofWord? HistoryEvent row.event with
  | none =>
    rw [hw] at h
    cases h
  | some event =>
    cases hd : readData? row.data with
    | none =>
      rw [hw, hd] at h
      cases h
    | some data =>
      rw [hw, hd] at h
      cases h
      exact ⟨rfl, rfl, rfl, Vocabulary.word_of_ofWord? hw⟩

theorem records_eq_ok_iff {rows : List Row} {rs : List HistoryRecord} :
    records rows = .ok rs ↔ rows.map record = rs.map .ok := by
  have hsplit : records rows = .ok rs ↔ ∃ grades, rows.map grade = grades.map .ok ∧
      (rows.zip grades).map (fun p => p.1.toRecord p.2) = rs.map .ok := by
    simp only [records, bind_eq_ok_iff, mapM_eq_ok_iff]
  rw [hsplit]
  clear hsplit
  induction rows generalizing rs with
  | nil =>
    constructor
    · rintro ⟨grades, _, h⟩
      simpa using h
    · intro h
      exact ⟨[], rfl, by simpa using h⟩
  | cons row rows ih =>
    constructor
    · rintro ⟨grades, hg, hr⟩
      cases grades with
      | nil => cases hg
      | cons g grades =>
        obtain ⟨hg, hgs⟩ := List.cons.inj hg
        cases rs with
        | nil => cases hr
        | cons r rs =>
          obtain ⟨hr, hrs⟩ := List.cons.inj hr
          rw [List.map_cons, List.map_cons, ih.mp ⟨grades, hgs, hrs⟩,
            record_eq_ok_iff.mpr ⟨g, hg, hr⟩]
    · intro h
      cases rs with
      | nil => cases h
      | cons r rs =>
        obtain ⟨hr, hrs⟩ := List.cons.inj h
        obtain ⟨g, hg, hr⟩ := record_eq_ok_iff.mp hr
        obtain ⟨grades, hgs, hrs⟩ := ih.mpr hrs
        refine ⟨g :: grades, by rw [List.map_cons, hg, hgs, List.map_cons], ?_⟩
        rw [List.zip_cons_cons, List.map_cons, hrs, List.map_cons]
        exact congrArg (· :: _) hr

theorem newerFirst_iff {a b : Row} :
    newerFirst a b = true ↔ b.date < a.date ∨ a.date = b.date ∧ b.id.toInt ≤ a.id.toInt := by
  simp [newerFirst]

theorem newerFirst_trans (a b c : Row) (hab : newerFirst a b = true)
    (hbc : newerFirst b c = true) : newerFirst a c = true := by
  rw [newerFirst_iff] at *
  rcases hab with hab | ⟨hab, hab'⟩
  · rcases hbc with hbc | ⟨hbc, _⟩
    · exact .inl (String.lt_trans hbc hab)
    · exact .inl (hbc ▸ hab)
  · rcases hbc with hbc | ⟨hbc, hbc'⟩
    · exact .inl (hab ▸ hbc)
    · exact .inr ⟨hab.trans hbc, Int.le_trans hbc' hab'⟩

theorem newerFirst_total (a b : Row) : (newerFirst a b || newerFirst b a) = true := by
  rw [Bool.or_eq_true, newerFirst_iff, newerFirst_iff]
  by_cases hba : b.date < a.date
  · exact .inl (.inl hba)
  · by_cases hab : a.date < b.date
    · exact .inr (.inl hab)
    · have heq : a.date = b.date :=
        String.le_antisymm (String.not_lt.mp hba) (String.not_lt.mp hab)
      rcases Int.le_total b.id.toInt a.id.toInt with hid | hid
      · exact .inl (.inr ⟨heq, hid⟩)
      · exact .inr (.inr ⟨heq.symm, hid⟩)

def Newer (a b : Row) : Prop :=
  b.date < a.date ∨ a.date = b.date ∧ b.id.toInt < a.id.toInt

instance (a b : Row) : Decidable (a.Newer b) := inferInstanceAs (Decidable (_ ∨ _))

theorem newer_iff {a b : Row} :
    a.Newer b ↔ newerFirst a b = true ∧ ¬ newerFirst b a = true := by
  rw [newerFirst_iff, newerFirst_iff]
  constructor
  · rintro (hlt | ⟨heq, hid⟩)
    · refine ⟨.inl hlt, ?_⟩
      rintro (hgt | ⟨heq, _⟩)
      · exact String.lt_asymm hlt hgt
      · exact String.lt_irrefl _ (heq ▸ hlt)
    · refine ⟨.inr ⟨heq, by omega⟩, ?_⟩
      rintro (hgt | ⟨_, hge⟩)
      · exact String.lt_irrefl _ (heq ▸ hgt)
      · omega
  · rintro ⟨hlt | ⟨heq, hle⟩, hnot⟩
    · exact .inl hlt
    · refine .inr ⟨heq, ?_⟩
      have : ¬ a.id.toInt ≤ b.id.toInt := fun hge => hnot (.inr ⟨heq.symm, hge⟩)
      omega

theorem newer_of_newerFirst {a b : Row} (h : newerFirst a b = true) (hne : a.id ≠ b.id) :
    a.Newer b := by
  rcases newerFirst_iff.mp h with hlt | ⟨heq, hle⟩
  · exact .inl hlt
  · have : a.id.toInt ≠ b.id.toInt := fun he => hne (Int64.toInt_inj.mp he)
    exact .inr ⟨heq, by omega⟩

end Row

namespace Store

variable {s : Store} {d : String} {event : HistoryEvent}

theorem mem_rowsFor {row : Row} : row ∈ s.rowsFor d event ↔
    row ∈ s.rows ∧ row.downloadId = some d ∧ row.event = Vocabulary.word event := by
  simp [rowsFor]

theorem find_eq_ok_iff {rs : List HistoryRecord} : s.find d event = .ok rs ↔
    s.readFault? = none ∧ (s.rowsFor d event).map Row.record = rs.map .ok := by
  unfold find
  cases s.readFault? with
  | none =>
    exact ⟨fun h => ⟨rfl, Row.records_eq_ok_iff.mp h⟩, fun h => Row.records_eq_ok_iff.mpr h.2⟩
  | some e => exact iff_of_false nofun nofun

theorem row_of_mem_find {rs : List HistoryRecord} (h : s.find d event = .ok rs)
    {r : HistoryRecord} (hr : r ∈ rs) : ∃ row ∈ s.rowsFor d event, row.record = .ok r := by
  have hok : Except.ok r ∈ rs.map (Except.ok (ε := HistoryError)) := List.mem_map.mpr ⟨r, hr, rfl⟩
  rw [← (find_eq_ok_iff.mp h).2] at hok
  exact List.mem_map.mp hok

theorem mem_find_iff {rs : List HistoryRecord} (h : s.find d event = .ok rs) {r : HistoryRecord} :
    r ∈ rs ↔ ∃ row ∈ s.rows, row.record = .ok r ∧ r.downloadId = some d ∧ r.event = event := by
  constructor
  · intro hr
    obtain ⟨row, hrow, hrec⟩ := row_of_mem_find h hr
    obtain ⟨hmem, hd, hw⟩ := mem_rowsFor.mp hrow
    obtain ⟨_, hid, _, hword⟩ := Row.columns_of_record hrec
    exact ⟨row, hmem, hrec, hid.trans hd, Vocabulary.word_injective _ _ (hword.trans hw)⟩
  · rintro ⟨row, hmem, hrec, hd, rfl⟩
    obtain ⟨_, hid, _, hword⟩ := Row.columns_of_record hrec
    have hrow : row ∈ s.rowsFor d r.event :=
      mem_rowsFor.mpr ⟨hmem, hid.symm.trans hd, hword.symm⟩
    have hok : Except.ok r ∈ (s.rowsFor d r.event).map Row.record :=
      List.mem_map.mpr ⟨row, hrow, hrec⟩
    rw [(find_eq_ok_iff.mp h).2] at hok
    obtain ⟨r', hr', he⟩ := List.mem_map.mp hok
    exact Except.ok.inj he ▸ hr'

theorem get_eq_ok_iff {id : Int64} {r : HistoryRecord} : s.get id = .ok r ↔
    s.readFault? = none ∧ ∃ row, s.rows.find? (fun t => t.id == id) = some row ∧
      row.record = .ok r := by
  unfold get
  cases s.readFault? with
  | some e => exact iff_of_false nofun nofun
  | none =>
    cases s.rows.find? fun t => t.id == id with
    | none => exact iff_of_false nofun (by rintro ⟨_, _, h, _⟩; cases h)
    | some row =>
      refine ⟨fun h => ⟨rfl, row, rfl, h⟩, ?_⟩
      rintro ⟨_, _, h, hrec⟩
      cases h
      exact hrec

theorem rowsFor_pairwise : (s.rowsFor d event).Pairwise fun a b => Row.newerFirst a b = true :=
  List.pairwise_mergeSort Row.newerFirst_trans Row.newerFirst_total _

theorem rowsFor_eq {rows : List Row} (hnewer : rows.Pairwise Row.Newer)
    (hperm : rows.Perm (s.rows.filter fun r =>
      r.downloadId == some d && r.event == Vocabulary.word event)) :
    s.rowsFor d event = rows := by
  have hsort : (s.rowsFor d event).Perm rows := (List.mergeSort_perm _ _).trans hperm.symm
  have hle : rows.Pairwise fun a b => Row.newerFirst a b = true :=
    hnewer.imp fun h => (Row.newer_iff.mp h).1
  apply List.Perm.eq_of_pairwise _ rowsFor_pairwise hle hsort
  intro a b ha hb hab hba
  have hpair : rows.Pairwise fun x y =>
      Row.newerFirst x y = true → Row.newerFirst y x = true → x = y :=
    hnewer.imp fun h _ hyx => absurd hyx (Row.newer_iff.mp h).2
  have hflip : rows.Pairwise (flip fun x y =>
      Row.newerFirst x y = true → Row.newerFirst y x = true → x = y) :=
    hnewer.imp fun h hyx _ => absurd hyx (Row.newer_iff.mp h).2
  exact hpair.forall_of_forall_of_flip (fun _ _ _ _ => rfl) hflip (hsort.subset ha) hb hab hba

theorem rowsFor_distinctIds (hs : s.DistinctIds) :
    (s.rowsFor d event).Pairwise fun a b => a.id ≠ b.id := by
  apply List.Perm.pairwise (List.mergeSort_perm _ _).symm _ fun h => h.symm
  exact hs.sublist List.filter_sublist

theorem find_distinctIds (hs : s.DistinctIds) {rs : List HistoryRecord}
    (h : s.find d event = .ok rs) : rs.Pairwise fun a b => a.id ≠ b.id := by
  apply pairwise_of_map_eq_ok (find_eq_ok_iff.mp h).2 _ (rowsFor_distinctIds hs)
  intro row row' r r' hr hr' hne
  rw [(Row.columns_of_record hr).1, (Row.columns_of_record hr').1]
  exact hne

theorem find_newer (hs : s.DistinctIds) {rs : List HistoryRecord}
    (h : s.find d event = .ok rs) : rs.Pairwise HistoryRecord.Newer := by
  apply pairwise_of_map_eq_ok (find_eq_ok_iff.mp h).2 _
    (rowsFor_pairwise.and (rowsFor_distinctIds hs))
  intro row row' r r' hr hr' ⟨hnewer, hne⟩
  obtain ⟨hid, _, hdate, _⟩ := Row.columns_of_record hr
  obtain ⟨hid', _, hdate', _⟩ := Row.columns_of_record hr'
  unfold HistoryRecord.Newer
  rw [hid, hid', hdate, hdate']
  exact Row.newer_of_newerFirst hnewer hne

end Store

end ReleaseWarden
