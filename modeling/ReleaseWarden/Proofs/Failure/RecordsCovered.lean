import ReleaseWarden.Proofs.Failure.Announcements

/-! What an announcement covers. It names the albums and the ids of the records that it is built
from, each once and no others. Records that are listed again change neither. -/

set_option autoImplicit false

namespace ReleaseWarden

/-- Of the records with one id the first is kept where it stands, and no other one. -/
structure HistoryRecord.KeepsFirst (kept records : List HistoryRecord) : Prop where
  sublist : kept.Sublist records
  ids_differ : kept.Pairwise fun a b => a.id ≠ b.id
  exists_kept : ∀ r ∈ records, ∃ a ∈ kept, a.id = r.id
  mem_iff_first : ∀ r, r ∈ kept ↔ records.find? (fun a => a.id = r.id) = some r

theorem HistoryRecord.keepsFirst_distinctBy (records : List HistoryRecord) :
    KeepsFirst (distinctBy HistoryRecord.id records) records where
  sublist := distinctBy_sublist records
  ids_differ := distinctBy_pairwise records
  exists_kept _ hr := exists_mem_distinctBy hr
  mem_iff_first _ := mem_distinctBy_iff

namespace FailureEvent

/-- The announcement names the albums of the records in increasing order, and the ids of the records
in the order in which they first occur. -/
structure Covers (e : FailureEvent) (records : List HistoryRecord) : Prop where
  albumIds_increase : e.albumIds.Pairwise fun a b => a.toInt < b.toInt
  mem_albumIds : ∀ album, album ∈ e.albumIds ↔ ∃ r ∈ records, r.albumId = album
  historyIds_differ : e.historyIds.Nodup
  mem_historyIds : ∀ id, id ∈ e.historyIds ↔ ∃ r ∈ records, r.id = id
  historyIds_in_order : e.historyIds.Pairwise fun a b =>
    (records.map HistoryRecord.id).idxOf a < (records.map HistoryRecord.id).idxOf b

variable {e : FailureEvent} {records : List HistoryRecord} {message : String}
  {skipRedownload : Bool}

theorem RestsOn.covers (h : e.RestsOn records message skipRedownload) : e.Covers records where
  albumIds_increase := by
    rw [h.albumIds]
    exact increasing_pairwise _
  mem_albumIds album := by rw [h.albumIds, mem_increasing, List.mem_map]
  historyIds_differ := by
    rw [h.historyIds]
    exact distinctBy_pairwise _
  mem_historyIds id := by rw [h.historyIds, mem_distinctBy_id, List.mem_map]
  historyIds_in_order := by
    rw [h.historyIds]
    exact distinctBy_id_pairwise _

/-- From any records an announcement can be made, and it covers them, no fewer and no more. It names
the same ids if each record is listed once only, and the same albums too if records of one id are
equal. Listing each once keeps the first record of every id, and a second time changes nothing. -/
theorem covers_all_records (records : List HistoryRecord) (message : String)
    (skipRedownload : Bool) :
    (records ≠ [] → ∃ e, ofRecords? records message skipRedownload = some e ∧ e.Covers records ∧
      ∃ e', ofRecords? (distinctBy HistoryRecord.id records) message skipRedownload = some e' ∧
        e'.historyIds = e.historyIds ∧
        ((∀ a ∈ records, ∀ b ∈ records, a.id = b.id → a = b) → e'.albumIds = e.albumIds)) ∧
    HistoryRecord.KeepsFirst (distinctBy HistoryRecord.id records) records ∧
    distinctBy HistoryRecord.id (distinctBy HistoryRecord.id records) =
      distinctBy HistoryRecord.id records := by
  refine ⟨fun hne => ?_, HistoryRecord.keepsFirst_distinctBy records,
    distinctBy_distinctBy records⟩
  have hne' : distinctBy HistoryRecord.id records ≠ [] := mt distinctBy_eq_nil_iff.mp hne
  obtain ⟨e, he, _, hrests⟩ := exists_ofRecords?_of_ne_nil hne message skipRedownload
  obtain ⟨e', he', _, hrests'⟩ := exists_ofRecords?_of_ne_nil hne' message skipRedownload
  refine ⟨e, he, hrests.covers, e', he', ?_, fun hequal => ?_⟩
  · rw [hrests'.historyIds, hrests.historyIds, distinctBy_map_distinctBy]
  · rw [hrests'.albumIds, hrests.albumIds, increasing_map_distinctBy hequal]

/-- Two records of one grab, the newer one of which is listed again at the end. -/
def relisted : List HistoryRecord :=
  let record (id albumId : Int64) : HistoryRecord :=
    { id, artistId := 7, albumId, sourceTitle := "Artist - Both Albums", grade := ⟨⟨13, "FLAC"⟩, {}⟩
      event := .grabbed, downloadId := some "job", date := "2026-01-01T00:00:00Z" }
  [record 2 11, record 1 10, record 2 11]

theorem relisted_covered : relisted ≠ [] ∧
    (∀ a ∈ relisted, ∀ b ∈ relisted, a.id = b.id → a = b) ∧
    ∃ e e', ofRecords? relisted "" true = some e ∧
      ofRecords? (distinctBy HistoryRecord.id relisted) "" true = some e' ∧
      e'.albumIds = e.albumIds ∧ e.albumIds = [10, 11] ∧
      e'.historyIds = e.historyIds ∧ e.historyIds = [2, 1] := by
  have hne : relisted ≠ [] := nofun
  have hequal : ∀ a ∈ relisted, ∀ b ∈ relisted, a.id = b.id → a = b := by decide
  obtain ⟨e, he, _, e', he', hids, halbums⟩ := (covers_all_records relisted "" true).1 hne
  refine ⟨hne, hequal, e, e', he, he', halbums hequal, ?_, hids, ?_⟩
  · cases he
    rfl
  · cases he
    rfl

end FailureEvent

end ReleaseWarden
