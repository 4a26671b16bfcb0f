import ReleaseWarden.Failure.Event

/-! What an announcement tells. The details of the grab are those of the oldest record, and the
albums are those of all records. -/

set_option autoImplicit false

namespace ReleaseWarden

namespace HistoryRecord

/-- Both records tell the same of a grab. -/
structure SameGrab (a b : HistoryRecord) : Prop where
  artistId : a.artistId = b.artistId
  grade : a.grade = b.grade
  sourceTitle : a.sourceTitle = b.sourceTitle
  data : a.data = b.data

end HistoryRecord

namespace FailureEvent

/-- The details of the grab are those of the record. -/
structure TellsOf (e : FailureEvent) (r : HistoryRecord) : Prop where
  artistId : e.artistId = r.artistId
  grade : e.grade = r.grade
  sourceTitle : e.sourceTitle = r.sourceTitle
  downloadClient : e.downloadClient = r.downloadClient?
  downloadId : e.downloadId = r.groupId?
  releaseSource : e.releaseSource = r.releaseSource
  data : e.data = r.data

/-- The announcement rests on exactly these records. -/
structure RestsOn (e : FailureEvent) (records : List HistoryRecord) (message : String)
    (skipRedownload : Bool) : Prop where
  albumIds : e.albumIds = increasing (records.map HistoryRecord.albumId)
  historyIds : e.historyIds = distinctBy id (records.map HistoryRecord.id)
  message : e.message = message
  skipRedownload : e.skipRedownload = skipRedownload

/-- Both announcements concern the same albums and rest on the same records. -/
structure SharesRecords (e e' : FailureEvent) : Prop where
  albumIds : e.albumIds = e'.albumIds
  historyIds : ∀ id, id ∈ e.historyIds ↔ id ∈ e'.historyIds
  downloadId : e.downloadId = e'.downloadId
  message : e.message = e'.message
  skipRedownload : e.skipRedownload = e'.skipRedownload

/-- Besides, both tell the same of the grab. -/
structure Agrees (e e' : FailureEvent) : Prop extends SharesRecords e e' where
  artistId : e.artistId = e'.artistId
  grade : e.grade = e'.grade
  sourceTitle : e.sourceTitle = e'.sourceTitle
  downloadClient : e.downloadClient = e'.downloadClient
  releaseSource : e.releaseSource = e'.releaseSource
  data : e.data = e'.data

variable {e e' : FailureEvent} {a b r : HistoryRecord}

theorem ofRecords?_append (front : List HistoryRecord) (r : HistoryRecord) (message : String)
    (skipRedownload : Bool) :
    ∃ e, ofRecords? (front ++ [r]) message skipRedownload = some e ∧ e.TellsOf r ∧
      e.RestsOn (front ++ [r]) message skipRedownload := by
  unfold ofRecords?
  rw [List.getLast?_concat, Option.map_some]
  exact ⟨_, rfl, ⟨rfl, rfl, rfl, rfl, rfl, rfl, rfl⟩, ⟨rfl, rfl, rfl, rfl⟩⟩

theorem exists_ofRecords?_of_ne_nil {records : List HistoryRecord} (h : records ≠ [])
    (message : String) (skipRedownload : Bool) :
    ∃ e, ofRecords? records message skipRedownload = some e ∧ (∃ r ∈ records, e.TellsOf r) ∧
      e.RestsOn records message skipRedownload := by
  rcases List.eq_nil_or_concat records with hnil | ⟨front, r, hconcat⟩
  · exact absurd hnil h
  · rw [List.concat_eq_append] at hconcat
    subst hconcat
    obtain ⟨e, he, htells, hrests⟩ := ofRecords?_append front r message skipRedownload
    exact ⟨e, he, ⟨r, List.mem_append_right front (List.mem_singleton_self r), htells⟩, hrests⟩

theorem tellsOf_iff_sameGrab (he : e.TellsOf a) (hgroup : a.groupId? = b.groupId?) :
    e.TellsOf b ↔ a.SameGrab b := by
  constructor
  · intro h
    exact ⟨he.artistId.symm.trans h.artistId, he.grade.symm.trans h.grade,
      he.sourceTitle.symm.trans h.sourceTitle, he.data.symm.trans h.data⟩
  · intro h
    have hclient : a.downloadClient? = b.downloadClient? := by
      unfold HistoryRecord.downloadClient?
      rw [h.data]
    have hsource : a.releaseSource = b.releaseSource := by
      unfold HistoryRecord.releaseSource
      rw [h.data]
    exact ⟨he.artistId.trans h.artistId, he.grade.trans h.grade,
      he.sourceTitle.trans h.sourceTitle, he.downloadClient.trans hclient,
      he.downloadId.trans hgroup, he.releaseSource.trans hsource, he.data.trans h.data⟩

theorem agrees_iff_tellsOf (hshares : e.SharesRecords e') (he' : e'.TellsOf r) :
    e.Agrees e' ↔ e.TellsOf r := by
  constructor
  · intro h
    exact ⟨h.artistId.trans he'.artistId, h.grade.trans he'.grade,
      h.sourceTitle.trans he'.sourceTitle, h.downloadClient.trans he'.downloadClient,
      h.downloadId.trans he'.downloadId, h.releaseSource.trans he'.releaseSource,
      h.data.trans he'.data⟩
  · intro h
    exact ⟨hshares, h.artistId.trans he'.artistId.symm, h.grade.trans he'.grade.symm,
      h.sourceTitle.trans he'.sourceTitle.symm, h.downloadClient.trans he'.downloadClient.symm,
      h.releaseSource.trans he'.releaseSource.symm, h.data.trans he'.data.symm⟩

theorem sharesRecords_of_restsOn {rs rs' : List HistoryRecord} {message : String}
    {skipRedownload : Bool} (he : e.RestsOn rs message skipRedownload)
    (he' : e'.RestsOn rs' message skipRedownload) (hmem : ∀ r, r ∈ rs ↔ r ∈ rs')
    (hgroup : e.downloadId = e'.downloadId) : e.SharesRecords e' := by
  refine ⟨?_, ?_, hgroup, he.message.trans he'.message.symm,
    he.skipRedownload.trans he'.skipRedownload.symm⟩
  · rw [he.albumIds, he'.albumIds]
    apply increasing_congr
    intro n
    simp only [List.mem_map, hmem]
  · intro id
    simp only [he.historyIds, he'.historyIds, mem_distinctBy_id, List.mem_map, hmem]

end FailureEvent

end ReleaseWarden
