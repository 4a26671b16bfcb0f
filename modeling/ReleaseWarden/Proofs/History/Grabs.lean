import ReleaseWarden.Proofs.History.Batches

/-! Records of grabs. There is one for each album of a candidate, and each of them tells all that
was known when the release was sent to a download client. -/

set_option autoImplicit false

namespace ReleaseWarden

open Text

/-- The record tells of the grab. -/
structure HistoryRecord.TellsGrab (r : HistoryRecord) (c : Candidate) (d client : String)
    (source : ReleaseSource) : Prop where
  event : r.event = .grabbed
  artistId : r.artistId = c.artistId
  sourceTitle : r.sourceTitle = c.release.title
  grade : r.grade = c.grade
  downloadId : r.downloadId = some d
  data : r.data.entries = [("downloadClient", client), ("indexer", c.release.indexer),
    ("releaseSource", Vocabulary.word source)]

variable {c : Candidate} {d client : String} {source : ReleaseSource}

namespace Store

theorem entries_grabData (c : Candidate) (client : String) (source : ReleaseSource) :
    (grabData c client source).entries = [("downloadClient", client),
      ("indexer", c.release.indexer), ("releaseSource", Vocabulary.word source)] := by
  have hclient : ¬ "releaseSource" < "downloadClient" := by decide
  have hindexer : ¬ "indexer" < "downloadClient" := by decide
  have hsource : "indexer" < "releaseSource" := by decide
  simp [grabData, Table.ofList, Table.insert, Table.empty, Table.put, DataKey.name, hclient,
    hindexer, hsource]

theorem mem_grabRecords {r : NewRecord} (h : r ∈ grabRecords c d client source) :
    r.downloadId = some d ∧ r.event = .grabbed := by
  obtain ⟨_, _, rfl⟩ := List.mem_map.mp h
  exact ⟨rfl, rfl⟩

theorem tellsGrab_stored {r : NewRecord} (h : r ∈ grabRecords c d client source) (id : Int64)
    (date : String) : (r.stored id date).TellsGrab c d client source := by
  obtain ⟨_, _, rfl⟩ := List.mem_map.mp h
  exact ⟨rfl, rfl, rfl, rfl, rfl, entries_grabData c client source⟩

end Store

namespace HistoryRecord.TellsGrab

variable {r : HistoryRecord}

theorem downloadClient? (h : r.TellsGrab c d client source) : r.downloadClient? = some client := by
  simp [HistoryRecord.downloadClient?, Table.get?, h.data, DataKey.name]

theorem releaseSource (h : r.TellsGrab c d client source) : r.releaseSource = source := by
  simp [HistoryRecord.releaseSource, Table.get?, h.data, DataKey.name, ReleaseSource.ofText]

end HistoryRecord.TellsGrab

end ReleaseWarden
