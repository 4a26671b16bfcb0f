import ReleaseWarden.History.Record
import ReleaseWarden.Lists.Distinct

/-! Announcements of failed downloads, and the searches that replace them. -/

set_option autoImplicit false

namespace ReleaseWarden

open Text

/-- Announces that a download failed for good. -/
structure FailureEvent where
  artistId : Int64
  /-- The albums concerned, each once, in increasing order. -/
  albumIds : List Int64
  /-- The records that the announcement rests on, each once. -/
  historyIds : List Int64
  grade : Grade
  sourceTitle : String
  downloadClient : Option String
  downloadId : Option String
  message : String
  releaseSource : ReleaseSource
  data : Table := .empty
  skipRedownload : Bool
  deriving DecidableEq, Repr, Inhabited

structure SearchRequest where
  artistId : Int64
  albumIds : List Int64
  failedRelease : String
  deriving DecidableEq, Repr, Inhabited

namespace FailureEvent

/-- Built from records, the newest one first. The oldest one supplies the details of the grab;
without records there is nothing to announce. -/
def ofRecords? (records : List HistoryRecord) (message : String) (skipRedownload : Bool) :
    Option FailureEvent :=
  records.getLast?.map fun grab =>
    { artistId := grab.artistId
      albumIds := increasing (records.map HistoryRecord.albumId)
      historyIds := distinctBy id (records.map HistoryRecord.id)
      grade := grab.grade
      sourceTitle := grab.sourceTitle
      downloadClient := grab.downloadClient?
      downloadId := grab.groupId?
      message
      releaseSource := grab.releaseSource
      data := grab.data
      skipRedownload }

def replacement? (e : FailureEvent) (autoRedownload : Bool) : Option SearchRequest :=
  if e.skipRedownload || !autoRedownload || e.albumIds.isEmpty then none
  else some ⟨e.artistId, e.albumIds, e.sourceTitle⟩

def schema : Schema FailureEvent :=
  .record
    (.required "artist_id" .integer <| .required "album_ids" (.list .integer) <|
      .required "history_ids" (.list .integer) <| .required "quality" Grade.schema <|
      .required "source_title" .text <| .nullable "download_client" .text <|
      .nullable "download_id" .text <| .required "message" .text <|
      .required "release_source" .word <| .defaulted "data" .table .empty <|
      .required "skip_redownload" .boolean .done)
    (fun e => (e.artistId, e.albumIds, e.historyIds, e.grade, e.sourceTitle, e.downloadClient,
      e.downloadId, e.message, e.releaseSource, e.data, e.skipRedownload, ()))
    (fun (artistId, albumIds, historyIds, grade, sourceTitle, downloadClient, downloadId, message,
        releaseSource, data, skipRedownload, _) =>
      ⟨artistId, albumIds, historyIds, grade, sourceTitle, downloadClient, downloadId, message,
        releaseSource, data, skipRedownload⟩)

end FailureEvent

namespace SearchRequest

def schema : Schema SearchRequest :=
  .record
    (.required "artist_id" .integer <| .required "album_ids" (.list .integer) <|
      .required "failed_release" .text .done)
    (fun r => (r.artistId, r.albumIds, r.failedRelease, ()))
    (fun (artistId, albumIds, failedRelease, _) => ⟨artistId, albumIds, failedRelease⟩)

end SearchRequest

end ReleaseWarden
