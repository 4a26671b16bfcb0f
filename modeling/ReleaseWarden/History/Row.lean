import ReleaseWarden.History.Lookup
import ReleaseWarden.Json.Parser
import ReleaseWarden.Json.Printer

/-! Rows of the history table. A row holds what the columns hold: whole numbers of 64 bits and
texts. Not every row is a record; what the library itself writes always is one. -/

set_option autoImplicit false

namespace ReleaseWarden

open Text Schema

structure Row where
  id : Int64
  artistId : Int64
  albumId : Int64
  sourceTitle : String
  qualityId : Int64
  qualityName : String
  revisionVersion : Int64
  revisionReal : Int64
  /-- Every number but zero stands for true. -/
  revisionIsRepack : Int64
  event : String
  downloadId : Option String
  /-- A table, as JSON text. -/
  data : String
  date : String
  deriving DecidableEq, Repr, Inhabited

namespace Row

def schema : Schema Row :=
  .record
    (.required "id" .integer <| .required "artist_id" .integer <|
      .required "album_id" .integer <| .required "source_title" .text <|
      .required "quality_id" .integer <| .required "quality_name" .text <|
      .required "revision_version" .integer <| .required "revision_real" .integer <|
      .required "revision_is_repack" .integer <| .required "event_type" .text <|
      .required "download_id" (.nullable .text) <| .required "data" .text <|
      .required "date" .text .done)
    (fun r => (r.id, r.artistId, r.albumId, r.sourceTitle, r.qualityId, r.qualityName,
      r.revisionVersion, r.revisionReal, r.revisionIsRepack, r.event, r.downloadId, r.data,
      r.date, ()))
    (fun (id, artistId, albumId, sourceTitle, qualityId, qualityName, revisionVersion,
        revisionReal, revisionIsRepack, event, downloadId, data, date, _) =>
      ⟨id, artistId, albumId, sourceTitle, qualityId, qualityName, revisionVersion, revisionReal,
        revisionIsRepack, event, downloadId, data, date⟩)

def writeData (data : Table) : String := (Schema.table.encode data).render

def readData? (text : String) : Option Table := (Json.parse text).bind Schema.table.decode

def ofNew (id : Int64) (date : String) (r : NewRecord) : Row where
  id
  artistId := r.artistId
  albumId := r.albumId
  sourceTitle := r.sourceTitle
  qualityId := r.grade.quality.id.toInt64
  qualityName := r.grade.quality.name
  revisionVersion := r.grade.revision.version.toInt64
  revisionReal := r.grade.revision.real.toInt64
  revisionIsRepack := if r.grade.revision.isRepack then 1 else 0
  event := Vocabulary.word r.event
  downloadId := r.downloadId
  data := writeData r.data
  date

def narrow (n : Int64) : Except HistoryError Int32 :=
  match Bounded.ofInt? Int32 n.toInt with
  | some n => .ok n
  | none => .error (.database "a column holds a number outside of its range" false)

def grade (r : Row) : Except HistoryError Grade := do
  let id ← narrow r.qualityId
  let version ← narrow r.revisionVersion
  let real ← narrow r.revisionReal
  pure ⟨⟨id, r.qualityName⟩, ⟨version, real, r.revisionIsRepack != 0⟩⟩

def toRecord (r : Row) (grade : Grade) : Except HistoryError HistoryRecord :=
  match HistoryEvent.ofText r.event with
  | .error unknown => .error (.invalid r.id unknown.message)
  | .ok event =>
    match readData? r.data with
    | none => .error (.invalid r.id "bad data: not an object of texts")
    | some data => .ok
      { id := r.id
        artistId := r.artistId
        albumId := r.albumId
        sourceTitle := r.sourceTitle
        grade
        event
        downloadId := r.downloadId
        data
        date := r.date }

def record (r : Row) : Except HistoryError HistoryRecord := do
  r.toRecord (← r.grade)

/-- Numbers are looked at in all rows before the texts of any. -/
def records (rows : List Row) : Except HistoryError (List HistoryRecord) := do
  let grades ← rows.mapM grade
  (rows.zip grades).mapM fun (r, g) => r.toRecord g

def newerFirst (a b : Row) : Bool :=
  decide (b.date < a.date) || (a.date == b.date && decide (b.id.toInt ≤ a.id.toInt))

end Row

end ReleaseWarden
