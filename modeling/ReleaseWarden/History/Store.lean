import ReleaseWarden.Failure.Event
import ReleaseWarden.History.Row
import ReleaseWarden.Release

/-! The store of history: one table of rows, to which rows are only added. Ids count up and are
never given twice. A batch of rows is added as a whole or not at all. -/

set_option autoImplicit false

namespace ReleaseWarden

open Text Schema

inductive Reach
  | full
  | reading
  | nothing
  deriving DecidableEq, Repr, Inhabited

structure Store where
  rows : List Row := []
  /-- The greatest id given so far. -/
  lastId : Int64 := 0
  refusedAlbums : List Int64 := []
  isLocked : Bool := false
  isClosed : Bool := false
  reach : Reach := .full
  deriving DecidableEq, Repr, Inhabited

/-- What the clock shows at one insertion after the other. -/
structure Clock where
  reading : Nat → String

namespace Clock

def later (clock : Clock) (n : Nat) : Clock := ⟨fun i => clock.reading (n + i)⟩

instance : Coe String Clock := ⟨fun now => ⟨fun _ => now⟩⟩

end Clock

inductive Medium
  | memory
  | file
  deriving DecidableEq, Repr

namespace Medium

def journalMode : Medium → String
  | memory => "memory"
  | file => "wal"

end Medium

inductive StatementFault
  | noTable
  | locked
  | readOnly
  | idsExhausted
  | idTaken
  | albumRefused
  deriving DecidableEq, Repr

namespace StatementFault

def code : StatementFault → Nat
  | noTable => 1
  | locked => 5
  | readOnly => 8
  | idsExhausted => 13
  | idTaken => 1555
  | albumRefused => 1811

def text : StatementFault → String
  | noTable => "no such table: history"
  | locked => "database is locked"
  | readOnly => "attempt to write a readonly database"
  | idsExhausted => "database or disk is full"
  | idTaken => "UNIQUE constraint failed: history.id"
  | albumRefused => "album rejected"

def isTransient : StatementFault → Bool
  | locked => true
  | _ => false

def error (f : StatementFault) : HistoryError :=
  .database ("error returned from database: (code: " ++ toString f.code ++ ") " ++ f.text)
    f.isTransient

end StatementFault

namespace Store

def readFault? (s : Store) : Option HistoryError :=
  if s.isClosed then some DatabaseFault.poolClosed.error
  else if s.reach = .nothing then some StatementFault.noTable.error
  else none

def writeFault? (s : Store) : Option HistoryError :=
  match s.readFault? with
  | some e => some e
  | none =>
    if s.reach = .reading then some StatementFault.readOnly.error
    else if s.isLocked then some StatementFault.locked.error
    else none

def refusesRow (s : Store) (row : Row) : Bool := s.refusedAlbums.contains row.albumId

/-- Which rows the database refuses is up to it; here and below, those of refused albums if nothing
else is said. -/
def place (s : Store) (row : Row) (refuses : Row → Bool := s.refusesRow) :
    Except HistoryError Int64 × Store :=
  match s.writeFault? with
  | some e => (.error e, s)
  | none =>
    if refuses row then (.error StatementFault.albumRefused.error, s)
    else if s.rows.any fun r => r.id == row.id then (.error StatementFault.idTaken.error, s)
    else
      (.ok row.id,
        { s with
          rows := s.rows ++ [row]
          lastId := if s.lastId.toInt < row.id.toInt then row.id else s.lastId })

def placeNext (s : Store) (row : Int64 → Row) (refuses : Row → Bool := s.refusesRow) :
    Except HistoryError Int64 × Store :=
  match Bounded.ofInt? Int64 (s.lastId.toInt + 1) with
  | none => (.error (s.writeFault?.getD StatementFault.idsExhausted.error), s)
  | some id => s.place (row id) refuses

def insert (s : Store) (now : String) (r : NewRecord) (refuses : Row → Bool := s.refusesRow) :
    Except HistoryError Int64 × Store :=
  s.placeNext (fun id => .ofNew id now r) refuses

def insertEach (refuses : Row → Bool) :
    Clock → List NewRecord → Store → Except HistoryError (List Int64) × Store
  | _, [], s => (.ok [], s)
  | clock, r :: rs, s =>
    match s.insert (clock.reading 0) r refuses with
    | (.error e, s) => (.error e, s)
    | (.ok id, s) =>
      match insertEach refuses (clock.later 1) rs s with
      | (.error e, s) => (.error e, s)
      | (.ok ids, s) => (.ok (id :: ids), s)

/-- Adds all records, or takes back those that were added before one failed. -/
def insertAll (s : Store) (clock : Clock) (rs : List NewRecord)
    (refuses : Row → Bool := s.refusesRow) : Except HistoryError (List Int64) × Store :=
  if s.isClosed then (.error DatabaseFault.poolClosed.error, s)
  else
    match insertEach refuses clock rs s with
    | (.error e, _) => (.error e, s)
    | (.ok ids, s) => (.ok ids, s)

def grabData (c : Candidate) (downloadClient : String) (source : ReleaseSource) : Table :=
  .ofList
    [(DataKey.downloadClient.name, downloadClient),
      (DataKey.releaseSource.name, Vocabulary.word source),
      (DataKey.indexer.name, c.release.indexer)]

def grabRecords (c : Candidate) (downloadId downloadClient : String) (source : ReleaseSource) :
    List NewRecord :=
  c.albumIds.map fun albumId =>
    { artistId := c.artistId
      albumId
      sourceTitle := c.release.title
      grade := c.grade
      event := .grabbed
      downloadId := some downloadId
      data := grabData c downloadClient source }

def recordGrab (s : Store) (clock : Clock) (c : Candidate) (downloadId downloadClient : String)
    (source : ReleaseSource) (refuses : Row → Bool := s.refusesRow) :
    Except HistoryError (List Int64) × Store :=
  s.insertAll clock (grabRecords c downloadId downloadClient source) refuses

def failureRecords (e : FailureEvent) : List NewRecord :=
  e.albumIds.map fun albumId =>
    { artistId := e.artistId
      albumId
      sourceTitle := e.sourceTitle
      grade := e.grade
      event := .downloadFailed
      downloadId := e.downloadId
      data := e.data.insert DataKey.message.name e.message }

def recordFailure (s : Store) (clock : Clock) (e : FailureEvent)
    (refuses : Row → Bool := s.refusesRow) : Except HistoryError (List Int64) × Store :=
  s.insertAll clock (failureRecords e) refuses

def rowsFor (s : Store) (downloadId : String) (event : HistoryEvent) : List Row :=
  (s.rows.filter fun r => r.downloadId == some downloadId && r.event == Vocabulary.word event)
    |>.mergeSort Row.newerFirst

def find (s : Store) (downloadId : String) (event : HistoryEvent) :
    Except HistoryError (List HistoryRecord) :=
  match s.readFault? with
  | some e => .error e
  | none => Row.records (s.rowsFor downloadId event)

def get (s : Store) (id : Int64) : Except HistoryError HistoryRecord :=
  match s.readFault? with
  | some e => .error e
  | none =>
    match s.rows.find? fun r => r.id == id with
    | none => .error (.notFound id)
    | some r => r.record

def lookup (s : Store) : Lookup := ⟨s.get, fun downloadId => s.find downloadId .grabbed⟩

def delete (s : Store) (id : Int64) : Except HistoryError Nat × Store :=
  match s.writeFault? with
  | some e => (.error e, s)
  | none =>
    let kept := s.rows.filter fun r => r.id != id
    (.ok (s.rows.length - kept.length), { s with rows := kept })

def refuseAlbum (s : Store) (albumId : Int64) : Except HistoryError Unit × Store :=
  match s.writeFault? with
  | some e => (.error e, s)
  | none => (.ok (), { s with refusedAlbums := albumId :: s.refusedAlbums })

def close (s : Store) : Store := { s with isClosed := true }

/-- A store in memory is lost when it is opened again. -/
def reopen (s : Store) : Medium → Store
  | .memory => {}
  | .file => { s with isClosed := false }

def schema : Schema Store :=
  .record
    (.required "history" (.list Row.schema) <| .required "last_id" .integer <|
      .defaulted "refused_albums" (.list .integer) [] .done)
    (fun s => (s.rows, s.lastId, s.refusedAlbums, ()))
    (fun (rows, lastId, refusedAlbums, _) => { rows, lastId, refusedAlbums })

end Store

end ReleaseWarden
