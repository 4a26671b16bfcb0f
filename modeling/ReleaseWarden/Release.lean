import ReleaseWarden.Quality.Basic

/-! Releases offered by indexers, and the items that the library holds already. -/

set_option autoImplicit false

namespace ReleaseWarden

open Text

inductive Protocol
  | unknown
  | usenet
  | torrent
  deriving DecidableEq, Repr, Inhabited

instance : Vocabulary Protocol where
  all := [.unknown, .usenet, .torrent]
  word
    | .unknown => "unknown"
    | .usenet => "usenet"
    | .torrent => "torrent"
  mem_all a := by cases a <;> decide
  word_injective a b := by cases a <;> cases b <;> decide

structure ReleaseInfo where
  title : String
  indexer : String := ""
  protocol : Protocol := .unknown
  size : Option UInt64 := none
  seeders : Option UInt32 := none
  ageMinutes : Option UInt64 := none
  encrypted : Bool := false
  deriving DecidableEq, Repr, Inhabited

namespace ReleaseInfo

def schema : Schema ReleaseInfo :=
  .record
    (.required "title" .text <| .defaulted "indexer" .text "" <|
      .defaulted "protocol" .word .unknown <| .defaulted "size" (.nullable .integer) none <|
      .defaulted "seeders" (.nullable .integer) none <|
      .defaulted "age_minutes" (.nullable .integer) none <|
      .defaulted "encrypted" .boolean false .done)
    (fun r => (r.title, r.indexer, r.protocol, r.size, r.seeders, r.ageMinutes, r.encrypted, ()))
    (fun (title, indexer, protocol, size, seeders, ageMinutes, encrypted, _) =>
      ⟨title, indexer, protocol, size, seeders, ageMinutes, encrypted⟩)

end ReleaseInfo

structure Graded where
  grade : Grade
  formats : List FormatTag
  deriving DecidableEq, Repr, Inhabited

/-- A release that is offered. It may cover several albums of one artist. -/
structure Candidate where
  artistId : Int64
  albumIds : List Int64
  grade : Grade
  formats : List FormatTag := []
  release : ReleaseInfo
  deriving DecidableEq, Repr, Inhabited

namespace Candidate

def graded (c : Candidate) : Graded := ⟨c.grade, c.formats⟩

def isMultiAlbum (c : Candidate) : Bool := 1 < c.albumIds.length

def overlaps (c : Candidate) (artistId : Int64) (albumIds : List Int64) : Bool :=
  c.artistId == artistId && c.albumIds.any fun id => albumIds.contains id

def label (c : Candidate) : String := c.release.title ++ " [" ++ c.grade.label ++ "]"

def schema : Schema Candidate :=
  .record
    (.required "artist_id" .integer <| .required "album_ids" (.list .integer) <|
      .required "quality" Grade.schema <| .defaulted "formats" (.list FormatTag.schema) [] <|
      .required "release" ReleaseInfo.schema .done)
    (fun c => (c.artistId, c.albumIds, c.grade, c.formats, c.release, ()))
    (fun (artistId, albumIds, grade, formats, release, _) =>
      ⟨artistId, albumIds, grade, formats, release⟩)

end Candidate

structure LibraryItem where
  artistId : Int64
  albumId : Int64
  grade : Grade
  formats : List FormatTag := []
  deriving DecidableEq, Repr, Inhabited

namespace LibraryItem

def graded (i : LibraryItem) : Graded := ⟨i.grade, i.formats⟩

def schema : Schema LibraryItem :=
  .record
    (.required "artist_id" .integer <| .required "album_id" .integer <|
      .required "quality" Grade.schema <| .defaulted "formats" (.list FormatTag.schema) [] .done)
    (fun i => (i.artistId, i.albumId, i.grade, i.formats, ()))
    (fun (artistId, albumId, grade, formats, _) => ⟨artistId, albumId, grade, formats⟩)

end LibraryItem

end ReleaseWarden
