import ReleaseWarden.DataModel
import ReleaseWarden.Proofs.Json.RoundTrip
import ReleaseWarden.Proofs.Schema.Spelling

/-! Values return from their texts. The schemas of all records are faithful, a verdict is told from
its members, and so every value of the data model is read from what is written of it. -/

set_option autoImplicit false

namespace ReleaseWarden

open Text

theorem Quality.schema_faithful : Quality.schema.Faithful :=
  ⟨fun _ => rfl, by decide, trivial, trivial, trivial⟩

theorem Revision.schema_faithful : Revision.schema.Faithful :=
  ⟨fun _ => rfl, by decide, trivial, trivial, trivial, trivial⟩

theorem Grade.schema_faithful : Grade.schema.Faithful :=
  ⟨fun _ => rfl, by decide, Quality.schema_faithful, Revision.schema_faithful, trivial⟩

theorem FormatTag.schema_faithful : FormatTag.schema.Faithful :=
  ⟨fun _ => rfl, by decide, trivial, trivial, trivial, trivial⟩

theorem ProfileItem.schema_faithful : ProfileItem.schema.Faithful :=
  ⟨fun _ => rfl, by decide, Quality.schema_faithful, trivial, trivial⟩

theorem FormatScore.schema_faithful : FormatScore.schema.Faithful :=
  ⟨fun _ => rfl, by decide, FormatTag.schema_faithful, trivial, trivial⟩

theorem Profile.schema_faithful : Profile.schema.Faithful :=
  ⟨fun _ => rfl, by decide, trivial, trivial, trivial, trivial, ProfileItem.schema_faithful,
    FormatScore.schema_faithful, trivial, trivial, trivial⟩

theorem ReleaseInfo.schema_faithful : ReleaseInfo.schema.Faithful :=
  ⟨fun _ => rfl, by decide, trivial, trivial, trivial, ⟨rfl, trivial⟩, ⟨rfl, trivial⟩,
    ⟨rfl, trivial⟩, trivial, trivial⟩

theorem Candidate.schema_faithful : Candidate.schema.Faithful :=
  ⟨fun _ => rfl, by decide, trivial, trivial, Grade.schema_faithful, FormatTag.schema_faithful,
    ReleaseInfo.schema_faithful, trivial⟩

theorem LibraryItem.schema_faithful : LibraryItem.schema.Faithful :=
  ⟨fun _ => rfl, by decide, trivial, trivial, Grade.schema_faithful, FormatTag.schema_faithful,
    trivial⟩

theorem Rejection.schema_faithful : Rejection.schema.Faithful :=
  ⟨fun _ => rfl, by decide, trivial, trivial, trivial⟩

theorem Settings.schema_faithful : Settings.schema.Faithful :=
  ⟨fun _ => rfl, by decide, ⟨rfl, trivial⟩, ⟨rfl, trivial⟩, ⟨rfl, trivial⟩, ⟨rfl, trivial⟩,
    ⟨rfl, trivial⟩, trivial, trivial⟩

theorem QueueEntry.schema_faithful : QueueEntry.schema.Faithful :=
  ⟨fun _ => rfl, by decide, Candidate.schema_faithful, trivial, ⟨rfl, trivial⟩, trivial⟩

theorem ClientItem.schema_faithful : ClientItem.schema.Faithful :=
  ⟨fun _ => rfl, by decide, trivial, trivial, trivial, trivial, trivial, trivial, ⟨rfl, trivial⟩,
    trivial⟩

theorem Tracked.schema_faithful : Tracked.schema.Faithful :=
  ⟨fun _ => rfl, by decide, ClientItem.schema_faithful, trivial, trivial, trivial, trivial⟩

theorem FailureEvent.schema_faithful : FailureEvent.schema.Faithful :=
  ⟨fun _ => rfl, by decide, trivial, trivial, trivial, Grade.schema_faithful, trivial,
    ⟨rfl, trivial⟩, ⟨rfl, trivial⟩, trivial, trivial, trivial, trivial, trivial⟩

theorem SearchRequest.schema_faithful : SearchRequest.schema.Faithful :=
  ⟨fun _ => rfl, by decide, trivial, trivial, trivial, trivial⟩

theorem HistoryRecord.schema_faithful : HistoryRecord.schema.Faithful :=
  ⟨fun _ => rfl, by decide, trivial, trivial, trivial, trivial, Grade.schema_faithful, trivial,
    ⟨rfl, trivial⟩, trivial, trivial, trivial⟩

theorem RecordType.schema_faithful : (t : RecordType) → t.schema.Faithful
  | quality => Quality.schema_faithful
  | revision => Revision.schema_faithful
  | grade => Grade.schema_faithful
  | formatTag => FormatTag.schema_faithful
  | profileItem => ProfileItem.schema_faithful
  | formatScore => FormatScore.schema_faithful
  | profile => Profile.schema_faithful
  | releaseInfo => ReleaseInfo.schema_faithful
  | candidate => Candidate.schema_faithful
  | libraryItem => LibraryItem.schema_faithful
  | rejection => Rejection.schema_faithful
  | settings => Settings.schema_faithful
  | queueEntry => QueueEntry.schema_faithful
  | clientItem => ClientItem.schema_faithful
  | tracked => Tracked.schema_faithful
  | failureEvent => FailureEvent.schema_faithful
  | searchRequest => SearchRequest.schema_faithful
  | historyRecord => HistoryRecord.schema_faithful

namespace Verdict

theorem fits_encode (v : Verdict) : v.encode.fits 127 = true := by
  cases v with
  | accept => rfl
  | reject r => rfl

theorem decode_encode (v : Verdict) : decode v.encode = some v := by
  unfold decode
  rw [if_pos v.fits_encode]
  cases v with
  | accept => rfl
  | reject r =>
    obtain ⟨rule, reason⟩ := r
    cases rule <;> rfl

end Verdict

namespace DataType

/-- The JSON value is what is written of `v`. All is there in its place, but the entries of a table
may come in any order. -/
def Writes : (t : DataType) → t.Value → Json → Prop
  | record t, v, j => t.schema.Spells .strict v j
  | word t, v, j => t.schema.Spells .strict v j
  | verdict, v, j => j = v.encode

theorem writes_encode : (t : DataType) → (v : t.Value) → t.Writes v (t.encode v)
  | record t, v => spells_encode .strict t.schema v
  | word t, v => spells_encode .strict t.schema v
  | verdict, _ => rfl

theorem decode_of_writes : (t : DataType) → (v : t.Value) → (j : Json) → t.Writes v j →
    t.decode j = some v
  | record t, v, j, h => decode_of_spells t.schema t.schema_faithful v j h
  | word t, v, j, h => by
    have hs : t.schema.Faithful := trivial
    have hspells : t.schema.Spells .strict v j := h
    exact decode_of_spells t.schema hs v j hspells
  | verdict, v, _, h => by
    obtain rfl := h
    exact v.decode_encode

/-- Every value of every type of the data model returns, with all its parts, from the text that is
written of it, on one line or with one item a line, whatever order the entries of its tables come
in. -/
theorem written_values_return (t : DataType) (v : t.Value) :
    t.Writes v (t.encode v) ∧
    ∀ j, t.Writes v j → (Json.parse j.render).bind t.decode = some v ∧
      (Json.parse j.renderIndented).bind t.decode = some v := by
  refine ⟨t.writes_encode v, fun j h => ?_⟩
  have hread := t.decode_of_writes v j h
  rw [Json.parse_render, Json.parse_renderIndented]
  exact ⟨hread, hread⟩

end DataType

def repackGrab : HistoryRecord where
  id := 1
  artistId := 7
  albumId := 40
  sourceTitle := "Artist - \"Album\"\n"
  grade := ⟨⟨13, "FLAC"⟩, { isRepack := true }⟩
  event := .grabbed
  downloadId := none
  data := Table.ofList [("downloadClient", "SABnzbd"), ("indexer", "Ünder")]
  date := "2026-01-01"

/-- Its table starts with the last entry. -/
def repackGrabWritten : Json := Json.record
  [("id", Json.integer 1), ("artist_id", Json.integer 7), ("album_id", Json.integer 40),
    ("source_title", Json.text "Artist - \"Album\"\n"),
    ("quality", Grade.schema.encode ⟨⟨13, "FLAC"⟩, { isRepack := true }⟩),
    ("event_type", Json.text "grabbed"), ("download_id", .null),
    ("data", Json.record
      [("indexer", Json.text "Ünder"), ("downloadClient", Json.text "SABnzbd")]),
    ("date", Json.text "2026-01-01")]

/-- The mark of the repack returns as well, and the download id that there is none of. -/
theorem repackGrab_returns : (DataType.record .historyRecord).Writes repackGrab repackGrabWritten ∧
    (Json.parse repackGrabWritten.render).bind HistoryRecord.schema.decode = some repackGrab ∧
    (Json.parse (Verdict.reject ⟨.age, "Ünder\\"⟩).encode.renderIndented).bind Verdict.decode =
      some (.reject ⟨.age, "Ünder\\"⟩) := by
  let entries := [("indexer", "Ünder"), ("downloadClient", "SABnzbd")]
  have hwrites : (DataType.record .historyRecord).Writes repackGrab repackGrabWritten :=
    ⟨_, _, .given rfl <| .given rfl <| .given rfl <| .given rfl <|
      .given (spells_encode .strict Grade.schema _) <| .given rfl <| .given rfl <|
        .given ⟨entries, .swap _ _ [], rfl⟩ <| .given rfl rfl, rfl, rfl⟩
  have hrecord := DataType.written_values_return (.record .historyRecord) repackGrab
  have hverdict := DataType.written_values_return .verdict (.reject ⟨.age, "Ünder\\"⟩)
  exact ⟨hwrites, (hrecord.2 _ hwrites).1, (hverdict.2 _ hverdict.1).2⟩

end ReleaseWarden
