import ReleaseWarden.History.Store
import ReleaseWarden.Proofs.Json.RoundTrip
import ReleaseWarden.Proofs.Outcome
import ReleaseWarden.Proofs.Schema.Spelling

/-! What is kept of a new record. Its row reads back as the same record, with the id and the date
that it was given. -/

set_option autoImplicit false

namespace ReleaseWarden

open Text Schema

theorem HistoryEvent.ofText_word (event : HistoryEvent) :
    HistoryEvent.ofText (Vocabulary.word event) = .ok event := by
  simp [HistoryEvent.ofText]

namespace NewRecord

def stored (r : NewRecord) (id : Int64) (date : String) : HistoryRecord where
  id
  artistId := r.artistId
  albumId := r.albumId
  sourceTitle := r.sourceTitle
  grade := r.grade
  event := r.event
  downloadId := r.downloadId
  data := r.data
  date

end NewRecord

namespace Row

theorem readData?_writeData (t : Table) : readData? (writeData t) = some t := by
  rw [readData?, writeData, Json.parse_render]
  exact decode_table_of_perm (.refl t.entries)

theorem narrow_toInt64 (n : Int32) : narrow n.toInt64 = .ok n := by
  have h : Bounded.ofInt? Int32 n.toInt64.toInt = some n := by
    rw [Int32.toInt_toInt64]
    exact Bounded.ofInt?_toInt n
  rw [narrow, h]

variable (id : Int64) (date : String) (r : NewRecord)

theorem grade_ofNew : (ofNew id date r).grade = .ok r.grade := by
  have hrepack : ((ofNew id date r).revisionIsRepack != 0) = r.grade.revision.isRepack := by
    rw [ofNew]
    cases r.grade.revision.isRepack <;> rfl
  unfold grade
  rw [hrepack]
  simp only [ofNew, narrow_toInt64, bind, Except.bind, pure, Except.pure]

theorem record_ofNew : (ofNew id date r).record = .ok (r.stored id date) := by
  have hevent : HistoryEvent.ofText (ofNew id date r).event = .ok r.event :=
    HistoryEvent.ofText_word r.event
  have hdata : readData? (ofNew id date r).data = some r.data := readData?_writeData r.data
  unfold record
  rw [grade_ofNew]
  simp only [bind, Except.bind, toRecord, hevent, hdata]
  rfl

end Row

end ReleaseWarden
