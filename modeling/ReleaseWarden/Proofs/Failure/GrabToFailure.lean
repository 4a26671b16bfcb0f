import ReleaseWarden.Failure.Supervision
import ReleaseWarden.Proofs.Failure.Announcements
import ReleaseWarden.Proofs.History.Grabs

/-! From the grab to the announcement of its failure. Whatever else is recorded in between, all that
was known when the release was sent to the client is announced when the client reports a failure,
and a search for all its albums is asked for. -/

set_option autoImplicit false

namespace ReleaseWarden

open Text

namespace FailureEvent

/-- The announcement tells all that was known of the grab. -/
structure TellsGrab (e : FailureEvent) (c : Candidate) (d client : String)
    (source : ReleaseSource) (ids : List Int64) : Prop where
  artistId : e.artistId = c.artistId
  increasing : e.albumIds.Pairwise fun a b => a.toInt < b.toInt
  albumIds : ∀ n, n ∈ e.albumIds ↔ n ∈ c.albumIds
  historyIds : e.historyIds = ids.reverse
  grade : e.grade = c.grade
  sourceTitle : e.sourceTitle = c.release.title
  downloadClient : e.downloadClient = some client
  downloadId : e.downloadId = some d
  releaseSource : e.releaseSource = source
  data : e.data.entries = [("downloadClient", client), ("indexer", c.release.indexer),
    ("releaseSource", Vocabulary.word source)]
  skipRedownload : e.skipRedownload = false

theorem replacement?_of_tellsGrab {e : FailureEvent} {c : Candidate} {d client : String}
    {source : ReleaseSource} {ids : List Int64} (h : e.TellsGrab c d client source ids)
    (hc : c.albumIds ≠ []) :
    e.replacement? true = some ⟨c.artistId, e.albumIds, c.release.title⟩ := by
  obtain ⟨n, hn⟩ := List.exists_mem_of_ne_nil _ hc
  have hne : e.albumIds ≠ [] := List.ne_nil_of_mem ((h.albumIds n).mpr hn)
  simp [replacement?, h.skipRedownload, h.artistId, h.sourceTitle, hne]

end FailureEvent

theorem ofRecords?_grab {c : Candidate} {d : String} {last : Int64} {ids : List Int64}
    (hd : blank d = false) (hc : c.albumIds ≠ []) (hids : CountUp last ids)
    (hlength : ids.length = c.albumIds.length) (clock : Clock) (client : String)
    (source : ReleaseSource) (message : String) :
    ∃ e, FailureEvent.ofRecords?
        (Store.batchRecords clock ids (Store.grabRecords c d client source)).reverse message false =
          some e ∧
      e.TellsGrab c d client source ids ∧ e.message = message := by
  have hlength' : ids.length = (Store.grabRecords c d client source).length := by
    rw [hlength, Store.grabRecords, List.length_map]
  have halbums : (Store.batchRecords clock ids (Store.grabRecords c d client source)).map
      HistoryRecord.albumId = c.albumIds :=
    (Store.map_albumId_batchRecords clock hlength').trans
      (Write.grab clock c d client source).map_albumId_newRecords
  have hnumbers := Store.map_id_batchRecords clock hlength'
  have hfirst : ∃ first more, Store.batchRecords clock ids (Store.grabRecords c d client source) =
      first :: more := by
    apply List.exists_cons_of_ne_nil
    intro hnil
    rw [hnil] at halbums
    exact hc halbums.symm
  obtain ⟨first, more, hrecords⟩ := hfirst
  rw [hrecords] at halbums hnumbers ⊢
  obtain ⟨r, hr, id, date, rfl⟩ := Store.exists_stored_of_mem (hrecords ▸ List.mem_cons_self)
  have hgrab := Store.tellsGrab_stored hr id date
  rw [List.reverse_cons]
  obtain ⟨e, he, htells, hrests⟩ :=
    FailureEvent.ofRecords?_append more.reverse (r.stored id date) message false
  rw [← List.reverse_cons] at hrests
  refine ⟨e, he, ?_, hrests.message⟩
  constructor
  case artistId => exact htells.artistId.trans hgrab.artistId
  case increasing =>
    rw [hrests.albumIds]
    exact increasing_pairwise _
  case albumIds =>
    intro n
    rw [hrests.albumIds, mem_increasing, List.map_reverse, List.mem_reverse, halbums]
  case historyIds =>
    rw [hrests.historyIds, List.map_reverse, hnumbers]
    apply distinctBy_eq_self
    apply List.pairwise_reverse.mpr
    apply hids.pairwise.imp
    intro a b hlt heq
    have hba : b = a := heq
    rw [hba] at hlt
    exact Int.lt_irrefl _ hlt
  case grade => exact htells.grade.trans hgrab.grade
  case sourceTitle => exact htells.sourceTitle.trans hgrab.sourceTitle
  case downloadClient => exact htells.downloadClient.trans hgrab.downloadClient?
  case downloadId =>
    exact htells.downloadId.trans (HistoryRecord.groupId?_eq_some_iff.mpr ⟨hgrab.downloadId, hd⟩)
  case releaseSource => exact htells.releaseSource.trans hgrab.releaseSource
  case data => rw [htells.data, hgrab.data]
  case skipRedownload => exact hrests.skipRedownload

namespace Desk

variable {history : Lookup} {item : ClientItem} {found : List HistoryRecord} {e : FailureEvent}

theorem check_fresh (hfails : item.reportsFailure = true)
    (hfind : history.findGrabbed item.downloadId = .ok found) (hne : found ≠ []) :
    check history ⟨.start item, []⟩ = (.ok (), ⟨⟨item, .failedPending, .ok, []⟩, []⟩) := by
  obtain ⟨r, rs, rfl⟩ := List.exists_cons_of_ne_nil hne
  have hguard : (Tracked.start item).state = .downloading ∧
      (Tracked.start item).item.reportsFailure = true := ⟨rfl, hfails⟩
  have hfind' : history.findGrabbed (Tracked.start item).item.downloadId = .ok (r :: rs) := hfind
  rw [check, if_pos hguard, hfind']
  rfl

theorem processFailed_noted (hfind : history.findGrabbed item.downloadId = .ok found)
    (he : FailureEvent.ofRecords? found item.failureMessage false = some e) :
    processFailed history .listening ⟨⟨item, .failedPending, .ok, []⟩, []⟩ =
      (.ok (), ⟨⟨item, .failed, .ok, []⟩, [e]⟩) := by
  simp only [processFailed, if_true, hfind, he, Publisher.publish, List.nil_append]

end Desk

/-- Once a grab with albums is recorded and the client reports a failure, the failure is noted and
then announced with all that was known of the grab, whatever was recorded of other downloads. -/
theorem announces_grab {s : Store} {clock : Clock} {c : Candidate} {d client : String}
    {source : ReleaseSource} {ids : List Int64} {ws : List Write} {item : ClientItem}
    (hs : s.Lacks d .grabbed) (hd : blank d = false) (hc : c.albumIds ≠ [])
    (hclock : clock.IsSteady c.albumIds.length)
    (hgrab : (s.recordGrab clock c d client source).1 = .ok ids)
    (hws : ∀ w ∈ ws, ∀ r ∈ w.newRecords, r.downloadId ≠ some d)
    (hitem : item.downloadId = d) (hfails : item.reportsFailure = true) :
    ∃ history e,
      history = ((s.recordGrab clock c d client source).2.after ws).lookup ∧
      Desk.check history ⟨.start item, []⟩ = (.ok (), ⟨⟨item, .failedPending, .ok, []⟩, []⟩) ∧
      Desk.processFailed history .listening ⟨⟨item, .failedPending, .ok, []⟩, []⟩ =
        (.ok (), ⟨⟨item, .failed, .ok, []⟩, [e]⟩) ∧
      e.TellsGrab c d client source ids ∧
      e.message = item.failureMessage ∧
      e.replacement? true = some ⟨c.artistId, e.albumIds, c.release.title⟩ := by
  have hlength : (Store.grabRecords c d client source).length = c.albumIds.length :=
    List.length_map _
  have hrecord : s.insertAll clock (Store.grabRecords c d client source) =
      (.ok ids, (s.recordGrab clock c d client source).2) := Prod.ext hgrab rfl
  obtain ⟨hids, hcount, hadded, hwrite⟩ := Store.insertAll_eq_ok hrecord
  have hread : s.readFault? = none := by
    apply Store.readFault?_of_writeFault? (hwrite _)
    intro hnil
    rw [hnil] at hlength
    exact hc (List.eq_nil_of_length_eq_zero hlength.symm)
  have hgrabbed : ∀ r ∈ Store.grabRecords c d client source,
      r.downloadId = some d ∧ r.event = .grabbed := fun r => Store.mem_grabRecords
  have hgrows := Store.grows_after hws (s.recordGrab clock c d client source).2
  rw [hadded] at hgrows ⊢
  have hfind := Store.find_added hs (hlength ▸ hclock) hcount hgrabbed hgrows hread
  obtain ⟨e, he, htells, hmessage⟩ := ofRecords?_grab hd hc hcount (hids.trans hlength) clock
    client source item.failureMessage
  refine ⟨_, e, rfl, ?_, ?_, htells, hmessage, FailureEvent.replacement?_of_tellsGrab htells hc⟩
  · apply Desk.check_fresh hfails
    · rw [hitem]
      exact hfind
    · intro hnil
      rw [hnil] at he
      cases he
  · exact Desk.processFailed_noted (hitem ▸ hfind) he

/-- A clock that shows one second and then the next. -/
def ticking : Clock where
  reading n := if n = 0 then "2024-05-01T08:00:00Z" else "2024-05-01T08:00:01Z"

def doubleAlbum : Candidate where
  artistId := 7
  albumIds := [5, 3]
  grade := ⟨⟨13, "FLAC"⟩, ⟨2, 1, true⟩⟩
  release := { title := "Artist - \"Live\"", indexer := "A" }

def failedItem : ClientItem where
  downloadId := "d"
  title := "Artist - Live"
  status := .failed

/-- Another download is grabbed in between. -/
theorem announces_grab_of_two_albums : ∃ history e,
    history = ((({} : Store).recordGrab ticking doubleAlbum "d" "SABnzbd" .rss).2.after
      [.grab ticking doubleAlbum "other" "NZBGet" .search]).lookup ∧
    Desk.check history ⟨.start failedItem, []⟩ =
      (.ok (), ⟨⟨failedItem, .failedPending, .ok, []⟩, []⟩) ∧
    Desk.processFailed history .listening ⟨⟨failedItem, .failedPending, .ok, []⟩, []⟩ =
      (.ok (), ⟨⟨failedItem, .failed, .ok, []⟩, [e]⟩) ∧
    e.TellsGrab doubleAlbum "d" "SABnzbd" .rss [1, 2] ∧
    e.message = failedItem.failureMessage ∧
    e.replacement? true = some ⟨7, e.albumIds, "Artist - \"Live\""⟩ := by
  have hclock : ticking.IsSteady 2 := by
    intro m n hmn hn
    have hall : ∀ n < 2, ∀ m ≤ n, ticking.reading m ≤ ticking.reading n := by decide
    exact hall n hn m hmn
  have hgrab : (({} : Store).recordGrab ticking doubleAlbum "d" "SABnzbd" .rss).1 =
      .ok [1, 2] := by rfl
  have hother : ∀ w ∈ [Write.grab ticking doubleAlbum "other" "NZBGet" .search],
      ∀ r ∈ w.newRecords, r.downloadId ≠ some "d" := by decide
  exact announces_grab nofun (by decide) (by decide) hclock hgrab hother rfl (by decide)

end ReleaseWarden
