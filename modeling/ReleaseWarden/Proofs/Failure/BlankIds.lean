import Mathlib.Data.List.Perm.Basic
import ReleaseWarden.Proofs.Failure.Calls
import ReleaseWarden.Proofs.Failure.Announcements
import ReleaseWarden.Proofs.History.Failures

/-! Announcements and the download ids they are asked for. An announcement bears the download id of
its grabs, so that its records are found under it later on. A blank download id is borne by none:
grabs that were recorded under one are found by it all the same and are announced as one download,
whatever they have to do with each other. -/

set_option autoImplicit false

namespace ReleaseWarden

open Text

/-- Announced as the failure of a download with that id, whether the client reports the failure or
a user declares it. -/
inductive AnnouncedFor (history : Lookup) (d : String) (e : FailureEvent) : Prop
  | reported {desk : Desk} {publisher : Publisher} :
      desk.tracked.item.downloadId = d →
      (desk.processFailed history publisher).2.sent = desk.sent ++ [e] →
      AnnouncedFor history d e
  | declared {publisher : Publisher} {skipRedownload : Bool} {sent : List FailureEvent} :
      (markByDownload history publisher d skipRedownload sent).2 = sent ++ [e] →
      AnnouncedFor history d e

/-- Wherever the failure is recorded, one record for each album is found under the download id,
beside those that are found there already. -/
def FailureEvent.FoundUnder (e : FailureEvent) (d : String) : Prop :=
  ∀ (s t : Store) (clock : Clock) (ids : List Int64) (old : List HistoryRecord),
    s.recordFailure clock e = (.ok ids, t) → s.find d .downloadFailed = .ok old →
    ∃ found new, t.find d .downloadFailed = .ok found ∧ found.Perm (old ++ new) ∧
      new.map HistoryRecord.id = ids ∧ new.map HistoryRecord.albumId = e.albumIds ∧
      ∀ r ∈ new, r.TellsFailure e

/-- Failures go by their download id, and a blank one is none: nothing was grabbed under it. -/
structure Store.GoesById (s : Store) (d : String) : Prop where
  bears : ∀ e, AnnouncedFor s.lookup d e → e.downloadId = some d ∧ e.FoundUnder d
  silent : blank d = true → ∀ e, ¬ AnnouncedFor s.lookup d e
  warned : blank d = true → ∀ desk : Desk, desk.tracked.item.downloadId = d →
    desk.tracked.state = .downloading → desk.tracked.item.reportsFailure = true →
    desk.check s.lookup = (.ok (), { desk with tracked := desk.tracked.warn notGrabbedWarning })

namespace FailureEvent

variable {e : FailureEvent} {records : List HistoryRecord} {message : String}
  {skipRedownload : Bool}

theorem exists_mem_of_ofRecords? (h : ofRecords? records message skipRedownload = some e) :
    ∃ r ∈ records, e.TellsOf r := by
  have hne : records ≠ [] := by
    rintro rfl
    cases h
  obtain ⟨e', he', htells, _⟩ := exists_ofRecords?_of_ne_nil hne message skipRedownload
  cases h.symm.trans he'
  exact htells

end FailureEvent

variable {history : Lookup} {d : String} {e : FailureEvent}

theorem announceManually_announces {publisher : Publisher} {skipRedownload : Bool}
    {records : Except HistoryError (List HistoryRecord)} {sent : List FailureEvent}
    (h : (announceManually publisher skipRedownload records sent).2 = sent ++ [e]) :
    ∃ rs, records = .ok rs ∧ FailureEvent.ofRecords? rs manualMessage skipRedownload = some e := by
  have hnot : sent ≠ sent ++ [e] := by simp
  cases records with
  | error cause => exact absurd h hnot
  | ok rs =>
    cases he : FailureEvent.ofRecords? rs manualMessage skipRedownload with
    | none =>
      simp only [announceManually, he] at h
      exact absurd h hnot
    | some event =>
      rcases publisher.publish_cases sent event with ⟨hpublish, _⟩ | ⟨_, hpublish, _⟩
      · simp only [announceManually, he, hpublish] at h
        have hevent : [event] = [e] := List.append_cancel_left h
        exact ⟨rs, rfl, he.trans (congrArg some (List.cons.inj hevent).1)⟩
      · simp only [announceManually, he, hpublish] at h
        exact absurd h hnot

theorem exists_grab_of_announcedFor (h : AnnouncedFor history d e) :
    ∃ found, history.findGrabbed d = .ok found ∧ ∃ r ∈ found, e.TellsOf r := by
  cases h with
  | @reported desk publisher hid hsent =>
    subst hid
    have hnot : desk.sent ≠ desk.sent ++ [e] := by simp
    have heffect := desk.effect_processFailed history publisher
    generalize desk.processFailed history publisher = outcome at heffect hsent
    cases heffect with
    | nothingNoted => exact absurd hsent hnot
    | processBroken => exact absurd hsent hnot
    | vanished => exact absurd hsent hnot
    | refused => exact absurd hsent hnot
    | announced _ hfind hevent =>
      obtain rfl := (List.cons.inj (List.append_cancel_left hsent)).1
      exact ⟨_, hfind, FailureEvent.exists_mem_of_ofRecords? hevent⟩
  | declared hsent =>
    obtain ⟨records, hrecords, he⟩ := announceManually_announces hsent
    cases hfind : history.findGrabbed d with
    | error cause =>
      rw [hfind] at hrecords
      cases hrecords
    | ok found =>
      rw [hfind] at hrecords
      cases hrecords
      obtain ⟨r, hr, htells⟩ := FailureEvent.exists_mem_of_ofRecords? he
      exact ⟨found, rfl, r, (distinctBy_sublist found).subset hr, htells⟩

namespace Store

variable {s t : Store} {clock : Clock} {ids : List Int64}

theorem downloadId_of_announcedFor (h : AnnouncedFor s.lookup d e) :
    e.downloadId = if blank d = true then none else some d := by
  obtain ⟨found, hfind, r, hr, htells⟩ := exists_grab_of_announcedFor h
  obtain ⟨_, _, _, hid, _⟩ := (mem_find_iff hfind).mp hr
  rw [htells.downloadId, HistoryRecord.groupId?, hid]
  by_cases hblank : blank d = true
  · simp [hblank]
  · simp [hblank]

theorem not_announcedFor_of_find_nil (h : s.find d .grabbed = .ok []) :
    ¬ AnnouncedFor s.lookup d e := by
  intro he
  obtain ⟨found, hfind, r, hr, _⟩ := exists_grab_of_announcedFor he
  cases h.symm.trans hfind
  cases hr

theorem rowsFor_recordFailure (h : s.recordFailure clock e = (.ok ids, t))
    (hd : e.downloadId = some d) : (t.rowsFor d .downloadFailed).Perm
      (s.rowsFor d .downloadFailed ++ batchRows clock ids (failureRecords e)) := by
  obtain ⟨_, _, rfl, _⟩ := insertAll_eq_ok h
  have hall : (batchRows clock ids (failureRecords e)).filter (fun r =>
      r.downloadId == some d && r.event == Vocabulary.word HistoryEvent.downloadFailed) =
        batchRows clock ids (failureRecords e) := by
    apply List.filter_eq_self.mpr
    intro row hrow
    obtain ⟨_, _, _, _, r, hr, rfl⟩ := mem_batchRows hrow
    obtain ⟨_, _, rfl⟩ := List.mem_map.mp hr
    simp [Row.ofNew, hd]
  have hsorted := List.mergeSort_perm ((s.added clock ids (failureRecords e)).rows.filter fun r =>
    r.downloadId == some d && r.event == Vocabulary.word HistoryEvent.downloadFailed)
      Row.newerFirst
  apply hsorted.trans
  rw [added, List.filter_append, hall]
  exact (List.mergeSort_perm _ _).symm.append_right _

theorem foundUnder_of_downloadId (hd : e.downloadId = some d) : e.FoundUnder d := by
  intro s t clock ids old hrecord hold
  obtain ⟨hlength, _, ht, _⟩ := insertAll_eq_ok hrecord
  obtain ⟨hread, hrecords⟩ := find_eq_ok_iff.mp hold
  have hperm := (rowsFor_recordFailure hrecord hd).map Row.record
  rw [List.map_append, hrecords, map_record_batchRows, ← List.map_append] at hperm
  have hall : ∀ row ∈ t.rowsFor d .downloadFailed, ∃ r, row.record = .ok r := by
    intro row hrow
    obtain ⟨r, _, hr⟩ := List.mem_map.mp (hperm.subset (List.mem_map_of_mem hrow))
    exact ⟨r, hr.symm⟩
  obtain ⟨found, hfound⟩ := exists_map_eq_ok hall
  rw [hfound] at hperm
  have hread' : t.readFault? = none := ht ▸ hread
  refine ⟨found, batchRecords clock ids (failureRecords e), find_eq_ok_iff.mpr ⟨hread', hfound⟩,
    (List.map_perm_map_iff fun _ _ => Except.ok.inj).mp hperm, map_id_batchRecords clock hlength,
    ?_, ?_⟩
  · rw [map_albumId_batchRecords clock hlength]
    exact (Write.failure clock e).map_albumId_newRecords
  · intro r hr
    obtain ⟨n, hn, id, date, rfl⟩ := exists_stored_of_mem hr
    exact tellsFailure_stored hn id date

theorem find_recordFailure_of_none (h : s.recordFailure clock e = (.ok ids, t))
    (hd : e.downloadId = none) : t.find d .downloadFailed = s.find d .downloadFailed := by
  have hnone : ∀ r ∈ (Write.failure clock e).newRecords, r.downloadId = none := by
    intro r hr
    obtain ⟨_, _, rfl⟩ := List.mem_map.mp hr
    exact hd
  have hgrows := grows_run hnone s
  have hrun : ((Write.failure clock e).run s).2 = t := congrArg Prod.snd h
  rw [hrun] at hgrows
  exact hgrows.find_eq fun r hr heq => nomatch hr.symm.trans heq.1

theorem check_warns_iff {desk : Desk} (hid : desk.tracked.item.downloadId = d)
    (hs : desk.tracked.state = .downloading) (hr : desk.tracked.item.reportsFailure = true) :
    desk.check s.lookup =
        (.ok (), { desk with tracked := desk.tracked.warn notGrabbedWarning }) ↔
      s.find d .grabbed = .ok [] := by
  subst hid
  constructor
  · intro h
    have heffect := desk.effect_check s.lookup
    generalize desk.check s.lookup = outcome at heffect h
    cases heffect with
    | nothingReported hnot => exact absurd ⟨hs, hr⟩ hnot
    | checkBroken => cases h
    | warned _ _ hfind => exact hfind
    | noted =>
      have hstate : DownloadState.failedPending = desk.tracked.state :=
        congrArg (fun o => o.2.tracked.state) h
      exact absurd (hstate.trans hs) nofun
  · intro h
    have hfind : s.lookup.findGrabbed desk.tracked.item.downloadId = .ok [] := h
    rw [Desk.check, if_pos ⟨hs, hr⟩, hfind]

/-- Failures go by their download id exactly where it is not blank or nothing was grabbed under it.
Else what is found under it is announced without a download id, and its records are not found. -/
theorem goesById_iff (s : Store) (d : String) :
    (s.GoesById d ↔ blank d = false ∨ s.find d .grabbed = .ok []) ∧
      ∀ e, AnnouncedFor s.lookup d e → blank d = true → e.downloadId = none ∧
        ∀ (u t : Store) (clock : Clock) (ids : List Int64),
          u.recordFailure clock e = (.ok ids, t) →
          t.find d .downloadFailed = u.find d .downloadFailed := by
  constructor
  · constructor
    · intro h
      cases hblank : blank d with
      | false => exact .inl rfl
      | true =>
        let item : ClientItem := { downloadId := d, title := "", status := .failed }
        have hwarned := h.warned hblank ⟨.start item, []⟩ rfl rfl rfl
        exact .inr ((check_warns_iff rfl rfl rfl).mp hwarned)
    · rintro (hblank | hnone)
      · have hnot : ¬ blank d = true := by simp [hblank]
        refine ⟨?_, fun h => absurd h hnot, fun h => absurd h hnot⟩
        intro e he
        have hd : e.downloadId = some d := by rw [downloadId_of_announcedFor he, if_neg hnot]
        exact ⟨hd, foundUnder_of_downloadId hd⟩
      · refine ⟨?_, fun _ e => not_announcedFor_of_find_nil hnone, ?_⟩
        · exact fun e he => absurd he (not_announcedFor_of_find_nil hnone)
        · exact fun _ desk hid hs hr => (check_warns_iff hid hs hr).mpr hnone
  · intro e he hblank
    have hd : e.downloadId = none := by rw [downloadId_of_announcedFor he, if_pos hblank]
    exact ⟨hd, fun u t clock ids hrecord => find_recordFailure_of_none hrecord hd⟩

end Store

def spaceGrab (artistId albumId : Int64) : NewRecord where
  artistId
  albumId
  sourceTitle := "Artist - Album"
  grade := ⟨⟨13, "FLAC"⟩, {}⟩
  event := .grabbed
  downloadId := some " "

/-- Two artists, and nothing else in common. -/
def spaceGrabs : Store :=
  Store.added {} "2024-05-01T08:00:00Z" [1, 2] [spaceGrab 7 1, spaceGrab 8 2]

/-- The album of the second artist is announced as one of the first, under no download id. -/
theorem space_announces_strangers : ¬ spaceGrabs.GoesById " " ∧
    (spaceGrabs.rows.map fun row => (row.artistId, row.albumId)) = [(7, 1), (8, 2)] ∧
    ∃ e, AnnouncedFor spaceGrabs.lookup " " e ∧ e.artistId = 7 ∧ e.albumIds = [1, 2] ∧
      e.downloadId = none := by
  have hempty : Store.Lacks {} " " .grabbed := fun _ hrow => nomatch hrow
  have hids : CountUp (Store.lastId {}) [1, 2] := ⟨rfl, rfl, trivial⟩
  have hsteady : Clock.IsSteady "2024-05-01T08:00:00Z" 2 := fun _ _ _ _ => String.le_refl _
  have hspaces : ∀ r ∈ [spaceGrab 7 1, spaceGrab 8 2],
      r.downloadId = some " " ∧ r.event = .grabbed := by decide
  have hfind : spaceGrabs.lookup.findGrabbed " " = .ok
      [(spaceGrab 8 2).stored 2 "2024-05-01T08:00:00Z",
        (spaceGrab 7 1).stored 1 "2024-05-01T08:00:00Z"] :=
    Store.find_added hempty hsteady hids hspaces (.refl spaceGrabs) rfl
  obtain ⟨e, he, hevent⟩ : ∃ e,
      (markByDownload spaceGrabs.lookup .listening " " false []).2 = [e] ∧
        e.artistId = 7 ∧ e.albumIds = [1, 2] ∧ e.downloadId = none := by
    rw [markByDownload, hfind]
    exact ⟨_, rfl, by decide⟩
  have hannounced : AnnouncedFor spaceGrabs.lookup " " e := .declared he
  exact ⟨fun h => h.silent (by decide) e hannounced, rfl, e, hannounced, hevent⟩

end ReleaseWarden
