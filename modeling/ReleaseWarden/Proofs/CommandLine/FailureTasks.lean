import ReleaseWarden.CommandLine.Run
import ReleaseWarden.Proofs.Failure.Calls
import ReleaseWarden.Proofs.Failure.ManualMarks
import ReleaseWarden.Proofs.Failure.Replacements
import ReleaseWarden.Proofs.History.Failures

/-! Commands on failures, and what they leave of a store. A command announces at most one failure
and records nothing else. As it leaves the grabs alone it can be repeated, and announces the same
each time. -/

set_option autoImplicit false

namespace ReleaseWarden

open CommandLine (Surroundings FailureTask Opening)
open Store (LogsFailures RecordsFailure)

/-- What a pass announces of a download whose grabs are found. -/
def Tracked.announcement? (t : Tracked) (grabbed : List HistoryRecord) : Option FailureEvent :=
  if t.state = .failedPending ∨ t.state = .downloading ∧ t.item.reportsFailure = true then
    FailureEvent.ofRecords? grabbed t.item.failureMessage false
  else none

namespace Desk

variable {d : Desk} {history : Lookup} {found : List HistoryRecord}

theorem processFailed_of_found (h : history.findGrabbed d.tracked.item.downloadId = .ok found) :
    ∃ f, d.processFailed history .listening = (.ok (), f) ∧
      f.sent = d.sent ++ (if d.tracked.state = .failedPending then
        FailureEvent.ofRecords? found d.tracked.item.failureMessage false else none).toList := by
  have heffect := effect_processFailed d history .listening
  generalize d.processFailed history .listening = outcome at heffect ⊢
  cases heffect with
  | nothingNoted hs => exact ⟨d, rfl, by simp [hs]⟩
  | processBroken _ hf => exact nomatch h.symm.trans hf
  | vanished _ hf =>
    cases h.symm.trans hf
    exact ⟨d, rfl, by simp [FailureEvent.ofRecords?]⟩
  | refused _ _ hp => exact absurd rfl hp
  | announced hs hf he =>
    cases h.symm.trans hf
    exact ⟨_, rfl, by simp [hs, he]⟩

theorem pass_of_found (h : history.findGrabbed d.tracked.item.downloadId = .ok found) :
    ∃ f, d.pass history .listening = (.ok (), f) ∧
      f.sent = d.sent ++ (d.tracked.announcement? found).toList := by
  have heffect := effect_check d history
  unfold pass
  generalize d.check history = outcome at heffect
  cases heffect with
  | nothingReported hnot =>
    obtain ⟨f, hprocess, hsent⟩ := processFailed_of_found h
    refine ⟨f, hprocess, ?_⟩
    rw [hsent, Tracked.announcement?]
    simp only [hnot, or_false]
  | checkBroken _ _ hf => exact nomatch h.symm.trans hf
  | warned hs _ hf =>
    cases h.symm.trans hf
    obtain ⟨f, hprocess, hsent⟩ := processFailed_of_found
      (d := { d with tracked := d.tracked.warn notGrabbedWarning }) hf
    refine ⟨f, hprocess, ?_⟩
    rw [hsent]
    simp [Tracked.announcement?, FailureEvent.ofRecords?]
  | noted hs hr hf =>
    cases h.symm.trans hf
    obtain ⟨f, hprocess, hsent⟩ := processFailed_of_found
      (d := { d with tracked := { d.tracked with state := .failedPending } }) hf
    refine ⟨f, hprocess, ?_⟩
    rw [hsent]
    simp [Tracked.announcement?, hs, hr]

end Desk

theorem announceManually_listening (skip : Bool) (found : List HistoryRecord)
    (sent : List FailureEvent) :
    ∃ answer, announceManually .listening skip (.ok found) sent =
      (.ok answer, sent ++ (FailureEvent.ofRecords? found manualMessage skip).toList) := by
  cases he : FailureEvent.ofRecords? found manualMessage skip with
  | none => exact ⟨false, by simp [announceManually, he]⟩
  | some e => exact ⟨true, announceManually_of_ofRecords? he sent⟩

theorem Lookup.recordsBehind_of_logsFailures {s t : Store} (h : LogsFailures s t) {id : Int64}
    {found : List HistoryRecord} (hfound : s.lookup.recordsBehind id = .ok found) :
    t.lookup.recordsBehind id = .ok found := by
  obtain ⟨r, hget, hrest⟩ := bind_eq_ok_iff.mp hfound
  refine bind_eq_ok_iff.mpr ⟨r, Store.Grows.get_eq_ok h hget, ?_⟩
  have hgrabs : t.lookup.findGrabbed = s.lookup.findGrabbed := funext h.find_grabbed
  rw [hgrabs]
  exact hrest

namespace Settlement

variable {further : List (String × Json)}

theorem member?_encode (s : Settlement) {name : String} (hname : name ≠ "tracked")
    (h : ∀ m ∈ further, m.1 = "tracked") :
    (Json.record (s.encode ++ further)).member? name = (Json.record s.encode).member? name :=
  Json.member?_record_append fun m hm heq => hname (heq.symm.trans (h m hm))

theorem member?_events (s : Settlement) (h : ∀ m ∈ further, m.1 = "tracked") :
    (Json.record (s.encode ++ further)).member? "events" =
      some (.array (s.events.map FailureEvent.schema.encode)) := by
  rw [member?_encode s (by decide) h]
  rfl

theorem member?_searches (s : Settlement) (h : ∀ m ∈ further, m.1 = "tracked") :
    (Json.record (s.encode ++ further)).member? "searches" =
      some (.array (s.searches.map SearchRequest.schema.encode)) := by
  rw [member?_encode s (by decide) h]
  rfl

end Settlement

namespace CommandLine

variable {task : FailureTask} {history : Lookup} {found : List HistoryRecord} {s t : Store}
  {e : FailureEvent} {w : Surroundings} {config : FileConfig}

namespace FailureTask

def records (history : Lookup) : FailureTask → Except HistoryError (List HistoryRecord)
  | check tracked => history.findGrabbed tracked.item.downloadId
  | mark (.history id) _ => history.recordsBehind id
  | mark (.download id) _ => (history.findGrabbed id).map (distinctBy HistoryRecord.id)

def announcement? (found : List HistoryRecord) : FailureTask → Option FailureEvent
  | check tracked => tracked.announcement? found
  | mark _ skipRedownload => FailureEvent.ofRecords? found manualMessage skipRedownload

theorem supervise_of_records (h : task.records history = .ok found) :
    ∃ further, task.supervise history = (.ok further, (task.announcement? found).toList) ∧
      ∀ m ∈ further, m.1 = "tracked" := by
  cases task with
  | check tracked =>
    obtain ⟨f, hpass, hsent⟩ := Desk.pass_of_found (d := { tracked }) h
    refine ⟨[("tracked", Tracked.schema.encode f.tracked)], ?_, List.forall_mem_singleton.mpr rfl⟩
    rw [supervise, hpass]
    exact congrArg (Prod.mk _) hsent
  | mark target skip =>
    obtain ⟨answer, hmark⟩ := announceManually_listening skip found []
    refine ⟨[], ?_, nofun⟩
    cases target with
    | history id =>
      have h : history.recordsBehind id = .ok found := h
      simp only [supervise, markByRecord, h, hmark]
      rfl
    | download id =>
      have h : (history.findGrabbed id).map (distinctBy HistoryRecord.id) = .ok found := h
      simp only [supervise, markByDownload, h, hmark]
      rfl

theorem records_of_logsFailures (h : LogsFailures s t)
    (hfound : task.records s.lookup = .ok found) : task.records t.lookup = .ok found := by
  cases task with
  | check tracked => exact (h.find_grabbed _).trans hfound
  | mark target skip =>
    cases target with
    | history id => exact Lookup.recordsBehind_of_logsFailures h hfound
    | download id =>
      have hgrabs : t.lookup.findGrabbed id = s.lookup.findGrabbed id := h.find_grabbed id
      rw [records, hgrabs]
      exact hfound

theorem albumIds_of_announcement? (h : task.announcement? found = some e) :
    (e.albumIds.Pairwise fun a b => a.toInt < b.toInt) ∧
      ∀ n, n ∈ e.albumIds ↔ ∃ r ∈ found, r.albumId = n := by
  have hbuilt : ∃ message skip, FailureEvent.ofRecords? found message skip = some e := by
    cases task with
    | check tracked =>
      rw [announcement?, Tracked.announcement?] at h
      split at h
      · exact ⟨_, _, h⟩
      · cases h
    | mark target skip => exact ⟨_, _, h⟩
  obtain ⟨message, skip, hbuilt⟩ := hbuilt
  obtain ⟨grab, _, rfl⟩ := Option.map_eq_some_iff.mp hbuilt
  refine ⟨increasing_pairwise _, fun n => ?_⟩
  rw [mem_increasing, List.mem_map]

theorem logsFailures_run (w : Surroundings) (config : FileConfig) (task : FailureTask)
    (s : Store) : LogsFailures s (task.run w config s).2.2 := by
  unfold run
  split
  · exact .refl s
  · rename_i further sent _
    have hsettle := Settlement.logsFailures_settle config.autoRedownload w.now sent s
    unfold conclude
    generalize Settlement.settle config.autoRedownload w.now sent s = outcome at hsettle ⊢
    obtain ⟨answer, t⟩ := outcome
    cases answer with
    | error cause => exact hsettle
    | ok settlement => exact hsettle

end FailureTask

structure TaskRun where
  surroundings : Surroundings
  config : FileConfig
  task : FailureTask

/-- What runs of tasks leave of a store, those that break off included. -/
def TaskRun.leave (s : Store) (runs : List TaskRun) : Store :=
  runs.foldl (fun s r => (r.task.run r.surroundings r.config s).2.2) s

theorem TaskRun.logsFailures_leave (s : Store) (runs : List TaskRun) :
    LogsFailures s (leave s runs) := by
  induction runs generalizing s with
  | nil => exact .refl s
  | cons r runs ih =>
    exact (FailureTask.logsFailures_run r.surroundings r.config r.task s).trans (ih _)

/-- What a task that rests on these records answers, and what it leaves of the store. -/
structure Frames (found : List HistoryRecord) (autoRedownload : Bool) (s : Store)
    (settlement : Settlement) (t : Store) : Prop where
  atMostOne : settlement.events.length ≤ 1
  silent : settlement.events = [] → settlement.searches = [] ∧ t = s
  searches : ∀ e ∈ settlement.events,
    settlement.searches = if e.IsWanted autoRedownload then [e.request] else []
  records : ∀ e ∈ settlement.events, RecordsFailure s e t
  albumIds : ∀ e ∈ settlement.events, (e.albumIds.Pairwise fun a b => a.toInt < b.toInt) ∧
    ∀ n, n ∈ e.albumIds ↔ ∃ r ∈ found, r.albumId = n
  grabs : ∀ d, t.find d .grabbed = s.find d .grabbed

namespace FailureTask

theorem run_of_records (hfound : task.records s.lookup = .ok found)
    (hwrites : ∀ e, task.announcement? found = some e →
      ∃ ids t, s.recordFailure w.now e = (.ok ids, t)) :
    ∃ further settlement t,
      task.supervise s.lookup = (.ok further, settlement.events) ∧
      (∀ m ∈ further, m.1 = "tracked") ∧
      task.run w config s = (.done, some (Json.record (settlement.encode ++ further)), t) ∧
      settlement.events = (task.announcement? found).toList ∧
      Frames found config.autoRedownload s settlement t := by
  obtain ⟨further, hsupervise, hnames⟩ := supervise_of_records hfound
  have hlogs := logsFailures_run w config task s
  cases he : task.announcement? found with
  | none =>
    rw [he, Option.toList_none] at hsupervise
    have hrun : task.run w config s =
        (.done, some (Json.record (({} : Settlement).encode ++ further)), s) := by
      rw [run, hsupervise]
      rfl
    refine ⟨further, {}, s, hsupervise, hnames, hrun, rfl, ?_⟩
    exact ⟨Nat.zero_le 1, fun _ => ⟨rfl, rfl⟩, nofun, nofun, nofun, fun _ => rfl⟩
  | some e =>
    obtain ⟨ids, t, hwrite⟩ := hwrites e he
    rw [he, Option.toList_some] at hsupervise
    have hrun : task.run w config s = (.done, some (Json.record
        ((Settlement.mk [e] (e.replacement? config.autoRedownload).toList).encode ++ further)),
          t) := by
      rw [run, hsupervise]
      dsimp only
      rw [conclude, Settlement.settle_one hwrite]
    rw [hrun] at hlogs
    refine ⟨further, _, t, hsupervise, hnames, hrun, rfl, ?_⟩
    constructor
    case atMostOne => exact Nat.le_refl 1
    case silent => exact nofun
    case searches =>
      intro e' he'
      obtain rfl := List.mem_singleton.mp he'
      exact FailureEvent.toList_replacement? config.autoRedownload e'
    case records => exact List.forall_mem_singleton.mpr (Store.recordsFailure hwrite)
    case albumIds =>
      intro e' he'
      obtain rfl := List.mem_singleton.mp he'
      exact albumIds_of_announcement? he
    case grabs => exact hlogs.find_grabbed

def nextDay : Surroundings where
  environment _ := none
  place _ := .nowhere
  now := "2024-05-03T08:00:00Z"

def markBoth : FailureTask := .mark (.download "d") false

/-- The announcement of both grabs, with the details of the first one. -/
def bothFailed : FailureEvent where
  artistId := 7
  albumIds := [1, 2]
  historyIds := [2, 1]
  grade := firstGrab.grade
  sourceTitle := "First"
  downloadClient := none
  downloadId := some "d"
  message := manualMessage
  releaseSource := .unknown
  data := firstGrab.data
  skipRedownload := false

def markedOnce : Store := (regrabbed.recordFailure nextDay.now bothFailed).2

theorem announcement?_markBoth :
    markBoth.announcement? [laterGrab, earlierGrab] = some bothFailed := by rfl

theorem records_markBoth :
    markBoth.records regrabbed.lookup = .ok [laterGrab, earlierGrab] := by
  have hfind : regrabbed.lookup.findGrabbed "d" = .ok [laterGrab, earlierGrab] := find_regrabbed
  rw [markBoth, records, hfind]
  rfl

theorem leave_markBoth : TaskRun.leave regrabbed [⟨nextDay, {}, markBoth⟩] = markedOnce := by
  obtain ⟨further, hsupervise, _⟩ := supervise_of_records records_markBoth
  have hwrite : regrabbed.recordFailure nextDay.now bothFailed = (.ok [3, 4], markedOnce) := by rfl
  rw [announcement?_markBoth, Option.toList_some] at hsupervise
  simp only [TaskRun.leave, List.foldl_cons, List.foldl_nil, run, hsupervise, conclude,
    Settlement.settle_one hwrite]

end FailureTask

end CommandLine

end ReleaseWarden
