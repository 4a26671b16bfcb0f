import ReleaseWarden.Proofs.Failure.Calls

/-! How long the warning lasts that a download was not grabbed. A check that finds no grab sets it,
a check that finds one notes the failure, and nothing ever takes it back: a download that is failed
bears the warning exactly when its grab was found late. -/

set_option autoImplicit false

namespace ReleaseWarden

namespace Call

def Finds (downloadId : String) (c : Call) : Prop :=
  ∃ history r rs, c = .check history ∧ history.findGrabbed downloadId = .ok (r :: rs)

def Misses (downloadId : String) (c : Call) : Prop :=
  ∃ history, c = .check history ∧ history.findGrabbed downloadId = .ok []

/-- One of the calls misses the grab, and none before it finds one. -/
def MissFirst (downloadId : String) (calls : List Call) : Prop :=
  ∃ early late, calls = early ++ late ∧ (∃ c ∈ early, c.Misses downloadId) ∧
    ∀ c ∈ early, ¬ c.Finds downloadId

/-- The calls miss the grab at first and find it later. -/
def FindLate (downloadId : String) (calls : List Call) : Prop :=
  ∃ early late, calls = early ++ late ∧ (∃ c ∈ early, c.Misses downloadId) ∧
    (∀ c ∈ early, ¬ c.Finds downloadId) ∧ ∃ c ∈ late, c.Finds downloadId

variable {downloadId : String} {c : Call} {calls : List Call}

theorem Misses.not_finds (h : c.Misses downloadId) : ¬ c.Finds downloadId := by
  rintro ⟨history, r, rs, rfl, hfound⟩
  obtain ⟨history', heq, hnone⟩ := h
  cases heq
  cases hnone.symm.trans hfound

theorem exists_finds_cons (h : ¬ c.Finds downloadId) :
    (∃ b ∈ c :: calls, b.Finds downloadId) ↔ ∃ b ∈ calls, b.Finds downloadId := by
  simp [h]

theorem findLate_iff : FindLate downloadId calls ↔
    MissFirst downloadId calls ∧ ∃ c ∈ calls, c.Finds downloadId := by
  constructor
  · rintro ⟨early, late, rfl, hmissed, hnone, c, hc, hfound⟩
    exact ⟨⟨early, late, rfl, hmissed, hnone⟩, c, List.mem_append_right early hc, hfound⟩
  · rintro ⟨⟨early, late, rfl, hmissed, hnone⟩, c, hc, hfound⟩
    refine ⟨early, late, rfl, hmissed, hnone, c, ?_, hfound⟩
    exact (List.mem_append.mp hc).resolve_left fun hearly => hnone c hearly hfound

theorem not_missFirst_nil : ¬ MissFirst downloadId [] := by
  rintro ⟨early, late, heq, ⟨c, hc, _⟩, _⟩
  rw [(List.append_eq_nil_iff.mp heq.symm).1] at hc
  cases hc

theorem missFirst_of_misses (h : c.Misses downloadId) : MissFirst downloadId (c :: calls) :=
  ⟨[c], calls, rfl, ⟨c, List.mem_singleton_self c, h⟩,
    List.forall_mem_singleton.mpr h.not_finds⟩

theorem missFirst_cons (h : ¬ c.Misses downloadId) : MissFirst downloadId (c :: calls) ↔
    ¬ c.Finds downloadId ∧ MissFirst downloadId calls := by
  constructor
  · rintro ⟨early, late, heq, ⟨b, hb, hmissed⟩, hnone⟩
    cases early with
    | nil => cases hb
    | cons a early =>
      obtain ⟨rfl, rfl⟩ := List.cons.inj heq
      obtain ⟨hfirst, hrest⟩ := List.forall_mem_cons.mp hnone
      have hearly : b ∈ early := (List.mem_cons.mp hb).resolve_left fun hbc => h (hbc ▸ hmissed)
      exact ⟨hfirst, early, late, rfl, ⟨b, hearly, hmissed⟩, hrest⟩
  · rintro ⟨hfirst, early, late, rfl, ⟨b, hb, hmissed⟩, hnone⟩
    exact ⟨c :: early, late, rfl, ⟨b, List.mem_cons_of_mem c hb, hmissed⟩,
      List.forall_mem_cons.mpr ⟨hfirst, hnone⟩⟩

end Call

namespace Desk

variable {d : Desk}

theorem call_of_noted (h : d.tracked.state.isFailed = true) (c : Call) :
    (d.call c).2.tracked.state.isFailed = true ∧
      (d.call c).2.tracked.messages = d.tracked.messages := by
  have heffect := effect_call d c
  generalize d.call c = outcome at heffect
  cases heffect with
  | warned hs => rw [hs] at h; cases h
  | noted hs => rw [hs] at h; cases h
  | announced => exact ⟨rfl, rfl⟩
  | _ => exact ⟨h, rfl⟩

theorem after_of_noted (h : d.tracked.state.isFailed = true) (cs : List Call) :
    (d.after cs).tracked.state.isFailed = true ∧
      (d.after cs).tracked.messages = d.tracked.messages := by
  induction cs generalizing d with
  | nil => exact ⟨h, rfl⟩
  | cons c cs ih =>
    obtain ⟨hstate, hmessages⟩ := call_of_noted h c
    obtain ⟨hafter, hsame⟩ := ih hstate
    exact ⟨hafter, hsame.trans hmessages⟩

theorem call_of_downloading (hs : d.tracked.state = .downloading) (c : Call) :
    (d.call c).2 = d ∧ (d.tracked.item.reportsFailure = true →
        ¬ c.Finds d.tracked.item.downloadId ∧ ¬ c.Misses d.tracked.item.downloadId) ∨
      (d.call c).2 = { d with tracked := { d.tracked with state := .failedPending } } ∧
        d.tracked.item.reportsFailure = true ∧ c.Finds d.tracked.item.downloadId ∨
      (d.call c).2 = { d with tracked := d.tracked.warn notGrabbedWarning } ∧
        d.tracked.item.reportsFailure = true ∧ c.Misses d.tracked.item.downloadId := by
  have heffect := effect_call d c
  generalize d.call c = outcome at heffect
  cases heffect with
  | nothingReported hguard => exact .inl ⟨rfl, fun hr => absurd ⟨hs, hr⟩ hguard⟩
  | checkBroken _ _ hf =>
    refine .inl ⟨rfl, fun _ => ⟨?_, ?_⟩⟩
    · rintro ⟨history, r, rs, heq, hfound⟩
      cases heq
      cases hf.symm.trans hfound
    · rintro ⟨history, heq, hnone⟩
      cases heq
      cases hf.symm.trans hnone
  | warned _ hr hf => exact .inr (.inr ⟨rfl, hr, _, rfl, hf⟩)
  | noted _ hr hf => exact .inr (.inl ⟨rfl, hr, _, _, _, rfl, hf⟩)
  | nothingNoted => exact .inl ⟨rfl, fun _ => ⟨nofun, nofun⟩⟩
  | processBroken hpending => cases hs.symm.trans hpending
  | vanished hpending => cases hs.symm.trans hpending
  | refused hpending => cases hs.symm.trans hpending
  | announced hpending => cases hs.symm.trans hpending

theorem after_of_downloading (hs : d.tracked.state = .downloading) (cs : List Call) :
    ((d.after cs).tracked.state.isFailed = true ↔ d.tracked.item.reportsFailure = true ∧
        ∃ c ∈ cs, c.Finds d.tracked.item.downloadId) ∧
      (notGrabbedWarning ∈ (d.after cs).tracked.messages ↔
        notGrabbedWarning ∈ d.tracked.messages ∨ d.tracked.item.reportsFailure = true ∧
          Call.MissFirst d.tracked.item.downloadId cs) := by
  induction cs generalizing d with
  | nil =>
    rw [after, List.foldl_nil, hs]
    constructor
    · refine iff_of_false nofun ?_
      rintro ⟨_, c, hc, _⟩
      cases hc
    · exact (or_iff_left fun h => Call.not_missFirst_nil h.2).symm
  | cons c cs ih =>
    rw [after_cons]
    rcases call_of_downloading hs c with ⟨hcall, hidle⟩ | ⟨hcall, hr, hfound⟩ | ⟨hcall, hr, hmissed⟩
    · obtain ⟨hstate, hmessages⟩ := ih hs
      rw [hcall, hstate, hmessages]
      constructor
      · exact and_congr_right fun hr => (Call.exists_finds_cons (hidle hr).1).symm
      · refine or_congr_right (and_congr_right fun hr => ?_)
        rw [Call.missFirst_cons (hidle hr).2, and_iff_right (hidle hr).1]
    · -- The failure is noted here, so that the rest of the run sets no warning.
      obtain ⟨hstate, hmessages⟩ := after_of_noted (d := (d.call c).2) (by rw [hcall]; rfl) cs
      have hnot : ¬ c.Misses d.tracked.item.downloadId := fun h => h.not_finds hfound
      rw [hstate, hmessages, hcall, Call.missFirst_cons hnot]
      exact ⟨iff_of_true rfl ⟨hr, c, List.mem_cons_self, hfound⟩,
        (or_iff_left fun h => h.2.1 hfound).symm⟩
    · obtain ⟨hstate, hmessages⟩ := ih (d := (d.call c).2) (by rw [hcall]; exact hs)
      rw [hstate, hmessages, hcall]
      refine ⟨and_congr_right fun _ => (Call.exists_finds_cons hmissed.not_finds).symm, ?_⟩
      exact iff_of_true (.inl (List.mem_singleton_self _))
        (.inr ⟨hr, Call.missFirst_of_misses hmissed⟩)

/-- After every run from the start the failure is noted or announced just if the client reports it
and a check has found the grab. It is so with the warning that the download was not grabbed, and is
not failed therefore, just if an earlier check missed the grab. -/
theorem warning_outlives_cause_iff (item : ClientItem) (sent : List FailureEvent)
    (calls : List Call) :
    let d := after ⟨.start item, sent⟩ calls
    (d.tracked.state.isFailed = true ↔
        item.reportsFailure = true ∧ ∃ c ∈ calls, c.Finds item.downloadId) ∧
      (d.tracked.state.isFailed = true ∧ notGrabbedWarning ∈ d.tracked.messages ↔
        item.reportsFailure = true ∧ Call.FindLate item.downloadId calls) := by
  intro d
  have hstart : (Desk.mk (.start item) sent).tracked.state = .downloading := rfl
  obtain ⟨hstate, hmessages⟩ := after_of_downloading hstart calls
  have hfailed : d.tracked.state.isFailed = true ↔
      item.reportsFailure = true ∧ ∃ c ∈ calls, c.Finds item.downloadId := hstate
  have hwarned : notGrabbedWarning ∈ d.tracked.messages ↔
      item.reportsFailure = true ∧ Call.MissFirst item.downloadId calls :=
    hmessages.trans (or_iff_right nofun)
  refine ⟨hfailed, ?_⟩
  rw [hfailed, hwarned, Call.findLate_iff]
  constructor
  · rintro ⟨⟨hr, hfound⟩, _, hmissed⟩
    exact ⟨hr, hmissed, hfound⟩
  · rintro ⟨hr, hmissed, hfound⟩
    exact ⟨⟨hr, hfound⟩, hr, hmissed⟩

/-- A job that the client gave up before its grab was recorded. -/
def earlyJob : ClientItem := { downloadId := "d", title := "Artist - Album", status := .failed }

def lateRecord : HistoryRecord where
  id := 1
  artistId := 7
  albumId := 40
  sourceTitle := "Artist - Album"
  grade := ⟨⟨13, "FLAC"⟩, {}⟩
  event := .grabbed
  downloadId := some "d"
  date := "2024-05-01T08:00:00Z"

/-- The download is announced as failed, and still says that it is not failed. -/
theorem earlyJob_failed_with_warning :
    let missed := Call.check (.ofRecords [])
    let found := Call.check (.ofRecords [lateRecord])
    let announced := Call.process (.ofRecords [lateRecord]) .listening
    (after ⟨.start earlyJob, []⟩ [missed, found]).tracked.state = .failedPending ∧
      (after ⟨.start earlyJob, []⟩ [missed, found]).tracked.messages = [notGrabbedWarning] ∧
      (after ⟨.start earlyJob, []⟩ [missed, found, announced]).tracked.state = .failed ∧
      (after ⟨.start earlyJob, []⟩ [missed, found, announced]).tracked.messages =
        [notGrabbedWarning] :=
  ⟨rfl, rfl, rfl, rfl⟩

end Desk

end ReleaseWarden
