import ReleaseWarden.Proofs.Admission.Acceptance
import ReleaseWarden.Proofs.Ranking.Preference
import ReleaseWarden.Quality.Catalog

/-! Queues over time. A queue grows by accepted candidates, its entries change their states, and
entries leave it. However these follow each other, of two live grabs that meet in one album the
younger one is for that album alone and improves on the older one. -/

set_option autoImplicit false

namespace ReleaseWarden

namespace QueueEntry

/-- Not known to have failed. -/
def IsLive (e : QueueEntry) : Prop := e.state.isFailed = false

/-- The grabs are for one artist and share an album. -/
def Meets (e f : QueueEntry) : Prop :=
  e.candidate.artistId = f.candidate.artistId ∧
    ∃ id ∈ e.candidate.albumIds, id ∈ f.candidate.albumIds

theorem concerns_iff {e f : QueueEntry} : e.concerns f.candidate = true ↔ e.Meets f := by
  simp [concerns, Candidate.overlaps, Meets]

end QueueEntry

namespace Queue

/-- What may happen to a queue while the profile stays the same. -/
inductive Step (p : Profile) : Queue → Queue → Prop
  /-- A candidate is offered under whatever circumstances, and grabbed as it is accepted. -/
  | grab {q : Queue} {on : Circumstances} {c : Candidate} (downloadId : Option String) :
      on.profile = p → on.queue = q → on.judge c = .ok .accept →
      Step p q (q.push { candidate := c, downloadId })
  /-- An entry comes to another state; a failure is never taken back. -/
  | move {q : Queue} (index : Nat) (state : DownloadState) :
      (∀ e, q[index]? = some e → e.state.isFailed = true → state.isFailed = true) →
      Step p q (q.setState index state)
  | keep {q kept : Queue} : kept.Sublist q → Step p q kept

/-- The queues that an empty one may become. -/
inductive Reachable (p : Profile) : Queue → Prop
  | start : Reachable p []
  | next {q r : Queue} : Reachable p q → Step p q r → Reachable p r

/-- An offer is a step, whether or not it is accepted and wanted. -/
theorem step_offer {on : Circumstances} {c : Candidate} {grab : Bool} {verdict : Verdict}
    {r : Queue} (h : on.offer c grab = .ok (verdict, r)) : Step on.profile on.queue r := by
  unfold Circumstances.offer at h
  cases hj : on.judge c with
  | error e =>
    rw [hj] at h
    cases h
  | ok v =>
    rw [hj] at h
    cases h
    split
    · rename_i hv
      cases verdict with
      | accept => exact .grab none rfl rfl hj
      | reject rejection => cases hv
    · exact .keep (List.Sublist.refl _)

/-- The younger grab is for one album and worth replacing the older one. -/
structure Improves (p : Profile) (older younger : QueueEntry) : Prop where
  length_albumIds : younger.candidate.albumIds.length = 1
  upgradeAllowed : p.upgradeAllowed = true
  isUpgrade : p.isUpgrade older.candidate.graded younger.candidate.graded = .ok true

/-- Of two live grabs that meet, the younger one improves on the older one. -/
def Orderly (p : Profile) (q : Queue) : Prop :=
  q.Pairwise fun e f => e.IsLive → f.IsLive → e.Meets f → Improves p e f

theorem improves_of_accept {on : Circumstances} {e f : QueueEntry}
    (h : on.judge f.candidate = .ok .accept) (he : e ∈ on.queue) (hl : e.IsLive)
    (hm : e.Meets f) : Improves on.profile e f := by
  obtain ⟨hmulti, hlive⟩ :=
    Circumstances.isUpgrade_of_accept h he (QueueEntry.concerns_iff.mpr hm)
  obtain ⟨hallowed, hup⟩ := hlive hl
  have hpos : 0 < f.candidate.albumIds.length :=
    List.length_pos_iff.mpr (Circumstances.albumIds_ne_nil h)
  have hle : ¬ 1 < f.candidate.albumIds.length := by
    simpa [Candidate.isMultiAlbum] using hmulti
  exact ⟨by omega, hallowed, hup⟩

theorem getElem_setState {q : Queue} {index : Nat} {state : DownloadState} {i : Nat}
    (hi : i < q.length) (hi' : i < (q.setState index state).length) :
    (q.setState index state)[i] = if index = i then { q[i] with state } else q[i] :=
  List.getElem_modify _ index q i hi'

theorem live_of_setState {q : Queue} {index : Nat} {state : DownloadState}
    (h : ∀ e, q[index]? = some e → e.state.isFailed = true → state.isFailed = true)
    {i : Nat} (hi : i < q.length) (hi' : i < (q.setState index state).length) :
    (q.setState index state)[i].candidate = q[i].candidate ∧
      ((q.setState index state)[i].IsLive → q[i].IsLive) := by
  rw [getElem_setState hi]
  by_cases hii : index = i
  · subst hii
    rw [if_pos rfl]
    refine ⟨rfl, fun hl => ?_⟩
    have hstep := h q[index] (List.getElem?_eq_getElem hi)
    unfold QueueEntry.IsLive at hl ⊢
    cases hf : q[index].state.isFailed with
    | false => rfl
    | true =>
      rw [hstep hf] at hl
      cases hl
  · rw [if_neg hii]
    exact ⟨rfl, id⟩

theorem orderly_step {p : Profile} {q r : Queue} (hq : Orderly p q) (h : Step p q r) :
    Orderly p r := by
  cases h with
  | grab downloadId hp hon haccept =>
    subst hp hon
    refine List.pairwise_append.mpr ⟨hq, List.pairwise_singleton _ _, ?_⟩
    intro e he f hf hel hfl hm
    obtain rfl := List.mem_singleton.mp hf
    exact improves_of_accept haccept he hel hm
  | move index state hguard =>
    apply List.pairwise_iff_getElem.mpr
    intro i j hi hj hij hil hjl hm
    have hlen : (q.setState index state).length = q.length := List.length_modify ..
    obtain ⟨hci, hli⟩ := live_of_setState hguard (hlen ▸ hi) hi
    obtain ⟨hcj, hlj⟩ := live_of_setState hguard (hlen ▸ hj) hj
    unfold QueueEntry.Meets at hm
    rw [hci, hcj] at hm
    obtain ⟨hone, hallowed, hup⟩ :=
      List.pairwise_iff_getElem.mp hq i j (hlen ▸ hi) (hlen ▸ hj) hij (hli hil) (hlj hjl) hm
    exact ⟨hcj ▸ hone, hallowed, by rw [hci, hcj]; exact hup⟩
  | keep hsub => exact hq.sublist hsub

theorem orderly_of_reachable {p : Profile} {q : Queue} (h : Reachable p q) : Orderly p q := by
  induction h with
  | start => exact .nil
  | next _ hstep ih => exact orderly_step ih hstep

theorem prefer_ne_equal {p : Profile} {e f : QueueEntry} (h : Improves p e f) :
    p.prefer e.candidate.graded f.candidate.graded ≠ .ok .equal ∧
      p.prefer f.candidate.graded e.candidate.graded ≠ .ok .equal := by
  have hbetter := p.prefer_of_isUpgrade h.isUpgrade
  rw [p.prefer_swap e.candidate.graded, hbetter]
  exact ⟨fun he => (by cases he), fun he => (by cases he)⟩

/-- Of two live grabs of an artist that share an album, the one behind is for that album alone,
the profile allows upgrades, and it is an upgrade of the one before. So the two are never equally
good, and without upgrades no two live grabs of an artist share an album. -/
theorem live_grabs_improve {p : Profile} {q : Queue} (h : Reachable p q) :
    (q.Pairwise fun e f => e.IsLive → f.IsLive → e.Meets f →
      f.candidate.albumIds.length = 1 ∧ p.upgradeAllowed = true ∧
        p.isUpgrade e.candidate.graded f.candidate.graded = .ok true) ∧
    (q.Pairwise fun e f => e.IsLive → f.IsLive → e.Meets f →
      p.prefer e.candidate.graded f.candidate.graded ≠ .ok .equal ∧
        p.prefer f.candidate.graded e.candidate.graded ≠ .ok .equal) ∧
    (p.upgradeAllowed = false → q.Pairwise fun e f => e.IsLive → f.IsLive →
      e.candidate.artistId = f.candidate.artistId →
        ∀ id ∈ e.candidate.albumIds, id ∉ f.candidate.albumIds) := by
  have horderly := orderly_of_reachable h
  refine ⟨?_, ?_, ?_⟩
  · apply horderly.imp
    intro e f himp hel hfl hm
    obtain ⟨hone, hallowed, hup⟩ := himp hel hfl hm
    exact ⟨hone, hallowed, hup⟩
  · exact horderly.imp fun himp hel hfl hm => prefer_ne_equal (himp hel hfl hm)
  · intro hno
    apply horderly.imp
    intro e f himp hel hfl hartist id hide hidf
    have hyes := (himp hel hfl ⟨hartist, id, hide, hidf⟩).upgradeAllowed
    rw [hno] at hyes
    cases hyes

def grabOf (tier : Int32) : QueueEntry :=
  { candidate :=
      { artistId := 7, albumIds := [40], grade := ⟨Catalog.get tier, {}⟩
        release := { title := "Artist - Album" } } }

theorem grabs_of_rising_tiers :
    Reachable (Catalog.profile 15) [grabOf 9, grabOf 13] ∧ (grabOf 9).Meets (grabOf 13) ∧
      (Catalog.profile 15).isUpgrade (grabOf 9).candidate.graded (grabOf 13).candidate.graded =
        .ok true := by
  have hoffer : Circumstances.offer { profile := Catalog.profile 15 } (grabOf 9).candidate true =
      .ok (.accept, [grabOf 9]) := rfl
  have hoffer' : Circumstances.offer { profile := Catalog.profile 15, queue := [grabOf 9] }
      (grabOf 13).candidate true = .ok (.accept, [grabOf 9, grabOf 13]) := rfl
  have hboth : Reachable (Catalog.profile 15) [grabOf 9, grabOf 13] :=
    .next (.next .start (step_offer hoffer)) (step_offer hoffer')
  have hmeets : (grabOf 9).Meets (grabOf 13) := ⟨rfl, 40, by decide, by decide⟩
  have hpair := (List.pairwise_cons.mp (live_grabs_improve hboth).1).1 (grabOf 13) (by simp)
  exact ⟨hboth, hmeets, (hpair rfl rfl hmeets).2.2⟩

end Queue

end ReleaseWarden
