import ReleaseWarden.Proofs.Admission.QueueSafety
import ReleaseWarden.Proofs.Admission.Refusals

/-! What the albums of a candidate decide. Most rules ask which albums a candidate is for; the rule
on sizes and the rule on the queue count them, so that an album named twice counts twice. -/

set_option autoImplicit false

namespace ReleaseWarden

/-- The release offered for those albums. -/
def Candidate.withAlbums (c : Candidate) (ids : List Int64) : Candidate :=
  { c with albumIds := ids }

/-- A release of that size for so many albums is within the bounds. -/
def Settings.Admits (s : Settings) (albums : Nat) (size : UInt64) : Prop :=
  (∀ minimum ∈ s.minSize, saturatingMul minimum (max 1 albums) ≤ size.toNat) ∧
    ∀ maximum ∈ s.maxSize, size.toNat ≤ saturatingMul maximum (max 1 albums)

namespace Circumstances

/-- The rules that are asked before that one have nothing against the candidate. -/
def Reaches (on : Circumstances) (c : Candidate) (r : Rule) : Prop :=
  ∀ s ∈ Chain.standard.takeWhile (· ≠ r), s.objection on c = .ok none

variable {on : Circumstances} {c : Candidate} {ids : List Int64}

theorem reaches_queue_iff : on.Reaches c .queueConflict ↔
    on.Reaches c .size ∧ on.sizeObjection c = none ∧
      ∀ r ∈ [Rule.seeders, .age, .encryption], r.objection on c = .ok none := by
  have hbefore : Chain.standard.takeWhile (· ≠ .queueConflict) =
      Chain.standard.takeWhile (· ≠ .size) ++ .size :: [.seeders, .age, .encryption] := rfl
  unfold Reaches
  rw [hbefore, List.forall_mem_append, List.forall_mem_cons]
  exact and_congr_right fun _ => and_congr_left fun _ => ⟨Except.ok.inj, congrArg Except.ok⟩

theorem liveObjection_withAlbums (p : Profile) (es : List QueueEntry) :
    liveObjection p (c.withAlbums ids) es = liveObjection p c es := by
  induction es with
  | nil => rfl
  | cons e es ih =>
    rw [liveObjection, liveObjection, ih]
    rfl

theorem queueObjection_of_apart (h : ∀ e ∈ on.queue, e.concerns c = false) :
    on.queueObjection c = .ok none :=
  queueObjection_eq_none_iff.mpr (.inl h)

theorem queueObjection_of_several {e : QueueEntry} (he : e ∈ on.queue) (hc : e.concerns c = true)
    (h : c.isMultiAlbum = true) :
    ∃ o, on.queueObjection c = .ok (some o) := by
  unfold queueObjection
  split
  · rename_i hnil
    exact absurd hc (List.filter_eq_nil_iff.mp hnil e he)
  · rw [if_pos h]
    exact ⟨_, rfl⟩

theorem queueObjection_of_single (h : c.isMultiAlbum = false) :
    on.queueObjection c = liveObjection on.profile c (on.queue.filter (·.concerns c)) := by
  unfold queueObjection
  split
  · rename_i hnil
    rw [hnil]
    rfl
  · rename_i hcons
    rw [hcons, h]
    rfl

section SameAlbums

variable (hset : ∀ id, id ∈ ids ↔ id ∈ c.albumIds)
include hset

theorem contains_eq (id : Int64) : ids.contains id = c.albumIds.contains id := by
  rw [Bool.eq_iff_iff, List.contains_iff_mem, List.contains_iff_mem, hset id]

theorem isEmpty_eq : ids.isEmpty = c.albumIds.isEmpty := by
  rw [Bool.eq_iff_iff, List.isEmpty_iff, List.isEmpty_iff, List.eq_nil_iff_forall_not_mem,
    List.eq_nil_iff_forall_not_mem]
  simp only [hset]

theorem concerns_withAlbums (e : QueueEntry) : e.concerns (c.withAlbums ids) = e.concerns c := by
  simp only [QueueEntry.concerns, Candidate.overlaps, Candidate.withAlbums, contains_eq hset]

theorem objection_withAlbums {r : Rule} (hsize : r ≠ .size) (hqueue : r ≠ .queueConflict) :
    r.objection on (c.withAlbums ids) = r.objection on c := by
  cases r with
  | qualityAllowed =>
    simp only [Rule.objection, qualityObjection, Candidate.withAlbums, isEmpty_eq hset]
    rfl
  | upgradePermitted =>
    simp only [Rule.objection, upgradeObjection, Candidate.withAlbums, contains_eq hset]
    rfl
  | size => exact absurd rfl hsize
  | queueConflict => exact absurd rfl hqueue
  | minimumFormatScore | seeders | age | encryption => rfl

theorem queueObjection_withAlbums (h : 1 < ids.length ↔ 1 < c.albumIds.length) :
    on.queueObjection (c.withAlbums ids) = on.queueObjection c := by
  have hmulti : (c.withAlbums ids).isMultiAlbum = c.isMultiAlbum := decide_eq_decide.mpr h
  simp only [queueObjection, concerns_withAlbums hset, liveObjection_withAlbums, hmulti]

theorem objection_of_length_eq (hlength : ids.length = c.albumIds.length) (r : Rule) :
    r.objection on (c.withAlbums ids) = r.objection on c := by
  cases r with
  | size =>
    simp only [Rule.objection, sizeObjection, Candidate.withAlbums, hlength]
  | queueConflict =>
    exact queueObjection_withAlbums hset (by rw [hlength])
  | qualityAllowed | upgradePermitted | minimumFormatScore | seeders | age | encryption =>
    exact objection_withAlbums hset nofun nofun

omit hset in
theorem sizeObjection_withAlbums_iff :
    (on.sizeObjection (c.withAlbums ids) = none ↔ on.sizeObjection c = none) ↔
      ∀ size ∈ c.release.size,
        (on.settings.Admits ids.length size ↔ on.settings.Admits c.albumIds.length size) := by
  rw [sizeObjection_eq_none_iff, sizeObjection_eq_none_iff]
  unfold Settings.Admits Candidate.withAlbums
  cases c.release.size <;> simp

theorem refusal_queue_of_several (hseveral : c.isMultiAlbum = true)
    (hsingle : (c.withAlbums ids).isMultiAlbum = false) :
    Chain.refusal on (c.withAlbums ids) [.queueConflict] =
        Chain.refusal on c [.queueConflict] ↔
      (∀ e ∈ on.queue, e.concerns c = false) ∨
        ∃ o, liveObjection on.profile c (on.queue.filter (·.concerns c)) = .ok (some o) := by
  have hlive : on.queueObjection (c.withAlbums ids) =
      liveObjection on.profile c (on.queue.filter (·.concerns c)) := by
    rw [queueObjection_of_single hsingle, liveObjection_withAlbums]
    simp only [concerns_withAlbums hset]
  by_cases hapart : ∀ e ∈ on.queue, e.concerns c = false
  · have hnone : Rule.queueConflict.objection on c = .ok none := queueObjection_of_apart hapart
    have hnone' : Rule.queueConflict.objection on (c.withAlbums ids) = .ok none := by
      apply queueObjection_of_apart
      intro e he
      rw [concerns_withAlbums hset, hapart e he]
    apply iff_of_true _ (.inl hapart)
    rw [Chain.refusal_cons_of_none hnone, Chain.refusal_cons_of_none hnone']
    rfl
  · obtain ⟨e, he, hc⟩ : ∃ e ∈ on.queue, e.concerns c = true := by simpa using hapart
    obtain ⟨o, ho⟩ := queueObjection_of_several he hc hseveral
    rw [Chain.refusal_cons_of_some (r := .queueConflict) ho, or_iff_right hapart, ← hlive]
    exact Chain.refusal_singleton_iff

theorem refusal_queue_iff :
    Chain.refusal on (c.withAlbums ids) [.queueConflict] =
        Chain.refusal on c [.queueConflict] ↔
      (∀ e ∈ on.queue, e.concerns c = false) ∨ (1 < ids.length ↔ 1 < c.albumIds.length) ∨
        ∃ o, liveObjection on.profile c (on.queue.filter (·.concerns c)) = .ok (some o) := by
  by_cases hcount : 1 < ids.length ↔ 1 < c.albumIds.length
  · apply iff_of_true _ (.inr (.inl hcount))
    apply Chain.refusal_congr
    intro r hr
    obtain rfl := List.mem_singleton.mp hr
    exact queueObjection_withAlbums hset hcount
  · rw [or_iff_right_of_imp (a := 1 < ids.length ↔ 1 < c.albumIds.length) (absurd · hcount)]
    by_cases hseveral : 1 < c.albumIds.length
    · have hsingle : ¬ 1 < ids.length := fun h => hcount (iff_of_true h hseveral)
      exact refusal_queue_of_several hset (decide_eq_true hseveral) (decide_eq_false hsingle)
    · have hids : 1 < ids.length :=
        Decidable.byContradiction fun h => hcount (iff_of_false h hseveral)
      have hback := @refusal_queue_of_several on (c.withAlbums ids) c.albumIds
        (fun id => (hset id).symm) (decide_eq_true hids) (decide_eq_false hseveral)
      simp only [concerns_withAlbums hset, liveObjection_withAlbums] at hback
      exact eq_comm.trans hback

theorem refusal_withAlbums_iff :
    Chain.standard.refusal on (c.withAlbums ids) = Chain.standard.refusal on c ↔
      (on.Reaches c .size →
        (on.sizeObjection (c.withAlbums ids) = none ↔ on.sizeObjection c = none)) ∧
      (on.Reaches c .queueConflict → Chain.refusal on (c.withAlbums ids) [.queueConflict] =
        Chain.refusal on c [.queueConflict]) := by
  have hbefore : ∀ r ∈ [Rule.qualityAllowed, .upgradePermitted, .minimumFormatScore],
      r ≠ .size ∧ r ≠ .queueConflict := by decide
  have hbetween : ∀ r ∈ [Rule.seeders, .age, .encryption], r ≠ .size ∧ r ≠ .queueConflict := by
    decide
  have hstandard : Chain.standard = [.qualityAllowed, .upgradePermitted, .minimumFormatScore] ++
      .size :: ([.seeders, .age, .encryption] ++ [.queueConflict]) := rfl
  rw [hstandard,
    Chain.refusal_append_iff fun r hr =>
      objection_withAlbums hset (hbefore r hr).1 (hbefore r hr).2,
    Chain.refusal_cons_iff (by decide) rfl rfl,
    Chain.refusal_append_iff fun r hr =>
      objection_withAlbums hset (hbetween r hr).1 (hbetween r hr).2,
    reaches_queue_iff]
  constructor
  · intro h
    exact ⟨fun hreach => (h hreach).1, fun ⟨hreach, hnone, hrest⟩ => (h hreach).2 hnone hrest⟩
  · rintro ⟨hsize, hqueue⟩ hreach
    exact ⟨hsize hreach, fun hnone hrest => hqueue ⟨hreach, hnone, hrest⟩⟩

/-- Two lists of the same albums are judged alike if they are of one length. Otherwise they are
accepted or refused by the same rule exactly if, where the rule on sizes is asked, the size is
within the bounds for both lengths or for neither, and where the rule on the queue is asked, no grab
is for the candidate, or both lists name several albums or both a single one, or a live grab turns
the single one away as well. -/
theorem same_albums_decide_alike_iff :
    (ids.length = c.albumIds.length → on.judge (c.withAlbums ids) = on.judge c) ∧
    ((on.judge (c.withAlbums ids)).map Verdict.rule? = (on.judge c).map Verdict.rule? ↔
      (on.Reaches c .size → ∀ size ∈ c.release.size,
        (on.settings.Admits ids.length size ↔ on.settings.Admits c.albumIds.length size)) ∧
      (on.Reaches c .queueConflict →
        (∀ e ∈ on.queue, ¬ e.Meets { candidate := c }) ∨
          (1 < ids.length ↔ 1 < c.albumIds.length) ∨
            ∃ o, liveObjection on.profile c (on.queue.filter (·.concerns c)) = .ok (some o))) := by
  constructor
  · intro hlength
    exact Chain.judge_congr fun r _ => objection_of_length_eq hset hlength r
  · have hapart : (∀ e ∈ on.queue, ¬ e.Meets { candidate := c }) ↔
        ∀ e ∈ on.queue, e.concerns c = false := by
      simp only [← QueueEntry.concerns_iff, Bool.not_eq_true]
    rw [hapart, ← refusal_queue_iff hset, ← sizeObjection_withAlbums_iff]
    exact refusal_withAlbums_iff hset

end SameAlbums

end Circumstances

/-- A grab of the album in that tier is on its way, and an album has at most 100 bytes. -/
def underway (tier : Int32) : Circumstances where
  profile :=
    { upgradeAllowed := true, cutoff := 13
      items := [⟨⟨9, "MP3-320"⟩, true⟩, ⟨⟨13, "FLAC"⟩, true⟩] }
  settings := { maxSize := some 100 }
  queue := [Queue.grabOf tier]

def flacSized (size : UInt64) : Candidate where
  artistId := 7
  albumIds := [40]
  grade := ⟨Catalog.get 13, {}⟩
  release := { title := "Artist - Album", size := some size }

/-- Beside a grab that is as good, naming the album twice changes the reason only. -/
theorem named_twice_refused_alike :
    (∀ id, id ∈ [40, 40] ↔ id ∈ (flacSized 80).albumIds) ∧
      ((underway 13).judge ((flacSized 80).withAlbums [40, 40])).map Verdict.rule? =
        ((underway 13).judge (flacSized 80)).map Verdict.rule? := by
  have hset : ∀ id, id ∈ [40, 40] ↔ id ∈ (flacSized 80).albumIds := by simp [flacSized]
  have hadmits (albums : Nat) (h : 80 ≤ saturatingMul 100 (max 1 albums)) :
      (underway 13).settings.Admits albums 80 := by
    refine ⟨nofun, ?_⟩
    intro maximum hmaximum
    cases hmaximum
    exact h
  refine ⟨hset, (Circumstances.same_albums_decide_alike_iff hset).2.mpr ⟨?_, ?_⟩⟩
  · intro _ size hsize
    cases hsize
    exact iff_of_true (hadmits 2 (by decide)) (hadmits 1 (by decide))
  · intro _
    exact .inr (.inr ⟨.queuedAsGood (Queue.grabOf 13).candidate.grade, rfl⟩)

/-- An album that is named twice doubles the size that is allowed, and in the queue it makes the
candidate one for several albums. -/
theorem named_twice_counts_twice :
    (∀ id, id ∈ [40, 40] ↔ id ∈ (flacSized 80).albumIds) ∧
      (underway 9).judge (flacSized 80) = .ok .accept ∧
      ((underway 9).judge ((flacSized 80).withAlbums [40, 40])).map Verdict.rule? =
        .ok (some .queueConflict) ∧
      ({ underway 9 with queue := [] }.judge (flacSized 150)).map Verdict.rule? =
        .ok (some .size) ∧
      { underway 9 with queue := [] }.judge ((flacSized 150).withAlbums [40, 40]) =
        .ok .accept :=
  ⟨by simp [flacSized], rfl, rfl, rfl, rfl⟩

end ReleaseWarden
