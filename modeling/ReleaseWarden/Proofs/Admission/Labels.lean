import ReleaseWarden.Proofs.Admission.Refusals
import ReleaseWarden.Proofs.Ranking.Labels

/-! Labels in admission. Titles and names occur in reasons only: two candidates that differ in
labels are refused by the same rule, or both are accepted. -/

set_option autoImplicit false

namespace ReleaseWarden

def ReleaseInfo.bare (r : ReleaseInfo) : ReleaseInfo := { r with title := "", indexer := "" }

def Candidate.bare (c : Candidate) : Candidate :=
  { c with
    grade := c.grade.bare
    formats := c.formats.map FormatTag.bare
    release := c.release.bare }

def LibraryItem.bare (i : LibraryItem) : LibraryItem :=
  { i with
    grade := i.grade.bare
    formats := i.formats.map FormatTag.bare }

def QueueEntry.bare (e : QueueEntry) : QueueEntry :=
  { e with candidate := e.candidate.bare, downloadId := none }

theorem firstScored_map {α β : Type} (test : β → Scored Bool) (f : α → β) (as : List α) :
    firstScored test (as.map f) = (firstScored (test ∘ f) as).map (Option.map f) := by
  induction as with
  | nil => rfl
  | cons a as ih =>
    rw [List.map_cons, firstScored, firstScored, ih, Function.comp_apply]
    cases test (f a) with
    | error e => rfl
    | ok found => cases found <;> rfl

namespace Circumstances

/-- The circumstances without anything that is there for people to read. -/
def bare (on : Circumstances) : Circumstances where
  profile := on.profile.bare
  settings := on.settings
  search := on.search
  held := on.held.map LibraryItem.bare
  queue := on.queue.map QueueEntry.bare

variable (on : Circumstances) (c : Candidate)

theorem qualityObjection_bare :
    (on.bare.qualityObjection c.bare).isSome = (on.qualityObjection c).isSome := by
  have hallows : on.bare.profile.allows c.bare.grade.quality =
      on.profile.allows c.grade.quality := on.profile.allows_bare c.grade.quality
  unfold qualityObjection
  rw [hallows]
  cases c with
  | mk artistId albumIds grade formats release =>
    cases albumIds with
    | nil => rfl
    | cons id ids => cases on.profile.allows grade.quality <;> rfl

theorem upgradeObjection_isSome : (on.upgradeObjection c).map Option.isSome =
    if on.profile.upgradeAllowed then .ok false
    else (firstScored (fun h => on.profile.isUpgrade h.graded c.graded) (on.held.filter fun h =>
      h.artistId == c.artistId && c.albumIds.contains h.albumId)).map Option.isSome := by
  unfold upgradeObjection
  split
  · rfl
  · dsimp only
    cases firstScored (fun h => on.profile.isUpgrade h.graded c.graded) (on.held.filter fun h =>
        h.artistId == c.artistId && c.albumIds.contains h.albumId) with
    | error e => rfl
    | ok blocked => cases blocked <;> rfl

theorem upgradeObjection_bare : (on.bare.upgradeObjection c.bare).map Option.isSome =
    (on.upgradeObjection c).map Option.isSome := by
  have htest : (fun h : LibraryItem => on.bare.profile.isUpgrade h.graded c.bare.graded) ∘
      LibraryItem.bare = fun h => on.profile.isUpgrade h.graded c.graded :=
    funext fun h => on.profile.isUpgrade_bare h.graded c.graded
  have hheld : (on.bare.held.filter fun h =>
      h.artistId == c.bare.artistId && c.bare.albumIds.contains h.albumId) =
        (on.held.filter fun h =>
          h.artistId == c.artistId && c.albumIds.contains h.albumId).map LibraryItem.bare :=
    List.filter_map
  rw [upgradeObjection_isSome, upgradeObjection_isSome, hheld, firstScored_map, htest]
  cases firstScored (fun h => on.profile.isUpgrade h.graded c.graded) (on.held.filter fun h =>
      h.artistId == c.artistId && c.albumIds.contains h.albumId) with
  | error e => rfl
  | ok blocked => cases blocked <;> rfl

theorem scoreObjection_bare : on.bare.scoreObjection c.bare = on.scoreObjection c := by
  have hscore : on.bare.profile.formatScore c.bare.formats = on.profile.formatScore c.formats :=
    on.profile.formatScore_bare c.formats
  unfold scoreObjection
  rw [hscore]
  rfl

theorem liveObjection_bare (p : Profile) (es : List QueueEntry) :
    (liveObjection p.bare c.bare (es.map QueueEntry.bare)).map Option.isSome =
      (liveObjection p c es).map Option.isSome := by
  induction es with
  | nil => rfl
  | cons e es ih =>
    have hupgrade : p.bare.isUpgrade e.bare.candidate.graded c.bare.graded =
        p.isUpgrade e.candidate.graded c.graded :=
      p.isUpgrade_bare e.candidate.graded c.graded
    have hfailed : e.bare.state.isFailed = e.state.isFailed := rfl
    have hallowed : p.bare.upgradeAllowed = p.upgradeAllowed := rfl
    rw [List.map_cons, liveObjection, liveObjection, hfailed, hallowed, hupgrade]
    split
    · exact ih
    · split
      · rfl
      · cases p.isUpgrade e.candidate.graded c.graded with
        | error cause => rfl
        | ok upgrades =>
          cases upgrades with
          | false => rfl
          | true => exact ih

theorem queueObjection_bare : (on.bare.queueObjection c.bare).map Option.isSome =
    (on.queueObjection c).map Option.isSome := by
  have hqueue : on.bare.queue.filter (·.concerns c.bare) =
      (on.queue.filter (·.concerns c)).map QueueEntry.bare := List.filter_map
  unfold queueObjection
  rw [hqueue]
  cases on.queue.filter (·.concerns c) with
  | nil => rfl
  | cons first rest =>
    have hmulti : c.bare.isMultiAlbum = c.isMultiAlbum := rfl
    have hlive := liveObjection_bare c on.profile (first :: rest)
    rw [List.map_cons] at hlive ⊢
    dsimp only
    rw [hmulti]
    split
    · rfl
    · exact hlive

theorem refuses_bare (r : Rule) : r.refuses on.bare c.bare = r.refuses on c := by
  cases r with
  | qualityAllowed => exact congrArg Except.ok (on.qualityObjection_bare c)
  | upgradePermitted => exact on.upgradeObjection_bare c
  | minimumFormatScore => exact congrArg (Except.map Option.isSome) (on.scoreObjection_bare c)
  | size => rfl
  | seeders => rfl
  | age => rfl
  | encryption => rfl
  | queueConflict => exact on.queueObjection_bare c

theorem refusal_bare (rs : Chain) : rs.refusal on.bare c.bare = rs.refusal on c :=
  Chain.refusal_congr_of_refuses fun r _ => on.refuses_bare c r

/-- Nothing is told apart by its labels. Let two profiles, candidates, libraries and queues differ
in nothing but the names of tiers and tags, the flags on renaming and on repacks, the name and the
id of the profile, the titles and indexers of releases and the ids of downloads. Then any two
releases compare in the same way, one replaces the other or not, and the cutoff is met or not; and
every chain, the standard one too, turns the candidate away by the same rule, accepts it on both
sides, or overflows on both sides. -/
theorem labels_decide_nothing {on on' : Circumstances} {c c' : Candidate}
    (hon : on'.bare = on.bare) (hc : c'.bare = c.bare) :
    (∀ held held' candidate candidate' : Graded, held'.bare = held.bare →
      candidate'.bare = candidate.bare →
        on'.profile.prefer held' candidate' = on.profile.prefer held candidate ∧
        on'.profile.isUpgrade held' candidate' = on.profile.isUpgrade held candidate ∧
        on'.profile.cutoffMet held' = on.profile.cutoffMet held) ∧
    (on'.judge c').map Verdict.rule? = (on.judge c).map Verdict.rule? ∧
    ∀ rs : Chain, (rs.judge on' c').map Verdict.rule? = (rs.judge on c).map Verdict.rule? := by
  have hprofile : on'.profile.bare = on.profile.bare := congrArg profile hon
  have hrefusal (rs : Chain) : rs.refusal on' c' = rs.refusal on c := by
    rw [← refusal_bare, hon, hc, refusal_bare]
  refine ⟨fun held held' candidate candidate' hheld hcandidate => ⟨?_, ?_, ?_⟩,
    hrefusal Chain.standard, hrefusal⟩
  · rw [← Profile.prefer_bare, hprofile, hheld, hcandidate, Profile.prefer_bare]
  · rw [← Profile.isUpgrade_bare, hprofile, hheld, hcandidate, Profile.isUpgrade_bare]
  · rw [← Profile.cutoffMet_bare, hprofile, hheld, Profile.cutoffMet_bare]

end Circumstances

/-- No upgrades, and the album is held in the first version of the only tier. The tier has one name
in the profile and one in the library. -/
def namedTier (ranked stored : String) : Circumstances where
  profile :=
    { name := ranked, upgradeAllowed := false, cutoff := 13, items := [⟨⟨13, ranked⟩, true⟩] }
  held := [⟨7, 40, ⟨⟨13, stored⟩, {}⟩, []⟩]

def secondVersion (tier title : String) : Candidate where
  artistId := 7
  albumIds := [40]
  grade := ⟨⟨13, tier⟩, { version := 2 }⟩
  release := { title }

/-- One tier under three names: the candidate upgrades what is held as it does under one name, and
only the reason differs. -/
theorem secondVersion_refused_under_all_names :
    (namedTier "FLAC" "FLAC").judge (secondVersion "FLAC" "Album") =
      .ok (.reject (Objection.wouldUpgrade ⟨⟨13, "FLAC"⟩, {}⟩ "FLAC").rejection) ∧
    (namedTier "Lossless" "Flac").judge (secondVersion "FLAC 16 bit" "Album (Proper)") =
      .ok (.reject (Objection.wouldUpgrade ⟨⟨13, "Flac"⟩, {}⟩ "Lossless").rejection) ∧
    ((namedTier "Lossless" "Flac").judge (secondVersion "FLAC 16 bit" "Album (Proper)")).map
        Verdict.rule? =
      ((namedTier "FLAC" "FLAC").judge (secondVersion "FLAC" "Album")).map Verdict.rule? :=
  ⟨rfl, rfl, (Circumstances.labels_decide_nothing rfl rfl).2.1⟩

end ReleaseWarden
