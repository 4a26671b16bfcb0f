import ReleaseWarden.Proofs.Admission.Albums

/-! Releases of several albums. Without bounds on the size, a candidate that is accepted for several
albums is accepted for any of them, and one album that is turned away turns the whole away. -/

set_option autoImplicit false

namespace ReleaseWarden

theorem firstScored_filter_eq_error {α : Type} {test : α → Scored Bool} {wide narrow : α → Bool}
    {e : Overflow} {as : List α} (hnarrow : ∀ a, narrow a = true → wide a = true)
    (h : firstScored test (as.filter wide) = .error e) :
    firstScored test (as.filter narrow) = .error e ∨
      ∃ a ∈ as, wide a = true ∧ narrow a = false ∧ test a = .error e := by
  induction as with
  | nil => cases h
  | cons a as ih =>
    by_cases hwide : wide a = true
    · rw [List.filter_cons_of_pos hwide, firstScored] at h
      cases htest : test a with
      | error e' =>
        rw [htest] at h
        cases h
        cases hin : narrow a with
        | true =>
          rw [List.filter_cons_of_pos hin, firstScored, htest]
          exact .inl rfl
        | false => exact .inr ⟨a, List.mem_cons_self, hwide, hin, htest⟩
      | ok found =>
        rw [htest] at h
        cases found with
        | true => cases h
        | false =>
          rcases ih h with hrest | ⟨b, hb, hfailed⟩
          · left
            by_cases hin : narrow a = true
            · rw [List.filter_cons_of_pos hin, firstScored, htest]
              exact hrest
            · rw [List.filter_cons_of_neg hin]
              exact hrest
          · exact .inr ⟨b, List.mem_cons_of_mem a hb, hfailed⟩
    · have hin : ¬ narrow a = true := fun hin => hwide (hnarrow a hin)
      rw [List.filter_cons_of_neg hwide] at h
      rw [List.filter_cons_of_neg hin]
      rcases ih h with hrest | ⟨b, hb, hfailed⟩
      · exact .inl hrest
      · exact .inr ⟨b, List.mem_cons_of_mem a hb, hfailed⟩

namespace Circumstances

variable {on : Circumstances} {c : Candidate} {ids : List Int64}

section Part

variable (hsub : ids.Sublist c.albumIds)
include hsub

theorem concerns_of_sublist {e : QueueEntry} (h : e.concerns (c.withAlbums ids) = true) :
    e.concerns c = true := by
  obtain ⟨hartist, id, hid, hmem⟩ := QueueEntry.concerns_iff (f := { candidate := _ }).mp h
  exact QueueEntry.concerns_iff (f := { candidate := c }).mpr
    ⟨hartist, id, hid, hsub.subset hmem⟩

theorem queueObjection_of_sublist (h : on.queueObjection c = .ok none) :
    on.queueObjection (c.withAlbums ids) = .ok none := by
  apply queueObjection_eq_none_iff.mpr
  rcases queueObjection_eq_none_iff.mp h with hapart | ⟨hsingle, hlive⟩
  · left
    intro e he
    cases hconcerns : e.concerns (c.withAlbums ids) with
    | false => rfl
    | true =>
      rw [← hapart e he]
      exact (concerns_of_sublist hsub hconcerns).symm
  · right
    constructor
    · apply decide_eq_false
      have hle := hsub.length_le
      have hone := of_decide_eq_false hsingle
      show ¬ 1 < ids.length
      omega
    · intro e he hconcerns hfailed
      exact hlive e he (concerns_of_sublist hsub hconcerns) hfailed

theorem withAlbums_eq_of_queueObjection {e : Overflow} (hne : ids ≠ [])
    (h : on.queueObjection c = .error e) : c.withAlbums ids = c := by
  have hone : c.albumIds.length ≤ 1 := by
    by_cases hseveral : 1 < c.albumIds.length
    · unfold queueObjection at h
      split at h
      · cases h
      · have hmulti : c.isMultiAlbum = true := decide_eq_true hseveral
        rw [if_pos hmulti] at h
        cases h
    · omega
  have hpos : 0 < ids.length := List.length_pos_iff.mpr hne
  have hall : ids = c.albumIds := hsub.eq_of_length_le (by omega)
  rw [hall]
  rfl

theorem upgradeObjection_of_sublist {e : Overflow} (h : on.upgradeObjection c = .error e) :
    on.upgradeObjection (c.withAlbums ids) = .error e ∨
      on.profile.upgradeAllowed = false ∧ ∃ held ∈ on.held, held.artistId = c.artistId ∧
        held.albumId ∈ c.albumIds ∧ held.albumId ∉ ids ∧
          on.profile.isUpgrade held.graded c.graded = .error e := by
  unfold upgradeObjection at h
  split at h
  · cases h
  · rename_i hallowed
    have hnarrow : ∀ held : LibraryItem,
        (held.artistId == c.artistId && ids.contains held.albumId) = true →
          (held.artistId == c.artistId && c.albumIds.contains held.albumId) = true := by
      intro held hheld
      simp only [Bool.and_eq_true, List.contains_iff_mem] at hheld ⊢
      exact ⟨hheld.1, hsub.subset hheld.2⟩
    rcases bind_eq_error_iff.mp h with hfirst | ⟨blocked, _, hmap⟩
    · rcases firstScored_filter_eq_error hnarrow hfirst with hpart | ⟨held, hheld, hin, hout, hfail⟩
      · left
        unfold upgradeObjection
        rw [if_neg hallowed]
        exact bind_eq_error_iff.mpr (.inl hpart)
      · right
        simp only [Bool.and_eq_true, beq_iff_eq, List.contains_iff_mem] at hin
        have hother : held.albumId ∉ ids := by simpa [hin.1] using hout
        exact ⟨by simpa using hallowed, held, hheld, hin.1, hin.2, hother, hfail⟩
    · cases hmap

theorem objection_of_sublist (hmin : on.settings.minSize = none)
    (hmax : on.settings.maxSize = none) (hne : ids ≠ []) {r : Rule}
    (h : r.objection on c = .ok none) : r.objection on (c.withAlbums ids) = .ok none := by
  cases r with
  | qualityAllowed =>
    obtain ⟨_, hallows⟩ := qualityObjection_eq_none_iff.mp (Except.ok.inj h)
    exact congrArg Except.ok (qualityObjection_eq_none_iff.mpr ⟨hne, hallows⟩)
  | upgradePermitted =>
    apply upgradeObjection_eq_none_iff.mpr
    intro hno held hheld hartist halbum
    exact upgradeObjection_eq_none_iff.mp h hno held hheld hartist (hsub.subset halbum)
  | size =>
    apply congrArg Except.ok
    apply sizeObjection_eq_none_iff.mpr
    simp [hmin, hmax]
  | queueConflict => exact queueObjection_of_sublist hsub h
  | minimumFormatScore | seeders | age | encryption => exact h

/-- A whole whose part is refused overflows only at a held item that the part is not for. -/
theorem exists_held_of_judge_eq_error (hmin : on.settings.minSize = none)
    (hmax : on.settings.maxSize = none) (hne : ids ≠ []) {rejection : Rejection} {e : Overflow}
    (hpart : on.judge (c.withAlbums ids) = .ok (.reject rejection)) (h : on.judge c = .error e) :
    on.profile.upgradeAllowed = false ∧ ∃ held ∈ on.held, held.artistId = c.artistId ∧
      held.albumId ∈ c.albumIds ∧ held.albumId ∉ ids ∧
        on.profile.isUpgrade held.graded c.graded = .error e := by
  obtain ⟨r, hr, herror, hbefore⟩ := Chain.judge_eq_error_iff.mp h
  have hnot : r.objection on (c.withAlbums ids) ≠ .error e := by
    intro hfail
    have hoverflow : on.judge (c.withAlbums ids) = .error e :=
      Chain.judge_eq_error_iff.mpr ⟨r, hr, hfail, fun s hs =>
        objection_of_sublist hsub hmin hmax hne (hbefore s hs)⟩
    rw [hpart] at hoverflow
    cases hoverflow
  cases r with
  | upgradePermitted => exact (upgradeObjection_of_sublist hsub herror).resolve_left hnot
  | minimumFormatScore => exact absurd herror hnot
  | queueConflict =>
    rw [withAlbums_eq_of_queueObjection hsub hne herror] at hnot
    exact absurd herror hnot
  | qualityAllowed | size | seeders | age | encryption => cases herror

end Part

/-- Where sizes are not bounded, a candidate that is accepted is accepted for every part of its
albums. If a part is refused, the whole is refused, or a score overflows before: upgrades are not
allowed, and the candidate cannot be compared with a held item of another of its albums. -/
theorem accepts_jointly (hmin : on.settings.minSize = none) (hmax : on.settings.maxSize = none)
    (hne : ids ≠ []) (hsub : ids.Sublist c.albumIds) :
    (on.judge c = .ok .accept → on.judge (c.withAlbums ids) = .ok .accept) ∧
    ∀ rejection, on.judge (c.withAlbums ids) = .ok (.reject rejection) →
      (∃ rejection', on.judge c = .ok (.reject rejection')) ∨
        on.judge c = .error .formatScore ∧ on.profile.upgradeAllowed = false ∧
          ∃ held ∈ on.held, held.artistId = c.artistId ∧ held.albumId ∈ c.albumIds ∧
            held.albumId ∉ ids ∧
              on.profile.isUpgrade held.graded c.graded = .error .formatScore := by
  have hparts : on.judge c = .ok .accept → on.judge (c.withAlbums ids) = .ok .accept := by
    intro haccept
    apply Chain.judge_eq_accept_iff.mpr
    intro r hr
    exact objection_of_sublist hsub hmin hmax hne (Chain.judge_eq_accept_iff.mp haccept r hr)
  refine ⟨hparts, ?_⟩
  intro rejection hpart
  cases hwhole : on.judge c with
  | error e =>
    cases e
    exact .inr ⟨rfl, exists_held_of_judge_eq_error hsub hmin hmax hne hpart hwhole⟩
  | ok verdict =>
    cases verdict with
    | reject rejection' => exact .inl ⟨rejection', rfl⟩
    | accept =>
      rw [hparts hwhole] at hpart
      cases hpart

end Circumstances

def flacPair : Candidate where
  artistId := 7
  albumIds := [40, 41]
  grade := ⟨⟨13, "FLAC"⟩, {}⟩
  release := { title := "Artist - Albums" }

/-- Upgrades are not allowed, a tag may occur only once, and both albums are held: the first one in
FLAC with those tags, the second one in that tier. -/
def shelved (tier : Quality) (tags : List FormatTag) : Circumstances where
  profile :=
    { upgradeAllowed := false, cutoff := 13
      items := [⟨⟨9, "MP3-320"⟩, true⟩, ⟨⟨13, "FLAC"⟩, true⟩]
      formatScores := [⟨{ id := 1, name := "Preferred Group" }, 2147483647⟩] }
  held := [⟨7, 40, ⟨⟨13, "FLAC"⟩, {}⟩, tags⟩, ⟨7, 41, ⟨tier, {}⟩, []⟩]

/-- Neither album would be upgraded, together or alone. -/
theorem flacPair_accepted_in_parts :
    (shelved ⟨13, "FLAC"⟩ []).judge flacPair = .ok .accept ∧
      (shelved ⟨13, "FLAC"⟩ []).judge (flacPair.withAlbums [41]) = .ok .accept := by
  have hsub : [41].Sublist flacPair.albumIds := .cons 40 (.refl [41])
  have haccept : (shelved ⟨13, "FLAC"⟩ []).judge flacPair = .ok .accept := rfl
  exact ⟨haccept, (Circumstances.accepts_jointly rfl rfl (by simp) hsub).1 haccept⟩

/-- The first album is held with tags whose scores overflow. -/
def overscored : Circumstances :=
  shelved ⟨9, "MP3-320"⟩ (.replicate 2 { id := 1, name := "Preferred Group" })

/-- The second album would be upgraded and is refused; for both albums the score of the first one
overflows, and there is no verdict. -/
theorem refused_part_leaves_no_verdict :
    overscored.settings.minSize = none ∧ overscored.settings.maxSize = none ∧
      41 ∈ flacPair.albumIds ∧
      overscored.judge (flacPair.withAlbums [41]) =
        .ok (.reject (Objection.wouldUpgrade ⟨⟨9, "MP3-320"⟩, {}⟩ "").rejection) ∧
      overscored.judge flacPair = .error .formatScore :=
  ⟨rfl, rfl, by simp [flacPair], rfl, rfl⟩

end ReleaseWarden
