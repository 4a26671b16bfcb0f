import ReleaseWarden.Proofs.Admission.Demands
import ReleaseWarden.Proofs.Admission.QueueSafety
import ReleaseWarden.Proofs.Ranking.Revisions

/-! Admission under a profile without upgrades. An accepted candidate meets no live grab, and it is
better than nothing that is held of its albums but for a proper that the policy does not force. -/

set_option autoImplicit false

namespace ReleaseWarden

namespace Profile

variable {p : Profile} {held c : Graded}

theorem prefer_of_withholds (h : p.Withholds held.grade c.grade) :
    p.prefer held c = .ok .better := by
  obtain ⟨hpolicy, htier, hrevision⟩ := h
  have hsame : p.tier c.grade.quality = p.tier held.grade.quality := by
    unfold tier rank?
    rw [htier]
  have hgt : p.gradeOrder c.grade held.grade = .gt := by
    rw [gradeOrder, hsame, Nat.compare_eq_eq.mpr rfl, hpolicy, if_neg (by decide), hrevision]
    rfl
  have hne : p.gradeOrder c.grade held.grade ≠ .eq := by
    rw [hgt]
    decide
  rw [p.prefer_of_ne_eq hne, hgt]
  rfl

theorem isUpgrade_eq_false_iff : p.isUpgrade held c = .ok false ↔
    ∃ preference, p.prefer held c = .ok preference ∧
      (preference = .better ↔ p.Withholds held.grade c.grade) := by
  by_cases hw : p.Withholds held.grade c.grade
  · apply iff_of_true (isUpgrade_of_withholds hw)
    exact ⟨.better, prefer_of_withholds hw, iff_of_true rfl hw⟩
  · rw [isUpgrade_eq_map hw]
    cases p.prefer held c with
    | error e => exact iff_of_false nofun (by rintro ⟨_, h, _⟩; cases h)
    | ok preference => simp [Except.map, hw]

end Profile

/-- Where the profile allows no upgrades, an accepted candidate shares no album with a live grab of
its artist, and one for several albums shares none with any grab. Over a held release of one of its
albums it is not preferred, unless it is a proper that the policy does not force: the same tier in a
higher revision. -/
theorem Circumstances.accepts_no_upgrade {on : Circumstances} {c : Candidate}
    (hno : on.profile.upgradeAllowed = false) (haccept : on.judge c = .ok .accept) :
    (∀ e ∈ on.queue, e.IsLive → ¬ e.Meets { candidate := c }) ∧
    (1 < c.albumIds.length → ∀ e ∈ on.queue, ¬ e.Meets { candidate := c }) ∧
    ∀ held ∈ on.held, held.artistId = c.artistId → held.albumId ∈ c.albumIds →
      ∃ preference, on.profile.prefer held.graded c.graded = .ok preference ∧
        (preference = .better ↔ on.profile.properPolicy = .preferButDoNotForce ∧
          held.grade.quality.id = c.grade.quality.id ∧
          c.grade.revision.order held.grade.revision = .gt) := by
  refine ⟨?_, ?_, ?_⟩
  · intro e he hlive hmeets
    have hconcerns : e.concerns c = true := QueueEntry.concerns_iff.mpr hmeets
    obtain ⟨hallowed, _⟩ := (isUpgrade_of_accept haccept he hconcerns).2 hlive
    rw [hno] at hallowed
    cases hallowed
  · intro hseveral e he hmeets
    have hconcerns : e.concerns c = true := QueueEntry.concerns_iff.mpr hmeets
    have hmulti := (isUpgrade_of_accept haccept he hconcerns).1
    have hsingle : ¬ 1 < c.albumIds.length := by simpa [Candidate.isMultiAlbum] using hmulti
    exact hsingle hseveral
  · intro held hheld hartist halbum
    have hnone : on.upgradeObjection c = .ok none :=
      objection_of_accept haccept (r := .upgradePermitted) (by decide)
    have hkept := upgradeObjection_eq_none_iff.mp hnone hno held hheld hartist halbum
    exact Profile.isUpgrade_eq_false_iff.mp hkept

def flacOf (albumId : Int64) (version : Int32) : Candidate where
  artistId := 7
  albumIds := [albumId]
  grade := ⟨⟨13, "FLAC"⟩, { version }⟩
  release := { title := "Artist - Album" }

/-- No upgrades, and propers are not forced. The album is held in a lower and in a higher revision,
a grab of it has failed, and one of another album has not. -/
def finished : Circumstances where
  profile :=
    { upgradeAllowed := false, cutoff := 13, items := [⟨⟨13, "FLAC"⟩, true⟩]
      properPolicy := .preferButDoNotForce }
  held := [⟨7, 40, (flacOf 40 1).grade, []⟩, ⟨7, 40, (flacOf 40 3).grade, []⟩]
  queue := [{ candidate := flacOf 40 1, state := .failed }, { candidate := flacOf 41 1 }]

/-- The proper is preferred over the lower revision that is held, and not over the higher one. -/
theorem finished_accepts_proper : finished.judge (flacOf 40 2) = .ok .accept ∧
    (∀ e ∈ finished.queue, e.IsLive → ¬ e.Meets { candidate := flacOf 40 2 }) ∧
    finished.profile.prefer (flacOf 40 1).graded (flacOf 40 2).graded = .ok .better ∧
    ∃ preference, finished.profile.prefer (flacOf 40 3).graded (flacOf 40 2).graded =
      .ok preference ∧ preference ≠ .better := by
  have haccept : finished.judge (flacOf 40 2) = .ok .accept := rfl
  obtain ⟨hlive, _, hheld⟩ := Circumstances.accepts_no_upgrade rfl haccept
  have hlower := hheld ⟨7, 40, (flacOf 40 1).grade, []⟩ (by decide) rfl (by decide)
  have hhigher := hheld ⟨7, 40, (flacOf 40 3).grade, []⟩ (by decide) rfl (by decide)
  obtain ⟨preference, hprefer, hiff⟩ := hlower
  obtain ⟨preference', hprefer', hiff'⟩ := hhigher
  have hbetter : preference = .better := hiff.mpr ⟨rfl, rfl, rfl⟩
  have hnot : preference' ≠ .better := fun h => nomatch (hiff'.mp h).2.2
  exact ⟨haccept, hlive, hbetter ▸ hprefer, preference', hprefer', hnot⟩

end ReleaseWarden
