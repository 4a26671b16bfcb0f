import ReleaseWarden.Proofs.Admission.Albums

/-! What a verdict depends on. Of all that is held and in flight, only the items and grabs for the
candidate's artist and one of its albums matter; two runs that agree on them have one outcome. -/

set_option autoImplicit false

namespace ReleaseWarden

/-- The item is an album of the candidate. -/
def LibraryItem.IsFor (h : LibraryItem) (c : Candidate) : Prop :=
  h.artistId = c.artistId ∧ h.albumId ∈ c.albumIds

instance (h : LibraryItem) (c : Candidate) : Decidable (h.IsFor c) :=
  inferInstanceAs (Decidable (_ ∧ _))

instance (e f : QueueEntry) : Decidable (e.Meets f) :=
  inferInstanceAs (Decidable (_ ∧ _))

namespace Circumstances

/-- What is left if all that is not for an album of the candidate is taken away. -/
def about (on : Circumstances) (c : Candidate) : Circumstances where
  profile := on.profile
  settings := on.settings
  search := on.search
  held := on.held.filter fun h => h.IsFor c
  queue := on.queue.filter fun e => e.Meets { candidate := c }

variable {on on' : Circumstances} {c : Candidate}

theorem decide_isFor (h : LibraryItem) :
    decide (h.IsFor c) = (h.artistId == c.artistId && c.albumIds.contains h.albumId) := by
  rw [Bool.eq_iff_iff, decide_eq_true_iff]
  simp [LibraryItem.IsFor]

theorem decide_meets (e : QueueEntry) : decide (e.Meets { candidate := c }) = e.concerns c := by
  rw [Bool.eq_iff_iff, decide_eq_true_iff, ← QueueEntry.concerns_iff]

theorem upgradeObjection_about : (on.about c).upgradeObjection c = on.upgradeObjection c := by
  simp only [upgradeObjection, about, decide_isFor, List.filter_filter, Bool.and_self]

theorem queueObjection_about : (on.about c).queueObjection c = on.queueObjection c := by
  simp only [queueObjection, about, decide_meets, List.filter_filter, Bool.and_self]

theorem objection_about (r : Rule) : r.objection (on.about c) c = r.objection on c := by
  cases r with
  | upgradePermitted => exact upgradeObjection_about
  | queueConflict => exact queueObjection_about
  | qualityAllowed | minimumFormatScore | size | seeders | age | encryption => rfl

theorem chain_judge_about (rs : Chain) : rs.judge (on.about c) c = rs.judge on c :=
  Chain.judge_congr fun r _ => objection_about r

/-- Two runs that agree on profile, settings and search and on what is held and in flight for the
candidate's artist and albums have one outcome, whatever else is held and in flight. -/
theorem unrelated_never_matter (h : on'.about c = on.about c) :
    on'.judge c = on.judge c ∧ ∀ rs : Chain, rs.judge on' c = rs.judge on c := by
  have hchain (rs : Chain) : rs.judge on' c = rs.judge on c := by
    calc rs.judge on' c = rs.judge (on'.about c) c := (chain_judge_about rs).symm
      _ = rs.judge (on.about c) c := by rw [h]
      _ = rs.judge on c := chain_judge_about rs
  exact ⟨hchain Chain.standard, hchain⟩

end Circumstances

def beside (others : List LibraryItem) (queue : Queue) : Circumstances where
  profile :=
    { upgradeAllowed := false, cutoff := 13, items := [⟨⟨13, "FLAC"⟩, true⟩]
      formatScores := [⟨{ id := 1, name := "Preferred Group" }, 2147483647⟩] }
  held := others ++ [⟨7, 40, (Queue.grabOf 13).candidate.grade, []⟩]
  queue

def overscoredItem (artistId albumId : Int64) : LibraryItem where
  artistId
  albumId
  grade := (Queue.grabOf 13).candidate.grade
  formats := .replicate 2 { id := 1, name := "Preferred Group" }

def quiet : Circumstances := beside [] []

def crowd : Circumstances :=
  beside [overscoredItem 8 40, overscoredItem 7 41]
    [{ candidate := (Queue.grabOf 13).candidate.withAlbums [41] }]

/-- Items of another artist and of another album are not compared, so that their scores do not
overflow, and a grab of another album is no conflict. -/
theorem crowd_unseen :
    crowd.about (Queue.grabOf 13).candidate = quiet.about (Queue.grabOf 13).candidate ∧
      quiet.judge (Queue.grabOf 13).candidate = .ok .accept ∧
      crowd.judge (Queue.grabOf 13).candidate = .ok .accept := by
  have hrest : crowd.about (Queue.grabOf 13).candidate =
      quiet.about (Queue.grabOf 13).candidate := by decide
  have haccept : quiet.judge (Queue.grabOf 13).candidate = .ok .accept := rfl
  exact ⟨hrest, haccept, (Circumstances.unrelated_never_matter hrest).1.trans haccept⟩

end ReleaseWarden
