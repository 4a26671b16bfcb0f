import ReleaseWarden.Proofs.Admission.Demands
import ReleaseWarden.Proofs.Ranking.Revisions

/-! The cutoff under upgrades. An accepted candidate that is at least as good as an item at the
cutoff is at the cutoff itself: its tier is not lower, and its score reaches the minimum because a
rule asks for it. So however a library is upgraded, no album falls below the cutoff again. -/

set_option autoImplicit false

namespace ReleaseWarden

namespace Profile

variable {p : Profile} {held c : Graded}

theorem cutoffMet_eq_true_iff : p.cutoffMet c = .ok true ↔
    (∃ rank ∈ p.rank? c.grade.quality, ∃ cutoff ∈ p.cutoffRank?, cutoff ≤ rank) ∧
      ∃ score, p.formatScore c.formats = .ok score ∧ p.minFormatScore.toInt ≤ score := by
  unfold cutoffMet
  cases p.rank? c.grade.quality with
  | none => simp [pure, Except.pure]
  | some rank =>
    cases p.cutoffRank? with
    | none => simp [pure, Except.pure]
    | some cutoff =>
      by_cases hle : cutoff ≤ rank
      · simp [hle, bind_eq_ok_iff, pure, Except.pure]
      · simp [hle, pure, Except.pure]

theorem exists_cutoffMet {score : ℤ} (h : p.formatScore c.formats = .ok score) :
    ∃ met, p.cutoffMet c = .ok met := by
  unfold cutoffMet
  split
  · split
    · exact ⟨_, by rw [h]; rfl⟩
    · exact ⟨false, rfl⟩
  · exact ⟨false, rfl⟩

theorem exists_rank_of_atLeast {rank : ℕ} (h : p.AtLeast held c)
    (hrank : p.rank? held.grade.quality = some rank) :
    ∃ rank', p.rank? c.grade.quality = some rank' ∧ rank ≤ rank' := by
  have hle : p.rankStanding held.grade.quality ≤ p.rankStanding c.grade.quality := by
    rcases Prod.Lex.toLex_le_toLex.mp (gradeStanding_le_of_atLeast h) with hlt | ⟨heq, _⟩
    · exact hlt.le
    · exact heq.le
  unfold rankStanding at hle
  rw [hrank] at hle
  cases hc : p.rank? c.grade.quality with
  | none =>
    rw [hc] at hle
    exact absurd hle (WithBot.not_coe_le_bot rank)
  | some rank' =>
    rw [hc] at hle
    exact ⟨rank', rfl, WithBot.coe_le_coe.mp hle⟩

end Profile

theorem Circumstances.exists_formatScore {on : Circumstances} {c : Candidate}
    (h : on.judge c = .ok .accept) :
    ∃ score, on.profile.formatScore c.formats = .ok score ∧
      on.profile.minFormatScore.toInt ≤ score :=
  scoreObjection_eq_none_iff.mp (objection_of_accept h (r := .minimumFormatScore) (by decide))

theorem Circumstances.cutoffMet_of_accept {on : Circumstances} {c : Candidate} {held : Graded}
    (haccept : on.judge c = .ok .accept) (hmet : on.profile.cutoffMet held = .ok true)
    (hle : on.profile.AtLeast held c.graded) : on.profile.cutoffMet c.graded = .ok true := by
  obtain ⟨⟨rank, hrank, cutoff, hcutoff, hreached⟩, _⟩ := Profile.cutoffMet_eq_true_iff.mp hmet
  obtain ⟨rank', hrank', hle'⟩ := Profile.exists_rank_of_atLeast hle hrank
  exact Profile.cutoffMet_eq_true_iff.mpr
    ⟨⟨rank', hrank', cutoff, hcutoff, hreached.trans hle'⟩, exists_formatScore haccept⟩

namespace Library

def album (i : LibraryItem) : Int64 × Int64 := (i.artistId, i.albumId)

def holding (c : Candidate) (albumId : Int64) : LibraryItem where
  artistId := c.artistId
  albumId
  grade := c.grade
  formats := c.formats

/-- An accepted candidate that is at least as good takes the place of an item. -/
inductive Replaces (p : Profile) : List LibraryItem → List LibraryItem → Prop
  | item {before after : List LibraryItem} {held : LibraryItem} {on : Circumstances}
      {c : Candidate} : on.profile = p → on.judge c = .ok .accept → held.artistId = c.artistId →
      held.albumId ∈ c.albumIds → p.AtLeast held.graded c.graded →
      Replaces p (before ++ held :: after) (before ++ holding c held.albumId :: after)

variable {p : Profile}

theorem cutoffUnmet_cons {i : LibraryItem} {items unmet : List LibraryItem} :
    p.cutoffUnmet (i :: items) = .ok unmet ↔ ∃ met rest, p.cutoffMet i.graded = .ok met ∧
      p.cutoffUnmet items = .ok rest ∧ unmet = if met then rest else i :: rest := by
  rw [Profile.cutoffUnmet]
  constructor
  · intro h
    obtain ⟨met, hmet, h⟩ := bind_eq_ok_iff.mp h
    obtain ⟨rest, hrest, h⟩ := bind_eq_ok_iff.mp h
    exact ⟨met, rest, hmet, hrest, (Except.ok.inj h).symm⟩
  · rintro ⟨met, rest, hmet, hrest, rfl⟩
    exact bind_eq_ok_iff.mpr ⟨met, hmet, bind_eq_ok_iff.mpr ⟨rest, hrest, rfl⟩⟩

theorem cutoffUnmet_append {items later unmet : List LibraryItem} :
    p.cutoffUnmet (items ++ later) = .ok unmet ↔ ∃ first rest, p.cutoffUnmet items = .ok first ∧
      p.cutoffUnmet later = .ok rest ∧ unmet = first ++ rest := by
  induction items generalizing unmet with
  | nil =>
    constructor
    · exact fun h => ⟨[], unmet, rfl, h, rfl⟩
    · rintro ⟨first, rest, hfirst, hrest, rfl⟩
      cases hfirst
      exact hrest
  | cons i items ih =>
    rw [List.cons_append, cutoffUnmet_cons]
    simp only [cutoffUnmet_cons, ih]
    constructor
    · rintro ⟨met, _, hmet, ⟨first, rest, hfirst, hrest, rfl⟩, rfl⟩
      refine ⟨_, rest, ⟨met, first, hmet, hfirst, rfl⟩, hrest, ?_⟩
      cases met <;> rfl
    · rintro ⟨_, rest, ⟨met, first, hmet, hfirst, rfl⟩, hrest, rfl⟩
      refine ⟨met, _, hmet, ⟨first, rest, hfirst, hrest, rfl⟩, ?_⟩
      cases met <;> rfl

theorem cutoffUnmet_holding {on : Circumstances} {c : Candidate} {held : LibraryItem}
    {after unmet : List LibraryItem} (haccept : on.judge c = .ok .accept)
    (hartist : held.artistId = c.artistId) (hle : on.profile.AtLeast held.graded c.graded)
    (h : on.profile.cutoffUnmet (held :: after) = .ok unmet) :
    ∃ unmet', on.profile.cutoffUnmet (holding c held.albumId :: after) = .ok unmet' ∧
      (unmet'.map album).Sublist (unmet.map album) := by
  obtain ⟨met, rest, hmet, hrest, rfl⟩ := cutoffUnmet_cons.mp h
  obtain ⟨score, hscore, _⟩ := Circumstances.exists_formatScore haccept
  obtain ⟨met', hmet'⟩ := Profile.exists_cutoffMet (c := c.graded) hscore
  refine ⟨_, cutoffUnmet_cons.mpr ⟨met', rest, hmet', hrest, rfl⟩, ?_⟩
  cases met with
  | true =>
    have hkept := Circumstances.cutoffMet_of_accept haccept hmet hle
    cases hmet'.symm.trans hkept
    exact .refl _
  | false =>
    cases met' with
    | true => exact .cons (album held) (.refl _)
    | false =>
      have halbum : album (holding c held.albumId) = album held := Prod.ext hartist.symm rfl
      simp [halbum]

/-- A replaced item leaves the list of what is below the cutoff or stays on it; no album is put
there. -/
theorem cutoffUnmet_of_replaces {items items' unmet : List LibraryItem}
    (h : Replaces p items items') (hunmet : p.cutoffUnmet items = .ok unmet) :
    ∃ unmet', p.cutoffUnmet items' = .ok unmet' ∧
      (unmet'.map album).Sublist (unmet.map album) := by
  cases h with
  | item hprofile haccept hartist _ hle =>
    subst hprofile
    obtain ⟨first, rest, hfirst, hrest, rfl⟩ := cutoffUnmet_append.mp hunmet
    obtain ⟨rest', hrest', hsub⟩ := cutoffUnmet_holding haccept hartist hle hrest
    refine ⟨first ++ rest', cutoffUnmet_append.mpr ⟨first, rest', hfirst, hrest', rfl⟩, ?_⟩
    rw [List.map_append, List.map_append]
    exact (List.Sublist.refl _).append hsub

theorem cutoffUnmet_of_run {items items' unmet : List LibraryItem}
    (h : Relation.ReflTransGen (Replaces p) items items')
    (hunmet : p.cutoffUnmet items = .ok unmet) :
    ∃ unmet', p.cutoffUnmet items' = .ok unmet' ∧
      (unmet'.map album).Sublist (unmet.map album) := by
  induction h with
  | refl => exact ⟨unmet, hunmet, .refl _⟩
  | tail _ hstep ih =>
    obtain ⟨between, hbetween, hsub⟩ := ih
    obtain ⟨unmet', hunmet', hsub'⟩ := cutoffUnmet_of_replaces hstep hbetween
    exact ⟨unmet', hunmet', hsub'.trans hsub⟩

/-- Under every profile, an accepted candidate that is preferred over an item at the cutoff or as
good, and so every accepted upgrade of it, is at the cutoff. However often items are replaced like
that, no album comes to stand below the cutoff. -/
theorem upgrades_keep_cutoff (p : Profile) :
    (∀ (on : Circumstances) (c : Candidate) (held : LibraryItem), on.profile = p →
      on.judge c = .ok .accept → p.cutoffMet held.graded = .ok true →
        (p.AtLeast held.graded c.graded → p.cutoffMet c.graded = .ok true) ∧
        (p.isUpgrade held.graded c.graded = .ok true → p.cutoffMet c.graded = .ok true)) ∧
    ∀ items items' unmet, Relation.ReflTransGen (Replaces p) items items' →
      p.cutoffUnmet items = .ok unmet →
        ∃ unmet', p.cutoffUnmet items' = .ok unmet' ∧
          (unmet'.map album).Sublist (unmet.map album) := by
  constructor
  · rintro on c held rfl haccept hmet
    have hkeeps := Circumstances.cutoffMet_of_accept haccept hmet
    exact ⟨hkeeps, fun hupgrade => hkeeps (.inl (on.profile.prefer_of_isUpgrade hupgrade))⟩
  · intro items items' unmet hrun hunmet
    exact cutoffUnmet_of_run hrun hunmet

/-- A score of 5 is asked for, and the higher tier scores lower than the tier of the cutoff. -/
def exacting : Profile where
  upgradeAllowed := true
  cutoff := 13
  items := [⟨⟨9, "MP3-320"⟩, true⟩, ⟨⟨13, "FLAC"⟩, true⟩, ⟨⟨14, "FLAC 24bit"⟩, true⟩]
  formatScores := [⟨{ id := 1, name := "Preferred Group" }, 10⟩, ⟨{ id := 2, name := "Web" }, 5⟩]
  minFormatScore := 5

def hiresOf (albumId : Int64) : Candidate where
  artistId := 7
  albumIds := [albumId]
  grade := ⟨⟨14, "FLAC 24bit"⟩, {}⟩
  formats := [{ id := 2, name := "Web" }]
  release := { title := "Artist - Album" }

def flacHeld : LibraryItem where
  artistId := 7
  albumId := 40
  grade := ⟨⟨13, "FLAC"⟩, {}⟩
  formats := [{ id := 1, name := "Preferred Group" }]

def mp3Held : LibraryItem where
  artistId := 7
  albumId := 41
  grade := ⟨⟨9, "MP3-320"⟩, {}⟩

/-- The upgrade scores lower than the item and is at the cutoff; the other album stays below. -/
theorem hires_keeps_cutoff :
    Circumstances.judge { profile := exacting } (hiresOf 40) = .ok .accept ∧
      exacting.cutoffMet flacHeld.graded = .ok true ∧
      exacting.isUpgrade flacHeld.graded (hiresOf 40).graded = .ok true ∧
      exacting.cutoffMet (hiresOf 40).graded = .ok true ∧
      ∃ unmet, exacting.cutoffUnmet [holding (hiresOf 40) 40, mp3Held] = .ok unmet ∧
        (unmet.map album).Sublist [(7, 41)] := by
  have haccept : Circumstances.judge { profile := exacting } (hiresOf 40) = .ok .accept := rfl
  have hmet : exacting.cutoffMet flacHeld.graded = .ok true := rfl
  have hupgrade : exacting.isUpgrade flacHeld.graded (hiresOf 40).graded = .ok true := rfl
  have hstep : Replaces exacting [flacHeld, mp3Held] [holding (hiresOf 40) 40, mp3Held] :=
    @Replaces.item exacting [] [mp3Held] flacHeld _ (hiresOf 40) rfl haccept rfl
      (by simp [hiresOf, flacHeld]) (.inl rfl)
  obtain ⟨hkeeps, hrun⟩ := upgrades_keep_cutoff exacting
  exact ⟨haccept, hmet, hupgrade, (hkeeps _ _ flacHeld rfl haccept hmet).2 hupgrade,
    hrun _ _ [mp3Held] (.single hstep) rfl⟩

end Library

end ReleaseWarden
