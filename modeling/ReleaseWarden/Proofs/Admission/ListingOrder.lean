import ReleaseWarden.Proofs.Admission.QueueRule
import ReleaseWarden.Proofs.Ranking.BoundedScores

/-! The order in which things are listed. Held items and queue entries are looked through up to the
first that decides, and scores are summed from the left; for tags of bounded scores neither the
acceptance of a candidate nor the rule that turns it away hangs on any of these orders. -/

set_option autoImplicit false

namespace ReleaseWarden

/-- The elements of the second list, in another order, are those of the first one as the relation
allows them to change. -/
def PermUpTo {α β : Type} (R : α → β → Prop) (as : List α) (bs : List β) : Prop :=
  ∃ middle, as.Perm middle ∧ List.Forall₂ R middle bs

theorem PermUpTo.forall_mem_iff {α β : Type} {R : α → β → Prop} {as : List α} {bs : List β}
    {P : α → Prop} {Q : β → Prop} (h : PermUpTo R as bs)
    (hPQ : ∀ a ∈ as, ∀ b, R a b → (P a ↔ Q b)) : (∀ a ∈ as, P a) ↔ ∀ b ∈ bs, Q b := by
  obtain ⟨middle, hperm, hforall⟩ := h
  simp only [hperm.mem_iff] at hPQ ⊢
  clear hperm
  induction hforall with
  | nil => exact iff_of_true nofun nofun
  | cons hab _ ih =>
    obtain ⟨hfirst, hrest⟩ := List.forall_mem_cons.mp hPQ
    rw [List.forall_mem_cons, List.forall_mem_cons, hfirst _ hab, ih hrest]

theorem exists_firstScored {α : Type} {test : α → Scored Bool} {as : List α}
    (h : ∀ a ∈ as, ∃ found, test a = .ok found) : ∃ first, firstScored test as = .ok first := by
  induction as with
  | nil => exact ⟨none, rfl⟩
  | cons a as ih =>
    obtain ⟨⟨found, ha⟩, has⟩ := List.forall_mem_cons.mp h
    rw [firstScored, ha]
    cases found with
    | true => exact ⟨some a, rfl⟩
    | false => exact ih has

/-- The same candidate with its albums and its tags in another order. -/
structure Candidate.Rearranged (c c' : Candidate) : Prop where
  artistId : c'.artistId = c.artistId
  albumIds : c.albumIds.Perm c'.albumIds
  grade : c'.grade = c.grade
  formats : c.formats.Perm c'.formats
  release : c'.release = c.release

structure LibraryItem.Rearranged (i i' : LibraryItem) : Prop where
  artistId : i'.artistId = i.artistId
  albumId : i'.albumId = i.albumId
  grade : i'.grade = i.grade
  formats : i.formats.Perm i'.formats

structure QueueEntry.Rearranged (e e' : QueueEntry) : Prop where
  candidate : e.candidate.Rearranged e'.candidate
  state : e'.state = e.state
  downloadId : e'.downloadId = e.downloadId

theorem Candidate.Rearranged.graded {c c' : Candidate} (h : c.Rearranged c') :
    c.graded.Rearranged c'.graded := ⟨h.grade, h.formats⟩

theorem LibraryItem.Rearranged.graded {i i' : LibraryItem} (h : i.Rearranged i') :
    i.graded.Rearranged i'.graded := ⟨h.grade, h.formats⟩

namespace Circumstances

/-- The same circumstances with the library, the queue and all tags in another order. -/
structure Rearranged (on on' : Circumstances) : Prop where
  profile : on'.profile = on.profile
  settings : on'.settings = on.settings
  search : on'.search = on.search
  held : PermUpTo LibraryItem.Rearranged on.held on'.held
  queue : PermUpTo QueueEntry.Rearranged on.queue on'.queue

/-- The scores of the tags are bounded for the candidate, for what is held and for each grab. -/
structure Bounds (on : Circumstances) (c : Candidate) : Prop where
  candidate : on.profile.Bounds c.formats
  held : ∀ h ∈ on.held, on.profile.Bounds h.formats
  queue : ∀ e ∈ on.queue, on.profile.Bounds e.candidate.formats

variable {on on' : Circumstances} {c c' : Candidate}

theorem exists_upgradeObjection (h : on.Bounds c) : ∃ o, on.upgradeObjection c = .ok o := by
  have hconcerned : ∀ i ∈ on.held.filter fun i =>
      i.artistId == c.artistId && c.albumIds.contains i.albumId,
        ∃ replaces, on.profile.isUpgrade i.graded c.graded = .ok replaces := by
    intro i hi
    have hitem : on.profile.Bounds i.graded.formats := h.held i (List.mem_filter.mp hi).1
    exact Profile.exists_isUpgrade hitem h.candidate
  obtain ⟨blocked, hblocked⟩ := exists_firstScored hconcerned
  unfold upgradeObjection
  split
  · exact ⟨none, rfl⟩
  · exact ⟨_, bind_eq_ok_iff.mpr ⟨blocked, hblocked, rfl⟩⟩

theorem exists_queueObjection (h : on.Bounds c) : ∃ o, on.queueObjection c = .ok o := by
  rcases on.queue.exists_first (·.Stops on.profile c) with hclear | ⟨e, hfirst⟩
  · exact ⟨none, queueObjection_clear hclear⟩
  · obtain ⟨front, back, hqueue, hfront, he⟩ := hfirst
    have hmem : e ∈ on.queue := hqueue ▸ List.mem_append_right front List.mem_cons_self
    have hfirst : { on with queue := front ++ e :: back }.queueObjection c =
        (on.objectionTo c e).map some := queueObjection_first hfront he
    rw [← hqueue] at hfirst
    cases ho : on.objectionTo c e with
    | ok o => exact ⟨some o, hfirst.trans (congrArg (Except.map some) ho)⟩
    | error cause =>
      have hentry : on.profile.Bounds e.candidate.graded.formats := h.queue e hmem
      have hcandidate : on.profile.Bounds c.graded.formats := h.candidate
      obtain ⟨replaces, hreplaces⟩ := Profile.exists_isUpgrade hentry hcandidate
      exact nomatch hreplaces.symm.trans (objectionTo_eq_error_iff.mp ho).2.2

theorem exists_objection (h : on.Bounds c) (r : Rule) : ∃ o, r.objection on c = .ok o := by
  cases r with
  | upgradePermitted => exact exists_upgradeObjection h
  | minimumFormatScore =>
    have hscore : on.profile.formatScore c.formats = .ok (on.profile.exactScore c.formats) :=
      Profile.formatScore_of_bounds h.candidate
    exact ⟨_, bind_eq_ok_iff.mpr ⟨_, hscore, rfl⟩⟩
  | queueConflict => exact exists_queueObjection h
  | qualityAllowed | size | seeders | age | encryption => exact ⟨_, rfl⟩

section Rearranged

variable (hon : on.Rearranged on') (hc : c.Rearranged c')
include hon hc

theorem Bounds.rearranged (h : on.Bounds c) : on'.Bounds c' := by
  constructor
  · rw [hon.profile]
    exact (Profile.bounds_iff_of_perm hc.formats).mpr h.candidate
  · rw [hon.profile]
    exact (hon.held.forall_mem_iff fun i _ i' hi =>
      (Profile.bounds_iff_of_perm hi.formats).symm).mp h.held
  · rw [hon.profile]
    exact (hon.queue.forall_mem_iff fun e _ e' he =>
      (Profile.bounds_iff_of_perm he.candidate.formats).symm).mp h.queue

theorem qualityObjection_rearranged :
    on'.qualityObjection c' = none ↔ on.qualityObjection c = none := by
  have hempty : c'.albumIds = [] ↔ c.albumIds = [] := by
    rw [← List.length_eq_zero_iff, ← hc.albumIds.length_eq, List.length_eq_zero_iff]
  rw [qualityObjection_eq_none_iff, qualityObjection_eq_none_iff, hon.profile, hc.grade, ne_eq,
    hempty]

theorem upgradeObjection_rearranged (h : on.Bounds c) :
    on'.upgradeObjection c' = .ok none ↔ on.upgradeObjection c = .ok none := by
  rw [upgradeObjection_eq_none_iff, upgradeObjection_eq_none_iff, hon.profile]
  apply imp_congr_right
  intro _
  symm
  apply hon.held.forall_mem_iff
  intro i hi i' hii'
  rw [hii'.artistId, hii'.albumId, hc.artistId, hc.albumIds.mem_iff,
    Profile.isUpgrade_of_rearranged (h.held i hi) h.candidate hii'.graded hc.graded]

theorem scoreObjection_rearranged (h : on.Bounds c) :
    on'.scoreObjection c' = on.scoreObjection c := by
  simp only [scoreObjection, hon.profile, Profile.formatScore_of_perm h.candidate hc.formats]

theorem sizeObjection_rearranged : on'.sizeObjection c' = on.sizeObjection c := by
  simp only [sizeObjection, hon.settings, hc.release, hc.albumIds.length_eq]

theorem ageObjection_rearranged : on'.ageObjection c' = on.ageObjection c := by
  have hinteractive : on'.isInteractive = on.isInteractive := by
    rw [isInteractive, hon.search, isInteractive]
  rw [ageObjection, hon.settings, hc.release, hinteractive]
  rfl

theorem stops_rearranged (h : on.Bounds c) {e e' : QueueEntry} (hmem : e ∈ on.queue)
    (he : e.Rearranged e') : e.Stops on.profile c ↔ e'.Stops on'.profile c' := by
  have hmeets : e.Meets { candidate := c } ↔ e'.Meets { candidate := c' } := by
    simp only [QueueEntry.Meets, he.candidate.artistId, hc.artistId,
      he.candidate.albumIds.mem_iff, hc.albumIds.mem_iff]
  have hlive : e.IsLive ↔ e'.IsLive := by rw [QueueEntry.IsLive, QueueEntry.IsLive, he.state]
  have hupgrade : on.profile.isUpgrade e'.candidate.graded c'.graded =
      on.profile.isUpgrade e.candidate.graded c.graded :=
    Profile.isUpgrade_of_rearranged (h.queue e hmem) h.candidate he.candidate.graded hc.graded
  rw [QueueEntry.Stops, QueueEntry.Stops, hmeets, hlive, hon.profile, hupgrade,
    hc.albumIds.length_eq]

theorem queueObjection_rearranged (h : on.Bounds c) :
    on'.queueObjection c' = .ok none ↔ on.queueObjection c = .ok none := by
  have haccept (on : Circumstances) (c : Candidate) :
      on.queueObjection c = .ok none ↔ ∀ e ∈ on.queue, ¬ e.Stops on.profile c :=
    Rule.judge_eq_accept_iff.symm.trans judge_queue_eq_accept_iff
  rw [haccept, haccept]
  symm
  apply hon.queue.forall_mem_iff
  intro e hmem e' he
  exact not_congr (stops_rearranged hon hc h hmem he)

theorem objection_rearranged (h : on.Bounds c) (r : Rule) :
    r.objection on' c' = .ok none ↔ r.objection on c = .ok none := by
  cases r with
  | qualityAllowed =>
    have hquality := qualityObjection_rearranged hon hc
    exact ⟨fun h => congrArg _ (hquality.mp (Except.ok.inj h)),
      fun h => congrArg _ (hquality.mpr (Except.ok.inj h))⟩
  | upgradePermitted => exact upgradeObjection_rearranged hon hc h
  | minimumFormatScore =>
    rw [Rule.objection, Rule.objection, scoreObjection_rearranged hon hc h]
  | size => rw [Rule.objection, Rule.objection, sizeObjection_rearranged hon hc]
  | seeders => simp only [Rule.objection, seedersObjection, hon.settings, hc.release]
  | age => rw [Rule.objection, Rule.objection, ageObjection_rearranged hon hc]
  | encryption => simp only [Rule.objection, encryptionObjection, hon.settings, hc.release]
  | queueConflict => exact queueObjection_rearranged hon hc h

theorem refuses_rearranged (h : on.Bounds c) (r : Rule) :
    r.refuses on' c' = r.refuses on c := by
  obtain ⟨o, ho⟩ := exists_objection h r
  obtain ⟨o', ho'⟩ := exists_objection (h.rearranged hon hc) r
  have hnone := objection_rearranged hon hc h r
  rw [ho, ho', Except.ok.injEq, Except.ok.injEq] at hnone
  rw [Rule.refuses, Rule.refuses, ho, ho']
  cases o with
  | none =>
    obtain rfl := hnone.mpr rfl
    rfl
  | some objection =>
    cases o' with
    | none => exact nomatch hnone.mp rfl
    | some objection' => rfl

/-- The order of listing decides nothing. Let the scores of the tags, taken without their signs,
sum to no more than 32 bits hold, for the candidate, for each held item and for each grab. Then
there is a verdict, and it is an acceptance, or a rejection by the same rule, in whatever order the
library, the queue, the albums of the candidate and all tags are listed; and so it is with every
chain. -/
theorem listing_order_decides_nothing (h : on.Bounds c) :
    (∃ verdict, on.judge c = .ok verdict) ∧
    (on'.judge c').map Verdict.rule? = (on.judge c).map Verdict.rule? ∧
    ∀ rs : Chain, (∃ verdict, rs.judge on c = .ok verdict) ∧
      (rs.judge on' c').map Verdict.rule? = (rs.judge on c).map Verdict.rule? := by
  have hverdict (rs : Chain) : ∃ verdict, rs.judge on c = .ok verdict := by
    cases hjudge : rs.judge on c with
    | ok verdict => exact ⟨verdict, rfl⟩
    | error e =>
      obtain ⟨r, _, herror, _⟩ := Chain.judge_eq_error_iff.mp hjudge
      obtain ⟨o, ho⟩ := exists_objection h r
      exact nomatch ho.symm.trans herror
  have hrefusal (rs : Chain) : rs.refusal on' c' = rs.refusal on c :=
    Chain.refusal_congr_of_refuses fun r _ => refuses_rearranged hon hc h r
  exact ⟨hverdict Chain.standard, hrefusal Chain.standard,
    fun rs => ⟨hverdict rs, hrefusal rs⟩⟩

end Rearranged

end Circumstances

def preferredTag : FormatTag := { id := 1, name := "Preferred Group" }

def webTag : FormatTag := { id := 2, name := "Web" }

def taggedItem (album : Int64) (tags : List FormatTag) : LibraryItem :=
  ⟨7, album, ⟨⟨13, "FLAC"⟩, {}⟩, tags⟩

def taggedOffer (albums : List Int64) (tags : List FormatTag) (title : String) : Candidate where
  artistId := 7
  albumIds := albums
  grade := ⟨⟨13, "FLAC"⟩, {}⟩
  formats := tags
  release := { title }

/-- No upgrades, and the scores of the two tags partly cancel out. -/
def stocked (held : List LibraryItem) (queue : Queue) : Circumstances where
  profile :=
    { upgradeAllowed := false, cutoff := 13, items := [⟨⟨13, "FLAC"⟩, true⟩]
      formatScores := [⟨preferredTag, 10⟩, ⟨webTag, -5⟩] }
  held
  queue

def inOrder : Circumstances :=
  stocked [taggedItem 40 [preferredTag, webTag], taggedItem 41 [preferredTag]]
    [{ candidate := taggedOffer [40] [webTag] "First" },
      { candidate := taggedOffer [41] [preferredTag, webTag] "Second" }]

def inReverse : Circumstances :=
  stocked [taggedItem 41 [preferredTag], taggedItem 40 [webTag, preferredTag]]
    [{ candidate := taggedOffer [41] [webTag, preferredTag] "Second" },
      { candidate := taggedOffer [40] [webTag] "First" }]

/-- The rule on the queue refuses in both orders, and the reasons name different grabs. -/
theorem pair_refused_in_both_orders :
    inOrder.judge (taggedOffer [40, 41] [preferredTag, webTag] "Pair") =
      .ok (.reject (Objection.overlapsQueued "First").rejection) ∧
    inReverse.judge (taggedOffer [41, 40] [webTag, preferredTag] "Pair") =
      .ok (.reject (Objection.overlapsQueued "Second").rejection) ∧
    (inReverse.judge (taggedOffer [41, 40] [webTag, preferredTag] "Pair")).map Verdict.rule? =
      (inOrder.judge (taggedOffer [40, 41] [preferredTag, webTag] "Pair")).map Verdict.rule? := by
  have hon : inOrder.Rearranged inReverse :=
    { profile := rfl
      settings := rfl
      search := rfl
      held := ⟨_, .swap _ _ _, .cons ⟨rfl, rfl, rfl, .refl _⟩
        (.cons ⟨rfl, rfl, rfl, .swap _ _ _⟩ .nil)⟩
      queue := ⟨_, .swap _ _ _, .cons ⟨⟨rfl, .refl _, rfl, .swap _ _ _, rfl⟩, rfl, rfl⟩
        (.cons ⟨⟨rfl, .refl _, rfl, .refl _, rfl⟩, rfl, rfl⟩ .nil)⟩ }
  have hc : (taggedOffer [40, 41] [preferredTag, webTag] "Pair").Rearranged
      (taggedOffer [41, 40] [webTag, preferredTag] "Pair") :=
    ⟨rfl, .swap _ _ _, rfl, .swap _ _ _, rfl⟩
  have hbounds : inOrder.Bounds (taggedOffer [40, 41] [preferredTag, webTag] "Pair") :=
    { candidate := by decide
      held := by decide
      queue := by decide }
  exact ⟨rfl, rfl, (Circumstances.listing_order_decides_nothing hon hc hbounds).2.1⟩

end ReleaseWarden
