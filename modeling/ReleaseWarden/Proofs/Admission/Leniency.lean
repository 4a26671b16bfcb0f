import Mathlib.Data.List.Forall2
import ReleaseWarden.Proofs.Admission.Demands

/-! Circumstances that ask for less. Each rule that has nothing against a candidate has nothing
against it under looser circumstances, so that a chain that accepts goes on to accept. -/

set_option autoImplicit false

namespace ReleaseWarden

structure ProfileItem.Looser (i j : ProfileItem) : Prop where
  quality : j.quality = i.quality
  allowed : i.allowed = true → j.allowed = true

/-- The second profile ranks and scores like the first one and turns away no more. -/
structure Profile.Looser (p q : Profile) : Prop where
  upgradeAllowed : p.upgradeAllowed = true → q.upgradeAllowed = true
  items : List.Forall₂ ProfileItem.Looser p.items q.items
  formatScores : q.formatScores = p.formatScores
  minFormatScore : q.minFormatScore ≤ p.minFormatScore
  properPolicy : q.properPolicy = p.properPolicy

/-- Each threshold that is in force afterwards was in force before, and no looser then. -/
structure Settings.Looser (s t : Settings) : Prop where
  minSize : ∀ n ∈ t.minSize, ∃ m ∈ s.minSize, n ≤ m
  maxSize : ∀ n ∈ t.maxSize, ∃ m ∈ s.maxSize, m ≤ n
  minSeeders : ∀ n ∈ t.minSeeders, ∃ m ∈ s.minSeeders, n ≤ m
  retentionDays : ∀ n ∈ t.retentionDays, 0 < n → ∃ m ∈ s.retentionDays, 0 < m ∧ m ≤ n
  minimumAgeMinutes : ∀ n ∈ t.minimumAgeMinutes, 0 < n → ∃ m ∈ s.minimumAgeMinutes, n ≤ m
  rejectEncrypted : t.rejectEncrypted = true → s.rejectEncrypted = true

structure QueueEntry.Looser (e f : QueueEntry) : Prop where
  candidate : f.candidate = e.candidate
  isFailed : e.state.isFailed = true → f.state.isFailed = true

/-- Under the second circumstances no more is asked for, held or in flight. -/
structure Circumstances.Looser (on loose : Circumstances) : Prop where
  profile : on.profile.Looser loose.profile
  settings : on.settings.Looser loose.settings
  search : loose.search = on.search ∨ loose.search = some .interactive
  held : loose.held.Sublist on.held
  queue : List.SublistForall₂ (fun f e => e.Looser f) loose.queue on.queue

theorem saturatingMul_le_saturatingMul {a b : UInt64} (h : a ≤ b) (count : Nat) :
    saturatingMul a count ≤ saturatingMul b count := by
  have hmul : a.toNat * count ≤ b.toNat * count :=
    Nat.mul_le_mul_right count (UInt64.le_iff_toNat_le.mp h)
  unfold saturatingMul
  omega

namespace ProfileItem.Looser

variable {is js : List ProfileItem}

theorem findIdx?_eq (h : List.Forall₂ ProfileItem.Looser is js) (tier : Int32) :
    js.findIdx? (fun i => i.quality.id == tier) = is.findIdx? fun i => i.quality.id == tier := by
  induction h with
  | nil => rfl
  | cons hitem _ ih => rw [List.findIdx?_cons, List.findIdx?_cons, hitem.quality, ih]

theorem any_allowed (h : List.Forall₂ ProfileItem.Looser is js) {tier : Int32}
    (hany : (is.any fun i => i.quality.id == tier && i.allowed) = true) :
    (js.any fun i => i.quality.id == tier && i.allowed) = true := by
  induction h with
  | nil => exact hany
  | cons hitem _ ih =>
    simp only [List.any_cons, Bool.or_eq_true, Bool.and_eq_true] at hany ⊢
    rw [hitem.quality]
    exact hany.imp (fun hi => ⟨hi.1, hitem.allowed hi.2⟩) ih

end ProfileItem.Looser

namespace Profile.Looser

variable {p q : Profile}

theorem rankOf?_eq (h : p.Looser q) (tier : Int32) : q.rankOf? tier = p.rankOf? tier :=
  ProfileItem.Looser.findIdx?_eq h.items tier

theorem allows (h : p.Looser q) {tier : Quality} (hp : p.allows tier = true) :
    q.allows tier = true := ProfileItem.Looser.any_allowed h.items hp

theorem formatScore_eq (h : p.Looser q) (tags : List FormatTag) :
    q.formatScore tags = p.formatScore tags := by
  have hscore : q.scoreOf? = p.scoreOf? := by
    funext tag
    rw [scoreOf?, h.formatScores, scoreOf?]
  rw [formatScore, hscore, formatScore]

theorem isUpgrade_eq (h : p.Looser q) (held c : Graded) :
    q.isUpgrade held c = p.isUpgrade held c := by
  simp only [isUpgrade, prefer, gradeOrder, tier, rank?, h.rankOf?_eq, h.formatScore_eq,
    h.properPolicy]

theorem upgradeAllowed_eq_false (h : p.Looser q) (hq : q.upgradeAllowed = false) :
    p.upgradeAllowed = false :=
  Bool.eq_false_iff.mpr fun hp => Bool.eq_false_iff.mp hq (h.upgradeAllowed hp)

end Profile.Looser

namespace Circumstances.Looser

variable {on loose : Circumstances} {c : Candidate}

theorem qualityObjection (h : on.Looser loose) (hnone : on.qualityObjection c = none) :
    loose.qualityObjection c = none := by
  obtain ⟨halbums, hallows⟩ := qualityObjection_eq_none_iff.mp hnone
  exact qualityObjection_eq_none_iff.mpr ⟨halbums, h.profile.allows hallows⟩

theorem upgradeObjection (h : on.Looser loose) (hnone : on.upgradeObjection c = .ok none) :
    loose.upgradeObjection c = .ok none := by
  apply upgradeObjection_eq_none_iff.mpr
  intro hno held hheld hartist halbum
  rw [h.profile.isUpgrade_eq]
  exact upgradeObjection_eq_none_iff.mp hnone (h.profile.upgradeAllowed_eq_false hno) held
    (h.held.subset hheld) hartist halbum

theorem scoreObjection (h : on.Looser loose) (hnone : on.scoreObjection c = .ok none) :
    loose.scoreObjection c = .ok none := by
  obtain ⟨score, hscore, hle⟩ := scoreObjection_eq_none_iff.mp hnone
  apply scoreObjection_eq_none_iff.mpr
  rw [h.profile.formatScore_eq]
  exact ⟨score, hscore, Int.le_trans (Int32.le_iff_toInt_le.mp h.profile.minFormatScore) hle⟩

theorem sizeObjection (h : on.Looser loose) (hnone : on.sizeObjection c = none) :
    loose.sizeObjection c = none := by
  obtain ⟨hmin, hmax⟩ := sizeObjection_eq_none_iff.mp hnone
  refine sizeObjection_eq_none_iff.mpr ⟨fun n hn => ?_, fun n hn => ?_⟩
  · obtain ⟨m, hm, hle⟩ := h.settings.minSize n hn
    obtain ⟨size, hsize, hbound⟩ := hmin m hm
    exact ⟨size, hsize, Nat.le_trans (saturatingMul_le_saturatingMul hle _) hbound⟩
  · obtain ⟨m, hm, hle⟩ := h.settings.maxSize n hn
    obtain ⟨size, hsize, hbound⟩ := hmax m hm
    exact ⟨size, hsize, Nat.le_trans hbound (saturatingMul_le_saturatingMul hle _)⟩

theorem seedersObjection (h : on.Looser loose) (hnone : on.seedersObjection c = none) :
    loose.seedersObjection c = none := by
  apply seedersObjection_eq_none_iff.mpr
  intro htorrent n hn
  obtain ⟨m, hm, hle⟩ := h.settings.minSeeders n hn
  obtain ⟨seeders, hseeders, hbound⟩ := seedersObjection_eq_none_iff.mp hnone htorrent m hm
  exact ⟨seeders, hseeders, Nat.le_trans (UInt32.le_iff_toNat_le.mp hle) hbound⟩

theorem isInteractive_eq_false (h : on.Looser loose) (hloose : loose.isInteractive = false) :
    on.isInteractive = false := by
  unfold isInteractive at hloose ⊢
  rcases h.search with hsame | hinteractive
  · rw [← hsame]
    exact hloose
  · rw [hinteractive] at hloose
    cases hloose

theorem ageObjection (h : on.Looser loose) (hnone : on.ageObjection c = none) :
    loose.ageObjection c = none := by
  apply ageObjection_eq_none_iff.mpr
  intro husenet
  obtain ⟨hretention, hage⟩ := ageObjection_eq_none_iff.mp hnone husenet
  refine ⟨fun n hn hpos => ?_, fun n hn hpos hautomatic => ?_⟩
  · obtain ⟨m, hm, hpos, hle⟩ := h.settings.retentionDays n hn hpos
    obtain ⟨age, hage, hbound⟩ := hretention m hm hpos
    exact ⟨age, hage, Nat.le_trans hbound (saturatingMul_le_saturatingMul hle _)⟩
  · obtain ⟨m, hm, hle⟩ := h.settings.minimumAgeMinutes n hn hpos
    obtain ⟨age, hage, hbound⟩ :=
      hage m hm (UInt64.lt_of_lt_of_le hpos hle) (h.isInteractive_eq_false hautomatic)
    exact ⟨age, hage, UInt64.le_trans hle hbound⟩

theorem encryptionObjection (h : on.Looser loose) (hnone : on.encryptionObjection c = none) :
    loose.encryptionObjection c = none :=
  encryptionObjection_eq_none_iff.mpr fun hreject =>
    encryptionObjection_eq_none_iff.mp hnone (h.settings.rejectEncrypted hreject)

theorem exists_mem_queue (h : on.Looser loose) {f : QueueEntry} (hf : f ∈ loose.queue) :
    ∃ e ∈ on.queue, e.Looser f := by
  obtain ⟨kept, hkept, hsub⟩ := List.sublistForall₂_iff.mp h.queue
  obtain ⟨i, hi, rfl⟩ := List.getElem_of_mem hf
  have hi' : i < kept.length := hkept.length_eq ▸ hi
  exact ⟨kept[i], hsub.subset (List.getElem_mem hi'), hkept.get hi hi'⟩

theorem queueObjection (h : on.Looser loose) (hnone : on.queueObjection c = .ok none) :
    loose.queueObjection c = .ok none := by
  apply queueObjection_eq_none_iff.mpr
  rcases queueObjection_eq_none_iff.mp hnone with hapart | ⟨hsingle, hlive⟩
  · refine .inl fun f hf => ?_
    obtain ⟨e, he, hlooser⟩ := h.exists_mem_queue hf
    rw [QueueEntry.concerns, hlooser.candidate]
    exact hapart e he
  · refine .inr ⟨hsingle, fun f hf hconcerns hfailed => ?_⟩
    obtain ⟨e, he, hlooser⟩ := h.exists_mem_queue hf
    rw [QueueEntry.concerns, hlooser.candidate] at hconcerns
    have hbefore : e.state.isFailed = false :=
      Bool.eq_false_iff.mpr fun he => Bool.eq_false_iff.mp hfailed (hlooser.isFailed he)
    obtain ⟨hallowed, hupgrade⟩ := hlive e he hconcerns hbefore
    rw [hlooser.candidate, h.profile.isUpgrade_eq]
    exact ⟨h.profile.upgradeAllowed hallowed, hupgrade⟩

theorem objection (h : on.Looser loose) {r : Rule} (hnone : r.objection on c = .ok none) :
    r.objection loose c = .ok none := by
  cases r with
  | qualityAllowed => exact congrArg Except.ok (h.qualityObjection (Except.ok.inj hnone))
  | upgradePermitted => exact h.upgradeObjection hnone
  | minimumFormatScore => exact h.scoreObjection hnone
  | size => exact congrArg Except.ok (h.sizeObjection (Except.ok.inj hnone))
  | seeders => exact congrArg Except.ok (h.seedersObjection (Except.ok.inj hnone))
  | age => exact congrArg Except.ok (h.ageObjection (Except.ok.inj hnone))
  | encryption => exact congrArg Except.ok (h.encryptionObjection (Except.ok.inj hnone))
  | queueConflict => exact h.queueObjection hnone

theorem chainJudge (h : on.Looser loose) {rs : Chain} (haccept : rs.judge on c = .ok .accept) :
    rs.judge loose c = .ok .accept :=
  Chain.judge_eq_accept_iff.mpr fun r hr =>
    h.objection (Chain.judge_eq_accept_iff.mp haccept r hr)

/-- A candidate that is accepted is accepted under looser circumstances too, and no score
overflows there. -/
theorem judge_eq_accept (h : on.Looser loose) (haccept : on.judge c = .ok .accept) :
    loose.judge c = .ok .accept := h.chainJudge haccept

end Circumstances.Looser

def postOf (albumId : Int64) : Candidate where
  artistId := 7
  albumIds := [albumId]
  grade := ⟨⟨13, "FLAC"⟩, {}⟩
  formats := [{ id := 1, name := "Preferred Group" }]
  release :=
    { title := "Artist - Album", protocol := .usenet, size := some 500, ageMinutes := some 90 }

/-- All thresholds are in force, the album is held as good, and a grab of it has failed while one of
another album has not. -/
def strict : Circumstances where
  profile :=
    { upgradeAllowed := false, cutoff := 13, minFormatScore := 5
      items := [⟨⟨9, "MP3-320"⟩, false⟩, ⟨⟨13, "FLAC"⟩, true⟩]
      formatScores := [⟨{ id := 1, name := "Preferred Group" }, 10⟩] }
  settings :=
    { minSize := some 100, maxSize := some 1000, minSeeders := some 5, retentionDays := some 30
      minimumAgeMinutes := some 60 }
  held := [⟨7, 40, (postOf 40).grade, (postOf 40).formats⟩]
  queue := [{ candidate := postOf 40, state := .failed }, { candidate := postOf 41 }]

/-- Each threshold is lower, zero or not set. -/
def lenient : Circumstances where
  profile :=
    { strict.profile with
      upgradeAllowed := true, minFormatScore := -5
      items := [⟨⟨9, "MP3-320"⟩, true⟩, ⟨⟨13, "FLAC"⟩, true⟩] }
  settings :=
    { minSize := some 50, retentionDays := some 0, minimumAgeMinutes := some 30
      rejectEncrypted := false }
  search := some .interactive
  queue := [{ candidate := postOf 41, state := .failedPending }]

theorem strict_looser_lenient : strict.Looser lenient where
  profile :=
    { upgradeAllowed := nofun
      items := .cons ⟨rfl, nofun⟩ (.cons ⟨rfl, id⟩ .nil)
      formatScores := rfl
      minFormatScore := by decide
      properPolicy := rfl }
  settings :=
    { minSize := fun _ hn => ⟨100, rfl, by cases hn; decide⟩
      maxSize := nofun
      minSeeders := nofun
      retentionDays := fun _ hn hpos => by cases hn; cases hpos
      minimumAgeMinutes := fun _ hn _ => ⟨60, rfl, by cases hn; decide⟩
      rejectEncrypted := nofun }
  search := .inr rfl
  held := List.nil_sublist _
  queue := .cons_right (.cons ⟨rfl, nofun⟩ .nil)

theorem postOf_accepted_when_lenient :
    strict.judge (postOf 40) = .ok .accept ∧ strict.Looser lenient ∧
      lenient.judge (postOf 40) = .ok .accept := by
  have haccept : strict.judge (postOf 40) = .ok .accept := rfl
  exact ⟨haccept, strict_looser_lenient, strict_looser_lenient.judge_eq_accept haccept⟩

end ReleaseWarden
