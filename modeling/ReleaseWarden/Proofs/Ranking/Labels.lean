import ReleaseWarden.Proofs.Ranking.Preference

/-! Labels: names, and what else is there for people to read. Profiles tell tiers and tags apart by
their ids, so that a comparison of two releases comes to the same without any labels. -/

set_option autoImplicit false

namespace ReleaseWarden

def Quality.bare (q : Quality) : Quality := { q with name := "" }

def Revision.bare (r : Revision) : Revision := { r with isRepack := false }

def Grade.bare (g : Grade) : Grade := ⟨g.quality.bare, g.revision.bare⟩

def FormatTag.bare (t : FormatTag) : FormatTag :=
  { t with name := "", includeWhenRenaming := false }

def Graded.bare (g : Graded) : Graded := ⟨g.grade.bare, g.formats.map FormatTag.bare⟩

def ProfileItem.bare (i : ProfileItem) : ProfileItem := { i with quality := i.quality.bare }

def FormatScore.bare (s : FormatScore) : FormatScore := { s with format := s.format.bare }

def Profile.bare (p : Profile) : Profile :=
  { p with
    id := 0
    name := ""
    items := p.items.map ProfileItem.bare
    formatScores := p.formatScores.map FormatScore.bare }

namespace Profile

variable (p : Profile)

theorem rankOf?_bare (tier : Int32) : p.bare.rankOf? tier = p.rankOf? tier := by
  unfold rankOf? bare
  rw [List.findIdx?_map]
  rfl

theorem allows_bare (q : Quality) : p.bare.allows q.bare = p.allows q := by
  unfold allows bare
  rw [List.any_map]
  rfl

theorem scoreOf?_bare (tag : FormatTag) : p.bare.scoreOf? tag.bare = p.scoreOf? tag := by
  unfold scoreOf? bare
  rw [List.find?_map, Option.map_map]
  rfl

theorem formatScore_bare (tags : List FormatTag) :
    p.bare.formatScore (tags.map FormatTag.bare) = p.formatScore tags := by
  have hscore : p.bare.scoreOf? ∘ FormatTag.bare = p.scoreOf? := funext p.scoreOf?_bare
  rw [formatScore, List.filterMap_map, hscore, formatScore]

theorem tier_bare (q : Quality) : p.bare.tier q.bare = p.tier q := by
  simp only [tier, rank?, rankOf?_bare, Quality.bare]

theorem gradeOrder_bare (a b : Grade) : p.bare.gradeOrder a.bare b.bare = p.gradeOrder a b := by
  unfold gradeOrder Grade.bare
  rw [tier_bare, tier_bare]
  rfl

theorem prefer_bare (held candidate : Graded) :
    p.bare.prefer held.bare candidate.bare = p.prefer held candidate := by
  simp only [prefer, Graded.bare, gradeOrder_bare, formatScore_bare]

theorem cutoffMet_bare (item : Graded) : p.bare.cutoffMet item.bare = p.cutoffMet item := by
  have hrank : p.bare.rank? item.grade.quality.bare = p.rank? item.grade.quality :=
    p.rankOf?_bare item.grade.quality.id
  have hcutoff : p.bare.cutoffRank? = p.cutoffRank? := p.rankOf?_bare p.cutoff
  simp only [cutoffMet, Graded.bare, Grade.bare, hrank, hcutoff, formatScore_bare]
  rfl

theorem isUpgrade_bare (held candidate : Graded) :
    p.bare.isUpgrade held.bare candidate.bare = p.isUpgrade held candidate := by
  unfold isUpgrade
  rw [prefer_bare]
  rfl

end Profile

end ReleaseWarden
