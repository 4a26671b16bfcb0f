import ReleaseWarden.Schema.Basic

/-! Quality tiers, revisions and format tags. A tier carries no rank of its own; a profile ranks
it. Tiers and tags are told apart by their ids, and their names are for display. -/

set_option autoImplicit false

namespace ReleaseWarden

structure Quality where
  id : Int32
  name : String
  deriving DecidableEq, Repr, Inhabited

namespace Quality

def schema : Schema Quality :=
  .record (.required "id" .integer <| .required "name" .text .done)
    (fun q => (q.id, q.name, ())) (fun (id, name, _) => ⟨id, name⟩)

end Quality

/-- Marks a new issue of a release of the same tier: version 1 is the first issue, `real` counts
the marks that outrank every version. That an issue is a repack is for information only. -/
structure Revision where
  version : Int32 := 1
  real : Int32 := 0
  isRepack : Bool := false
  deriving DecidableEq, Repr, Inhabited

namespace Revision

def order (a b : Revision) : Ordering :=
  (compare a.real.toInt b.real.toInt).then (compare a.version.toInt b.version.toInt)

def agrees (a b : Revision) : Bool := a.version == b.version && a.real == b.real

def schema : Schema Revision :=
  .record (.required "version" .integer <| .defaulted "real" .integer 0 <|
      .defaulted "is_repack" .boolean false .done)
    (fun r => (r.version, r.real, r.isRepack, ()))
    (fun (version, real, isRepack, _) => ⟨version, real, isRepack⟩)

end Revision

structure Grade where
  quality : Quality
  revision : Revision := {}
  deriving DecidableEq, Repr, Inhabited

namespace Grade

/-- The same tier, name included, at the same place in the order of revisions. -/
def agrees (a b : Grade) : Bool :=
  decide (a.quality = b.quality) && a.revision.agrees b.revision

/-- The tier's name; behind it the version, unless the release is a plain first issue. -/
def label (g : Grade) : String :=
  if 1 < g.revision.version ∨ 0 < g.revision.real then
    g.quality.name ++ " v" ++ toString g.revision.version.toInt ++
      (if 0 < g.revision.real then " REAL" else "")
  else g.quality.name

def schema : Schema Grade :=
  .record (.required "quality" Quality.schema <| .defaulted "revision" Revision.schema {} .done)
    (fun g => (g.quality, g.revision, ())) (fun (quality, revision, _) => ⟨quality, revision⟩)

end Grade

/-- A label that a release was matched with. Scores are a matter of the profile. -/
structure FormatTag where
  id : Int32
  name : String
  includeWhenRenaming : Bool := false
  deriving DecidableEq, Repr, Inhabited

namespace FormatTag

def schema : Schema FormatTag :=
  .record (.required "id" .integer <| .required "name" .text <|
      .defaulted "include_when_renaming" .boolean false .done)
    (fun f => (f.id, f.name, f.includeWhenRenaming, ()))
    (fun (id, name, includeWhenRenaming, _) => ⟨id, name, includeWhenRenaming⟩)

end FormatTag

end ReleaseWarden
