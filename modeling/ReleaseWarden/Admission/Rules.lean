import ReleaseWarden.Admission.Objection
import ReleaseWarden.Admission.Queue
import ReleaseWarden.Admission.Settings
import ReleaseWarden.Ranking

/-! The rules of admission. Each rule looks at a candidate under given circumstances and names
what it holds against it. -/

set_option autoImplicit false

namespace ReleaseWarden

/-- All that a candidate is judged by. -/
structure Circumstances where
  profile : Profile
  settings : Settings := {}
  search : Option SearchKind := none
  held : List LibraryItem := []
  queue : Queue := []
  deriving DecidableEq, Repr, Inhabited

namespace Circumstances

/-- A user picks releases by hand. -/
def isInteractive (c : Circumstances) : Bool := c.search == some .interactive

end Circumstances

/-- The first element that passes a test whose outcome hangs on scores; later ones are not
tested. -/
def firstScored {α : Type} (test : α → Scored Bool) : List α → Scored (Option α)
  | [] => pure none
  | a :: as => do
    if ← test a then pure (some a) else firstScored test as

def greatestUInt64 : Nat := UInt64.size - 1

def saturatingMul (threshold : UInt64) (count : Nat) : Nat :=
  min (threshold.toNat * count) greatestUInt64

namespace Circumstances

def qualityObjection (on : Circumstances) (c : Candidate) : Option Objection :=
  if c.albumIds.isEmpty then some (.missing .qualityAllowed "album_ids")
  else if on.profile.allows c.grade.quality then none
  else some (.qualityUnwanted c.grade.quality.name on.profile.name)

def upgradeObjection (on : Circumstances) (c : Candidate) : Scored (Option Objection) :=
  if on.profile.upgradeAllowed then pure none
  else do
    let concerned := on.held.filter fun h =>
      h.artistId == c.artistId && c.albumIds.contains h.albumId
    let blocked ← firstScored (fun h => on.profile.isUpgrade h.graded c.graded) concerned
    pure (blocked.map fun h => .wouldUpgrade h.grade on.profile.name)

def scoreObjection (on : Circumstances) (c : Candidate) : Scored (Option Objection) := do
  let score ← on.profile.formatScore c.formats
  let minimum := on.profile.minFormatScore.toInt
  pure (if minimum ≤ score then none else some (.scoreTooLow score minimum))

/-- The bounds hold for each album, so that a release of several may be larger. -/
def sizeObjection (on : Circumstances) (c : Candidate) : Option Objection :=
  if on.settings.minSize.isNone && on.settings.maxSize.isNone then none
  else
    match c.release.size with
    | none => some (.missing .size "size")
    | some size =>
      let albums := max 1 c.albumIds.length
      let tooSmall := (on.settings.minSize.map (saturatingMul · albums)).filter (size.toNat < ·)
      let tooLarge := (on.settings.maxSize.map (saturatingMul · albums)).filter (· < size.toNat)
      match tooSmall, tooLarge with
      | some minimum, _ => some (.tooSmall size.toNat minimum)
      | none, some maximum => some (.tooLarge size.toNat maximum)
      | none, none => none

/-- Only torrents have seeders. -/
def seedersObjection (on : Circumstances) (c : Candidate) : Option Objection :=
  match on.settings.minSeeders with
  | none => none
  | some minimum =>
    if c.release.protocol = .torrent then
      match c.release.seeders with
      | none => some (.missing .seeders "seeders")
      | some seeders =>
        if seeders.toNat < minimum.toNat then
          some (.tooFewSeeders seeders.toNat minimum.toNat)
        else none
    else none

/-- Only Usenet posts age. A user who picks a fresh post by hand gets it. -/
def ageObjection (on : Circumstances) (c : Candidate) : Option Objection :=
  if c.release.protocol = .usenet then
    let retention := on.settings.retentionDays.filter (0 < ·)
    let minimumAge := on.settings.minimumAgeMinutes.filter fun m => 0 < m && !on.isInteractive
    if retention.isNone && minimumAge.isNone then none
    else
      match c.release.ageMinutes with
      | none => some (.missing .age "age")
      | some age =>
        match retention.filter fun days => saturatingMul days 1440 < age.toNat,
            minimumAge.filter (age < ·) with
        | some days, _ => some (.tooOld age.toNat days.toNat)
        | none, some minimum => some (.tooYoung age.toNat minimum.toNat)
        | none, none => none
  else none

def encryptionObjection (on : Circumstances) (c : Candidate) : Option Objection :=
  if on.settings.rejectEncrypted && c.release.encrypted then some .encrypted else none

/-- What live entries of the queue, all for an album of the candidate, hold against it. -/
def liveObjection (p : Profile) (c : Candidate) : List QueueEntry → Scored (Option Objection)
  | [] => pure none
  | e :: es =>
    if e.state.isFailed then liveObjection p c es
    else if !p.upgradeAllowed then
      pure (some (.queuedWithoutUpgrades p.name e.candidate.grade))
    else do
      if ← p.isUpgrade e.candidate.graded c.graded then liveObjection p c es
      else pure (some (.queuedAsGood e.candidate.grade))

/-- A release of several albums gives way to every grab of one of them. A release of one album
has to improve on all of its grabs that have not failed. -/
def queueObjection (on : Circumstances) (c : Candidate) : Scored (Option Objection) :=
  match on.queue.filter (·.concerns c) with
  | [] => pure none
  | first :: rest =>
    if c.isMultiAlbum then pure (some (.overlapsQueued first.candidate.release.title))
    else liveObjection on.profile c (first :: rest)

end Circumstances

namespace Rule

def objection (on : Circumstances) (c : Candidate) : Rule → Scored (Option Objection)
  | qualityAllowed => pure (on.qualityObjection c)
  | upgradePermitted => on.upgradeObjection c
  | minimumFormatScore => on.scoreObjection c
  | size => pure (on.sizeObjection c)
  | seeders => pure (on.seedersObjection c)
  | age => pure (on.ageObjection c)
  | encryption => pure (on.encryptionObjection c)
  | queueConflict => on.queueObjection c

def judge (on : Circumstances) (c : Candidate) (r : Rule) : Scored Verdict := do
  let objection ← r.objection on c
  pure (.ofObjection objection)

end Rule

end ReleaseWarden
