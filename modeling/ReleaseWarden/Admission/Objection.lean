import ReleaseWarden.Quality.Basic
import ReleaseWarden.Admission.Verdict

/-! What a rule may hold against a candidate. -/

set_option autoImplicit false

namespace ReleaseWarden

/-- Why a candidate is turned away. -/
inductive Objection
  | missing (rule : Rule) (field : String)
  | qualityUnwanted (quality profile : String)
  | wouldUpgrade (held : Grade) (profile : String)
  | scoreTooLow (score minimum : Int)
  | tooSmall (size minimum : Nat)
  | tooLarge (size maximum : Nat)
  | tooFewSeeders (seeders minimum : Nat)
  | tooOld (minutes days : Nat)
  | tooYoung (minutes minimum : Nat)
  | encrypted
  | overlapsQueued (title : String)
  | queuedWithoutUpgrades (profile : String) (queued : Grade)
  | queuedAsGood (queued : Grade)
  deriving DecidableEq, Repr

namespace Objection

def megabytes (bytes : Nat) : String := toString (bytes / 1048576) ++ " MB"

def rule : Objection → Rule
  | missing rule _ => rule
  | qualityUnwanted .. => .qualityAllowed
  | wouldUpgrade .. => .upgradePermitted
  | scoreTooLow .. => .minimumFormatScore
  | tooSmall .. => .size
  | tooLarge .. => .size
  | tooFewSeeders .. => .seeders
  | tooOld .. => .age
  | tooYoung .. => .age
  | encrypted => .encryption
  | overlapsQueued .. => .queueConflict
  | queuedWithoutUpgrades .. => .queueConflict
  | queuedAsGood .. => .queueConflict

def reason : Objection → String
  | missing _ field => "Missing metadata: " ++ field
  | qualityUnwanted quality profile =>
    "Quality " ++ quality ++ " is not wanted in profile " ++ profile
  | wouldUpgrade held profile =>
    "Existing file (" ++ held.label ++ ") would be upgraded and profile " ++ profile ++
      " does not allow upgrades"
  | scoreTooLow score minimum =>
    "Custom format score " ++ toString score ++ " is below the minimum of " ++ toString minimum
  | tooSmall size minimum =>
    megabytes size ++ " is smaller than the minimum allowed " ++ megabytes minimum
  | tooLarge size maximum =>
    megabytes size ++ " is larger than the maximum allowed " ++ megabytes maximum
  | tooFewSeeders seeders minimum =>
    "Not enough seeders: " ++ toString seeders ++ ". Minimum seeders: " ++ toString minimum
  | tooOld minutes days =>
    toString (minutes / 1440) ++ " days old, older than retention of " ++ toString days ++ " days"
  | tooYoung minutes minimum =>
    "Only " ++ toString minutes ++ " minutes old, minimum age is " ++ toString minimum ++ " minutes"
  | encrypted => "Release is encrypted"
  | overlapsQueued title => "Multi-album release overlaps a release already in queue: " ++ title
  | queuedWithoutUpgrades profile queued =>
    "Release already in queue and profile " ++ profile ++ " does not allow upgrades: " ++
      queued.label
  | queuedAsGood queued =>
    "Release already in queue with equal or better quality: " ++ queued.label

def rejection (o : Objection) : Rejection := ⟨o.rule, o.reason⟩

end Objection

namespace Verdict

def ofObjection : Option Objection → Verdict
  | none => accept
  | some o => reject o.rejection

end Verdict

end ReleaseWarden
