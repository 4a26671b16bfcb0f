import ReleaseWarden.Admission.Rules

/-! Chains of rules. The first rejection is the verdict, and the rules behind it are not asked. A
rule may stand in a chain more than once, with thresholds of its own each time. -/

set_option autoImplicit false

namespace ReleaseWarden

/-- A rule with thresholds and a queue of its own. -/
structure Check where
  rule : Rule
  settings : Settings := {}
  queue : Queue := []
  deriving DecidableEq, Repr, Inhabited

namespace Check

def judge (on : Circumstances) (c : Candidate) (k : Check) : Scored Verdict :=
  k.rule.judge { on with settings := k.settings, queue := k.queue } c

end Check

abbrev Checks := List Check

namespace Checks

def judge (on : Circumstances) (c : Candidate) : Checks → Scored Verdict
  | [] => pure .accept
  | k :: ks => do
    match ← k.judge on c with
    | .accept => judge on c ks
    | .reject rejection => pure (.reject rejection)

end Checks

/-- Rules that all go by the same settings and the same queue. -/
abbrev Chain := List Rule

def Circumstances.check (on : Circumstances) (r : Rule) : Check := ⟨r, on.settings, on.queue⟩

namespace Chain

/-- Rules on the profile come first, the one on the queue comes last. -/
def standard : Chain :=
  [.qualityAllowed, .upgradePermitted, .minimumFormatScore, .size, .seeders, .age, .encryption,
    .queueConflict]

def judge (on : Circumstances) (c : Candidate) (rs : Chain) : Scored Verdict :=
  Checks.judge on c (rs.map on.check)

theorem judge_cons (on : Circumstances) (c : Candidate) (r : Rule) (rs : Chain) :
    judge on c (r :: rs) = (do
      match ← r.judge on c with
      | .accept => judge on c rs
      | .reject rejection => pure (.reject rejection)) := rfl

end Chain

namespace Circumstances

def judge (on : Circumstances) (c : Candidate) : Scored Verdict := Chain.standard.judge on c

/-- Judges a candidate and, if it is accepted and wanted, grabs it. -/
def offer (on : Circumstances) (c : Candidate) (grab : Bool) : Scored (Verdict × Queue) := do
  let verdict ← on.judge c
  pure (verdict, if verdict.isAccepted && grab then on.queue.push { candidate := c } else on.queue)

end Circumstances

end ReleaseWarden
