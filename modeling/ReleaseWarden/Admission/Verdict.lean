import ReleaseWarden.Schema.Basic

/-! The rules of admission by name, and verdicts on a candidate. A verdict is written as one
object: its word, and behind a rejection the rule and the reason. -/

set_option autoImplicit false

namespace ReleaseWarden

open Text

inductive Rule
  | qualityAllowed
  | upgradePermitted
  | minimumFormatScore
  | size
  | seeders
  | age
  | encryption
  | queueConflict
  deriving DecidableEq, Repr, Inhabited

instance : Vocabulary Rule where
  all := [.qualityAllowed, .upgradePermitted, .minimumFormatScore, .size, .seeders, .age,
    .encryption, .queueConflict]
  word
    | .qualityAllowed => "quality_allowed"
    | .upgradePermitted => "upgrade_permitted"
    | .minimumFormatScore => "minimum_format_score"
    | .size => "size"
    | .seeders => "seeders"
    | .age => "age"
    | .encryption => "encryption"
    | .queueConflict => "queue_conflict"
  mem_all a := by cases a <;> decide
  word_injective a b := by cases a <;> cases b <;> decide

structure Rejection where
  rule : Rule
  reason : String
  deriving DecidableEq, Repr, Inhabited

namespace Rejection

def label (r : Rejection) : String := r.reason ++ " (" ++ Vocabulary.word r.rule ++ ")"

def schema : Schema Rejection :=
  .record (.required "specification" .word <| .required "reason" .text .done)
    (fun r => (r.rule, r.reason, ())) (fun (rule, reason, _) => ⟨rule, reason⟩)

end Rejection

inductive Verdict
  | accept
  | reject (rejection : Rejection)
  deriving DecidableEq, Repr, Inhabited

namespace Verdict

def isAccepted : Verdict → Bool
  | accept => true
  | reject _ => false

def rejection? : Verdict → Option Rejection
  | accept => none
  | reject r => some r

def encode : Verdict → Json
  | accept => Json.record [("verdict", Json.text "accept")]
  | reject r => Json.record
      [("verdict", Json.text "reject"), ("specification", Schema.word.encode r.rule),
        ("reason", Json.text r.reason)]

/-- Behind the word of a verdict, a rule that is the name of an object may stand over an empty
object as well as over null. -/
def nullForEmpty : Json → Json
  | .object [(name, .object [])] => .object [(name, .null)]
  | j => j

def decodeRejection : Json → Option Rejection
  | .object ms => Rejection.schema.decode (.object (ms.map fun m =>
      if m.1 == some "specification" then (m.1, nullForEmpty m.2) else m))
  | .array (rule :: js) => Rejection.schema.decode (.array (nullForEmpty rule :: js))
  | _ => none

/-- Behind the word `accept` an object may hold anything and an array nothing. -/
def decodeBehind (word : Json) (rest : Json) : Option Verdict :=
  match word, rest with
  | .string (some "accept"), .object _ => some .accept
  | .string (some "accept"), .array [] => some .accept
  | .string (some "reject"), rest => (decodeRejection rest).map .reject
  | _, _ => none

/-- The word comes first in an array and anywhere in an object. A verdict nests at most 127 deep,
and all its strings denote texts and all its numbers are finite, in unknown members too. -/
def decode (j : Json) : Option Verdict :=
  if j.fits 127 then
    match j with
    | .object ms =>
      match onlyMember "verdict" ms with
      | .ok (some word) => decodeBehind word (.object (ms.filter fun m => m.1 != some "verdict"))
      | _ => none
    | .array (word :: js) => decodeBehind word (.array js)
    | _ => none
  else none

end Verdict

end ReleaseWarden
