import ReleaseWarden.Profile.Basic

/-! Format scores. The scores of a release's tags are summed from the left, and every partial sum
has to stay within 32 bits. -/

set_option autoImplicit false

namespace ReleaseWarden

/-- A partial sum of format scores left the range of 32 bits. -/
inductive Overflow
  | formatScore
  deriving DecidableEq, Repr

abbrev Scored := Except Overflow

def leastScore : Int := -0x80000000

def greatestScore : Int := 0x7fffffff

def addScore (sum : Int) (score : Int32) : Scored Int :=
  if leastScore ≤ sum + score.toInt ∧ sum + score.toInt ≤ greatestScore then
    .ok (sum + score.toInt)
  else .error .formatScore

namespace Profile

def scoreOf? (p : Profile) (tag : FormatTag) : Option Int32 :=
  (p.formatScores.find? fun s => s.format.id == tag.id).map FormatScore.score

/-- Tags without a score count nothing, repeated tags count each time. -/
def formatScore (p : Profile) (tags : List FormatTag) : Scored Int :=
  (tags.filterMap p.scoreOf?).foldlM addScore 0

end Profile

end ReleaseWarden
