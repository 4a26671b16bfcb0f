/-! JSON numbers. They keep the parts of their spelling, so that an integer is told from a
fraction. A number is finite if double precision holds its product of two rounded factors: the
leading digits that fit in 64 bits, and the power of ten that scales them. -/

set_option autoImplicit false

namespace ReleaseWarden

/-- The parts of a JSON number: sign, integer part, digits after the point, and exponent. -/
structure Number where
  negative : Bool
  whole : Nat
  fraction : List (Fin 10)
  exponent : Option Int
  deriving DecidableEq, Repr

namespace Number

def ofInt (n : Int) : Number := ⟨decide (n < 0), n.natAbs, [], none⟩

/-- The integer that a number without fraction and exponent spells; minus zero is none. -/
def toInt? (n : Number) : Option Int :=
  match n.fraction, n.exponent with
  | [], none =>
    if n.negative then if n.whole = 0 then none else some (-(n.whole : Int)) else some n.whole
  | _, _ => none

@[simp] theorem toInt?_ofInt (n : Int) : (ofInt n).toInt? = some n := by
  simp only [ofInt, toInt?]
  by_cases h : n < 0
  · have : n.natAbs ≠ 0 := by omega
    simp only [h, decide_true, if_true, this, if_false]
    congr 1
    omega
  · simp only [h, decide_false, Bool.false_eq_true, if_false]
    congr 1
    omega

/-- A count of units, each a power of ten. -/
structure Scaled where
  units : Nat
  power : Int
  deriving DecidableEq, Repr

namespace Scaled

def limit : Nat := UInt64.size

/-- Leaves out last digits until the count fits. -/
def ofNat (n : Nat) : Scaled :=
  if n < limit then ⟨n, 0⟩
  else
    let s := ofNat (n / 10)
    { s with power := s.power + 1 }
termination_by n
decreasing_by
  have : ¬ n < limit := by assumption
  rw [limit, UInt64.size] at this
  omega

def extend (s : Scaled) : List (Fin 10) → Scaled
  | [] => s
  | d :: ds =>
    if s.units * 10 + d.val < limit then extend ⟨s.units * 10 + d.val, s.power - 1⟩ ds else s

end Scaled

/-- The nearest number that has at most 53 significant bits; of two, the even one. -/
def nearest (n : Nat) : Nat :=
  if n < 1 <<< 53 then n
  else
    let unit := 1 <<< (n.log2 - 52)
    let below := n / unit
    let rest := n % unit
    if 2 * rest < unit ∨ (2 * rest = unit ∧ below % 2 = 0) then below * unit
    else (below + 1) * unit

/-- The digits that count, scaled as the number says. -/
def leading (n : Number) : Scaled :=
  let s := (Scaled.ofNat n.whole).extend n.fraction
  { s with power := s.power + n.exponent.getD 0 }

def maxPower : Int := 308

def infinite : Nat := 1 <<< 1024 - 1 <<< 970

/-- Scaling down never leaves the range; scaling up may. -/
def isFinite (n : Number) : Bool :=
  let s := n.leading
  if s.units = 0 ∨ s.power < 0 then true
  else if s.power > maxPower then false
  else decide (nearest s.units * nearest (Nat.pow 10 s.power.toNat) < infinite)

end Number

end ReleaseWarden
