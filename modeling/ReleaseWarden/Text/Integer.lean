import ReleaseWarden.Text.Digit

/-! Decimal integers within bounds. A text is read from the left; the first character that is no
digit, or the first digit that leads out of the bounds, decides the fault. -/

set_option autoImplicit false

namespace ReleaseWarden.Text

/-- Why a text is no integer within the bounds. -/
inductive IntegerFault
  | notDigit
  | tooLarge
  | tooSmall
  deriving DecidableEq, Repr

namespace IntegerFault

def message : IntegerFault → String
  | notDigit => "invalid digit found in string"
  | tooLarge => "number too large to fit in target type"
  | tooSmall => "number too small to fit in target type"

end IntegerFault

def raise (greatest value : Int) (c : Char) : Except IntegerFault Int :=
  match digit? c with
  | none => .error .notDigit
  | some d =>
    if value * 10 + (d : Int) ≤ greatest then .ok (value * 10 + (d : Int)) else .error .tooLarge

def lower (least value : Int) (c : Char) : Except IntegerFault Int :=
  match digit? c with
  | none => .error .notDigit
  | some d =>
    if least ≤ value * 10 - (d : Int) then .ok (value * 10 - (d : Int)) else .error .tooSmall

def readInteger (least greatest : Int) : List Char → Except IntegerFault Int
  | [] => .error .notDigit
  | ['+'] => .error .notDigit
  | ['-'] => .error .notDigit
  | '+' :: ds => ds.foldlM (raise greatest) 0
  | '-' :: ds => ds.foldlM (lower least) 0
  | ds => ds.foldlM (raise greatest) 0

def decimal (zeros n : Nat) : List Char := List.replicate zeros '0' ++ Nat.toDigits 10 n

section

variable {least greatest : Int} {n : Nat}

theorem foldlM_raise_zeros (h : 0 ≤ greatest) (zeros : Nat) :
    (List.replicate zeros '0').foldlM (raise greatest) 0 = .ok 0 := by
  induction zeros with
  | zero => rfl
  | succ zeros ih =>
    have hzero : raise greatest 0 '0' = .ok 0 := by simp [raise, digit?, h]
    rw [List.replicate_succ, List.foldlM_cons, hzero]
    exact ih

theorem foldlM_raise_toDigits (h : (n : Int) ≤ greatest) :
    (Nat.toDigits 10 n).foldlM (raise greatest) 0 = .ok (n : Int) := by
  induction n using Nat.strongRecOn with
  | ind n ih =>
    by_cases hlt : n < 10
    · rw [Nat.toDigits_of_lt_base hlt]
      simp [raise, digit?_digitChar hlt, h]
    · have hdigit := digit?_digitChar (Nat.mod_lt n (by omega : 0 < 10))
      have hsum : ((n / 10 : Nat) : Int) * 10 + ((n % 10 : Nat) : Int) = n := by omega
      have hlast : raise greatest (n / 10 : Nat) (Nat.digitChar (n % 10)) = .ok n := by
        simp only [raise, hdigit, hsum, if_pos h]
      rw [Nat.toDigits_of_base_le (by omega) (by omega), List.foldlM_append,
        ih (n / 10) (by omega) (by omega)]
      change List.foldlM (raise greatest) ((n / 10 : Nat) : Int) [_] = _
      rw [List.foldlM_cons, hlast]
      rfl

end

def greatestInt128 : Int := 0x7fffffffffffffffffffffffffffffff

def leastInt128 : Int := -0x80000000000000000000000000000000

end ReleaseWarden.Text
