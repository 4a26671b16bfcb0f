import ReleaseWarden.Text.Digit

/-! Texts that switch something on or off: words for yes, or numbers. -/

set_option autoImplicit false

namespace ReleaseWarden.Text.Switch

def readDigits (base : Nat) (digit? : Char → Option Nat) (n : Nat) : List Char → Nat
  | [] => n
  | c :: cs =>
    match digit? c with
    | some d => readDigits base digit? (n * base + d) cs
    | none => n

/-- The number that a text begins with. It is hexadecimal behind `0x`. -/
def leadingNumber : List Char → Nat
  | '0' :: 'x' :: cs => readDigits 16 hexDigit? 0 cs
  | '0' :: 'X' :: cs => readDigits 16 hexDigit? 0 cs
  | cs => readDigits 10 digit? 0 cs

def bound : Nat := 0x80000000

/-- Of a number only the lowest byte counts. -/
def isOnAt (n : Nat) : Bool := decide (n < bound) && n % 256 != 0

def wordsForOn : List String := ["on", "yes", "true"]

def isOn (s : String) : Bool :=
  if s.toList.head?.any fun c => (digit? c).isSome then isOnAt (leadingNumber s.toList)
  else wordsForOn.contains s.toLower

end ReleaseWarden.Text.Switch
