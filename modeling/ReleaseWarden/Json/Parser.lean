import ReleaseWarden.Json.Basic
import ReleaseWarden.Text.Digit

/-! Reading JSON text. A text is one value, with blanks around it and between its tokens; leading
zeros, trailing commas, comments and raw control characters are refused. -/

set_option autoImplicit false

namespace ReleaseWarden.Json

open Text

def isSpace (c : Char) : Bool := c == ' ' || c == '\n' || c == '\r' || c == '\t'

def skipSpace (cs : List Char) : List Char := cs.dropWhile isSpace

inductive Piece
  | char (c : Char)
  | surrogate (unit : Nat)
  deriving DecidableEq, Repr

namespace Piece

def ofUnit (unit : Nat) : Piece :=
  if 0xD800 ≤ unit ∧ unit < 0xE000 then .surrogate unit else .char (Char.ofNat unit)

/-- Pairs of surrogates become one character; an unpaired surrogate leaves no text. The
characters so far come last first. -/
def assemble : List Char → List Piece → Option String
  | done, [] => some (String.ofList done.reverse)
  | done, .char c :: ps => assemble (c :: done) ps
  | done, .surrogate high :: .surrogate low :: ps =>
    if high < 0xDC00 ∧ 0xDC00 ≤ low then
      assemble (Char.ofNat (0x10000 + (high - 0xD800) * 0x400 + (low - 0xDC00)) :: done) ps
    else none
  | _, .surrogate _ :: _ => none

end Piece

def unit? (a b c d : Char) : Option Nat := do
  let a ← hexDigit? a
  let b ← hexDigit? b
  let c ← hexDigit? c
  let d ← hexDigit? d
  pure (((a * 16 + b) * 16 + c) * 16 + d)

def unescape? (c : Char) : Option Char :=
  if c = '"' ∨ c = '\\' ∨ c = '/' then some c
  else if c = 'b' then some '\x08'
  else if c = 'f' then some '\x0c'
  else if c = 'n' then some '\n'
  else if c = 'r' then some '\r'
  else if c = 't' then some '\t'
  else none

/-- Reads a string literal behind its opening quote, with the pieces so far last first. -/
def readString : List Piece → List Char → Option (Option String × List Char)
  | _, [] => none
  | done, '"' :: cs => some (Piece.assemble [] done.reverse, cs)
  | done, '\\' :: 'u' :: a :: b :: c :: d :: cs =>
    match unit? a b c d with
    | some unit => readString (.ofUnit unit :: done) cs
    | none => none
  | done, '\\' :: c :: cs =>
    match unescape? c with
    | some c => readString (.char c :: done) cs
    | none => none
  | done, c :: cs => if c.toNat < 0x20 then none else readString (.char c :: done) cs

def takeDigits (cs : List Char) : List (Fin 10) × List Char :=
  ((cs.takeWhile Char.isDigit).map fun c => Fin.ofNat 10 (c.toNat - '0'.toNat),
    cs.dropWhile Char.isDigit)

def ofDigits (ds : List (Fin 10)) : Nat := ds.foldl (fun v d => v * 10 + d.val) 0

/-- No leading zero: `0` stands alone. -/
def readWhole (cs : List Char) : Option (Nat × List Char) :=
  match takeDigits cs with
  | ([], _) => none
  | ([d], rest) => some (d.val, rest)
  | (d :: ds, rest) => if d = 0 then none else some (ofDigits (d :: ds), rest)

def readFraction : List Char → Option (List (Fin 10) × List Char)
  | '.' :: cs =>
    match takeDigits cs with
    | ([], _) => none
    | split => some split
  | cs => some ([], cs)

def readExponentDigits (negative : Bool) (cs : List Char) : Option (Option Int × List Char) :=
  match takeDigits cs with
  | ([], _) => none
  | (ds, rest) => some (some (if negative then -(ofDigits ds : Int) else ofDigits ds), rest)

def readExponent : List Char → Option (Option Int × List Char)
  | c :: cs =>
    if c = 'e' ∨ c = 'E' then
      match cs with
      | '+' :: cs => readExponentDigits false cs
      | '-' :: cs => readExponentDigits true cs
      | cs => readExponentDigits false cs
    else some (none, c :: cs)
  | [] => some (none, [])

def readUnsigned (negative : Bool) (cs : List Char) : Option (Number × List Char) := do
  let (whole, cs) ← readWhole cs
  let (fraction, cs) ← readFraction cs
  let (exponent, cs) ← readExponent cs
  pure (⟨negative, whole, fraction, exponent⟩, cs)

def readNumber : List Char → Option (Number × List Char)
  | '-' :: cs => readUnsigned true cs
  | cs => readUnsigned false cs

mutual

/-- Reads one value; `fuel` bounds the number of steps. -/
def readValue : Nat → List Char → Option (Json × List Char)
  | 0, _ => none
  | fuel + 1, cs =>
    match skipSpace cs with
    | '"' :: cs => (readString [] cs).map fun (t, cs) => (.string t, cs)
    | '[' :: cs =>
      match skipSpace cs with
      | ']' :: cs => some (.array [], cs)
      | cs => (readItems fuel cs).map fun (js, cs) => (.array js, cs)
    | '{' :: cs =>
      match skipSpace cs with
      | '}' :: cs => some (.object [], cs)
      | cs => (readMembers fuel cs).map fun (ms, cs) => (.object ms, cs)
    | 'n' :: 'u' :: 'l' :: 'l' :: cs => some (.null, cs)
    | 't' :: 'r' :: 'u' :: 'e' :: cs => some (.bool true, cs)
    | 'f' :: 'a' :: 'l' :: 's' :: 'e' :: cs => some (.bool false, cs)
    | cs => (readNumber cs).map fun (n, cs) => (.number n, cs)

def readItems : Nat → List Char → Option (List Json × List Char)
  | 0, _ => none
  | fuel + 1, cs =>
    match readValue fuel cs with
    | none => none
    | some (j, cs) =>
      match skipSpace cs with
      | ',' :: cs => (readItems fuel cs).map fun (js, cs) => (j :: js, cs)
      | ']' :: cs => some ([j], cs)
      | _ => none

def readMembers : Nat → List Char → Option (List (Option String × Json) × List Char)
  | 0, _ => none
  | fuel + 1, cs =>
    match skipSpace cs with
    | '"' :: cs =>
      match readString [] cs with
      | none => none
      | some (name, cs) =>
        match skipSpace cs with
        | ':' :: cs =>
          match readValue fuel cs with
          | none => none
          | some (j, cs) =>
            match skipSpace cs with
            | ',' :: cs => (readMembers fuel cs).map fun (ms, cs) => ((name, j) :: ms, cs)
            | '}' :: cs => some ([(name, j)], cs)
            | _ => none
        | _ => none
    | _ => none

end

/-- Reads a whole text. Two steps for each character are always enough. -/
def parse (s : String) : Option Json :=
  match readValue (2 * s.length + 2) s.toList with
  | some (j, rest) => if skipSpace rest = [] then some j else none
  | none => none

end ReleaseWarden.Json
