import ReleaseWarden.Json.Basic
import ReleaseWarden.Text.Digit

/-! Writing JSON text, on one line or with one item a line. -/

set_option autoImplicit false

namespace ReleaseWarden.Json

open Text

/-- Quotes, backslashes and control characters are escaped; all else stands for itself. -/
def escape (c : Char) : List Char :=
  if c = '"' then ['\\', '"']
  else if c = '\\' then ['\\', '\\']
  else if c = '\x08' then ['\\', 'b']
  else if c = '\x0c' then ['\\', 'f']
  else if c = '\n' then ['\\', 'n']
  else if c = '\r' then ['\\', 'r']
  else if c = '\t' then ['\\', 't']
  else if c.toNat < 0x20 then
    ['\\', 'u', '0', '0', hexChar (c.toNat / 16), hexChar (c.toNat % 16)]
  else [c]

/-- A string that denotes no text is written as a lone surrogate. -/
def writeString : Option String → List Char
  | some s => '"' :: s.toList.flatMap escape ++ ['"']
  | none => ['"', '\\', 'u', 'd', '8', '0', '0', '"']

def writeDigits (ds : List (Fin 10)) : List Char := ds.map fun d => Nat.digitChar d.val

def writeFraction : List (Fin 10) → List Char
  | [] => []
  | ds => '.' :: writeDigits ds

def writeExponent : Option Int → List Char
  | none => []
  | some e => 'e' :: (if e < 0 then ['-'] else []) ++ Nat.toDigits 10 e.natAbs

def writeNumber (n : Number) : List Char :=
  (if n.negative then ['-'] else []) ++ Nat.toDigits 10 n.whole ++ writeFraction n.fraction ++
    writeExponent n.exponent

/-- Where blanks go: before an item or a closing bracket at some depth, and after a colon. -/
structure Layout where
  gap : Nat → List Char
  afterColon : List Char

namespace Layout

def compact : Layout := ⟨fun _ => [], []⟩

def indented : Layout := ⟨fun depth => '\n' :: List.replicate (2 * depth) ' ', [' ']⟩

end Layout

mutual

def write (l : Layout) : Nat → Json → List Char
  | _, .null => ['n', 'u', 'l', 'l']
  | _, .bool true => ['t', 'r', 'u', 'e']
  | _, .bool false => ['f', 'a', 'l', 's', 'e']
  | _, .number n => writeNumber n
  | _, .string t => writeString t
  | _, .array [] => ['[', ']']
  | depth, .array (j :: js) =>
    '[' :: l.gap (depth + 1) ++ write l (depth + 1) j ++ writeItems l (depth + 1) js ++
      l.gap depth ++ [']']
  | _, .object [] => ['{', '}']
  | depth, .object ((name, j) :: ms) =>
    '{' :: l.gap (depth + 1) ++ writeString name ++ ':' :: l.afterColon ++
      write l (depth + 1) j ++ writeMembers l (depth + 1) ms ++ l.gap depth ++ ['}']

def writeItems (l : Layout) : Nat → List Json → List Char
  | _, [] => []
  | depth, j :: js => ',' :: l.gap depth ++ write l depth j ++ writeItems l depth js

def writeMembers (l : Layout) : Nat → List (Option String × Json) → List Char
  | _, [] => []
  | depth, (name, j) :: ms =>
    ',' :: l.gap depth ++ writeString name ++ ':' :: l.afterColon ++ write l depth j ++
      writeMembers l depth ms

end

def render (j : Json) : String := String.ofList (write .compact 0 j)

def renderIndented (j : Json) : String := String.ofList (write .indented 0 j)

end ReleaseWarden.Json
