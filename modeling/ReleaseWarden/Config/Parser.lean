import ReleaseWarden.Config.Basic
import ReleaseWarden.Text.Blank

/-! Reading a configuration. Each line holds `key = value` or nothing; a number sign outside of
quotes begins a comment. The first faulty line refuses the whole text. -/

set_option autoImplicit false

namespace ReleaseWarden.Config

open Text Schema

/-- A carriage return before the line feed belongs to the end of the line. The characters of the
line come last first. -/
def endLine : List Char → List Char
  | '\r' :: cs => cs.reverse
  | cs => cs.reverse

/-- Splits a text into lines, with the characters of the current one last first. -/
def splitLines : List Char → List Char → List (List Char)
  | [], [] => []
  | line, [] => [line.reverse]
  | line, '\n' :: cs => endLine line :: splitLines [] cs
  | line, c :: cs => splitLines (c :: line) cs

def stripComment : Bool → List Char → List Char
  | _, [] => []
  | quoted, c :: cs =>
    if c = '#' ∧ quoted = false then []
    else c :: stripComment (if c = '"' then !quoted else quoted) cs

def splitAssignment (cs : List Char) : Option (List Char × List Char) :=
  match cs.dropWhile (· != '=') with
  | [] => none
  | _ :: value => some (cs.takeWhile (· != '='), value)

def readUInt64 (cs : List Char) : Except ValueFault UInt64 :=
  if cs.isEmpty then .error .integerExpected
  else
    match readInteger leastInt128 greatestInt128 cs with
    | .error fault => .error (.integer fault)
    | .ok n =>
      if n < 0 then .error .negative
      else
        match Bounded.ofInt? UInt64 n with
        | some n => .ok n
        | none => .error .tooWide

def readBool (cs : List Char) : Except ValueFault Bool :=
  if cs = ['t', 'r', 'u', 'e'] then .ok true
  else if cs = ['f', 'a', 'l', 's', 'e'] then .ok false
  else .error .booleanExpected

/-- Only the first and the last character have to be quotes, and all between them is taken as it
stands. -/
def readQuoted : List Char → Except ValueFault String
  | '"' :: cs =>
    if cs.getLast? = some '"' then .ok (String.ofList cs.dropLast) else .error .stringExpected
  | _ => .error .stringExpected

def readAs {α : Type} (key : ConfigKey) (line : Nat) (read : List Char → Except ValueFault α)
    (value : List Char) : Except ConfigError α :=
  match read value with
  | .ok a => .ok a
  | .error fault => .error (.badValue key line fault)

def readAssignment (line : Nat) (value : List Char) : ConfigKey → Except ConfigError Assignment
  | .minSizeMb => (readAs .minSizeMb line readUInt64 value).map .minSizeMb
  | .maxSizeMb => (readAs .maxSizeMb line readUInt64 value).map .maxSizeMb
  | .minSeeders =>
    match readAs .minSeeders line readUInt64 value with
    | .error e => .error e
    | .ok n =>
      match Bounded.ofInt? UInt32 n.toNat with
      | some n => .ok (.minSeeders n)
      | none => .error .seedersTooWide
  | .retentionDays => (readAs .retentionDays line readUInt64 value).map .retentionDays
  | .minimumAgeMinutes => (readAs .minimumAgeMinutes line readUInt64 value).map .minimumAgeMinutes
  | .rejectEncrypted => (readAs .rejectEncrypted line readBool value).map .rejectEncrypted
  | .autoRedownloadFailed =>
    (readAs .autoRedownloadFailed line readBool value).map .autoRedownloadFailed
  | .databasePath => (readAs .databasePath line readQuoted value).map .databasePath

/-- Reads a line that has a number; one without content assigns nothing. -/
def readLine (number : Nat) (cs : List Char) : Except ConfigError (Option Assignment) :=
  let line := trim (stripComment false cs)
  if line.isEmpty then .ok none
  else
    match splitAssignment line with
    | none => .error (.noAssignment number)
    | some (key, value) =>
      match Vocabulary.ofWord? ConfigKey (String.ofList (trim key)) with
      | none => .error (.unknownKey (String.ofList (trim key)) number)
      | some key => (readAssignment number (trim value) key).map some

def readLines : Nat → List (List Char) → Except ConfigError (List Assignment)
  | _, [] => .ok []
  | number, line :: lines =>
    match readLine number line with
    | .error e => .error e
    | .ok assignment => (readLines (number + 1) lines).map (assignment.toList ++ ·)

def parse (text : String) : Except ConfigError FileConfig :=
  match readLines 1 (splitLines [] text.toList) with
  | .error e => .error e
  | .ok assignments =>
    let config := assignments.foldl FileConfig.assign {}
    match config.validate with
    | .error e => .error e
    | .ok _ => .ok config

end ReleaseWarden.Config
