import ReleaseWarden.Admission.Settings
import ReleaseWarden.Text.Integer

/-! Reading options. Arguments are read from the left; an option with a separate value is entered
only when the next option begins or the arguments end, so that a fault of its value shows no
earlier. -/

set_option autoImplicit false

namespace ReleaseWarden.CommandLine

open Text Schema

inductive UsageError
  | missingRequired
  | unknownArgument
  | invalidSubcommand
  | missingSubcommand
  | invalidValue
  | unreadableValue
  | conflict
  | unwantedValue
  | help
  | helpForLackOfArguments
  | version
  deriving DecidableEq, Repr

namespace UsageError

def message : UsageError → String
  | missingRequired => "a required option is missing"
  | unknownArgument => "unknown argument"
  | invalidSubcommand => "unknown command"
  | missingSubcommand => "a command is missing"
  | invalidValue => "an option lacks its value"
  | unreadableValue => "an option has a value that cannot be read"
  | conflict => "options exclude each other or are repeated"
  | unwantedValue => "an option takes no value"
  | help => "help"
  | helpForLackOfArguments => "a command is missing"
  | version => "version"

end UsageError

inductive OptionKind
  | flag
  | count
  | text
  | path
  | integer
  | search
  | help
  | version
  deriving DecidableEq, Repr

namespace OptionKind

def takesValue : OptionKind → Bool
  | text | path | integer | search => true
  | _ => false

end OptionKind

structure OptionSpec where
  name : String
  kind : OptionKind
  short : Option Char := none
  deriving DecidableEq, Repr

inductive Given
  | flag
  | count (n : Nat)
  | text (s : String)
  | integer (n : Int64)
  | search (kind : SearchKind)
  deriving DecidableEq, Repr

namespace Given

def ofText (kind : OptionKind) (s : String) : Except UsageError Given :=
  match kind with
  | .path => if s = "" then .error .invalidValue else .ok (.text s)
  | .integer =>
    match readInteger (Bounded.least Int64) (Bounded.greatest Int64) s.toList with
    | .ok n => .ok (.integer (Int64.ofInt n))
    | .error _ => .error .unreadableValue
  | .search =>
    match SearchKind.ofText s with
    | .ok kind => .ok (.search kind)
    | .error _ => .error .unreadableValue
  | _ => .ok (.text s)

end Given

structure CommandSpec where
  options : List OptionSpec
  subcommands : List String := []
  deriving DecidableEq, Repr

/-- How far the arguments of one command are read. -/
structure Reading where
  given : List (String × Given) := []
  /-- The option that was read last, if its value stands apart, and the value once it is read. -/
  pending : Option (OptionSpec × Option String) := none
  /-- Behind two dashes nothing is an option. -/
  onlyOperands : Bool := false
  deriving DecidableEq, Repr

namespace Reading

def find? (r : Reading) (name : String) : Option Given :=
  (r.given.find? fun g => g.1 == name).map Prod.snd

def text? (r : Reading) (name : String) : Option String :=
  match r.find? name with
  | some (.text s) => some s
  | _ => none

def integer? (r : Reading) (name : String) : Option Int64 :=
  match r.find? name with
  | some (.integer n) => some n
  | _ => none

def search? (r : Reading) (name : String) : Option SearchKind :=
  match r.find? name with
  | some (.search kind) => some kind
  | _ => none

def flag (r : Reading) (name : String) : Bool := r.find? name == some .flag

def count? (r : Reading) (name : String) : Option Nat :=
  match r.find? name with
  | some (.count n) => some n
  | _ => none

def awaitsValue (r : Reading) : Bool :=
  match r.pending with
  | some (_, none) => true
  | _ => false

/-- Only options that count may be repeated. -/
def enterValue (r : Reading) (o : OptionSpec) (value : String) : Except UsageError Reading :=
  if (r.find? o.name).isSome then .error .conflict
  else do
    let given ← Given.ofText o.kind value
    pure { r with given := (o.name, given) :: r.given }

def settle (r : Reading) : Except UsageError Reading :=
  match r.pending with
  | none => .ok r
  | some (_, none) => .error .invalidValue
  | some (o, some value) => { r with pending := none }.enterValue o value

def enterFlag (r : Reading) (o : OptionSpec) : Except UsageError Reading := do
  let r ← r.settle
  match o.kind with
  | .help => .error .help
  | .version => .error .version
  | .count =>
    let n := min 255 ((r.count? o.name).getD 0 + 1)
    .ok { r with given := (o.name, .count n) :: r.given.filter fun g => g.1 != o.name }
  | _ =>
    if (r.find? o.name).isSome then .error .conflict
    else .ok { r with given := (o.name, .flag) :: r.given }

def readLong (spec : CommandSpec) (r : Reading) (cs : List Char) : Except UsageError Reading :=
  let name := String.ofList (cs.takeWhile (· != '='))
  match spec.options.find? fun o => o.name == name, cs.dropWhile (· != '=') with
  | none, _ => .error .unknownArgument
  | some o, [] =>
    if o.kind.takesValue then do
      let r ← r.settle
      pure { r with pending := some (o, none) }
    else r.enterFlag o
  | some o, _ :: value =>
    if o.kind.takesValue then do
      let r ← r.settle
      r.enterValue o (String.ofList value)
    else .error .unwantedValue

def readShort (spec : CommandSpec) : Reading → List Char → Except UsageError Reading
  | r, [] => .ok r
  | r, c :: cs =>
    match spec.options.find? fun o => o.short == some c with
    | none => .error .unknownArgument
    | some o => do
      let r ← r.enterFlag o
      readShort spec r cs

/-- No command takes operands; where commands are below it, an operand is taken for one. -/
def operandFault (spec : CommandSpec) (onlyOperands : Bool) (arg : String) : UsageError :=
  if spec.subcommands.isEmpty then .unknownArgument
  else if onlyOperands && spec.subcommands.contains arg then .unknownArgument
  else .invalidSubcommand

def readOption (spec : CommandSpec) (r : Reading) (arg : String) : Except UsageError Reading :=
  match arg.toList with
  | ['-', '-'] => .ok { r with onlyOperands := true }
  | '-' :: '-' :: cs => r.readLong spec cs
  | '-' :: c :: cs => r.readShort spec (c :: cs)
  | _ =>
    match r.pending with
    | some (o, none) => .ok { r with pending := some (o, some arg) }
    | _ => .error (operandFault spec false arg)

/-- Reads arguments up to the name of a command below; answers that name and the arguments behind
it. -/
def readAll (spec : CommandSpec) :
    Reading → List String → Except UsageError (Reading × Option (String × List String))
  | r, [] => .ok (r, none)
  | r, arg :: args =>
    if r.onlyOperands then .error (operandFault spec true arg)
    else if !r.awaitsValue && spec.subcommands.contains arg then .ok (r, some (arg, args))
    else do
      let r ← r.readOption spec arg
      readAll spec r args

end Reading

end ReleaseWarden.CommandLine
