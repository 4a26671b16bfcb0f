import ReleaseWarden.CommandLine.Options

/-! The commands and their arguments. -/

set_option autoImplicit false

namespace ReleaseWarden.CommandLine

inductive Target
  | history (id : Int64)
  | download (id : String)
  deriving DecidableEq, Repr

inductive Command
  | evaluate (profile candidate : String) (held queue : Option String)
      (search : Option SearchKind)
  | cutoffUnmet (profile items : String)
  | recordGrab (candidate downloadId downloadClient source : String) (db : Option String)
  | check (tracked : String) (db : Option String)
  | markFailed (target : Target) (skipRedownload : Bool) (db : Option String)
  deriving DecidableEq, Repr

namespace Command

def files : Command → List String
  | evaluate profile candidate held queue _ =>
    [profile, candidate] ++ held.toList ++ queue.toList
  | cutoffUnmet profile items => [profile, items]
  | recordGrab candidate .. => [candidate]
  | check tracked _ => [tracked]
  | markFailed .. => []

def db? : Command → Option String
  | recordGrab _ _ _ _ db => db
  | check _ db => db
  | markFailed _ _ db => db
  | _ => none

end Command

structure Invocation where
  verbose : Nat := 0
  quiet : Bool := false
  config : Option String := none
  command : Command
  deriving DecidableEq, Repr

def globalOptions : List OptionSpec :=
  [⟨"verbose", .count, some 'v'⟩, ⟨"quiet", .flag, some 'q'⟩, ⟨"config", .path, none⟩,
    ⟨"help", .help, some 'h'⟩]

def commands : List (String × List OptionSpec) :=
  [("evaluate",
      [⟨"profile", .path, none⟩, ⟨"candidate", .path, none⟩, ⟨"held", .path, none⟩,
        ⟨"queue", .path, none⟩, ⟨"search-kind", .search, none⟩]),
    ("cutoff-unmet", [⟨"profile", .path, none⟩, ⟨"items", .path, none⟩]),
    ("record-grab",
      [⟨"candidate", .path, none⟩, ⟨"download-id", .text, none⟩,
        ⟨"download-client", .text, none⟩, ⟨"source", .text, none⟩, ⟨"db", .path, none⟩]),
    ("check", [⟨"tracked", .path, none⟩, ⟨"db", .path, none⟩]),
    ("mark-failed",
      [⟨"history-id", .integer, none⟩, ⟨"download-id", .text, none⟩,
        ⟨"skip-redownload", .flag, none⟩, ⟨"db", .path, none⟩])]

def topSpec : CommandSpec where
  options := globalOptions ++ [⟨"version", .version, some 'V'⟩]
  subcommands := commands.map Prod.fst ++ ["help"]

def orMissing {α : Type} : Option α → Except UsageError α
  | some a => .ok a
  | none => .error .missingRequired

def Command.ofReading (name : String) (r : Reading) : Except UsageError Command :=
  match name with
  | "evaluate" => do
    let profile ← orMissing (r.text? "profile")
    let candidate ← orMissing (r.text? "candidate")
    pure (.evaluate profile candidate (r.text? "held") (r.text? "queue")
      (r.search? "search-kind"))
  | "cutoff-unmet" => do
    let profile ← orMissing (r.text? "profile")
    let items ← orMissing (r.text? "items")
    pure (.cutoffUnmet profile items)
  | "record-grab" => do
    let candidate ← orMissing (r.text? "candidate")
    let downloadId ← orMissing (r.text? "download-id")
    let downloadClient ← orMissing (r.text? "download-client")
    pure (.recordGrab candidate downloadId downloadClient ((r.text? "source").getD "search")
      (r.text? "db"))
  | "check" => do
    let tracked ← orMissing (r.text? "tracked")
    pure (.check tracked (r.text? "db"))
  | "mark-failed" =>
    match r.integer? "history-id", r.text? "download-id" with
    | some _, some _ => .error .conflict
    | some id, none =>
      .ok (.markFailed (.history id) (r.flag "skip-redownload") (r.text? "db"))
    | none, some id =>
      .ok (.markFailed (.download id) (r.flag "skip-redownload") (r.text? "db"))
    | none, none => .error .missingRequired
  | _ => .error .invalidSubcommand

/-- Help can be asked for on a command, and on help itself. -/
def helpOn : List String → UsageError
  | [] => .help
  | [name] => if topSpec.subcommands.contains name then .help else .invalidSubcommand
  | _ => .invalidSubcommand

namespace Invocation

def readCommand (name : String) (args : List String) : Except UsageError (Command × Reading) := do
  if name = "help" then throw (helpOn args)
  let options := ((commands.find? fun c => c.1 == name).map Prod.snd).getD []
  let (r, _) ← Reading.readAll { options := options ++ globalOptions } {} args
  let r ← r.settle
  let command ← Command.ofReading name r
  pure (command, r)

/-- Reads a command line without the name of the program. What stands behind the name of the
command takes the place of the same option before it. -/
def ofArgs (args : List String) : Except UsageError Invocation := do
  let (top, below) ← Reading.readAll topSpec {} args
  match below with
  | none =>
    let top ← top.settle
    throw (if top.given.isEmpty then .helpForLackOfArguments else .missingSubcommand)
  | some (name, args) =>
    let (command, r) ← readCommand name args
    let top ← top.settle
    pure
      { verbose := ((r.count? "verbose").orElse fun _ => top.count? "verbose").getD 0
        quiet := r.flag "quiet" || top.flag "quiet"
        config := (r.text? "config").orElse fun _ => top.text? "config"
        command }

end Invocation

end ReleaseWarden.CommandLine
