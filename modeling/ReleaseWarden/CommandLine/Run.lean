import ReleaseWarden.Admission.Chain
import ReleaseWarden.CommandLine.Invocation
import ReleaseWarden.CommandLine.Opening
import ReleaseWarden.Config.Parser
import ReleaseWarden.Failure.Settlement
import ReleaseWarden.Failure.Supervision
import ReleaseWarden.Files.Folder

/-! Running a command: what it reads, what it answers, and which files it leaves changed. -/

set_option autoImplicit false

namespace ReleaseWarden.CommandLine

open Text Files

structure Surroundings where
  environment : String → Option String
  place : Pathname → Place
  now : String

inductive RunError
  | configUnreadable (path : String)
  | configInvalid (path : String) (cause : ConfigError)
  | fileUnreadable (what path : String)
  | fileInvalid (what path : String)
  | profileInvalid (path : String) (cause : ProfileError)
  | storeUnopened (path : String)
  | history (cause : HistoryError)
  | supervision (cause : SupervisionError)
  deriving DecidableEq, Repr

namespace RunError

def message : RunError → String
  | configUnreadable path => "Failed to read config file '" ++ path ++ "'"
  | configInvalid path _ => "Failed to parse config file '" ++ path ++ "'"
  | fileUnreadable what path => "Failed to read " ++ what ++ " file '" ++ path ++ "'"
  | fileInvalid what path => "Failed to parse " ++ what ++ " file '" ++ path ++ "'"
  | profileInvalid path _ => "Invalid profile in '" ++ path ++ "'"
  | storeUnopened path => "Failed to open history database '" ++ path ++ "'"
  | history cause => cause.message
  | supervision cause => cause.message

/-- What lies behind the error, the nearest cause first. -/
def causes : RunError → List String
  | configInvalid _ cause => cause.message :: cause.causes
  | profileInvalid _ cause => [cause.message]
  | _ => []

def setOff (lead : String) (cause : String) : String :=
  "\n" ++ lead ++
    String.intercalate ("\n" ++ String.ofList (List.replicate lead.length ' ')) (cause.splitOn "\n")

/-- The message, and below it the causes, numbered if there are several. -/
def report (e : RunError) : String :=
  match e.causes with
  | [] => e.message
  | [cause] => e.message ++ "\n\nCaused by:" ++ setOff "    " cause
  | causes => e.message ++ "\n\nCaused by:" ++
      String.join (causes.zipIdx.map fun (cause, i) =>
        setOff ("    " ++ toString i ++ ": ") cause)

end RunError

inductive Ending
  | done
  | rejected
  | retryLater
  | usage (cause : UsageError)
  | failed (cause : RunError)
  /-- Format scores left their range. -/
  | overflow
  deriving DecidableEq, Repr

namespace Ending

def exitCode : Ending → Nat
  | done => 0
  | rejected => 2
  | retryLater => 75
  | usage .help => 0
  | usage .version => 0
  | usage _ => 2
  | failed _ => 1
  | overflow => 101

end Ending

structure Report where
  ending : Ending
  output : Option Json := none
  /-- The files that are not left as they were, in the order of their changes. -/
  changes : List (Pathname × Place) := []
  deriving Repr

namespace Report

def failed (cause : RunError) : Report := { ending := .failed cause }

def ofScored {α : Type} (result : Scored α) (f : α → Report) : Report :=
  match result with
  | .ok a => f a
  | .error _ => { ending := .overflow }

end Report

namespace Surroundings

def nonEmpty? (w : Surroundings) (name : String) : Option String :=
  (w.environment name).filter (· != "")

def joinPath (directory below : String) : String :=
  if directory.endsWith "/" then directory ++ below else directory ++ "/" ++ below

def defaultConfigPath? (w : Surroundings) : Option String :=
  match w.nonEmpty? "XDG_CONFIG_HOME" with
  | some directory => some (joinPath directory "releasegate/config.toml")
  | none =>
    (w.nonEmpty? "HOME").map fun home => joinPath home ".config/releasegate/config.toml"

def readConfig (w : Surroundings) (path : String) : Except RunError FileConfig :=
  match (w.place (.ofText path)).text? with
  | none => .error (.configUnreadable path)
  | some text =>
    match Config.parse text with
    | .ok config => .ok config
    | .error cause => .error (.configInvalid path cause)

/-- A configuration file that is named has to be there, the default one need not. -/
def loadConfig (w : Surroundings) (named : Option String) : Except RunError FileConfig :=
  match named with
  | some path => w.readConfig path
  | none =>
    match w.defaultConfigPath? with
    | none => .ok {}
    | some path => if (w.place (.ofText path)).isThere then w.readConfig path else .ok {}

def readFile {α : Type} (w : Surroundings) (schema : Schema α) (what path : String) :
    Except RunError α :=
  match (w.place (.ofText path)).text? with
  | none => .error (.fileUnreadable what path)
  | some text =>
    match (Json.parse text).bind schema.decode with
    | some a => .ok a
    | none => .error (.fileInvalid what path)

def readList {α : Type} (w : Surroundings) (schema : Schema α) (what : String) :
    Option String → Except RunError (List α)
  | none => .ok []
  | some path => w.readFile (.list schema) what path

def readProfile (w : Surroundings) (path : String) : Except RunError Profile := do
  let profile ← w.readFile Profile.schema "profile" path
  match profile.validate with
  | .ok _ => pure profile
  | .error cause => throw (.profileInvalid path cause)

/-- Runs on the store at a location. The run answers how it ends and what it leaves of the store. -/
def onStore (w : Surroundings) (location : String)
    (act : Store → Ending × Option Json × Store) : Report :=
  let opening := Opening.ofLocation w.place (Location.ofText location)
  match opening.store? with
  | none => { ending := .failed (.storeUnopened location), changes := opening.changes }
  | some store =>
    let (ending, output, store) := act store
    { ending, output, changes := opening.changesWith store }

end Surroundings

def storeLocation (named : Option String) (config : FileConfig) : String :=
  (named.orElse fun _ => config.databasePath).getD "releasegate.db"

def evaluate (w : Surroundings) (config : FileConfig) (profile candidate : String)
    (held queue : Option String) (search : Option SearchKind) : Except RunError Report := do
  let profile ← w.readProfile profile
  let candidate ← w.readFile Candidate.schema "candidate" candidate
  let held ← w.readList LibraryItem.schema "held items" held
  let queue ← w.readList QueueEntry.schema "queue" queue
  let on : Circumstances := { profile, settings := config.settings, search, held, queue }
  pure (.ofScored (on.judge candidate) fun verdict =>
    { ending := if verdict.isAccepted then .done else .rejected
      output := some verdict.encode })

def cutoffUnmet (w : Surroundings) (profile items : String) : Except RunError Report := do
  let profile ← w.readProfile profile
  let items ← w.readFile (.list LibraryItem.schema) "library items" items
  pure (.ofScored (profile.cutoffUnmet items) fun unmet =>
    { ending := .done, output := some ((Schema.list LibraryItem.schema).encode unmet) })

def recordGrab (w : Surroundings) (config : FileConfig)
    (candidate downloadId downloadClient source : String) (db : Option String) :
    Except RunError Report := do
  let candidate ← w.readFile Candidate.schema "candidate" candidate
  pure (w.onStore (storeLocation db config) fun store =>
    match store.recordGrab w.now candidate downloadId downloadClient (.ofText source) with
    | (.error cause, store) => (.failed (.history cause), none, store)
    | (.ok ids, store) =>
      let output := Json.record [("history_ids", (Schema.list Schema.integer).encode ids)]
      (.done, some output, store))

/-- Records what was announced and answers it, together with further members. -/
def conclude (w : Surroundings) (config : FileConfig) (store : Store)
    (sent : List FailureEvent) (further : List (String × Json)) : Ending × Option Json × Store :=
  match Settlement.settle config.autoRedownload w.now sent store with
  | (.error cause, store) => (.failed (.history cause), none, store)
  | (.ok settlement, store) =>
    (.done, some (Json.record (settlement.encode ++ further)), store)

/-- A pass that broke off may be worth another try. -/
def breakOff (cause : SupervisionError) : Ending :=
  if cause.isRetryable then .retryLater else .failed (.supervision cause)

/-- What supervision is asked for. -/
inductive FailureTask
  | check (tracked : Tracked)
  | mark (target : Target) (skipRedownload : Bool)
  deriving DecidableEq, Repr

namespace FailureTask

/-- Answers what a report tells besides the announcements. -/
def supervise (history : Lookup) : FailureTask → Outcome (List (String × Json)) (List FailureEvent)
  | check tracked =>
    match Desk.pass history .listening { tracked } with
    | (.error cause, desk) => (.error cause, desk.sent)
    | (.ok _, desk) => (.ok [("tracked", Tracked.schema.encode desk.tracked)], desk.sent)
  | mark target skipRedownload =>
    let outcome := match target with
      | .history id => markByRecord history .listening id skipRedownload []
      | .download id => markByDownload history .listening id skipRedownload []
    (outcome.1.map fun _ => [], outcome.2)

/-- A task that breaks off leaves the store alone. -/
def run (w : Surroundings) (config : FileConfig) (task : FailureTask) (store : Store) :
    Ending × Option Json × Store :=
  match task.supervise store.lookup with
  | (.error cause, _) => (breakOff cause, none, store)
  | (.ok further, sent) => conclude w config store sent further

end FailureTask

def check (w : Surroundings) (config : FileConfig) (tracked : String) (db : Option String) :
    Except RunError Report := do
  let tracked ← w.readFile Tracked.schema "tracked download" tracked
  pure (w.onStore (storeLocation db config) ((FailureTask.check tracked).run w config))

def markFailed (w : Surroundings) (config : FileConfig) (target : Target) (skipRedownload : Bool)
    (db : Option String) : Report :=
  w.onStore (storeLocation db config) ((FailureTask.mark target skipRedownload).run w config)

def perform (w : Surroundings) (config : FileConfig) : Command → Except RunError Report
  | .evaluate profile candidate held queue search =>
    evaluate w config profile candidate held queue search
  | .cutoffUnmet profile items => cutoffUnmet w profile items
  | .recordGrab candidate downloadId downloadClient source db =>
    recordGrab w config candidate downloadId downloadClient source db
  | .check tracked db => check w config tracked db
  | .markFailed target skipRedownload db => pure (markFailed w config target skipRedownload db)

/-- The configuration is read before the command looks at anything. -/
def Invocation.run (w : Surroundings) (i : Invocation) : Report :=
  match w.loadConfig i.config with
  | .error cause => .failed cause
  | .ok config =>
    match perform w config i.command with
    | .error cause => .failed cause
    | .ok report => report

def run (w : Surroundings) (args : List String) : Report :=
  match Invocation.ofArgs args with
  | .error cause => { ending := .usage cause }
  | .ok invocation => invocation.run w

def runIn (f : Folder) (environment : String → Option String) (now : String)
    (args : List String) : Report × Folder :=
  let report := run { environment, place := f.place, now } args
  (report, report.changes.foldl (fun f (path, place) => f.put path place) f)

end ReleaseWarden.CommandLine
