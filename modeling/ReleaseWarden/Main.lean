import ReleaseWarden.CommandLine.Run
import Std.Time.Format

/-! The program: reads the files that a command names, runs it and changes files as it says. -/

set_option autoImplicit false

namespace ReleaseWarden.CommandLine

open Files

def placeOf (path : String) : IO Place := do
  try
    let content ← IO.FS.readFile path
    match (Json.parse content).bind Place.databaseSchema.decode with
    | some (journal, store) => pure (.database journal store)
    | none => pure (.text content)
  catch
    | .noFileOrDirectory .. => pure .vacant
    | _ => pure .directory

def put (path : String) : Place → IO Unit
  | .vacant => IO.FS.removeFile path
  | .text content => IO.FS.writeFile path content
  | .database journal store =>
    IO.FS.writeFile path (Place.databaseSchema.encode (journal, store)).render
  | _ => pure ()

def look (paths : List Pathname) : IO (Pathname → Place) := do
  let found ← paths.filterMapM fun path => do
    match path.text? with
    | none => pure none
    | some text => pure (some (path, ← placeOf text))
  pure fun path => ((found.find? fun f => f.1 == path).map Prod.snd).getD .nowhere

def timeNow : IO String := do
  let time ← Std.Time.Timestamp.now
  pure ((Std.Time.PlainDateTime.ofWallTime (time.toWallTime .zero)).format "uuuu-MM-dd HH:mm:ss")

def helpText : String :=
  "Admission decisions and failed download handling for music releases\n\nUsage: releasegate [OPTIONS] <COMMAND>\n\nCommands:\n" ++
    String.join (commands.map fun c =>
      "  " ++ c.1 ++ String.join (c.2.map fun o => " --" ++ o.name) ++ "\n")

def reportError (message : String) : IO Unit := IO.eprintln ("Error: " ++ message)

def deliver (report : Report) : IO Nat := do
  match report.ending with
  | .usage .help => IO.print helpText
  | .usage .version => IO.println "releasegate 0.1.0"
  | .usage cause => IO.eprintln ("error: " ++ cause.message)
  | .failed cause => reportError cause.report
  | .overflow => reportError "format scores left the range of 32 bits"
  | _ => pure ()
  for (path, place) in report.changes do
    match path.text? with
    | none => pure ()
    | some text => put text place
  match report.output with
  | none => pure ()
  | some json => IO.println json.renderIndented
  pure report.ending.exitCode

def runInvocation (invocation : Invocation) : IO Nat := do
  let xdg ← IO.getEnv "XDG_CONFIG_HOME"
  let home ← IO.getEnv "HOME"
  let environment := fun name =>
    if name = "XDG_CONFIG_HOME" then xdg else if name = "HOME" then home else none
  let now ← timeNow
  let blind : Surroundings := { environment, place := fun _ => .nowhere, now }
  let configPaths := invocation.config.toList ++ blind.defaultConfigPath?.toList
  let configured := { blind with place := ← look (configPaths.map .ofText) }
  let storePaths := match configured.loadConfig invocation.config with
    | .error _ => []
    | .ok config =>
      Opening.pathsAt (Location.ofText (storeLocation invocation.command.db? config))
  let place ← look ((configPaths ++ invocation.command.files).map .ofText ++ storePaths)
  deliver (invocation.run { blind with place })

end ReleaseWarden.CommandLine

open ReleaseWarden.CommandLine in
def main (args : List String) : IO UInt32 := do
  let code ← match Invocation.ofArgs args with
    | .error cause => deliver { ending := .usage cause }
    | .ok invocation => runInvocation invocation
  pure code.toUInt32
