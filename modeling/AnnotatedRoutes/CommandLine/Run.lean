import AnnotatedRoutes.Catalog.File
import AnnotatedRoutes.CommandLine.Arguments
import AnnotatedRoutes.Generation

namespace AnnotatedRoutes

/-- What a fault in loading ends a run with. -/
def Failure.ofLoad : Settings.LoadFault → Failure
  | .path fault => .path fault
  | .settings fault => .settings fault

namespace CommandLine

/-- The exit codes of the command. -/
inductive ExitCode where
  | success
  | writeFailed
  | badInput
  deriving DecidableEq

def ExitCode.number : ExitCode → Nat
  | success => 0
  | writeFailed => 1
  | badInput => 2

/-- A command to run. -/
structure Invocation where
  arguments : Arguments
  around : Surroundings
  settings : Settings
  /-- The time of the start, as the log file gives it. -/
  stamp : Text
  /-- The path of the settings, as the log file gives it. -/
  settingsPath : Text

/-- A router file to be made; without an output its text is printed. -/
structure Job where
  name : Text
  inputs : List Path
  out : Option Path
  modelOut : Option Path
  deriving DecidableEq

/-- Writes on the standard output. -/
def printOutput (text : Text) : Run Unit :=
  modify fun s => { s with output := s.output ++ text }

/-- Writes on the error output. -/
def printError (text : Text) : Run Unit :=
  modify fun s => { s with errors := s.errors ++ text }

/-- The mark of log lines that always go to the error output. -/
def errorMark : Text := "[ERROR]".toList

namespace Invocation

/-- The canonical path that a text stands for. -/
def located (i : Invocation) (written : Text) : Run Path := do
  let p ← Run.liftPath ((Path.ofText written).expandHome i.around)
  let t ← Run.tree
  Run.liftPath (t.canonical i.around p)

/-- The canonical path that a text stands for, if there is a text. -/
def located? (i : Invocation) : Option Text → Run (Option Path)
  | none => return none
  | some written => return some (← i.located written)

/-- The log file that is asked for, or else the one that the settings give to catalog runs. -/
def logFile (i : Invocation) : Run (Option Path) :=
  match i.arguments.logFile with
  | some written => return some (← i.located written)
  | none => do
    let usual ← Run.lift .settings i.settings.document.catalogLog
    match i.arguments.origin with
    | .catalog (some (_ :: _)) =>
      if usual = [] then return none else return some (← i.located usual)
    | _ => return none

/-- Adds a line to the log file. -/
def keep (i : Invocation) (logFile : Option Path) (line : Text) : Run Unit :=
  match logFile with
  | none => pure ()
  | some p => do
    let t ← Run.tree
    Run.proceed (t.appendDeep i.around.working p (line ++ ['\n']))

/-- Whether a line goes to the error output. The standard output is kept clean for a router file
that is printed. -/
def isForErrors (i : Invocation) (line : Text) : Bool :=
  i.arguments.toStdout || Text.includes line errorMark

/-- Prints a line and keeps it. -/
def log (i : Invocation) (logFile : Option Path) : Log := fun line => do
  if i.isForErrors line then printError (line ++ ['\n']) else printOutput (line ++ ['\n'])
  i.keep logFile line

/-- Prints a line on the error output and keeps it. -/
def logError (i : Invocation) (logFile : Option Path) : Log := fun line => do
  printError (line ++ ['\n'])
  i.keep logFile line

end Invocation

namespace Job

/-- A log whose lines begin with the name of the job, if it has one. -/
def log (job : Job) (log : Log) : Log := fun line =>
  log (if job.name = [] then line else '[' :: job.name ++ "] ".toList ++ line)

/-- Logs the routes of a model. -/
def logListing (log : Log) (m : RoutingModel) : Run Unit := do
  let listing ← Run.lift (fun fault => .render (.controller fault)) (m.listing Record.listingLimit)
  (Text.lines listing).forM log

/-- Writes the records of a model, if they are asked for; tells whether the tree allowed it. -/
def writeModel (job : Job) (working : Location) (log : Log) (m : RoutingModel) : Run Bool :=
  match job.modelOut with
  | none => return true
  | some p =>
    Run.orRefused
      (do
        let count ← writeRecords working m p
        log ("[OK] wrote ".toList ++ p.toText ++ " routes=".toList ++ Text.ofNat count)
        return true)
      fun e => do
        log (writeRefused p e)
        return false

/-- Writes the router file, or prints it if there is no output; tells whether the tree allowed
it. -/
def writeRouter (job : Job) (working : Location) (log : Log) (text : Text) : Run Bool :=
  match job.out with
  | none => do
    printOutput text
    return true
  | some p => do
    let written ← writeLogged working log p text
    if written then log ("[OK] wrote ".toList ++ p.toText)
    return written

/-- Makes a router file and tells whether everything was written. -/
def run (job : Job) (i : Invocation) (log : Log) : Run Bool := do
  let log := job.log log
  let verbose := i.arguments.verbose
  let m ← (Generator.ofSettings i.around i.settings verbose log).buildModel job.inputs
  if verbose then logListing log m
  let modelWritten ← job.writeModel i.around.working log m
  let text ← Run.lift .render (i.settings.templates.render m)
  let routerWritten ← job.writeRouter i.around.working log text
  return modelWritten && routerWritten

end Job

namespace Invocation

/-- The output of a job; none if it is to be printed. -/
def outOf (i : Invocation) (out : Option Path) : Option Path :=
  if i.arguments.toStdout then none else out

/-- Makes the router file of some inputs. -/
def runInputs (i : Invocation) (log logError : Log) (modelOut : Option Path)
    (inputs : List Text) : Run ExitCode := do
  if i.arguments.out.isNone && !i.arguments.toStdout then
    logError "[ERROR] --out is required unless --stdout is given".toList
    return .badInput
  let out ← i.located? i.arguments.out
  let inputs ← inputs.mapM fun written =>
    Run.liftPath ((Path.ofText written).expandHome i.around)
  let job : Job := ⟨[], inputs, i.outOf out, modelOut⟩
  return if ← job.run i log then .success else .writeFailed

/-- The file for the records of a job: in the same directory for all jobs, with the name of the job
in front. -/
def modelOutOf (modelOut : Path) (entry : RouterJob) : Path :=
  modelOut.parent.child (entry.name ++ '.' :: modelOut.name)

/-- The job for a router file of a catalog. -/
def jobOf (i : Invocation) (modelOut : Option Path) (entry : RouterJob) : Job :=
  ⟨entry.name, entry.inputs, i.outOf (some entry.out), modelOut.map (modelOutOf · entry)⟩

/-- Makes all router files of a catalog; a job that fails does not keep the others from being
done. -/
def runCatalog (i : Invocation) (log logError : Log) (modelOut : Option Path) (written : Text) :
    Run ExitCode := do
  let p ← i.located written
  let t ← Run.tree
  match ← Run.lift Failure.ofLoad (Catalog.load t i.around p) with
  | .error refusal =>
    refusal.lines.forM logError
    return .badInput
  | .ok entries =>
    let results ← entries.mapM fun entry => (i.jobOf modelOut entry).run i log
    let failed := results.count false
    if failed = 0 then return .success
    logError ("[WARN] ".toList ++ Text.ofNat failed ++ " of ".toList ++ Text.ofNat entries.length ++
      " router files failed".toList)
    return .writeFailed

/-- Runs the command. -/
def run (i : Invocation) : Run ExitCode := do
  let logFile ← i.logFile
  i.keep logFile
    ("[RUN] start ".toList ++ i.stamp ++ " config=".toList ++ i.settingsPath)
  let modelOut ← i.located? i.arguments.modelOut
  let log := i.log logFile
  let logError := i.logError logFile
  match i.arguments.origin with
  | .controllers [] => throw (.pathMissing .notGiven)
  | .controllers inputs => i.runInputs log logError modelOut inputs
  | .catalog none => throw (.pathMissing .withoutValue)
  | .catalog (some written) => i.runCatalog log logError modelOut written

end Invocation

end CommandLine

end AnnotatedRoutes
