import AnnotatedRoutes.Discovery

namespace AnnotatedRoutes

/-- The kind of a refused operation, as logs name it. -/
def FileFault.kind : FileFault → Text
  | .missing => "FileNotFoundError".toList
  | .alreadyThere => "FileExistsError".toList
  | .notDirectory => "NotADirectoryError".toList
  | .isDirectory => "IsADirectoryError".toList
  | .nameTooLong | .tooManyLinks => "OSError".toList
  | .nullCharacter => "ValueError".toList

/-- How models and router files are made. -/
structure Generator where
  around : Surroundings
  settings : Settings
  /-- The ending of controller file names. -/
  suffix : Text
  reflector : Reflector
  verbose : Bool
  log : Log

namespace Generator

/-- A generator with the controller files and the reflector that the settings describe. -/
def ofSettings (around : Surroundings) (settings : Settings) (verbose : Bool) (log : Log) :
    Generator :=
  { around, settings, verbose, log
    suffix := settings.scan.fileSuffix
    reflector := .fresh settings.source.constructorName }

/-- Where details go. -/
def details (g : Generator) : Log := Log.onlyIf g.verbose g.log

/-- Adds the class in a file to a builder; a file that cannot be read is passed over. -/
def addFile (g : Generator) (b : Builder) (p : Path) : Run (Builder × Option Text) := do
  let t ← Run.tree
  match t.readText g.around.working p with
  | .error e =>
    if e.fault = .nullCharacter then throw (.path (.file e))
    g.log ("[SKIP] ".toList ++ p.toText ++ " read_error=".toList ++ e.fault.kind)
    return (b, none)
  | .ok source =>
    let separator := g.settings.source.namespaceSeparator
    let step ← Run.lift .unanswered (b.addSource separator p.toText source)
    step.notices.forM fun notice => g.details notice.text
    return (step.builder, step.routingName)

/-- Adds files in order: the builder and the routing names that were accepted. -/
def addFiles (g : Generator) (b : Builder) : List Path → Run (Builder × List Text)
  | [] => return (b, [])
  | p :: paths => do
    let (b, name) ← g.addFile b p
    let (b, names) ← g.addFiles b paths
    return (b, name.toList ++ names)

/-- The model of the controllers that some inputs stand for. -/
def buildModel (g : Generator) (inputs : List Path) : Run RoutingModel := do
  let files ← Discovery.expandInputs g.around g.settings.scan.ignoredDirectories g.suffix g.details
    inputs
  let (b, names) ← g.addFiles { reflector := g.reflector } files
  g.log ("[MODEL] files=".toList ++ Text.ofNat files.length ++ " controllers=".toList ++
    Text.ofNat (firstOfEach id names).length)
  return b.model

/-- The router file of the controllers that some inputs stand for. -/
def render (g : Generator) (inputs : List Path) : Run Text := do
  let m ← g.buildModel inputs
  Run.lift .render (g.settings.templates.render m)

end Generator

/-- A refused write in a log. -/
def writeRefused (p : Path) (e : FileError) : Text :=
  "[ERROR] failed to write ".toList ++ Text.doubleQuoted p.toText ++ ": ".toList ++ e.message

/-- Writes a file after making its directory; tells whether the tree allowed it. -/
def writeLogged (working : Location) (log : Log) (p : Path) (text : Text) : Run Bool :=
  Run.orRefused
    (do
      let t ← Run.tree
      Run.proceed (t.writeDeep working p text)
      return true)
    fun e => do
      log (writeRefused p e)
      return false

/-- Writes the records of a model as JSON lines after making the directory; gives their number. -/
def writeRecords (working : Location) (m : RoutingModel) (p : Path) : Run Nat := do
  let records ← Run.lift (fun fault => .render (.controller fault)) m.records
  let t ← Run.tree
  Run.proceed (t.writeDeep working p (Record.toJsonLines records))
  return records.length

namespace Generator

/-- Writes the router file of some inputs. `elapsed` is the time in seconds that the log gives. -/
def generate (g : Generator) (elapsed : Text) (inputs : List Path) (out : Path) : Run Bool := do
  let text ← g.render inputs
  let written ← writeLogged g.around.working g.log out text
  if written then
    g.log ("[OK] wrote ".toList ++ out.toText ++ " in ".toList ++ elapsed ++ "s".toList)
  return written

end Generator

end AnnotatedRoutes
