import AnnotatedRoutes.CommandLine.Run
import Std.Time

namespace AnnotatedRoutes.Command

/-- The variable that names a settings file. -/
def settingsVariable : String := "ROUTEGEN_CONFIG"

def shown (t : Text) : String := String.ofList t

def shownLocation (l : Location) : String := shown (Path.ofLocation l).toText

def locationIn (around : Surroundings) (p : Path) : Location :=
  let p := match p.expandHome around with
    | .ok p => p
    | .error _ => p
  FileTree.locationOf around.working p

def usage : Text :=
  "usage: (--controllers PATH ... | --catalog PATH) [--out PATH] [--model-out PATH]\n".toList ++
    "       [--stdout] [--verbose] [--log-file PATH]\n".toList

/-- Adds the entry at a location, and the entries that lead to it. -/
partial def survey (t : FileTree) (l : Location) : IO FileTree := do
  if (t.entry? l).isSome then return t
  let t ← survey t l.dropLast
  let place := (← IO.currentDir) / shownLocation l
  match ← (place.symlinkMetadata).toBaseIO with
  | .error _ => return t
  | .ok data =>
    match data.type with
    | .dir => return t.put l .directory
    | .file => return t.put l (.file (← IO.FS.readBinFile place).toList)
    | .other => return t
    | .symlink =>
      match ← (IO.FS.realPath place).toBaseIO with
      | .error _ => return t
      | .ok target =>
        let target := target.toString.toList
        survey (t.put l (.link target)) (FileTree.locationOf [] (Path.ofText target))

/-- Adds what stands below a location, links to directories left aside. -/
partial def surveyBelow (t : FileTree) (l : Location) : IO FileTree := do
  let t ← survey t l
  let here := (t.find .target [] (Path.ofLocation l)).toOption.getD l
  if t.entry? here ≠ some .directory then return t
  let place := (← IO.currentDir) / shownLocation here
  (← place.readDir).foldlM (fun t child => do
    let below := here ++ [child.fileName.toList]
    let t ← survey t below
    if t.entry? below = some .directory then surveyBelow t below else return t) t

/-- Adds what the inputs of a run lead to. -/
def surveyOrigin (around : Surroundings) (t : FileTree) : CommandLine.Origin → IO FileTree
  | .controllers inputs => inputs.foldlM (fun t written =>
      surveyBelow t (locationIn around (Path.ofText written))) t
  | .catalog none => return t
  | .catalog (some written) => do
    let p := Path.ofLocation (locationIn around (Path.ofText written))
    let t ← surveyBelow t (locationIn around p.parent)
    match (t.readValue around.working p).toOption.bind Value.entries? with
    | none => return t
    | some s =>
      match Catalog.rootOf t around p s with
      | .ok root => surveyBelow t (locationIn around root)
      | .error _ => return t

/-- The home directories of the accounts of this system. -/
def accounts : IO (List (Text × Text)) := do
  match ← (IO.FS.readFile "/etc/passwd").toBaseIO with
  | .error _ => return []
  | .ok table =>
    return (Text.splitAt '\n' table.toList).filterMap fun line =>
      match Text.splitAt ':' line with
      | [name, _, _, _, _, home, _] => some (name, home)
      | _ => none

/-- Writes the directories and files in which a tree differs from the one before. -/
def carryOut (before after : FileTree) : IO Unit :=
  after.entries.entries.forM fun (l, e) => do
    if before.entry? l ≠ some e then
      match e with
      | .directory => IO.FS.createDirAll (shownLocation l)
      | .file content => IO.FS.writeBinFile (shownLocation l) ⟨content.toArray⟩
      | .link _ => pure ()

/-- Ends without a run. -/
def stop : CommandLine.Interruption → IO UInt32
  | .helpWanted => do
    IO.print (shown usage)
    return 0
  | .misuse fault => do
    IO.eprint (shown usage)
    IO.eprintln (shown ("error: ".toList ++ fault.message))
    return 2

/-- Runs the command with accepted arguments. -/
def run (arguments : CommandLine.Arguments) : IO UInt32 := do
  let working := FileTree.locationOf [] (Path.ofText (← IO.currentDir).toString.toList)
  let home := ((← IO.getEnv "HOME").getD "/").toList
  let around : Surroundings := { working, home, accounts := ← accounts }
  let asked := ((← IO.getEnv settingsVariable).getD "").toList
  let t ← survey {} working
  let t ← survey t (locationIn around (Path.ofText (Text.trim asked)))
  match Settings.locate t around asked, Settings.load t around asked with
  | .ok p, .ok settings => do
    let log := (settings.document.catalogLog).toOption.getD []
    let outputs := arguments.out.toList ++ arguments.modelOut.toList ++ arguments.logFile.toList
    let t ← (log :: outputs).foldlM (fun t written =>
      survey t (locationIn around (Path.ofText written))) t
    let t ← surveyOrigin around t arguments.origin
    let stamp := (← Std.Time.PlainDateTime.now).format "uuuu-MM-dd HH:mm:ss"
    let invocation : CommandLine.Invocation :=
      { arguments, around, settings, stamp := stamp.toList
        settingsPath := (p.map Path.toText).getD "shipped settings".toList }
    let (result, s) := (invocation.run.run).run { tree := t }
    carryOut t s.tree
    IO.print (shown s.output)
    IO.eprint (shown s.errors)
    match result with
    | .ok code => return code.number.toUInt32
    | .error failure =>
      IO.eprintln (shown failure.message)
      return 1
  | .error fault, _ =>
    IO.eprintln (shown fault.message)
    return 1
  | _, .error fault =>
    IO.eprintln (shown fault.message)
    return 1

end AnnotatedRoutes.Command

/-- Makes router files from annotated controllers. -/
def main (arguments : List String) : IO UInt32 :=
  match AnnotatedRoutes.CommandLine.Arguments.read (arguments.map String.toList) with
  | .error interruption => AnnotatedRoutes.Command.stop interruption
  | .ok arguments => AnnotatedRoutes.Command.run arguments
