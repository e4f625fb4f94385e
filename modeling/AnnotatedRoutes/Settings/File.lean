import AnnotatedRoutes.FileTree.Canonical
import AnnotatedRoutes.Settings.Shipped
import AnnotatedRoutes.Yaml.Document

namespace AnnotatedRoutes

/-- Why a file holds no value. -/
inductive ReadFault where
  | file (e : FileError)
  | encoding
  | document (fault : Yaml.Fault)
  deriving DecidableEq

def ReadFault.message : ReadFault → Text
  | .file e => e.message
  | .encoding => "invalid UTF-8".toList
  | .document fault => fault.message

/-- The value of the document in a file. -/
def FileTree.readValue (t : FileTree) (working : Location) (p : Path) : Except ReadFault Value := do
  let bytes ← (t.read working p).mapError .file
  match Text.decode? bytes with
  | none => .error .encoding
  | some text => (Yaml.read text).mapError .document

namespace Settings

/-- Why settings cannot be loaded. -/
inductive LoadFault where
  | path (fault : PathFault)
  | settings (fault : SettingsFault)
  deriving DecidableEq

def LoadFault.message : LoadFault → Text
  | .path fault => fault.message
  | .settings fault => fault.message

/-- Where settings are read from: the file that is asked for, if any; blanks ask for none. -/
def locate (t : FileTree) (around : Surroundings) (asked : Text) : Except PathFault (Option Path) :=
  match Text.trim asked with
  | [] => .ok none
  | path => do
    let p ← (Path.ofText path).expandHome around
    return some (← t.canonical around p)

/-- The document of the settings in a file. -/
def loadDocument (t : FileTree) (around : Surroundings) (p : Path) : Except LoadFault Section := do
  let there ← (t.isThere around.working p).mapError fun e => .path (.file e)
  if !there then .error (.settings (.fileMissing p.toText))
  match t.readValue around.working p with
  | .error fault => .error (.settings (.fileUnreadable p.toText fault.message))
  | .ok (.mapping entries) => return entries
  | .ok _ => .error (.settings (.notMapping p.toText))

/-- The document of the settings that are asked for, or the shipped one. -/
def documentAt (t : FileTree) (around : Surroundings) : Option Path → Except LoadFault Section
  | none => .ok shippedDocument
  | some p => loadDocument t around p

/-- The settings that are asked for, or the shipped ones. -/
def load (t : FileTree) (around : Surroundings) (asked : Text) : Except LoadFault Settings := do
  let p ← (locate t around asked).mapError .path
  let document ← documentAt t around p
  (ofDocument document).mapError .settings

end Settings

end AnnotatedRoutes
