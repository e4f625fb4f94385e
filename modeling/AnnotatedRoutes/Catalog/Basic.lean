import AnnotatedRoutes.FileTree.Canonical
import AnnotatedRoutes.Settings.Value

namespace AnnotatedRoutes

/-- A router file to be made. -/
structure RouterJob where
  name : Text
  inputs : List Path
  out : Path
  deriving DecidableEq

namespace Catalog

/-- What is wrong with a catalog. -/
inductive Fault where
  | rootMissing (root : Path)
  | rootNotDirectory (root : Path)
  | notMapping (index : Nat)
  | nameInvalid (index : Nat)
  | controllersInvalid (index : Nat) (name : Text)
  | outInvalid (index : Nat) (name : Text)
  | nameRepeated (name : Text)
  | controllersEscape (name written : Text) (path root : Path)
  | outEscapes (name written : Text) (path root : Path)
  | outRepeated (out : Path) (name : Text)
  deriving DecidableEq

def entryText (index : Nat) : Text := "routers[".toList ++ Text.ofNat index ++ "]".toList

def routerText (name : Text) : Text := " (router=".toList ++ name ++ ")".toList

def escapeText (what name written : Text) (path root : Path) : Text :=
  "Router ".toList ++ Text.doubleQuoted name ++ ' ' :: what ++ " path escapes root: ".toList ++
    Text.doubleQuoted written ++ " -> ".toList ++ Text.doubleQuoted path.toText ++
    " (root=".toList ++ Text.doubleQuoted root.toText ++ ")".toList

def Fault.message : Fault → Text
  | .rootMissing root => "Catalog root does not exist: ".toList ++ Text.doubleQuoted root.toText
  | .rootNotDirectory root =>
    "Catalog root is not a directory: ".toList ++ Text.doubleQuoted root.toText
  | .notMapping index => entryText index ++ " is not a mapping".toList
  | .nameInvalid index => entryText index ++ ".name is missing or not a string".toList
  | .controllersInvalid index name =>
    entryText index ++ ".controllers is missing or not a list of strings".toList ++ routerText name
  | .outInvalid index name =>
    entryText index ++ ".out is missing or not a string".toList ++ routerText name
  | .nameRepeated name => "Duplicate router name ".toList ++ Text.doubleQuoted name
  | .controllersEscape name written path root =>
    escapeText "controllers".toList name written path root
  | .outEscapes name written path root => escapeText "out".toList name written path root
  | .outRepeated out name =>
    "Duplicate router out path ".toList ++ Text.doubleQuoted out.toText ++ routerText name

/-- An entry as it is written. -/
structure Router where
  name : Text
  controllers : List Text
  out : Text
  deriving DecidableEq

/-- A text with content. -/
def filledText? (v : Option Value) : Option Text := v.bind fun v =>
  match v.text? with
  | some [] => none
  | t => t

/-- One text, or a list of some texts. -/
def controllerTexts? : Option Value → Option (List Text)
  | some (.scalar (.text t)) => some [t]
  | some (.list items) => if items.isEmpty then none else items.mapM Value.text?
  | _ => none

/-- The entry at an index. -/
def readRouter (index : Nat) (v : Value) : Except Fault Router :=
  match v.entries? with
  | none => .error (.notMapping index)
  | some s =>
    match filledText? (s.get? "name".toList) with
    | none => .error (.nameInvalid index)
    | some name =>
      match controllerTexts? (s.get? "controllers".toList) with
      | none => .error (.controllersInvalid index name)
      | some controllers =>
        match filledText? (s.get? "out".toList) with
        | none => .error (.outInvalid index name)
        | some out => .ok ⟨name, controllers, out⟩

/-- What has been validated: jobs and faults so far, and the names and outputs taken. -/
structure Progress where
  jobs : List RouterJob := []
  faults : List Fault := []
  names : List Text := []
  outs : List Path := []
  deriving DecidableEq

/-- The canonical path of a text under the root. -/
def under (t : FileTree) (around : Surroundings) (root : Path) (written : Text) :
    Except PathFault Path := do
  let p ← (root.child written).expandHome around
  t.canonical around p

/-- Whether a path is the root or lies below it. -/
def isInside (root p : Path) : Bool := (p.relativeTo? root).isSome

namespace Progress

def addFault (p : Progress) (fault : Fault) : Progress := { p with faults := p.faults ++ [fault] }

/-- Takes an entry in: a repeated name or output is a fault but no obstacle to the job, a path that
escapes the root is one. -/
def addRouter (t : FileTree) (around : Surroundings) (root : Path) (p : Progress) (r : Router) :
    Except PathFault Progress := do
  let p := if p.names.contains r.name then p.addFault (.nameRepeated r.name) else p
  let p := { p with names := p.names ++ [r.name] }
  let inputs ← r.controllers.mapM fun written => do return (written, ← under t around root written)
  let escaped := inputs.filter fun input => !isInside root input.2
  let p := { p with faults := p.faults ++ escaped.map fun (written, path) =>
    .controllersEscape r.name written path root }
  let out ← under t around root r.out
  if !isInside root out then return p.addFault (.outEscapes r.name r.out out root)
  if !escaped.isEmpty then return p
  let p := if p.outs.contains out then p.addFault (.outRepeated out r.name) else p
  return { p with outs := p.outs ++ [out], jobs := p.jobs ++ [⟨r.name, inputs.map Prod.snd, out⟩] }

/-- Takes in the entries from an index on. -/
def addAll (t : FileTree) (around : Surroundings) (root : Path) (p : Progress) (index : Nat) :
    List Value → Except PathFault Progress
  | [] => .ok p
  | v :: vs =>
    match readRouter index v with
    | .error fault => addAll t around root (p.addFault fault) (index + 1) vs
    | .ok r => do
      let p ← p.addRouter t around root r
      addAll t around root p (index + 1) vs

end Progress

/-- The jobs of a catalog and what is wrong with it. -/
def validate (t : FileTree) (around : Surroundings) (root : Path) (routers : List Value) :
    Except PathFault Progress := do
  if !(← (t.isThere around.working root).mapError .file) then
    return Progress.addFault {} (.rootMissing root)
  if !(← (t.isDirectory around.working root).mapError .file) then
    return Progress.addFault {} (.rootNotDirectory root)
  Progress.addAll t around root {} 0 routers

end Catalog

end AnnotatedRoutes
