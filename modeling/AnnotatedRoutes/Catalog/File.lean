import AnnotatedRoutes.Catalog.Basic
import AnnotatedRoutes.Settings.File

namespace AnnotatedRoutes.Catalog

/-- Why a file gives no jobs. -/
inductive Refusal where
  | missing (path : Path)
  | unreadable (path : Path) (fault : ReadFault)
  | routersMissing
  | routersNotListed
  /-- Some entries are faulty. -/
  | invalid (faults : List Fault)
  deriving DecidableEq

def Refusal.lines : Refusal → List Text
  | .missing path => ["[ERROR] Catalog file not found: ".toList ++ Text.doubleQuoted path.toText]
  | .unreadable path fault =>
    ["[ERROR] Failed to read YAML: ".toList ++ Text.doubleQuoted path.toText ++ ": ".toList ++
      fault.message]
  | .routersMissing =>
    ["[ERROR] Catalog YAML must contain key: ".toList ++ Text.doubleQuoted "routers".toList]
  | .routersNotListed =>
    ["[ERROR] ".toList ++ Text.doubleQuoted "routers".toList ++ " must be a list".toList]
  | .invalid faults =>
    "[ERROR] Catalog validation failed:".toList ::
      faults.map fun fault => "  - ".toList ++ fault.message

/-- The root of a catalog: a path as seen from the directory of its file, by default that
directory. -/
def rootOf (t : FileTree) (around : Surroundings) (p : Path) (s : Section) :
    Except Settings.LoadFault Path := do
  let written ← (s.textOr "root".toList Path.dot).mapError .settings
  (do t.canonical around (← (p.parent.child written).expandHome around)).mapError .path

/-- The jobs of the catalog in a file. -/
def load (t : FileTree) (around : Surroundings) (p : Path) :
    Except Settings.LoadFault (Except Refusal (List RouterJob)) := do
  if !(← (t.isThere around.working p).mapError fun e => .path (.file e)) then
    return .error (.missing p)
  match t.readValue around.working p with
  | .error fault => return .error (.unreadable p fault)
  | .ok v =>
    match v.entries? with
    | none => return .error .routersMissing
    | some s =>
      match s.get? "routers".toList with
      | none => return .error .routersMissing
      | some routers =>
        let root ← rootOf t around p s
        match routers.items? with
        | none => return .error .routersNotListed
        | some items =>
          let progress ← (validate t around root items).mapError .path
          if progress.faults.isEmpty then return .ok progress.jobs
          else return .error (.invalid progress.faults)

end AnnotatedRoutes.Catalog
