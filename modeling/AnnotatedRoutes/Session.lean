import AnnotatedRoutes.FileTree.Canonical
import AnnotatedRoutes.Router.Render
import AnnotatedRoutes.Routing.Builder
import AnnotatedRoutes.Settings.Basic

namespace AnnotatedRoutes

/-- What a run changes. -/
structure Session where
  tree : FileTree
  /-- The standard output and the error output. -/
  output : Text := []
  errors : Text := []
  /-- The lines of a log that is kept for the caller. -/
  notes : List Text := []

/-- Why there is no path of a catalog. -/
inductive MissingPath where
  | notGiven
  /-- The option is there without a value. -/
  | withoutValue
  deriving DecidableEq

def MissingPath.message (m : MissingPath) : Text :=
  "expected str, bytes or os.PathLike object, not ".toList ++
    (match m with
    | .notGiven => "NoneType".toList
    | .withoutValue => "list".toList)

/-- What ends a run. -/
inductive Failure where
  | pathMissing (m : MissingPath)
  | path (fault : PathFault)
  | settings (fault : SettingsFault)
  | render (fault : RenderFault)
  | unanswered (fault : Builder.Unanswered)
  deriving DecidableEq

def Failure.message : Failure → Text
  | .pathMissing m => m.message
  | .path fault => fault.message
  | .settings fault => fault.message
  | .render fault => fault.message
  | .unanswered _ => []

/-- A run from one session to another. -/
abbrev Run := ExceptT Failure (StateM Session)

/-- Where the lines of a log go. -/
abbrev Log := Text → Run Unit

namespace Run

def lift {ε α : Type} (f : ε → Failure) (result : Except ε α) : Run α :=
  match result with
  | .ok a => pure a
  | .error e => throw (f e)

def liftFile {α : Type} (result : Except FileError α) : Run α :=
  lift (fun e => .path (.file e)) result

def liftPath {α : Type} (result : Except PathFault α) : Run α := lift .path result

def tree : Run FileTree := return (← get).tree

/-- Goes on in the tree that an operation left. -/
def proceed (progress : FileTree.Progress) : Run Unit := do
  modify fun s => { s with tree := progress.1 }
  match progress.2 with
  | none => pure ()
  | some e => throw (.path (.file e))

/-- Another run in place of one that the file tree refused. A path that no file can have is not
refused by the tree but malformed. -/
def orRefused {α : Type} (run : Run α) (refused : FileError → Run α) : Run α :=
  tryCatch run fun failure =>
    match failure with
    | .path (.file e) => if e.fault = .nullCharacter then throw failure else refused e
    | _ => throw failure

end Run

namespace Log

def nowhere : Log := fun _ => pure ()

/-- Keeps the lines for the caller. -/
def notes : Log := fun line => modify fun s => { s with notes := s.notes ++ [line] }

/-- The log, or nowhere. -/
def onlyIf (wanted : Bool) (log : Log) : Log := if wanted then log else nowhere

end Log

end AnnotatedRoutes
