import AnnotatedRoutes.Keyed
import AnnotatedRoutes.Source.ClassScan

namespace AnnotatedRoutes

/-- Where answers about classes come from: a scan of the sources shown so far, a fixed table that
takes no notice of sources, or nowhere. -/
inductive Reflector where
  | scanning (constructorName : Text) (indexed : Keyed Text HandlerClass)
  | fixed (classes : Keyed Text HandlerClass)
  | silent

namespace Reflector

/-- A reflector that has seen no source. -/
def fresh (constructorName : Text) : Reflector := .scanning constructorName ∅

/-- Shows the source of a class; the class found in it is kept under the given name. -/
def index (r : Reflector) (qualifiedName source : Text) : Reflector × Option HandlerClass :=
  match r with
  | .scanning constructorName indexed =>
    match Source.scanClass constructorName qualifiedName source with
    | none => (r, none)
    | some c => (.scanning constructorName (indexed.put qualifiedName c), some c)
  | _ => (r, none)

/-- What is known about a class; a silent reflector has no answer at all. -/
def find? : Reflector → Text → Option (Option HandlerClass)
  | .scanning _ indexed, qualifiedName => some (indexed.get? qualifiedName)
  | .fixed classes, qualifiedName => some (classes.get? qualifiedName)
  | .silent, _ => none

/-- The docblock of a class; empty if the class is unknown. -/
def classComment (r : Reflector) (qualifiedName : Text) : Option Text :=
  (r.find? qualifiedName).map fun known => (known.map (·.comment)).getD []

/-- The public methods of a class; none if the class is unknown. -/
def publicMethods (r : Reflector) (qualifiedName : Text) : Option (List HandlerMethod) :=
  (r.find? qualifiedName).map fun known => (known.map (·.methods)).getD []

end Reflector

end AnnotatedRoutes
