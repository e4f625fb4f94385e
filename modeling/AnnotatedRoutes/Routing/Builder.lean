import AnnotatedRoutes.Annotation.Directive
import AnnotatedRoutes.Annotation.Docblock
import AnnotatedRoutes.Routing.Model
import AnnotatedRoutes.Source.Reflector

namespace AnnotatedRoutes

/-- What happened to a class or a source. -/
inductive Notice where
  | noClass (label : Text)
  | noRoutingName (className : Text)
  | merged (className routingName owner : Text)
  | added (routingName className : Text) (actions : Nat)
  deriving DecidableEq

def Notice.text : Notice → Text
  | .noClass label =>
    "[SKIP] ".toList ++ (if label = [] then "<source>".toList else label) ++
      " no class declaration".toList
  | .noRoutingName className => "[SKIP] ".toList ++ className ++ " no routing name".toList
  | .merged className routingName owner =>
    "[MERGE] ".toList ++ className ++ " into ".toList ++ routingName ++ " (owned by ".toList ++
      owner ++ ")".toList
  | .added routingName className actions =>
    "[CONTROLLER] ".toList ++ routingName ++ " ".toList ++ className ++ " actions=".toList ++
      Text.ofNat actions

/-- The model after a class, the routing name it was accepted under, and what happened. -/
structure Addition where
  model : RoutingModel
  routingName : Option Text
  notices : List Notice

namespace RoutingModel

/-- Writes the action that a method describes, and registers its URLs. -/
def addMethod (routingName : Text) (state : RoutingModel × Controller) (method : HandlerMethod) :
    RoutingModel × Controller :=
  let reading := Directive.readAction (Docblock.lines method.comment)
  (state.1.registerUrls routingName reading.urls,
    { state.2 with actions := state.2.actions.put method.name reading.action })

/-- Adds a class; without a routing name in its docblock it changes nothing. -/
def addClass (m : RoutingModel) (c : HandlerClass) : Addition :=
  let routingName := Directive.routingName (Docblock.lines c.comment)
  if routingName = [] then ⟨m, none, [.noRoutingName c.qualifiedName]⟩
  else
    let known := m.controllers.get? routingName
    let controller := known.getD { className := c.qualifiedName }
    let merged :=
      if controller.className = c.qualifiedName then []
      else [Notice.merged c.qualifiedName routingName controller.className]
    let (m, controller) := c.methods.foldl (addMethod routingName) (m, controller)
    let controller := controller.orderActions
    ⟨{ m with controllers := m.controllers.put routingName controller }, some routingName,
      merged ++ [.added routingName c.qualifiedName controller.actions.size]⟩

end RoutingModel

/-- A model in the making, and what answers about classes. -/
structure Builder where
  reflector : Reflector
  model : RoutingModel := {}

namespace Builder

/-- The builder after a source, with the routing name and the notices of the class in it. -/
structure Step where
  builder : Builder
  routingName : Option Text
  notices : List Notice

/-- The reflector does not answer about a class. -/
structure Unanswered where
  className : Text
  deriving DecidableEq

def addClass (b : Builder) (c : HandlerClass) : Step :=
  let addition := b.model.addClass c
  ⟨{ b with model := addition.model }, addition.routingName, addition.notices⟩

/-- Adds the class that a source declares, as the reflector describes it. -/
def addSource (b : Builder) (namespaceSeparator label source : Text) : Except Unanswered Step :=
  match Source.qualifiedName namespaceSeparator source with
  | none => .ok ⟨b, none, [.noClass label]⟩
  | some name =>
    let reflector := (b.reflector.index name source).1
    match reflector.classComment name, reflector.publicMethods name with
    | some comment, some methods =>
      .ok (addClass { b with reflector } ⟨name, comment, methods⟩)
    | _, _ => .error ⟨name⟩

end Builder

end AnnotatedRoutes
