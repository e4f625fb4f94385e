import AnnotatedRoutes.Router.Templates
import AnnotatedRoutes.Routing.Record
import AnnotatedRoutes.Template.Fill
import AnnotatedRoutes.Text.Line

namespace AnnotatedRoutes

/-- Why a router file cannot be written. -/
inductive RenderFault where
  | controller (fault : UnknownController)
  | template (fault : Template.Fault)
  deriving DecidableEq

def RenderFault.message : RenderFault → Text
  | .controller fault => fault.message
  | .template fault => fault.message

namespace RouterTemplates

/-- A filled template. -/
def filled (template : Text) (values : Template.Values) : Except RenderFault Text :=
  (Template.fill template values).mapError .template

/-- Ends a statement after its last line. -/
def endStatement : List Text → List Text
  | [] => []
  | [line] => [line ++ [';']]
  | line :: lines => line :: endStatement lines

/-- The statement that registers a route, with its chained calls on lines of their own. -/
def renderRoute (ts : RouterTemplates) (r : Route) (identifier : Text) :
    Except RenderFault (List Text) := do
  let head ← filled ts.route [("url".toList, r.url), ("action_id".toList, identifier)]
  let method ←
    if r.method = [] then pure [] else filled ts.method [("method".toList, r.method)]
  let bind ← if r.name = [] then pure [] else (filled ts.bind [("name".toList, r.name)]).map ([·])
  return endStatement
    ((head ++ method) :: (bind ++ r.asserts ++ r.values).map (ts.chainIndent ++ ·))

/-- The declaration of a resource and its rules. -/
def renderAcl (ts : RouterTemplates) (identifier : Text) (rules : List Text) :
    Except RenderFault (List Text) := do
  let values := [("action_id".toList, identifier)]
  let resource ← filled ts.aclResource values
  let opening ← filled ts.aclAllowOpen values
  let rules ← rules.mapM fun rule => filled ts.aclRule [("rule".toList, rule)]
  let closing ← filled ts.aclAllowClose values
  return resource :: Text.lines opening ++ rules ++ Text.lines closing

/-- The lines of an action; none if it is empty. -/
def renderAction (ts : RouterTemplates) (routingName actionName : Text) (a : Action) :
    Except RenderFault (List Text) := do
  if a.isEmpty then return []
  let identifier := Action.identifier routingName actionName
  let title ← filled ts.actionTitle [("action_id".toList, identifier)]
  let routes ← a.routes.mapM fun r => ts.renderRoute r identifier
  let acl ← if a.acl = [] then pure [] else ts.renderAcl identifier a.acl
  return ts.actionRule :: title :: (routes.flatten ++ acl)

/-- Lines after an empty one; nothing if there are none. -/
def spaced : List Text → List Text
  | [] => []
  | lines => [] :: lines

/-- The block of one controller. -/
def renderController (ts : RouterTemplates) (m : RoutingModel) (url routingName : Text) :
    Except RenderFault (List Text) := do
  let c ← (m.controller routingName).mapError .controller
  let title ← filled ts.controllerTitle [("routing_name".toList, routingName), ("url".toList, url)]
  let definition ← filled ts.controller
    [("routing_name".toList, routingName), ("class_name".toList, c.className)]
  let actions ← c.actions.entries.mapM fun entry => ts.renderAction routingName entry.1 entry.2
  return [[], ts.controllerRule, title, ts.controllerRule] ++ Text.lines definition ++
    actions.flatMap spaced

/-- The lines of the router file, controllers in the order of the reduced URL index. -/
def renderLines (ts : RouterTemplates) (m : RoutingModel) : Except RenderFault (List Text) := do
  let blocks ← m.reducedIndex.mapM fun owner => ts.renderController m owner.1 owner.2
  return Text.lines ts.header ++ blocks.flatten

/-- The router file. -/
def render (ts : RouterTemplates) (m : RoutingModel) : Except RenderFault Text :=
  (ts.renderLines m).map fun lines => Text.join ['\n'] lines ++ ['\n']

end RouterTemplates

end AnnotatedRoutes
