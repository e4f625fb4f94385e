import AnnotatedRoutes.Keyed
import AnnotatedRoutes.Text.Lowercase

namespace AnnotatedRoutes

/-- One registration with the dispatcher. Constraints and defaults are kept as the calls that are
chained to it. -/
structure Route where
  method : Text := []
  url : Text := []
  name : Text := []
  asserts : List Text := []
  values : List Text := []
  deriving DecidableEq

/-- A handler method with its routes and the lines of its access rules. -/
structure Action where
  routes : List Route := []
  acl : List Text := []
  deriving DecidableEq

namespace Action

def isEmpty (a : Action) : Bool := a.routes.isEmpty && a.acl.isEmpty

/-- The greatest URL of the routes in lower case; an action without routes comes lowest. -/
def sortKey (a : Action) : Text := Text.greatest (a.routes.map fun r => Text.lower r.url)

/-- The name under which the dispatcher knows an action. -/
def identifier (routingName actionName : Text) : Text := routingName ++ ':' :: actionName

end Action

/-- The handler class under one routing name. -/
structure Controller where
  className : Text
  actions : Keyed Text Action := ∅
  deriving DecidableEq

/-- Greater sort keys first; equal ones in the order in which they were. -/
def Controller.orderActions (c : Controller) : Controller :=
  { c with actions := c.actions.sortBy fun a b => Text.le b.2.sortKey a.2.sortKey }

end AnnotatedRoutes
