import AnnotatedRoutes.Routing.Model
import AnnotatedRoutes.Text.Quoted

namespace AnnotatedRoutes

/-- The URL index names a controller that the model does not have. -/
structure UnknownController where
  routingName : Text
  deriving DecidableEq

def UnknownController.message (fault : UnknownController) : Text := Text.quoted fault.routingName

def RoutingModel.controller (m : RoutingModel) (routingName : Text) :
    Except UnknownController Controller :=
  match m.controllers.get? routingName with
  | some c => .ok c
  | none => .error ⟨routingName⟩

/-- A route with the action and the controller it belongs to. -/
structure Record where
  controller : Text
  className : Text
  action : Text
  route : Route
  acl : List Text
  deriving DecidableEq

/-- The records of one controller. -/
def Controller.records (c : Controller) (routingName : Text) : List Record :=
  c.actions.entries.flatMap fun (name, action) =>
    action.routes.map fun route => ⟨routingName, c.className, name, route, action.acl⟩

/-- The records of all controllers that own a URL. -/
def RoutingModel.records (m : RoutingModel) : Except UnknownController (List Record) :=
  (m.reducedIndex.mapM fun owner =>
    (m.controller owner.2).map fun c => c.records owner.2).map List.flatten

namespace Json

/-- A character inside a JSON string. Line separators and characters outside ASCII stand for
themselves. -/
def escape (c : Char) : Text :=
  if c = '"' then "\\\"".toList
  else if c = '\\' then "\\\\".toList
  else if c = '\n' then "\\n".toList
  else if c = '\r' then "\\r".toList
  else if c = '\t' then "\\t".toList
  else if c = '\x08' then "\\b".toList
  else if c = '\x0c' then "\\f".toList
  else if c.toNat < 0x20 then "\\u".toList ++ Text.hexDigits 4 c.toNat
  else [c]

def string (t : Text) : Text := '"' :: (t.flatMap escape ++ ['"'])

def array (items : List Text) : Text := '[' :: (Text.join ", ".toList items ++ [']'])

def strings (items : List Text) : Text := array (items.map string)

/-- An object of members that are written already. -/
def object (members : List (Text × Text)) : Text :=
  '{' :: (Text.join ", ".toList (members.map fun m => string m.1 ++ ": ".toList ++ m.2) ++ ['}'])

end Json

namespace Record

def toJson (r : Record) : Text :=
  Json.object
    [("controller".toList, Json.string r.controller),
     ("class".toList, Json.string r.className),
     ("action".toList, Json.string r.action),
     ("method".toList, Json.string r.route.method),
     ("url".toList, Json.string r.route.url),
     ("name".toList, Json.string r.route.name),
     ("asserts".toList, Json.strings r.route.asserts),
     ("values".toList, Json.strings r.route.values),
     ("acl".toList, Json.strings r.acl)]

/-- One record a line. -/
def toJsonLines (records : List Record) : Text := records.flatMap fun r => r.toJson ++ ['\n']

/-- The text, or another one in place of the empty text. -/
def orElse (t placeholder : Text) : Text := if t = [] then placeholder else t

/-- A route in the listing. Access rules are counted. -/
def listed (r : Record) : Text :=
  orElse r.route.method "ANY".toList ++ ' ' :: orElse r.route.url "<unknown>".toList ++
    " | ".toList ++ Action.identifier r.controller r.action ++
    (if r.acl = [] then [] else " | acl=".toList ++ Text.ofNat r.acl.length)

/-- The lines of a listing of at most `limit` records; a negative limit leaves out as many records
at the end. -/
def listing (records : List Record) (limit : Int) : List Text :=
  ["ROUTES (method url | action):".toList, "-----".toList] ++
    (records.take (Text.cutPosition records.length limit)).map listed ++
    (if (records.length : Int) > limit then
      ["... truncated, total_routes=".toList ++ Text.ofNat records.length]
    else [])

/-- The number of records that a listing shows. -/
def listingLimit : Int := 2000

end Record

/-- The routes of a model in a compact listing. -/
def RoutingModel.listing (m : RoutingModel) (limit : Int) : Except UnknownController Text :=
  m.records.map fun records => Text.join ['\n'] (Record.listing records limit)

end AnnotatedRoutes
