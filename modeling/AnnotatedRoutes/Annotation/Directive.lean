import AnnotatedRoutes.Text.Blank
import AnnotatedRoutes.Routing.Route

namespace AnnotatedRoutes

/-- What a line says inside a route block. -/
inductive Directive where
  | openRoute
  | openAcl
  | close
  | name (value : Text)
  | url (value : Text)
  | method (value : Text)
  | assertion (call : Text)
  | value (call : Text)
  | other
  deriving DecidableEq

namespace Directive

def routeOpening : Text := "@route".toList

def aclOpening : Text := "@acl".toList

def blockClosing : Text := ")".toList

/-- Written before a call that is chained to a registration. -/
def chainArrow : Text := "->".toList

/-- The trimmed value of a line that begins with a key and an equals sign. -/
def valueOf? (key line : Text) : Option Text :=
  (Text.after? (key ++ ['=']) line).map Text.trim

def ofLine (line : Text) : Directive :=
  if Text.startsWith line routeOpening then .openRoute
  else if Text.startsWith line aclOpening then .openAcl
  else if line = blockClosing then .close
  else if let some v := valueOf? "name".toList line then .name v
  else if let some v := valueOf? "url".toList line then .url v
  else if let some v := valueOf? "method".toList line then .method v
  else if Text.startsWith line "assert".toList then .assertion (chainArrow ++ line)
  else if Text.startsWith line "value".toList then .value (chainArrow ++ line)
  else .other

/-- The routing name that a class docblock gives; empty if it gives none. -/
def routingName (lines : List Text) : Text :=
  (lines.findSome? (valueOf? "name".toList)).getD []

/-- The block a line stands in. -/
inductive Block where
  | none
  | route (draft : Route)
  | acl
  deriving DecidableEq

/-- What has been read: the open block, the blocks that were ended, and the URLs in the order in
which they were written. -/
structure Reading where
  block : Block := .none
  action : Action := {}
  urls : List Text := []
  deriving DecidableEq

namespace Reading

def addRule (r : Reading) (rule : Text) : Reading :=
  { r with action := { r.action with acl := r.action.acl ++ [rule] } }

/-- One directive outside an access block. -/
def apply (r : Reading) : Directive → Reading
  | .openRoute => { r with block := .route {} }
  | .openAcl => { r with block := .acl }
  | directive =>
    match r.block, directive with
    | .route draft, .close =>
      { r with
        block := .none
        action := { r.action with routes := r.action.routes ++ [draft] } }
    | .route draft, .name v => { r with block := .route { draft with name := v } }
    | .route draft, .url v =>
      { r with block := .route { draft with url := v }, urls := r.urls ++ [v] }
    | .route draft, .method v => { r with block := .route { draft with method := v } }
    | .route draft, .assertion call =>
      { r with block := .route { draft with asserts := draft.asserts ++ [call] } }
    | .route draft, .value call =>
      { r with block := .route { draft with values := draft.values ++ [call] } }
    | _, _ => r

/-- One line. Inside an access block every line but its end is a rule. -/
def read (r : Reading) (line : Text) : Reading :=
  match r.block with
  | .acl => if line = blockClosing then { r with block := .none } else r.addRule line
  | _ => r.apply (ofLine line)

end Reading

/-- The action that a method docblock describes, with the URLs to register for it. A route block
that is not ended leaves its URLs only; of an access block that is not ended the rules stay. -/
def readAction (lines : List Text) : Reading := lines.foldl Reading.read {}

end Directive

end AnnotatedRoutes
