import AnnotatedRoutes.Yaml.Node

namespace AnnotatedRoutes.Yaml

namespace Node

def tagOf : Node → Tag
  | .scalar tag _ => tag
  | .sequence tag _ => tag
  | .mapping tag _ => tag

mutual

/-- The text of a scalar, or of the scalar that stands for a mapping. -/
def text? : Node → Option Text
  | .scalar _ t => some t
  | .sequence _ _ => none
  | .mapping _ entries => defaultText? entries

def defaultText? : List (Node × Node) → Option Text
  | [] => none
  | (key, value) :: entries => if tagOf key = .default then text? value else defaultText? entries

end

/-- The scalar of a node under its tag. -/
def scalar? (node : Node) : Except Fault Scalar :=
  match node.tagOf, node.text? with
  | tag, some t => tag.scalar t
  | _, none => .error .contentUnfit

/-- The value of a collection, if its tag is the right one; with another tag it may still stand for
a scalar. -/
def collection (node : Node) (right : Tag) (v : Except Fault Value) : Except Fault Value :=
  if node.tagOf = right then v else node.scalar?.map .scalar

/-- The scalar that is a key. A sign for the default is a text there. -/
def keyOf (node : Node) (v : Except Fault Value) : Except Fault Scalar :=
  match node with
  | .scalar .default t => .ok (.text t)
  | _ =>
    match v with
    | .ok (.scalar s) => .ok s
    | .ok _ => .error .compoundKey
    | .error fault => .error fault

mutual

/-- The value of a node. -/
def value : Node → Except Fault Value
  | .scalar tag t => (tag.scalar t).map .scalar
  | .sequence tag items => collection (.sequence tag items) .list ((values items).map .list)
  | .mapping tag entries =>
    collection (.mapping tag entries) .mapping
      ((entriesOf entries).map fun (merged, own) =>
        .mapping ((merged ++ own).foldl (fun s e => Section.put e.1 e.2 s) []))

def values : List Node → Except Fault (List Value)
  | [] => .ok []
  | node :: nodes => do return (← value node) :: (← values nodes)

/-- The entries that are merged into a mapping, and its own ones. -/
def entriesOf : List (Node × Node) → Except Fault (Section × Section)
  | [] => .ok ([], [])
  | (key, node) :: entries => do
    if tagOf key = .merge then
      let here ← mergedFrom node
      let (merged, own) ← entriesOf entries
      return (here ++ merged, own)
    else
      let key ← keyOf key (value key)
      let v ← value node
      let (merged, own) ← entriesOf entries
      return (merged, (key, v) :: own)

/-- The entries of a mapping that is merged, or of several ones. -/
def mergedFrom : Node → Except Fault Section
  | .scalar _ _ => .error .mergeUnfit
  | .sequence _ items => mergedFromAll items
  | .mapping _ entries => (entriesOf entries).map fun (merged, own) => merged ++ own

/-- The entries of several mappings. Of two values under a key that of the earlier mapping
prevails. -/
def mergedFromAll : List Node → Except Fault Section
  | [] => .ok []
  | .mapping _ entries :: nodes => do
    let (merged, own) ← entriesOf entries
    return (← mergedFromAll nodes) ++ merged ++ own
  | _ :: _ => .error .mergeUnfit

end

end Node

/-- The value of a document; null if it is empty. A text holds one document only. -/
def read (t : Text) : Except Fault Value :=
  match t.find? (!isAllowed ·) with
  | some c => .error (.unprintable c)
  | none => do
    let tokens ← Token.scan (plainBreaks t)
    match ← Node.ofTokens? tokens with
    | none => return .scalar .null
    | some node => node.value

end AnnotatedRoutes.Yaml
