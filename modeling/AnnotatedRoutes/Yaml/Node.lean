import AnnotatedRoutes.Yaml.Tag
import AnnotatedRoutes.Yaml.Token.Lexer

namespace AnnotatedRoutes.Yaml

/-- A value of a document with its tag; a mapping has its entries in order. -/
inductive Node where
  | scalar (tag : Tag) (text : Text)
  | sequence (tag : Tag) (items : List Node)
  | mapping (tag : Tag) (entries : List (Node × Node))

namespace Node

/-- What is not written. -/
def empty : Node := .scalar .null []

/-- What is left to be read, and the anchors so far; an anchor has no node while that is being
read. -/
structure Rest where
  tokens : List Token
  anchors : List (Text × Option Node) := []

/-- The anchor and the tag in front of a node. -/
structure Properties where
  anchor : Option Text := none
  tag : Option WrittenTag := none
  deriving DecidableEq

/-- The properties at the beginning, in either order, and the tokens after them. -/
def properties : List Token → Properties × List Token
  | .anchor anchor :: .tag tag :: ts => (⟨some anchor, some tag⟩, ts)
  | .tag tag :: .anchor anchor :: ts => (⟨some anchor, some tag⟩, ts)
  | .anchor anchor :: ts => (⟨some anchor, none⟩, ts)
  | .tag tag :: ts => (⟨none, some tag⟩, ts)
  | ts => ({}, ts)

/-- What the handles of tags stand for. -/
abbrev Handles := List (Text × Text)

def usualHandles : Handles := [(['!'], ['!']), (['!', '!'], Tag.common)]

/-- The name of a tag in full. A tag of one exclamation mark says nothing but that its node has no
other tag. -/
def fullName? (handles : Handles) : Option WrittenTag → Except Fault (Option Text)
  | none => .ok none
  | some ⟨none, suffix⟩ => .ok (some suffix)
  | some ⟨some handle, suffix⟩ =>
    match handles.lookup handle with
    | some start => .ok (some (start ++ suffix))
    | none => .error (.handleUnknown handle)

/-- The tag of a scalar. -/
def scalarTag (name : Option Text) (plain : Bool) (text : Text) : Tag :=
  match name with
  | none => if plain then .ofPlain text else .text
  | some ['!'] => .ofPlain text
  | some name => .ofName name

/-- The tag of a collection. -/
def collectionTag (name : Option Text) (usual : Tag) : Tag :=
  match name with
  | none => usual
  | some ['!'] => usual
  | some name => .ofName name

/-- Values may be nested so deep. -/
def depthLimit : Nat := 480

/-- Where a node stands: whether collections by indentation may begin there, and whether the list
items of such a collection may stand without indentation. -/
structure Position where
  block : Bool := false
  flush : Bool := false
  deriving DecidableEq

/-- Puts an anchor in, before its node is read. -/
def openAnchor (r : Rest) : Option Text → Except Fault Rest
  | none => .ok r
  | some name =>
    if (r.anchors.lookup name).isSome then .error (.anchorRepeated name)
    else .ok { r with anchors := (name, none) :: r.anchors }

/-- Gives an anchor its node. -/
def closeAnchor (node : Node) (r : Rest) : Option Text → Rest
  | none => r
  | some name => { r with anchors := (name, some node) :: r.anchors }

def tokensAfter (r : Rest) (ts : List Token) : Rest := { r with tokens := ts }

/-- Whether an item, a key or a value of a collection by indentation is left out before these
tokens. -/
def isLeftOut (flush : Bool) : List Token → Bool
  | .item :: _ => true
  | .blockEnd :: _ => true
  | .key :: _ => flush
  | .value :: _ => flush
  | _ => false

/-- Whether a key or a value of a mapping by indentation is left out before these tokens. -/
def lacksValue : List Token → Bool
  | .key :: _ => true
  | .value :: _ => true
  | .blockEnd :: _ => true
  | _ => false

mutual

/-- Reads a node; `depth` levels of collections may be in it. The number in front bounds the steps;
every step takes a token or is one of three on the same token. -/
def read : Nat → Nat → Handles → Position → Rest → Except Fault (Node × Rest)
  | 0, _, _, _, _ => .error .tooDeep
  | limit + 1, depth, handles, position, r =>
    match r.tokens with
    | .alias name :: ts =>
      match r.anchors.lookup name with
      | some (some node) => .ok (node, tokensAfter r ts)
      | _ => .error (.anchorUnknown name)
    | ts => do
      let (props, ts) := properties ts
      let name ← fullName? handles props.tag
      let r ← openAnchor (tokensAfter r ts) props.anchor
      let (node, r) ← content limit depth handles position (props ≠ {}) name r
      return (node, closeAnchor node r props.anchor)

/-- Reads what follows the properties of a node; after properties it may be left out. -/
def content : Nat → Nat → Handles → Position → Bool → Option Text → Rest →
    Except Fault (Node × Rest)
  | 0, _, _, _, _, _, _ => .error .tooDeep
  | _, 0, _, _, _, _, _ => .error .tooDeep
  | limit + 1, depth + 1, handles, position, hasProperties, name, r =>
    let list := fun (read : Except Fault (List Node × Rest)) =>
      (read.map fun (items, r) => (Node.sequence (collectionTag name .list) items, r))
    let mapping := fun (read : Except Fault (List (Node × Node) × Rest)) =>
      (read.map fun (entries, r) => (Node.mapping (collectionTag name .mapping) entries, r))
    let left : Except Fault (Node × Rest) :=
      if hasProperties then .ok (.scalar (scalarTag name true []) [], r)
      else .error .contentExpected
    match r.tokens with
    | .scalar plain text :: ts => .ok (.scalar (scalarTag name plain text) text, tokensAfter r ts)
    | .openBracket :: ts => list (flowItems limit depth handles true (tokensAfter r ts))
    | .openBrace :: ts => mapping (flowEntries limit depth handles true (tokensAfter r ts))
    | .item :: _ => if position.flush then list (blockItems limit depth handles true r) else left
    | .blockSequence :: ts =>
      if position.block then list (blockItems limit depth handles false (tokensAfter r ts))
      else left
    | .blockMapping :: ts =>
      if position.block then mapping (blockEntries limit depth handles (tokensAfter r ts)) else left
    | _ => left

/-- Reads the items of a list by indentation, up to its end. Without indentation of its own it ends
where no item begins. -/
def blockItems : Nat → Nat → Handles → Bool → Rest → Except Fault (List Node × Rest)
  | 0, _, _, _, _ => .error .tooDeep
  | limit + 1, depth, handles, flush, r =>
    match r.tokens with
    | .item :: ts => do
      let r := tokensAfter r ts
      let (item, r) ← if isLeftOut flush ts then .ok (empty, r)
        else read limit depth handles { block := true } r
      let (items, r) ← blockItems limit depth handles flush r
      return (item :: items, r)
    | .blockEnd :: ts => .ok ([], if flush then r else tokensAfter r ts)
    | _ => if flush then .ok ([], r) else .error .sequenceUnclosed

/-- Reads the entries of a mapping by indentation, up to its end. -/
def blockEntries : Nat → Nat → Handles → Rest → Except Fault (List (Node × Node) × Rest)
  | 0, _, _, _ => .error .tooDeep
  | limit + 1, depth, handles, r =>
    match r.tokens with
    | .key :: ts => do
      let (key, r) ← blockPart limit depth handles (tokensAfter r ts)
      let (value, r) ← match r.tokens with
        | .value :: ts => blockPart limit depth handles (tokensAfter r ts)
        | _ => .ok (empty, r)
      let (entries, r) ← blockEntries limit depth handles r
      return ((key, value) :: entries, r)
    | .blockEnd :: ts => .ok ([], tokensAfter r ts)
    | _ => .error .mappingUnclosed

/-- Reads a key or a value of a mapping by indentation; it may be left out. -/
def blockPart : Nat → Nat → Handles → Rest → Except Fault (Node × Rest)
  | 0, _, _, _ => .error .tooDeep
  | limit + 1, depth, handles, r =>
    if lacksValue r.tokens then .ok (empty, r)
    else read limit depth handles { block := true, flush := true } r

/-- Reads the items of a list in brackets, up to its end. All but the first follow a comma. An item
may be a single entry. -/
def flowItems : Nat → Nat → Handles → Bool → Rest → Except Fault (List Node × Rest)
  | 0, _, _, _, _ => .error .tooDeep
  | limit + 1, depth, handles, first, r =>
    match r.tokens, first with
    | .closeBracket :: ts, _ => .ok ([], tokensAfter r ts)
    | .comma :: ts, false => flowItem limit depth handles (tokensAfter r ts)
    | _, false => .error .sequenceUnclosed
    | _, true => flowItem limit depth handles r

/-- Reads an item of a list in brackets, if there is one, and the items after it. -/
def flowItem : Nat → Nat → Handles → Rest → Except Fault (List Node × Rest)
  | 0, _, _, _ => .error .tooDeep
  | limit + 1, depth, handles, r =>
    match r.tokens with
    | .closeBracket :: ts => .ok ([], tokensAfter r ts)
    | .key :: ts =>
      match depth with
      | 0 => .error .tooDeep
      | inside + 1 => do
        let (key, r) ← flowPart limit inside handles .closeBracket true (tokensAfter r ts)
        let (value, r) ← flowValue limit inside handles .closeBracket r
        let (items, r) ← flowItems limit depth handles false r
        return (.mapping .mapping [(key, value)] :: items, r)
    | _ => do
      let (item, r) ← read limit depth handles {} r
      let (items, r) ← flowItems limit depth handles false r
      return (item :: items, r)

/-- Reads the entries of a mapping in brackets, up to its end. All but the first follow a comma. -/
def flowEntries : Nat → Nat → Handles → Bool → Rest → Except Fault (List (Node × Node) × Rest)
  | 0, _, _, _, _ => .error .tooDeep
  | limit + 1, depth, handles, first, r =>
    match r.tokens, first with
    | .closeBrace :: ts, _ => .ok ([], tokensAfter r ts)
    | .comma :: ts, false => flowEntry limit depth handles (tokensAfter r ts)
    | _, false => .error .mappingUnclosed
    | _, true => flowEntry limit depth handles r

/-- Reads an entry of a mapping in brackets, if there is one, and the entries after it. -/
def flowEntry : Nat → Nat → Handles → Rest → Except Fault (List (Node × Node) × Rest)
  | 0, _, _, _ => .error .tooDeep
  | limit + 1, depth, handles, r =>
    match r.tokens with
    | .closeBrace :: ts => .ok ([], tokensAfter r ts)
    | .key :: ts => do
      let (key, r) ← flowPart limit depth handles .closeBrace true (tokensAfter r ts)
      let (value, r) ← flowValue limit depth handles .closeBrace r
      let (entries, r) ← flowEntries limit depth handles false r
      return ((key, value) :: entries, r)
    | _ => do
      let (key, r) ← read limit depth handles {} r
      let (entries, r) ← flowEntries limit depth handles false r
      return ((key, empty) :: entries, r)

/-- Reads the value after a key inside brackets; without a colon there is none. -/
def flowValue : Nat → Nat → Handles → Token → Rest → Except Fault (Node × Rest)
  | 0, _, _, _, _ => .error .tooDeep
  | limit + 1, depth, handles, closing, r =>
    match r.tokens with
    | .value :: ts => flowPart limit depth handles closing false (tokensAfter r ts)
    | _ => .ok (empty, r)

/-- Reads a key or a value inside brackets; it may be left out. -/
def flowPart : Nat → Nat → Handles → Token → Bool → Rest → Except Fault (Node × Rest)
  | 0, _, _, _, _, _ => .error .tooDeep
  | limit + 1, depth, handles, closing, isKey, r =>
    let leftOut : Bool := match r.tokens with
      | .value :: _ => isKey
      | t :: _ => t = .comma || t = closing
      | [] => false
    if leftOut then .ok (empty, r) else read limit depth handles {} r

end

/-- The directives in front of a document, as far as they matter: what handles stand for. -/
def directives (versioned : Bool) (handles : Handles) : List Token →
    Except Fault (Handles × List Token)
  | .directive (.version major) :: ts =>
    if versioned || major ≠ 1 then .error .directiveUnreadable else directives true handles ts
  | .directive (.handle handle start) :: ts =>
    if (handles.lookup handle).isSome then .error .directiveUnreadable
    else directives versioned ((handle, start) :: handles) ts
  | .directive .other :: ts => directives versioned handles ts
  | ts => .ok (handles ++ usualHandles, ts)

/-- Whether the document is empty after its mark. -/
def isEmptyContent : List Token → Bool
  | [] => true
  | .directive _ :: _ => true
  | .documentStart :: _ => true
  | .documentEnd :: _ => true
  | _ => false

/-- Refuses anything after a document. -/
def finish : List Token → Except Fault Unit
  | [] => .ok ()
  | .documentEnd :: ts => finish ts
  | _ => .error .documentRepeated

/-- The root of a document, its collections included in the depth. -/
def readRoot (handles : Handles) (ts : List Token) : Except Fault (Node × Rest) :=
  read (4 * ts.length + 4) depthLimit handles { block := true } { tokens := ts }

/-- The node of a text with one document; none if there is no document. -/
def ofTokens? (ts : List Token) : Except Fault (Option Node) := do
  if ts = [] then return none
  let (handles, rest) ← directives false [] ts
  if rest.length = ts.length && rest.head? ≠ some .documentStart then
    let (node, r) ← readRoot usualHandles ts
    finish r.tokens
    return some node
  match rest with
  | .documentStart :: rest =>
    let (node, r) ← if isEmptyContent rest then .ok (empty, ⟨rest, []⟩) else readRoot handles rest
    finish r.tokens
    return some node
  | _ => .error .documentExpected

end Node

end AnnotatedRoutes.Yaml
