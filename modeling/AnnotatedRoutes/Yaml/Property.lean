import AnnotatedRoutes.Yaml.QuotedText
import AnnotatedRoutes.Text.Utf8

namespace AnnotatedRoutes.Yaml

/-- Letters, digits, dashes and low lines of ASCII. -/
def isNameChar (c : Char) : Bool :=
  c.isDigit || ('a' ≤ c && c ≤ 'z') || ('A' ≤ c && c ≤ 'Z') || c = '-' || c = '_'

/-- The name of an anchor, and what follows it. -/
def anchorName (t : Text) : Except Fault (Text × Text) :=
  let name := t.takeWhile isNameChar
  let rest := t.drop name.length
  let ended := atGap rest || rest.head?.any ("?:,]\x7d%@\x60".toList.contains ·)
  if name ≠ [] && ended then .ok (name, rest) else .error .nameUnreadable

/-- A tag as it is written: a handle that stands for the beginning of its name, and the rest of the
name; without a handle, the whole name. -/
structure WrittenTag where
  handle : Option Text
  suffix : Text
  deriving DecidableEq

/-- Characters in the name of a tag. -/
def isTagChar (c : Char) : Bool :=
  isNameChar c || ";/?:@&=+$,.!~*'()[]".toList.contains c

/-- Bytes that are written as percent signs with two digits each, and what follows them. -/
def tagBytes : Nat → Text → Option (Text.Bytes × Text)
  | limit + 1, '%' :: t => do
    let (n, rest) ← code? 2 t
    let (bytes, rest) ← tagBytes limit rest
    return (UInt8.ofNat n :: bytes, rest)
  | _, t => some ([], t)

/-- The characters of a tag's name, and what follows them. -/
def tagNameWithin : Nat → Text → Option (Text × Text)
  | 0, t => some ([], t)
  | limit + 1, t =>
    let piece := t.takeWhile isTagChar
    match t.drop piece.length with
    | '%' :: rest => do
      let (bytes, rest) ← tagBytes rest.length ('%' :: rest)
      let decoded ← Text.decode? bytes
      let (more, rest) ← tagNameWithin limit rest
      return (piece ++ decoded ++ more, rest)
    | rest => some (piece, rest)

/-- The name of a tag or its beginning; it is not empty. -/
def tagName (t : Text) : Except Fault (Text × Text) :=
  match tagNameWithin (t.length + 1) t with
  | some (name, rest) => if rest.length < t.length then .ok (name, rest) else .error .tagUnreadable
  | none => .error .tagUnreadable

/-- The handle of tags: one exclamation mark, or two with a name between them. -/
def tagHandle : Text → Except Fault (Text × Text)
  | '!' :: t =>
    if t.head? = some ' ' then .ok (['!'], t)
    else
      let name := t.takeWhile isNameChar
      match t.drop name.length with
      | '!' :: rest => .ok ('!' :: (name ++ ['!']), rest)
      | _ => .error .tagUnreadable
  | _ => .error .tagUnreadable

/-- Whether a second exclamation mark stands before the next space. -/
def hasNamedHandle (t : Text) : Bool := (t.takeWhile fun c => c ≠ ' ' && !isBreak c).contains '!'

/-- A tag, from its exclamation mark on, before the space that ends it. -/
def tagBody : Text → Except Fault (WrittenTag × Text)
  | '!' :: '<' :: t => do
    let (suffix, rest) ← tagName t
    match rest with
    | '>' :: rest => return (⟨none, suffix⟩, rest)
    | _ => .error .tagUnreadable
  | '!' :: t =>
    if atGap t then .ok (⟨none, ['!']⟩, t)
    else do
      let (handle, t) ← if hasNamedHandle t then tagHandle ('!' :: t) else .ok (['!'], t)
      let (suffix, rest) ← tagName t
      return (⟨some handle, suffix⟩, rest)
  | _ => .error .tagUnreadable

/-- A tag, from its exclamation mark on, and what follows it. -/
def tag (t : Text) : Except Fault (WrittenTag × Text) := do
  let (found, rest) ← tagBody t
  if atSpace rest then return (found, rest) else .error .tagUnreadable

/-- What is said of a document in front of it. -/
inductive Directive where
  | version (major : Nat)
  /-- What a handle stands for. -/
  | handle (handle start : Text)
  | other
  deriving DecidableEq

def spacesOver (t : Text) : Text := t.dropWhile (· = ' ')

/-- A number of a version, and what follows it. -/
def versionNumber (t : Text) : Except Fault (Nat × Text) :=
  let digits := t.takeWhile Char.isDigit
  match Spelling.whole? 10 digits with
  | some n => .ok (n.natAbs, t.drop digits.length)
  | none => .error .directiveUnreadable

def versionDirective (t : Text) : Except Fault (Directive × Text) := do
  let (major, t) ← versionNumber (spacesOver t)
  match t with
  | '.' :: t =>
    let (_, rest) ← versionNumber t
    if atSpace rest then return (.version major, rest) else .error .directiveUnreadable
  | _ => .error .directiveUnreadable

def handleDirective (t : Text) : Except Fault (Directive × Text) := do
  let (handle, t) ← tagHandle (spacesOver t)
  if t.head? ≠ some ' ' then .error .directiveUnreadable
  let (start, rest) ← tagName (spacesOver t)
  if atSpace rest then return (.handle handle start, rest) else .error .directiveUnreadable

/-- A directive after its percent sign, and what follows it on its line. -/
def directiveBody (t : Text) : Except Fault (Directive × Text) :=
  let name := t.takeWhile isNameChar
  let rest := t.drop name.length
  if name = [] || !atSpace rest then .error .directiveUnreadable
  else if name = "YAML".toList then versionDirective rest
  else if name = "TAG".toList then handleDirective rest
  else .ok (.other, rest.dropWhile (!isBreak ·))

/-- A directive after its percent sign, and what follows its line. -/
def directive (t : Text) : Except Fault (Directive × Text) := do
  let (found, rest) ← directiveBody t
  let rest := spacesOver rest
  let rest := if rest.head? = some '#' then rest.dropWhile (!isBreak ·) else rest
  if atLineEnd rest then return (found, rest.tail) else .error .directiveUnreadable

end AnnotatedRoutes.Yaml
