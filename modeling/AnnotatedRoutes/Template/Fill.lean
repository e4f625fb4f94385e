import AnnotatedRoutes.Template.Layout

namespace AnnotatedRoutes.Template

/-- The values for a template's fields. -/
abbrev Values := List (Text × Text)

/-- A step from a value to a part of it. -/
inductive Access where
  | attribute (name : Text)
  | item (key : Text)
  deriving DecidableEq

/-- The first access in a text and what follows it. -/
def readAccess : Text → Except Malformation (Access × Text)
  | [] => .error .accessUnexpected
  | c :: t =>
    if c = '.' then
      let name := t.takeWhile fun d => d ≠ '.' && d ≠ '['
      if name = [] then .error .emptyAccess
      else .ok (.attribute name, t.drop name.length)
    else if c = '[' then
      let key := t.takeWhile (· ≠ ']')
      if key = [] then .error .emptyAccess
      else .ok (.item key, t.drop (key.length + 1))
    else .error .accessUnexpected

/-- The number that a text spells, if it consists of digits. -/
def spelledNumber? (t : Text) : Except Malformation (Option Nat) := do
  match ← readNumber none t with
  | (value?, []) => return value?
  | _ => return none

/-- The part of a text that an access leads to: texts have characters and nothing else. -/
def Access.apply (value : Text) : Access → Except Fault Text
  | .attribute name => .error (.attributeMissing name)
  | .item key =>
    match spelledNumber? key with
    | .error cause => .error (.malformed cause)
    | .ok none => .error .characterNumberExpected
    | .ok (some n) =>
      match value[n]? with
      | none => .error .characterMissing
      | some c => .ok [c]

/-- The part of a value that a chain of accesses leads to. Every access takes a character at
least. -/
def accessWithin : Nat → Text → Text → Except Fault Text
  | 0, _, value => .ok value
  | _ + 1, [], value => .ok value
  | limit + 1, accesses, value =>
    match readAccess accesses with
    | .error cause => .error (.malformed cause)
    | .ok (access, rest) => (access.apply value).bind (accessWithin limit rest)

/-- The value that a field names. -/
def lookUp (values : Values) (name : Text) : Except Fault Text :=
  let root := name.takeWhile fun c => c ≠ '.' && c ≠ '['
  let accesses := name.drop root.length
  match spelledNumber? root with
  | .error cause => .error (.malformed cause)
  | .ok (some position) => .error (.positionMissing position)
  | .ok none =>
    if root = [] then .error (.positionMissing 0)
    else match values.lookup root with
      | none => .error (.fieldMissing root)
      | some value => accessWithin accesses.length accesses value

/-- A character outside ASCII by its number. -/
def escapeNonAscii (c : Char) : Text :=
  let n := c.toNat
  if n < 0x80 then [c]
  else if n < 0x100 then "\\x".toList ++ Text.hexDigits 2 n
  else if n < 0x10000 then "\\u".toList ++ Text.hexDigits 4 n
  else "\\U".toList ++ Text.hexDigits 8 n

/-- The value in another form: as it is, in quotes, or in quotes and ASCII. The null character
asks for no other form. -/
def convert (value : Text) : Option Char → Except Malformation Text
  | none => .ok value
  | some '\x00' => .ok value
  | some 's' => .ok value
  | some 'r' => .ok (Text.quoted value)
  | some 'a' => .ok ((Text.quoted value).flatMap escapeNonAscii)
  | some c => .error (.conversionUnknown c)

def malformedAs {α : Type} : Except Malformation α → Except Fault α
  | .ok a => .ok a
  | .error cause => .error (.malformed cause)

/-- The text of one piece. A layout with fields is filled first; `nesting` levels of that are
allowed. -/
def fillPiece (fillLayout : Text → Except Fault Text) (values : Values) :
    Except Malformation Piece → Except Fault Text
  | .error cause => .error (.malformed cause)
  | .ok (.literal c) => .ok [c]
  | .ok (.field f) => do
    let value ← lookUp values f.name
    let value ← malformedAs (convert value f.conversion)
    let layout ← if f.layout.contains '{' then fillLayout f.layout else .ok f.layout
    malformedAs (layOut layout value)

/-- The filled template; layouts may hold fields `nesting` levels deep. -/
def fillNested (nesting : Nat) (values : Values) (template : Text) : Except Fault Text :=
  match nesting with
  | 0 => .error (.malformed .nestedTooDeep)
  | nesting + 1 =>
    ((pieces template).mapM (fillPiece (fillNested nesting values) values)).map List.flatten

/-- The template with its fields replaced by values. -/
def fill (template : Text) (values : Values) : Except Fault Text := fillNested 2 values template

end AnnotatedRoutes.Template
