import AnnotatedRoutes.Text.Digit
import AnnotatedRoutes.Text.Quoted

namespace AnnotatedRoutes

namespace Template

/-- Why a text is no template. -/
inductive Malformation where
  | singleOpening
  | singleClosing
  | unclosedField
  | braceInName
  | unclosedLayout
  | conversionMissing
  | conversionUnterminated
  | conversionUnknown (c : Char)
  | emptyAccess
  | accessUnexpected
  | numberTooLong
  | nestedTooDeep
  | layoutUnreadable (layout : Text)
  | precisionMissing
  | groupingTwice
  | groupingRefused (separator kind : Char)
  | kindUnknown (kind : Char)
  | spaceRefused
  | signRefused
  | zeroCoercionRefused
  | alternateRefused
  | innerPaddingRefused
  deriving DecidableEq

/-- Why a template cannot be filled. -/
inductive Fault where
  /-- No value is supplied under a name. -/
  | fieldMissing (name : Text)
  /-- A field is numbered, and values are supplied by name only. -/
  | positionMissing (position : Nat)
  | characterMissing
  | characterNumberExpected
  | attributeMissing (name : Text)
  | malformed (cause : Malformation)
  deriving DecidableEq

/-- A character in a message; one without a visible ASCII form is given by its number. -/
def shownBelow (limit : Nat) (c : Char) : Text :=
  if 32 < c.toNat ∧ c.toNat < limit then [c] else "\\x".toList ++ Nat.toDigits 16 c.toNat

def Malformation.message : Malformation → Text
  | .singleOpening => "Single '\x7b' encountered in format string".toList
  | .singleClosing => "Single '\x7d' encountered in format string".toList
  | .unclosedField => "expected '\x7d' before end of string".toList
  | .braceInName => "unexpected '\x7b' in field name".toList
  | .unclosedLayout => "unmatched '\x7b' in format spec".toList
  | .conversionMissing => "end of string while looking for conversion specifier".toList
  | .conversionUnterminated => "expected ':' after conversion specifier".toList
  | .conversionUnknown c => "Unknown conversion specifier ".toList ++ shownBelow 127 c
  | .emptyAccess => "Empty attribute in format string".toList
  | .accessUnexpected => "Only '.' or '[' may follow ']' in format field specifier".toList
  | .numberTooLong => "Too many decimal digits in format string".toList
  | .nestedTooDeep => "Max string recursion exceeded".toList
  | .layoutUnreadable layout =>
    "Invalid format specifier '".toList ++ layout ++ "' for object of type 'str'".toList
  | .precisionMissing => "Format specifier missing precision".toList
  | .groupingTwice => "Cannot specify both ',' and '_'.".toList
  | .groupingRefused separator kind =>
    "Cannot specify '".toList ++ [separator] ++ "' with '".toList ++ shownBelow 128 kind ++
      "'.".toList
  | .kindUnknown kind =>
    "Unknown format code '".toList ++ shownBelow 128 kind ++ "' for object of type 'str'".toList
  | .spaceRefused => "Space not allowed in string format specifier".toList
  | .signRefused => "Sign not allowed in string format specifier".toList
  | .zeroCoercionRefused =>
    "Negative zero coercion (z) not allowed in string format specifier".toList
  | .alternateRefused => "Alternate form (#) not allowed in string format specifier".toList
  | .innerPaddingRefused => "'=' alignment not allowed in string format specifier".toList

def Fault.message : Fault → Text
  | .fieldMissing name => Text.quoted name
  | .positionMissing position =>
    "Replacement index ".toList ++ Text.ofNat position ++
      " out of range for positional args tuple".toList
  | .characterMissing => "string index out of range".toList
  | .characterNumberExpected => "string indices must be integers, not 'str'".toList
  | .attributeMissing name => "'str' object has no attribute ".toList ++ ('\'' :: name ++ ['\''])
  | .malformed cause => cause.message

/-- What stands between the braces of a field: the name of a value, how the value is converted,
and how it is laid out. -/
structure Field where
  name : Text
  conversion : Option Char := none
  layout : Text := []
  deriving DecidableEq

/-- A piece of a template. -/
inductive Piece where
  | literal (c : Char)
  | field (f : Field)
  deriving DecidableEq

/-- The name of a field, the character that ends it, and what follows. Brackets in a name hide the
characters between them. -/
def readName (bracketed : Bool) : Text → Except Malformation (Text × Char × Text)
  | [] => .error .unclosedField
  | c :: t =>
    if bracketed then (readName (c ≠ ']') t).map fun (name, rest) => (c :: name, rest)
    else if c = '{' then .error .braceInName
    else if c = '}' || c = ':' || c = '!' then .ok ([], c, t)
    else (readName (c = '[') t).map fun (name, rest) => (c :: name, rest)

/-- The layout of a field up to the brace that closes the field, and what follows. `depth` fields
are open inside the layout. -/
def readLayout (depth : Nat) : Text → Except Malformation (Text × Text)
  | [] => .error .unclosedLayout
  | c :: t =>
    if c = '{' then (readLayout (depth + 1) t).map fun (layout, rest) => (c :: layout, rest)
    else if c = '}' then
      match depth with
      | 0 => .ok ([], t)
      | depth + 1 => (readLayout depth t).map fun (layout, rest) => (c :: layout, rest)
    else (readLayout depth t).map fun (layout, rest) => (c :: layout, rest)

/-- A field after its opening brace, and what follows its closing one. -/
def readField (t : Text) : Except Malformation (Field × Text) := do
  let (name, ending, t) ← readName false t
  if ending = '}' then return ({ name }, t)
  if ending = ':' then
    let (layout, t) ← readLayout 0 t
    return ({ name, layout }, t)
  match t with
  | [] => .error .conversionMissing
  | [_] => .error .unclosedLayout
  | conversion :: next :: t =>
    if next = '}' then return ({ name, conversion := some conversion }, t)
    if next ≠ ':' then .error .conversionUnterminated
    else
      let (layout, t) ← readLayout 0 t
      return ({ name, conversion := some conversion, layout }, t)

/-- The pieces of a template, up to the first place where it is malformed. Every piece takes at
least one character, so as many pieces as characters suffice. -/
def piecesWithin : Nat → Text → List (Except Malformation Piece)
  | 0, _ => []
  | _ + 1, [] => []
  | limit + 1, c :: t =>
    if c = '{' then
      match t with
      | [] => [.error .singleOpening]
      | d :: rest =>
        if d = '{' then .ok (.literal c) :: piecesWithin limit rest
        else match readField t with
          | .error cause => [.error cause]
          | .ok (f, rest) => .ok (.field f) :: piecesWithin limit rest
    else if c = '}' then
      match t with
      | [] => [.error .singleClosing]
      | d :: rest =>
        if d = '}' then .ok (.literal c) :: piecesWithin limit rest
        else [.error .singleClosing]
    else .ok (.literal c) :: piecesWithin limit t

def pieces (template : Text) : List (Except Malformation Piece) :=
  piecesWithin template.length template

end Template

end AnnotatedRoutes
