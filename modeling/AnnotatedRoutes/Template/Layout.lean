import AnnotatedRoutes.Template.Basic

namespace AnnotatedRoutes.Template

/-- A layout as it is written. -/
structure Layout where
  fill : Char := ' '
  align : Char := '<'
  sign : Option Char := none
  zeroCoercion : Bool := false
  alternate : Bool := false
  width : Option Nat := none
  precision : Option Nat := none
  kind : Char := 's'
  deriving DecidableEq

/-- The greatest number that a template may spell. -/
def numberLimit : Nat := Nat.pow 2 63 - 1

/-- The digits at the beginning of a text, after digits that spell `value?`. -/
def readNumber (value? : Option Nat) : Text → Except Malformation (Option Nat × Text)
  | [] => .ok (value?, [])
  | c :: t =>
    match Text.digitValue? c with
    | none => .ok (value?, c :: t)
    | some d =>
      let value := value?.getD 0 * 10 + d
      if numberLimit < value then .error .numberTooLong else readNumber (some value) t

/-- Takes one character off the beginning if it is of a class. -/
def takeIf (p : Char → Bool) : Text → Option Char × Text
  | [] => (none, [])
  | c :: t => if p c then (some c, t) else (none, c :: t)

def isAlignment (c : Char) : Bool := c = '<' || c = '>' || c = '=' || c = '^'

/-- The fill character, the alignment, and what follows them. -/
def readAlignment : Text → Option Char × Option Char × Text
  | c :: d :: t =>
    if isAlignment d then (some c, some d, t)
    else if isAlignment c then (none, some c, d :: t)
    else (none, none, c :: d :: t)
  | [c] => if isAlignment c then (none, some c, []) else (none, none, [c])
  | [] => (none, none, [])

/-- The grouping character of a number, and what follows it. -/
def readGrouping (t : Text) : Except Malformation (Option Char × Text) := do
  let (comma, t) := takeIf (· = ',') t
  let (low, t) := takeIf (· = '_') t
  if low.isSome && (comma.isSome || t.head? = some ',') then .error .groupingTwice
  return (low.or comma, t)

def readPrecision : Text → Except Malformation (Option Nat × Text)
  | '.' :: t => do
    let (precision, t) ← readNumber none t
    if precision.isNone then .error .precisionMissing
    return (precision, t)
  | t => .ok (none, t)

/-- The kinds of number that may be grouped by a character. The null character is among them: it
names no kind of number in particular. -/
def mayGroup (separator kind : Char) : Bool :=
  "deEfFgG%\x00".toList.contains kind || (separator = '_' && "boxX".toList.contains kind)

def readLayoutText (text : Text) : Except Malformation Layout := do
  let (fill, align, t) := readAlignment text
  let (sign, t) := takeIf (fun c => c = ' ' || c = '+' || c = '-') t
  let (zeroCoercion, t) := takeIf (· = 'z') t
  let (alternate, t) := takeIf (· = '#') t
  let (zero, t) := takeIf (fun c => fill.isNone && c = '0') t
  let (width, t) ← readNumber none t
  let (grouping, t) ← readGrouping t
  let (precision, t) ← readPrecision t
  let kind ← match t with
    | [] => pure 's'
    | [c] => pure c
    | _ => .error (.layoutUnreadable text)
  match grouping with
  | some separator => if !mayGroup separator kind then .error (.groupingRefused separator kind)
  | none => pure ()
  return { fill := (fill.or zero).getD ' ', align := align.getD '<', sign,
           zeroCoercion := zeroCoercion.isSome, alternate := alternate.isSome, width, precision,
           kind }

/-- The value with fill characters around it. -/
def pad (layout : Layout) (value : Text) : Text :=
  let missing := layout.width.getD 0 - value.length
  let left :=
    if layout.align = '>' then missing
    else if layout.align = '^' then missing / 2
    else 0
  List.replicate left layout.fill ++ value ++ List.replicate (missing - left) layout.fill

/-- The value as a layout says. -/
def Layout.apply (layout : Layout) (value : Text) : Except Malformation Text :=
  if layout.kind ≠ 's' then .error (.kindUnknown layout.kind)
  else if layout.sign = some ' ' then .error .spaceRefused
  else if layout.sign.isSome then .error .signRefused
  else if layout.zeroCoercion then .error .zeroCoercionRefused
  else if layout.alternate then .error .alternateRefused
  else if layout.align = '=' then .error .innerPaddingRefused
  else .ok (pad layout (match layout.precision with
    | none => value
    | some n => value.take n))

/-- The value under the layout that a text describes; the empty text leaves it as it is. -/
def layOut (text value : Text) : Except Malformation Text :=
  if text = [] then .ok value else (readLayoutText text).bind (·.apply value)

end AnnotatedRoutes.Template
