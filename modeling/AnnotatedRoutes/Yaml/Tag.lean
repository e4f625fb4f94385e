import AnnotatedRoutes.Calendar.Spelling
import AnnotatedRoutes.Settings.Value
import AnnotatedRoutes.Yaml.QuotedText

namespace AnnotatedRoutes.Yaml

inductive Tag where
  | null
  | bool
  | int
  | float
  | moment
  | text
  | list
  | mapping
  /-- The key whose value is merged into the mapping around it. -/
  | merge
  /-- The key whose value stands for the mapping around it. -/
  | default
  | other
  deriving DecidableEq

namespace Tag

/-- The beginning of the names of common tags. -/
def common : Text := "tag:yaml.org,2002:".toList

/-- The tag of a name in full. -/
def ofName (name : Text) : Tag :=
  let named : List (Text × Tag) :=
    [("null".toList, .null), ("bool".toList, .bool), ("int".toList, .int),
     ("float".toList, .float), ("timestamp".toList, .moment), ("str".toList, .text),
     ("seq".toList, .list), ("map".toList, .mapping), ("merge".toList, .merge),
     ("value".toList, .default)]
  ((Text.after? common name).bind fun rest => named.lookup rest).getD .other

def nullWords : List Text :=
  [[], "~".toList, "null".toList, "Null".toList, "NULL".toList]

def trueWords : List Text :=
  ["yes".toList, "Yes".toList, "YES".toList, "true".toList, "True".toList, "TRUE".toList,
   "on".toList, "On".toList, "ON".toList]

def falseWords : List Text :=
  ["no".toList, "No".toList, "NO".toList, "false".toList, "False".toList, "FALSE".toList,
   "off".toList, "Off".toList, "OFF".toList]

/-- Nonempty, and of one class of characters. -/
def consists (p : Char → Bool) (t : Text) : Bool := t ≠ [] && t.all p

def isNumeral (c : Char) : Bool := c.isDigit || c = '_'

/-- Groups of one or two digits below sixty, after a colon each. -/
def areMinutes (groups : List Text) : Bool :=
  groups ≠ [] && groups.all fun g =>
    consists Char.isDigit g && (g.length = 1 || (g.length = 2 && g.head?.any (· ≤ '5')))

/-- An unsigned whole number: binary, octal, hexadecimal, decimal or in groups of sixty. -/
def isWhole : Text → Bool
  | [] => false
  | ['0'] => true
  | '0' :: 'b' :: t => consists (fun c => c = '0' || c = '1' || c = '_') t
  | '0' :: 'x' :: t => consists (fun c => isHexDigit c || c = '_') t
  | '0' :: t => t.all fun c => ('0' ≤ c && c ≤ '7') || c = '_'
  | c :: t =>
    c ≠ '_' &&
      match Text.splitAt ':' (c :: t) with
      | [] => false
      | [whole] => consists isNumeral whole
      | whole :: groups => consists isNumeral whole && areMinutes groups

/-- An exponent with its sign, or nothing. -/
def isExponent : Text → Bool
  | [] => true
  | e :: s :: t => (e = 'e' || e = 'E') && (s = '+' || s = '-') && consists Char.isDigit t
  | [_] => false

/-- What follows the point of a decimal. -/
def isFraction (t : Text) : Bool := isExponent (t.dropWhile isNumeral)

/-- An unsigned decimal with digits before the point. -/
def isDecimal (t : Text) : Bool :=
  let whole := t.takeWhile (· ≠ '.')
  match t.drop whole.length with
  | '.' :: part =>
    whole.head?.any Char.isDigit &&
      match Text.splitAt ':' whole with
      | [] => false
      | [whole] => consists isNumeral whole && isFraction part
      | first :: groups => consists isNumeral first && areMinutes groups && part.all isNumeral
  | _ => false

def infinityWords : List Text := [".inf".toList, ".Inf".toList, ".INF".toList]

def nanWords : List Text := [".nan".toList, ".NaN".toList, ".NAN".toList]

/-- A number with a point. Only without a sign it may begin with the point. -/
def isFloat (t : Text) : Bool :=
  let unsigned := (Spelling.signed t).2
  isDecimal unsigned || infinityWords.contains unsigned || nanWords.contains t ||
    match t with
    | '.' :: part => part.head?.any Char.isDigit && isFraction part
    | _ => false

/-- Signs that stand for themselves in no value. -/
def reserved : List Text := [['!'], ['&'], ['*']]

/-- The tag of a plain word. -/
def ofPlain (t : Text) : Tag :=
  let word := if t.length ≠ 1 && t.getLast? = some '\n' then t.dropLast else t
  if nullWords.contains word then .null
  else if trueWords.contains word || falseWords.contains word then .bool
  else if isFloat word then .float
  else if isWhole (Spelling.signed word).2 then .int
  else if word = ['<', '<'] then .merge
  else if (Moment.spelled? word).any Prod.snd then .moment
  else if word = ['='] then .default
  else if reserved.contains word then .other
  else .text

/-- Adds groups of sixty. -/
def ofSixties {α : Type} (zero : α) (add : α → α → Nat → Option α) (parts : List α) : Option α :=
  (parts.reverse.foldlM (fun (sum, weight) part => do return (← add sum part weight, weight * 60))
    (zero, 1)).map Prod.fst

/-- The whole number that a text without low lines and sign spells. -/
def unsignedInt? (t : Text) : Option Int :=
  match t with
  | [] => none
  | ['0'] => some 0
  | '0' :: 'b' :: t => Spelling.whole? 2 t
  | '0' :: 'x' :: t => Spelling.whole? 16 t
  | '0' :: t => Spelling.whole? 8 ('0' :: t)
  | t =>
    if t.contains ':' then do
      let parts ← (Text.splitAt ':' t).mapM (Spelling.whole? 10)
      ofSixties 0 (fun sum part weight => some (sum + part * weight)) parts
    else Spelling.whole? 10 t

/-- A text without low lines, after its sign. -/
def unscored (t : Text) : Bool × Text := Spelling.signed (t.filter (· ≠ '_'))

def int? (t : Text) : Option Int :=
  let (negative, t) := unscored t
  (unsignedInt? t).map fun n => if negative then -n else n

/-- The number that a text without low lines and sign spells. -/
def unsignedFloat? (t : Text) : Option Double :=
  if t = [] then none
  else if t = ".inf".toList then some (.infinite false)
  else if t = ".nan".toList then some .nan
  else if t.contains ':' then do
    let parts ← (Text.splitAt ':' t).mapM Spelling.double?
    ofSixties (.zero false)
      (fun sum part weight =>
        match Double.ofDecimal false weight 0 with
        | .finite negative mantissa exponent =>
          some (sum.plus (part.times (.finite negative mantissa exponent)))
        | _ => none)
      parts
  else Spelling.double? t

def float? (t : Text) : Option Double :=
  let (negative, t) := unscored (t.map Char.toLower)
  (unsignedFloat? t).map fun x => if negative then x.negate else x

def bool? (t : Text) : Option Bool :=
  let t := t.map Char.toLower
  if trueWords.contains t then some true else if falseWords.contains t then some false else none

/-- The scalar that a text gives under a tag. -/
def scalar (tag : Tag) (t : Text) : Except Fault Scalar :=
  let fit (s? : Option Scalar) : Except Fault Scalar :=
    match s? with
    | some s => .ok s
    | none => .error .contentUnfit
  match tag with
  | .null => .ok .null
  | .bool => fit ((bool? t).map .bool)
  | .int => fit ((int? t).map .int)
  | .float => fit ((float? t).map .double)
  | .moment => fit ((Moment.ofText? t).map .moment)
  | .text => .ok (.text t)
  | .list => .error .contentUnfit
  | .mapping => .error .contentUnfit
  | .merge => .error .tagUnknown
  | .default => .error .tagUnknown
  | .other => .error .tagUnknown

end Tag

end AnnotatedRoutes.Yaml
