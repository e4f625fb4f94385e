import AnnotatedRoutes.Number.Double
import AnnotatedRoutes.Text.Blank
import AnnotatedRoutes.Text.Digit

namespace AnnotatedRoutes.Spelling

/-- The value of a digit in a base up to sixteen; letters of both cases are digits. -/
def digit? (base : Nat) (c : Char) : Option Nat :=
  let value :=
    if 'a' ≤ c ∧ c ≤ 'f' then some (c.toNat - 'a'.toNat + 10)
    else if 'A' ≤ c ∧ c ≤ 'F' then some (c.toNat - 'A'.toNat + 10)
    else Text.digitValue? c
  value.filter (· < base)

/-- The number that digits spell; there is at least one digit. -/
def digits? (base : Nat) (t : Text) : Option Nat :=
  if t = [] then none
  else t.foldlM (fun n c => (digit? base c).map (n * base + ·)) 0

/-- A sign at the beginning, and what follows it. -/
def signed : Text → Bool × Text
  | '-' :: t => (true, t)
  | '+' :: t => (false, t)
  | t => (false, t)

/-- The letters that may announce digits of a base after a zero. -/
def announcement : Nat → List Char
  | 2 => ['b', 'B']
  | 8 => ['o', 'O']
  | 16 => ['x', 'X']
  | _ => []

/-- The digits after their announcement, if there is one. -/
def afterAnnouncement (base : Nat) : Text → Text
  | '0' :: c :: t => if (announcement base).contains c then t else '0' :: c :: t
  | t => t

/-- The greatest number of decimal digits that a whole number may be read from or shown with. -/
def digitLimit : Nat := 4300

/-- A whole number. Only in base ten there is a limit to the digits. -/
def whole? (base : Nat) (t : Text) : Option Int :=
  let (negative, t) := signed (Text.trim t)
  let t := afterAnnouncement base t
  if base = 10 && digitLimit < t.length then none
  else (digits? base t).map fun n => if negative then -n else n

/-- The exponent at the end of a decimal. -/
def exponent? : Text → Option Int
  | [] => some 0
  | c :: t =>
    if c = 'e' || c = 'E' then
      let (negative, t) := signed t
      (digits? 10 t).map fun n => if negative then -n else n
    else none

/-- A decimal without a sign: digits with a point among them or none, and perhaps an exponent. -/
def unsigned? (negative : Bool) (t : Text) : Option Double := do
  let isDigit := fun c => (Text.digitValue? c).isSome
  let whole := t.takeWhile isDigit
  let rest := t.drop whole.length
  let (part, rest) := match rest with
    | '.' :: rest =>
      let part := rest.takeWhile isDigit
      (part, rest.drop part.length)
    | _ => ([], rest)
  let digits ← digits? 10 (whole ++ part)
  let exponent ← exponent? rest
  return .ofDecimal negative digits (exponent - part.length)

/-- A number of double precision: a decimal, or a word for what is not finite. -/
def double? (t : Text) : Option Double :=
  let (negative, t) := signed (Text.trim t)
  let word := t.map Char.toLower
  if word = "inf".toList || word = "infinity".toList then some (.infinite negative)
  else if word = "nan".toList then some .nan
  else unsigned? negative t

end AnnotatedRoutes.Spelling
