import AnnotatedRoutes.Number.Double

namespace AnnotatedRoutes.Double

/-- Where the point of a quotient stands: the quotient is below that power of ten, and not below
the one before it. -/
def pointOf (num den : Nat) : Int :=
  if den ≤ num then (Text.ofNat (num / den)).length
  else 1 - (Text.ofNat ((den - 1) / num)).length

/-- The two decimals around a quotient whose digits end at a power of ten: the nearer one first, and
halfway the even one. -/
def neighbours (num den : Nat) (power : Int) : List Nat :=
  let (n, d) := scaled 10 num den (-power)
  let below := n / d
  if roundQuotient n d = below then [below, below + 1] else [below + 1, below]

/-- So many digits tell any two numbers apart. -/
def greatestSize : Nat := 17

/-- The shortest decimal `digits · 10 ^ exponent` that rounds to a positive number; of two such, the
nearer one. -/
def shortest (mantissa : Nat) (exponent : Int) : Nat × Int :=
  let (num, den) := scaled 2 mantissa 1 exponent
  let point := pointOf num den
  let found := (List.range greatestSize).findSome? fun size =>
    let power := point - (size + 1 : Nat)
    ((neighbours num den power).find? fun digits =>
      ofDecimal false digits power = .finite false mantissa exponent).map fun digits =>
        (digits, power)
  found.getD (mantissa, exponent)

/-- A positive decimal: with a point while its magnitude is between `0.0001` and `10 ^ 16`, with an
exponent of two digits or more outside. -/
def decimalText (digits : Nat) (exponent : Int) : Text :=
  let written := Text.ofNat digits
  let point : Int := written.length + exponent
  let shown := (written.reverse.dropWhile (· = '0')).reverse
  if -4 < point ∧ point ≤ 16 then
    if point ≤ 0 then "0.".toList ++ List.replicate point.natAbs '0' ++ shown
    else
      let whole := shown.take point.toNat
      let part := shown.drop point.toNat
      whole ++ List.replicate (point.toNat - shown.length) '0' ++
        '.' :: (if part = [] then ['0'] else part)
  else
    let power := point - 1
    let size := Text.ofNat power.natAbs
    let part := shown.drop 1
    shown.take 1 ++ (if part = [] then [] else '.' :: part) ++
      'e' :: (if power < 0 then '-' else '+') ::
      (List.replicate (2 - size.length) '0' ++ size)

/-- The text of a number without its sign. -/
def magnitudeText : Double → Text
  | .finite _ 0 _ => "0.0".toList
  | .finite _ mantissa exponent =>
    let (digits, power) := shortest mantissa exponent
    decimalText digits power
  | .infinite _ => "inf".toList
  | .nan => "nan".toList

def isNegative : Double → Bool
  | .finite negative _ _ => negative
  | .infinite negative => negative
  | .nan => false

/-- The text of a number: its shortest decimal. -/
def toText (x : Double) : Text := if x.isNegative then '-' :: x.magnitudeText else x.magnitudeText

end AnnotatedRoutes.Double
