import AnnotatedRoutes.Text.Basic

namespace AnnotatedRoutes

/-- A number of double precision: a sign and `mantissa · 2 ^ exponent`, or what is not finite. -/
inductive Double where
  | finite (negative : Bool) (mantissa : Nat) (exponent : Int)
  | infinite (negative : Bool)
  | nan
  deriving DecidableEq

namespace Double

/-- The number of bits of a mantissa. -/
def precision : Nat := 53

/-- The least exponent; only with it may a mantissa have fewer bits. -/
def leastExponent : Int := -1074

def greatestExponent : Int := 971

def zero (negative : Bool) : Double := .finite negative 0 leastExponent

/-- A quotient of natural numbers times a power, as a quotient. -/
def scaled (base num den : Nat) (power : Int) : Nat × Nat :=
  let factor := Nat.pow base power.natAbs
  if 0 ≤ power then (num * factor, den) else (num, den * factor)

/-- A quotient rounded to a whole number; a half goes to the even one. -/
def roundQuotient (num den : Nat) : Nat :=
  let whole := num / den
  let twice := 2 * (num % den)
  if twice < den || (twice = den && whole % 2 = 0) then whole else whole + 1

/-- The exponent with which a quotient has a mantissa of full precision, if it is not below the
least one. The binary lengths of both numbers leave two candidates. -/
def exponentOf (num den : Nat) : Int :=
  let low : Int := (num.log2 : Int) - den.log2 - precision
  let (n, d) := scaled 2 num den (-low)
  max leastExponent (if n / d < Nat.pow 2 precision then low else low + 1)

/-- The number nearest to a quotient. -/
def ofQuotient (negative : Bool) (num den : Nat) : Double :=
  if num = 0 then zero negative
  else
    let exponent := exponentOf num den
    let (n, d) := scaled 2 num den (-exponent)
    let mantissa := roundQuotient n d
    let (mantissa, exponent) :=
      if mantissa = Nat.pow 2 precision then (Nat.pow 2 (precision - 1), exponent + 1)
      else (mantissa, exponent)
    if greatestExponent < exponent then .infinite negative else .finite negative mantissa exponent

/-- Powers of ten beyond these have no finite number, or none but zero, near them. -/
def decimalBound : Int := 330

/-- The number nearest to `digits · 10 ^ exponent`. -/
def ofDecimal (negative : Bool) (digits : Nat) (exponent : Int) : Double :=
  let point : Int := (Text.ofNat digits).length + exponent
  if digits = 0 || point < -decimalBound then zero negative
  else if decimalBound < point then .infinite negative
  else
    let (num, den) := scaled 10 digits 1 exponent
    ofQuotient negative num den

/-- The exact value of a finite number. -/
def quotient? : Double → Option (Int × Nat)
  | .finite negative mantissa exponent =>
    let (num, den) := scaled 2 mantissa 1 exponent
    some (if negative then -num else num, den)
  | _ => none

def negate : Double → Double
  | .finite negative mantissa exponent => .finite (!negative) mantissa exponent
  | .infinite negative => .infinite (!negative)
  | .nan => .nan

def isZero : Double → Bool
  | .finite _ mantissa _ => mantissa == 0
  | _ => false

/-- The number nearest to a quotient with a sign. -/
def ofSigned (num : Int) (den : Nat) : Double := ofQuotient (num < 0) num.natAbs den

/-- The sum of two numbers; infinities of both signs have none. -/
def plus (a b : Double) : Double :=
  match a, b, a.quotient?, b.quotient? with
  | _, _, some (n, d), some (m, e) => ofSigned (n * e + m * d) (d * e)
  | .infinite p, .infinite q, _, _ => if p = q then .infinite p else .nan
  | .infinite p, .finite _ _ _, _, _ => .infinite p
  | .finite _ _ _, .infinite q, _, _ => .infinite q
  | _, _, _, _ => .nan

/-- The product of two numbers; an infinity and zero have none. -/
def times (a b : Double) : Double :=
  match a, b, a.quotient?, b.quotient? with
  | _, _, some (n, d), some (m, e) => ofSigned (n * m) (d * e)
  | .infinite p, .infinite q, _, _ => .infinite (p != q)
  | .infinite p, .finite q m _, _, _ => if m = 0 then .nan else .infinite (p != q)
  | .finite p m _, .infinite q, _, _ => if m = 0 then .nan else .infinite (p != q)
  | _, _, _, _ => .nan

end Double

end AnnotatedRoutes
