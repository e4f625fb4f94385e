import AnnotatedRoutes.Calendar.Moment

namespace AnnotatedRoutes.Moment

/-- The number that digits spell. -/
def numberOf (digits : Text) : Nat := digits.foldl (fun n c => n * 10 + (c.toNat - '0'.toNat)) 0

/-- The digits at the beginning, `least` to `most` of them, and what follows. -/
def digits? (least most : Nat) (t : Text) : Option (Text × Text) :=
  let digits := (t.take most).takeWhile Char.isDigit
  if digits.length < least then none else some (digits, t.drop digits.length)

/-- A sign and digits after it. -/
def after? (sign : Char) (least most : Nat) (t : Text) : Option (Text × Text) :=
  match t with
  | c :: t => if c = sign then digits? least most t else none
  | [] => none

/-- How far a time is ahead of universal time, and what follows. -/
def ahead? : Text → Option (Int × Text)
  | 'Z' :: t => some (0, t)
  | c :: t => do
    if c ≠ '+' && c ≠ '-' then none
    let (hour, t) ← digits? 1 2 t
    let (minute, t) := (after? ':' 2 2 t).getD ([], t)
    let minutes : Int := numberOf hour * 60 + numberOf minute
    return (if c = '-' then -minutes else minutes, t)
  | [] => none

def isSpace (c : Char) : Bool := c = ' ' || c = '\t'

/-- What stands between a day and a time: a letter, or blanks. -/
def overGap? : Text → Option Text
  | [] => none
  | c :: t =>
    if c = 'T' || c = 't' then some t
    else if isSpace c then some (t.dropWhile isSpace)
    else none

/-- The microseconds that digits after the point give. -/
def microseconds (part : Text) : Nat :=
  let part := part.take 6
  numberOf (part ++ List.replicate (6 - part.length) '0')

/-- The time of a day, how far it is ahead of universal time, and what follows. -/
def clock? (t : Text) : Option (Clock × Option Int × Text) := do
  let (hour, t) ← digits? 1 2 t
  let (minute, t) ← after? ':' 2 2 t
  let (second, t) ← after? ':' 2 2 t
  let (part, t) := (after? '.' 0 t.length t).getD ([], t)
  let clock := ⟨numberOf hour, numberOf minute, numberOf second, microseconds part⟩
  match ahead? (t.dropWhile isSpace) with
  | some (ahead, t) => return (clock, some ahead, t)
  | none => return (clock, none, t)

/-- The day at the beginning, whether its numbers have two digits, and what follows. -/
def day? (t : Text) : Option (Day × Bool × Text) := do
  let (year, t) ← digits? 4 4 t
  let (month, t) ← after? '-' 1 2 t
  let (dayOf, t) ← after? '-' 1 2 t
  return (⟨numberOf year, numberOf month, numberOf dayOf⟩,
    month.length = 2 && dayOf.length = 2, t)

/-- Nothing, or a line end that ends a text. -/
def isEnd (t : Text) : Bool := t = [] || t = ['\n']

/-- The moment that a text spells, and whether it is spelled in full: a day by itself has two digits
each for month and day. -/
def spelled? (t : Text) : Option (Moment × Bool) := do
  let (d, full, rest) ← day? t
  if isEnd rest then return (.day d, full)
  let (clock, ahead, rest) ← clock? (← overGap? rest)
  if isEnd rest then return (.time d clock ahead, true) else none

/-- The moment that a text spells, if it exists in the calendar. -/
def ofText? (t : Text) : Option Moment := ((spelled? t).map Prod.fst).filter isValid

end AnnotatedRoutes.Moment
