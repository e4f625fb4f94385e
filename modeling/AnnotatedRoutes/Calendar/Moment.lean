import AnnotatedRoutes.Text.Basic

namespace AnnotatedRoutes

/-- A day of the calendar. -/
structure Day where
  year : Nat
  month : Nat
  day : Nat
  deriving DecidableEq

/-- A time of the day. -/
structure Clock where
  hour : Nat
  minute : Nat
  second : Nat
  microsecond : Nat
  deriving DecidableEq

/-- A day, or a time on a day; the time may tell how many minutes it is ahead of universal time. -/
inductive Moment where
  | day (d : Day)
  | time (d : Day) (c : Clock) (ahead : Option Int)
  deriving DecidableEq

namespace Day

def isLeapYear (year : Nat) : Bool := year % 4 = 0 && (year % 100 ≠ 0 || year % 400 = 0)

def monthLength (year month : Nat) : Nat :=
  if month = 2 then (if isLeapYear year then 29 else 28)
  else if month = 4 || month = 6 || month = 9 || month = 11 then 30
  else 31

def isValid (d : Day) : Bool :=
  1 ≤ d.year && 1 ≤ d.month && d.month ≤ 12 && 1 ≤ d.day && d.day ≤ monthLength d.year d.month

/-- The number of days from the beginning of the calendar. -/
def number (d : Day) : Nat :=
  let years := d.year - 1
  let months := (List.range (d.month - 1)).map fun m => monthLength d.year (m + 1)
  years * 365 + years / 4 - years / 100 + years / 400 + months.foldr (· + ·) 0 + d.day

end Day

/-- A number in decimal digits, with zeros in front of it up to a size. -/
def Text.padded (size n : Nat) : Text :=
  let digits := Text.ofNat n
  List.replicate (size - digits.length) '0' ++ digits

def Day.toText (d : Day) : Text :=
  Text.padded 4 d.year ++ '-' :: Text.padded 2 d.month ++ '-' :: Text.padded 2 d.day

namespace Clock

def isValid (c : Clock) : Bool := c.hour < 24 && c.minute < 60 && c.second < 60

def toText (c : Clock) : Text :=
  Text.padded 2 c.hour ++ ':' :: Text.padded 2 c.minute ++ ':' :: Text.padded 2 c.second ++
    (if c.microsecond = 0 then [] else '.' :: Text.padded 6 c.microsecond)

/-- The microseconds from the beginning of the day. -/
def number (c : Clock) : Nat :=
  ((c.hour * 60 + c.minute) * 60 + c.second) * 1000000 + c.microsecond

end Clock

namespace Moment

/-- The minutes of a day. -/
def dayLength : Nat := 24 * 60

def isValid : Moment → Bool
  | .day d => d.isValid
  | .time d c ahead => d.isValid && c.isValid && ahead.all fun minutes => minutes.natAbs < dayLength

/-- How far a time is ahead of universal time. -/
def aheadText (minutes : Int) : Text :=
  (if minutes < 0 then '-' else '+') ::
    (Text.padded 2 (minutes.natAbs / 60) ++ ':' :: Text.padded 2 (minutes.natAbs % 60))

/-- The text of a moment by itself. -/
def toText : Moment → Text
  | .day d => d.toText
  | .time d c ahead => d.toText ++ ' ' :: c.toText ++ (ahead.map aheadText).getD []

/-- A length of time below a day; a negative one as a day less and the seconds that are too many. -/
def lengthText (minutes : Int) : Text :=
  let seconds := fun (m : Int) => "seconds=".toList ++ Text.ofInt (m * 60)
  "datetime.timedelta(".toList ++
    (if minutes < 0 then "days=-1, ".toList ++ seconds (minutes + dayLength)
      else seconds minutes) ++ [')']

def zoneText (minutes : Int) : Text :=
  if minutes = 0 then "datetime.timezone.utc".toList
  else "datetime.timezone(".toList ++ lengthText minutes ++ [')']

/-- The numbers of a time; zero seconds at the end are left out. -/
def clockNumbers (c : Clock) : List Nat :=
  if c.microsecond ≠ 0 then [c.hour, c.minute, c.second, c.microsecond]
  else if c.second ≠ 0 then [c.hour, c.minute, c.second]
  else [c.hour, c.minute]

/-- The text of a moment among other values. -/
def inside : Moment → Text
  | .day d =>
    "datetime.date(".toList ++ Text.join ", ".toList ([d.year, d.month, d.day].map Text.ofNat) ++
      [')']
  | .time d c ahead =>
    let numbers := ([d.year, d.month, d.day] ++ clockNumbers c).map Text.ofNat
    let zone := (ahead.map fun minutes => ["tzinfo=".toList ++ zoneText minutes]).getD []
    "datetime.datetime(".toList ++ Text.join ", ".toList (numbers ++ zone) ++ [')']

/-- The point of universal time, in microseconds. -/
def instant (d : Day) (c : Clock) (ahead : Int) : Int :=
  d.number * (86400 * 1000000) + c.number - ahead * (60 * 1000000)

/-- Whether two moments are the same. Times that tell how they stand to universal time are compared
by it. -/
def same : Moment → Moment → Bool
  | .time d c (some ahead), .time d' c' (some ahead') => instant d c ahead = instant d' c' ahead'
  | a, b => a = b

end Moment

end AnnotatedRoutes
