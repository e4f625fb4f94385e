import AnnotatedRoutes.Calendar.Moment
import AnnotatedRoutes.Number.Shortest
import AnnotatedRoutes.Text.Quoted

namespace AnnotatedRoutes

/-- A value without parts. -/
inductive Scalar where
  | null
  | bool (b : Bool)
  | int (i : Int)
  | double (x : Double)
  | moment (m : Moment)
  | text (t : Text)
  deriving DecidableEq

/-- A value; the keys of a mapping are distinct. -/
inductive Value where
  | scalar (s : Scalar)
  | list (items : List Value)
  | mapping (entries : List (Scalar × Value))

/-- The entries of a mapping. -/
abbrev Section := List (Scalar × Value)

namespace Scalar

/-- The text that stands for a scalar. -/
def plain : Scalar → Text
  | .null => "None".toList
  | .bool true => "True".toList
  | .bool false => "False".toList
  | .int i => Text.ofInt i
  | .double x => x.toText
  | .moment m => m.toText
  | .text t => t

/-- A scalar among others: texts stand in quotes. -/
def inside : Scalar → Text
  | .text t => Text.quoted t
  | .moment m => m.inside
  | s => s.plain

/-- Null, false, zero and the empty text count as nothing. -/
def isVoid : Scalar → Bool
  | .null => true
  | .bool b => !b
  | .int i => i == 0
  | .double x => x.isZero
  | .moment _ => false
  | .text t => t.isEmpty

/-- Numbers with more decimal digits are not written. -/
def digitLimit : Nat := 4300

/-- Whether a scalar is a number that is too long to be written. -/
def isTooLong : Scalar → Bool
  | .int i => decide (Nat.pow 10 digitLimit ≤ i.natAbs)
  | _ => false

/-- The exact value of a number; the truth values count as one and zero. -/
def quotient? : Scalar → Option (Int × Nat)
  | .bool b => some (if b then 1 else 0, 1)
  | .int i => some (i, 1)
  | .double x => x.quotient?
  | _ => none

/-- Whether two scalars are one key of a mapping. Numbers of all kinds are compared by their
values. -/
def sameKey (a b : Scalar) : Bool :=
  match a.quotient?, b.quotient? with
  | some (n, d), some (m, e) => n * e = m * d
  | none, none =>
    match a, b with
    | .moment m, .moment m' => m.same m'
    | a, b => a = b
  | _, _ => false

end Scalar

namespace Value

mutual

/-- A value among others. -/
def inside : Value → Text
  | .scalar s => s.inside
  | .list items => '[' :: (Text.join ", ".toList (insideAll items) ++ [']'])
  | .mapping entries => '{' :: (Text.join ", ".toList (insideEntries entries) ++ ['}'])

def insideAll : List Value → List Text
  | [] => []
  | v :: vs => v.inside :: insideAll vs

def insideEntries : List (Scalar × Value) → List Text
  | [] => []
  | (key, v) :: entries => (key.inside ++ ": ".toList ++ v.inside) :: insideEntries entries

end

mutual

/-- Whether a number in a value is too long to be written. -/
def isTooLong : Value → Bool
  | .scalar s => s.isTooLong
  | .list items => anyTooLong items
  | .mapping entries => anyEntryTooLong entries

def anyTooLong : List Value → Bool
  | [] => false
  | v :: vs => v.isTooLong || anyTooLong vs

def anyEntryTooLong : List (Scalar × Value) → Bool
  | [] => false
  | (key, v) :: entries => key.isTooLong || v.isTooLong || anyEntryTooLong entries

end

/-- The text that stands for a value. -/
def plain : Value → Text
  | .scalar s => s.plain
  | v => v.inside

/-- Void scalars, and collections without items. -/
def isVoid : Value → Bool
  | .scalar s => s.isVoid
  | .list items => items.isEmpty
  | .mapping entries => entries.isEmpty

def text? : Value → Option Text
  | .scalar (.text t) => some t
  | _ => none

def entries? : Value → Option Section
  | .mapping entries => some entries
  | _ => none

def items? : Value → Option (List Value)
  | .list items => some items
  | _ => none

end Value

namespace Section

/-- The value under a key that is a text. -/
def get? (s : Section) (key : Text) : Option Value := s.lookup (.text key)

/-- Writes a value under a key: in place if the key is there, at the end if it is new. The key that
came first stays. -/
def put (key : Scalar) (value : Value) : Section → Section
  | [] => [(key, value)]
  | (earlier, v) :: entries =>
    if earlier.sameKey key then (earlier, value) :: entries
    else (earlier, v) :: put key value entries

/-- The text of the value under a key, a default in place of a void one; none if a number in it is
too long to be written. -/
def textOr? (s : Section) (key default : Text) : Option Text :=
  match s.get? key with
  | none => some default
  | some v => if v.isVoid then some default else if v.isTooLong then none else some v.plain

end Section

end AnnotatedRoutes
