namespace AnnotatedRoutes

/-- A sequence of code points. -/
abbrev Text := List Char

namespace Text

/-- What follows a given beginning, if the text begins with it. -/
def after? : Text → Text → Option Text
  | [], t => some t
  | _ :: _, [] => none
  | p :: ps, c :: t => if p = c then after? ps t else none

/-- What precedes a given ending, if the text ends with it. -/
def before? (ending t : Text) : Option Text :=
  (after? ending.reverse t.reverse).map List.reverse

def startsWith (t beginning : Text) : Bool := beginning.isPrefixOf t

def endsWith (t ending : Text) : Bool := ending.isSuffixOf t

/-- The offset of the first occurrence of `p`. -/
def indexOf? (p : Text) : Text → Option Nat
  | [] => if p = [] then some 0 else none
  | c :: t => if p.isPrefixOf (c :: t) then some 0 else (indexOf? p t).map (· + 1)

/-- Whether `p` occurs in the text. -/
def includes (t p : Text) : Bool := (indexOf? p t).isSome

/-- The pieces between the occurrences of a character; there is one more piece than occurrences. -/
def splitAt (sep : Char) : Text → List Text
  | [] => [[]]
  | c :: t =>
    if c = sep then [] :: splitAt sep t
    else match splitAt sep t with
      | [] => [[c]]
      | piece :: pieces => (c :: piece) :: pieces

/-- Pieces written one after another with a separator between them. -/
def join (sep : Text) : List Text → Text
  | [] => []
  | [t] => t
  | t :: u :: ts => t ++ sep ++ join sep (u :: ts)

/-- The order of code points, position by position; a proper beginning comes first. -/
def le (a b : Text) : Bool := @decide (List.le a b) (List.decidableLE a b)

/-- The greatest of some texts; the empty text if there are none. -/
def greatest : List Text → Text
  | [] => []
  | t :: ts => let g := greatest ts; if le t g then g else t

/-- A number in decimal digits. -/
def ofNat (n : Nat) : Text := Nat.toDigits 10 n

def ofInt : Int → Text
  | .ofNat n => ofNat n
  | .negSucc n => '-' :: ofNat (n + 1)

/-- A cut position in a text of the given length: negative positions count from the end, and
positions outside the text are moved to its nearest end. -/
def cutPosition (length : Nat) (position : Int) : Nat :=
  if position < 0 then (position + length).toNat else min position.toNat length

theorem after?_length {p t r : Text} (h : after? p t = some r) :
    r.length + p.length = t.length := by
  induction p generalizing t with
  | nil => simp [after?] at h; simp [h]
  | cons a p ih =>
    cases t with
    | nil => simp [after?] at h
    | cons c t =>
      simp only [after?] at h
      split at h
      · have := ih h; simp; omega
      · simp at h

/-- Cutting off a beginning undoes writing it. -/
theorem after?_eq_some_iff {p t r : Text} : after? p t = some r ↔ t = p ++ r := by
  induction p generalizing t with
  | nil => simp [after?, eq_comm]
  | cons a p ih =>
    cases t with
    | nil => simp [after?]
    | cons c t =>
      by_cases hc : a = c
      · simp [after?, hc, ih]
      · simp [after?, hc, Ne.symm hc]

theorem splitAt_ne_nil (sep : Char) (t : Text) : splitAt sep t ≠ [] := by
  cases t with
  | nil => simp [splitAt]
  | cons c t =>
    simp only [splitAt]
    split
    · simp
    · split <;> simp

end Text

end AnnotatedRoutes
