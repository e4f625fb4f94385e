import AnnotatedRoutes.Text.Blank
import AnnotatedRoutes.Text.WordChar

namespace AnnotatedRoutes.Source

def isIdentifierStart (c : Char) : Bool := c.isAlpha || c = '_'

def isIdentifierChar (c : Char) : Bool := c.isAlphanum || c = '_'

/-- Blanks that do not leave the line. -/
def isIndent (c : Char) : Bool := c = ' ' || c = '\t'

/-- The longest identifier at the beginning. Identifiers are made of ASCII characters. -/
def identifier? : Text → Option (Text × Text)
  | [] => none
  | c :: t =>
    if isIdentifierStart c then
      some (c :: t.takeWhile isIdentifierChar, t.dropWhile isIdentifierChar)
    else none

/-- What follows one or more blanks. -/
def afterBlanks? : Text → Option Text
  | [] => none
  | c :: t => if Text.isBlank c then some (Text.trimStart t) else none

/-- What follows a keyword and the blanks after it. -/
def afterKeyword? (keyword t : Text) : Option Text := (Text.after? keyword t).bind afterBlanks?

/-- The first of some keywords that is followed by blanks, and what follows them. -/
def anyKeyword? : List Text → Text → Option (Text × Text)
  | [], _ => none
  | keyword :: keywords, t =>
    match afterKeyword? keyword t with
    | some rest => some (keyword, rest)
    | none => anyKeyword? keywords t

theorem afterBlanks?_length {t r : Text} (h : afterBlanks? t = some r) : r.length < t.length := by
  cases t with
  | nil => simp [afterBlanks?] at h
  | cons c t =>
    simp only [afterBlanks?] at h
    split at h
    · cases Option.some.inj h
      exact Nat.lt_succ_of_le (Text.length_dropWhile_le _ _)
    · simp at h

theorem afterKeyword?_length {keyword t r : Text} (h : afterKeyword? keyword t = some r) :
    r.length < t.length := by
  obtain ⟨u, hu, hr⟩ := Option.bind_eq_some_iff.mp h
  have := Text.after?_length hu
  have := afterBlanks?_length hr
  omega

theorem anyKeyword?_length {keywords : List Text} {t k r : Text}
    (h : anyKeyword? keywords t = some (k, r)) : r.length < t.length := by
  induction keywords with
  | nil => simp [anyKeyword?] at h
  | cons keyword keywords ih =>
    simp only [anyKeyword?] at h
    split at h
    next hk => cases Option.some.inj h; exact afterKeyword?_length hk
    next => exact ih h

/-- The run of keywords at the beginning, each followed by blanks, and what follows them. -/
def keywordRun (keywords : List Text) (t : Text) : List Text × Text :=
  match _h : anyKeyword? keywords t with
  | none => ([], t)
  | some (keyword, rest) =>
    let run := keywordRun keywords rest
    (keyword :: run.1, run.2)
termination_by t.length
decreasing_by exact anyKeyword?_length _h

end AnnotatedRoutes.Source
