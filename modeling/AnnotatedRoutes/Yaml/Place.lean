import AnnotatedRoutes.Yaml.Fault

namespace AnnotatedRoutes.Yaml

/-- Characters that a document may hold. -/
def isAllowed (c : Char) : Bool :=
  let n := c.toNat
  n = 9 || n = 10 || n = 13 || (0x20 ≤ n && n ≤ 0x7E) || n = 0x85 || (0xA0 ≤ n && n ≤ 0xD7FF) ||
    (0xE000 ≤ n && n ≤ 0xFFFD) || 0x10000 ≤ n

/-- Line ends as a line feed each; the separators of lines and paragraphs stay what they are. -/
def plainBreaks : Text → Text
  | [] => []
  | '\r' :: '\n' :: t => '\n' :: plainBreaks t
  | c :: t => (if c = '\r' || c.toNat = 0x85 then '\n' else c) :: plainBreaks t

def isBreak (c : Char) : Bool := c = '\n' || c.toNat = 0x2028 || c.toNat = 0x2029

/-- Blanks within a line. -/
def isSpace (c : Char) : Bool := c = ' ' || c = '\t'

/-- Whether a text is at the end of a word: nothing, a blank or a line end follows. -/
def atGap : Text → Bool
  | [] => true
  | c :: _ => isSpace c || isBreak c

/-- Whether the line is at its end. -/
def atLineEnd : Text → Bool
  | [] => true
  | c :: _ => isBreak c

/-- Whether a space or the end of the line follows. -/
def atSpace : Text → Bool
  | [] => true
  | c :: _ => c = ' ' || isBreak c

/-- Whether three dashes stand here by themselves. -/
def atDocumentStart : Text → Bool
  | '-' :: '-' :: '-' :: t => atGap t
  | _ => false

/-- Whether three points stand here by themselves. -/
def atDocumentEnd : Text → Bool
  | '.' :: '.' :: '.' :: t => atGap t
  | _ => false

/-- Whether a mark for the beginning or the end of a document stands here. -/
def atMark (t : Text) : Bool := atDocumentStart t || atDocumentEnd t

/-- What a line end and further ones after it stand for inside a text: a single line feed is a
space, and of several the first is left out. -/
def fold (first : Char) (more : Text) : Text :=
  if first ≠ '\n' then first :: more else if more = [] then [' '] else more

/-- The character that invisibly marks the beginning of a text. -/
def orderMark : Char := '\uFEFF'

/-- A place in a document: the text that follows, the number of characters before it, and the line
and the column it is in. -/
structure Place where
  rest : Text
  index : Nat := 0
  line : Nat := 0
  column : Nat := 0

namespace Place

/-- The place after a character, with a text that follows. Byte order marks take no room. -/
def after (p : Place) (c : Char) (rest : Text) : Place :=
  if isBreak c then ⟨rest, p.index + 1, p.line + 1, 0⟩
  else ⟨rest, p.index + 1, p.line, if c = orderMark then p.column else p.column + 1⟩

/-- The place so many characters further. -/
def advance : Nat → Place → Place
  | 0, p => p
  | n + 1, p =>
    match p.rest with
    | [] => p
    | c :: rest => (p.after c rest).advance n

/-- The place from which on a text follows that is an ending of what follows here. -/
def upTo (p : Place) (rest : Text) : Place := p.advance (p.rest.length - rest.length)

end Place

end AnnotatedRoutes.Yaml
