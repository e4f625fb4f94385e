import AnnotatedRoutes.Number.Spelling
import AnnotatedRoutes.Yaml.Place

namespace AnnotatedRoutes.Yaml

/-- The characters that a letter after a backslash stands for. -/
def escapes : List (Char × Nat) :=
  [('0', 0), ('a', 7), ('b', 8), ('t', 9), ('\t', 9), ('n', 10), ('v', 11), ('f', 12), ('r', 13),
   ('e', 27), (' ', 32), ('"', 34), ('\\', 92), ('/', 47), ('N', 0x85), ('_', 0xA0),
   ('L', 0x2028), ('P', 0x2029)]

/-- The number of hexadecimal digits after a letter. -/
def codeLength? : Char → Option Nat
  | 'x' => some 2
  | 'u' => some 4
  | 'U' => some 8
  | _ => none

def isHexDigit (c : Char) : Bool :=
  c.isDigit || ('a' ≤ c && c ≤ 'f') || ('A' ≤ c && c ≤ 'F')

/-- The number that so many hexadecimal digits spell, and what follows them. -/
def code? (length : Nat) (t : Text) : Option (Nat × Text) :=
  let digits := t.take length
  if digits.length = length && digits.all isHexDigit then
    (Spelling.digits? 16 digits).map fun n => (n, t.drop length)
  else none

/-- The character with a number. -/
def character? (n : Nat) : Option Char :=
  if h : n.isValidChar then some (Char.ofNatAux n h) else none

/-- The character that two halves of a pair give together, after the first half. -/
def paired? (first : Nat) (t : Text) : Option (Char × Text) := do
  if first < 0xD800 || 0xDC00 ≤ first then none
  let (second, rest) ← (Text.after? ['\\', 'u'] t).bind (code? 4)
  if second < 0xDC00 || 0xE000 ≤ second then none
  let c ← character? (0x10000 + (first - 0xD800) * 0x400 + (second - 0xDC00))
  return (c, rest)

/-- The character that an escape stands for, after its backslash, and what follows it. -/
def escaped? : Text → Option (Char × Text)
  | [] => none
  | c :: t =>
    match escapes.lookup c, codeLength? c with
    | some n, _ => some (Char.ofNat n, t)
    | none, some length => do
      let (n, rest) ← code? length t
      match character? n with
      | some c => return (c, rest)
      | none => paired? n rest
    | none, none => none

/-- Goes over blanks and line ends inside quotes, at the beginning of a line or after blanks there.
No document mark may stand at the beginning of a line. -/
def quotedLines (lineStart : Bool) : Text → Except Fault (Text × Text)
  | [] => .ok ([], [])
  | c :: t =>
    if lineStart && atMark (c :: t) then .error .markInQuotes
    else if isSpace c then quotedLines false t
    else if isBreak c then (quotedLines true t).map fun (breaks, rest) => (c :: breaks, rest)
    else .ok ([], c :: t)

/-- The text up to the quote that ends it, and what follows. Blanks around line ends are left out.
Every round takes a character at least. -/
def quotedRest (quote : Char) : Nat → Text → Except Fault (Text × Text)
  | 0, _ => .error .unterminated
  | _, [] => .error .unterminated
  | limit + 1, c :: t =>
    let more (before rest : Text) : Except Fault (Text × Text) :=
      (quotedRest quote limit rest).map fun (text, rest) => (before ++ text, rest)
    if c = quote then
      match t with
      | d :: rest => if quote = '\'' ∧ d = quote then more [quote] rest else .ok ([], t)
      | [] => .ok ([], [])
    else if c = '\\' ∧ quote = '"' then
      match t with
      | [] => .error .unterminated
      | d :: rest =>
        if isBreak d then (quotedLines true rest).bind fun (breaks, rest) => more breaks rest
        else match escaped? t with
          | some (e, rest) => more [e] rest
          | none => .error .unknownEscape
    else if isSpace c || isBreak c then
      let blanks := (c :: t).takeWhile isSpace
      match (c :: t).drop blanks.length with
      | [] => .error .unterminated
      | d :: rest =>
        if isBreak d then
          (quotedLines true rest).bind fun (breaks, rest) => more (fold d breaks) rest
        else more blanks (d :: rest)
    else more [c] t

/-- A text in quotes, after its first quote. -/
def quotedText (quote : Char) (t : Text) : Except Fault (Text × Text) :=
  quotedRest quote (t.length + 1) t

end AnnotatedRoutes.Yaml
