import AnnotatedRoutes.Yaml.BlockText
import AnnotatedRoutes.Yaml.PlainText
import AnnotatedRoutes.Yaml.Token

namespace AnnotatedRoutes.Yaml

/-- A token that may be the beginning of a key. -/
structure KeyCandidate where
  /-- The number of tokens before it. -/
  number : Nat
  /-- Nothing else than a key may stand here. -/
  required : Bool
  start : Place

/-- Keys have their colon on the line where they begin, after this number of characters at most. -/
def keyLimit : Nat := 1024

/-- Whether a candidate can no longer be a key. -/
def KeyCandidate.isOver (k : KeyCandidate) (p : Place) : Bool :=
  k.start.line ≠ p.line || k.start.index + keyLimit < p.index

structure Lexer where
  place : Place
  /-- The tokens so far, the last one first, and their number. -/
  tokens : List Token := []
  count : Nat := 0
  /-- Tokens to be put in before the token of a number. -/
  inserted : List (Nat × List Token) := []
  /-- The columns of the collections by indentation that are open, the innermost one first. -/
  indents : List Nat := []
  /-- What may be a key outside of brackets, and inside each open pair, the innermost one first. -/
  outer : Option KeyCandidate := none
  inner : List (Option KeyCandidate) := []
  keyAllowed : Bool := true

namespace Lexer

/-- Whether the place is inside brackets. -/
def flow (l : Lexer) : Bool := !l.inner.isEmpty

def emit (l : Lexer) (t : Token) : Lexer :=
  { l with tokens := t :: l.tokens, count := l.count + 1 }

/-- Emits a token that consists of so many characters. -/
def emitOver (l : Lexer) (size : Nat) (t : Token) : Lexer :=
  { l with place := l.place.advance size }.emit t

/-- Emits a token before a text that follows it. -/
def emitUpTo (l : Lexer) (rest : Text) (t : Token) : Lexer :=
  { l with place := l.place.upTo rest }.emit t

/-- The candidate of the innermost brackets. -/
def candidate (l : Lexer) : Option KeyCandidate :=
  match l.inner with
  | [] => l.outer
  | k :: _ => k

def setCandidate (l : Lexer) (k : Option KeyCandidate) : Lexer :=
  match l.inner with
  | [] => { l with outer := k }
  | _ :: ks => { l with inner := k :: ks }

/-- Gives up a candidate. -/
def giveUp : Option KeyCandidate → Except Fault (Option KeyCandidate)
  | some k => if k.required then .error .keyUnfinished else .ok none
  | none => .ok none

/-- Gives up the candidate of the innermost brackets. -/
def dropCandidate (l : Lexer) : Except Fault Lexer := return l.setCandidate (← giveUp l.candidate)

/-- Gives up the candidates that can no longer be keys. -/
def dropOver (l : Lexer) : Except Fault Lexer := do
  let keep (k : Option KeyCandidate) : Except Fault (Option KeyCandidate) :=
    if k.any (·.isOver l.place) then giveUp k else .ok k
  return { l with outer := ← keep l.outer, inner := ← l.inner.mapM keep }

/-- Takes the next token for a candidate, where a key may stand. -/
def addCandidate (l : Lexer) : Except Fault Lexer := do
  if !l.keyAllowed then return l
  let l ← l.dropCandidate
  let required := !l.flow && l.indents.head? = some l.place.column
  return l.setCandidate (some ⟨l.count, required, l.place⟩)

/-- Closes the open collections to the right of a column. -/
def closeRightOf (stays : Nat → Bool) : List Nat → Lexer → Lexer
  | [], l => { l with indents := [] }
  | i :: is, l =>
    if stays i then { l with indents := i :: is } else closeRightOf stays is (l.emit .blockEnd)

/-- Closes the collections that end before a column; inside brackets there are none. -/
def closeTo (l : Lexer) (column : Nat) : Lexer :=
  if l.flow then l else closeRightOf (· ≤ column) l.indents l

/-- Closes all collections, outside of brackets. -/
def closeAll (l : Lexer) : Lexer :=
  if l.flow then l else closeRightOf (fun _ => false) l.indents l

/-- Whether a collection in a column begins to the right of the open ones. -/
def opensAt (l : Lexer) (column : Nat) : Bool := l.indents.head?.all (· < column)

/-- Opens a collection in the current column, unless it is open already. -/
def openHere (l : Lexer) (t : Token) : Lexer :=
  if l.opensAt l.place.column then { l.emit t with indents := l.place.column :: l.indents } else l

/-- Goes over spaces, comments and line ends: whether there are line ends, and what follows. -/
def overBlanks (comment : Bool) : Text → Bool × Text
  | [] => (false, [])
  | c :: t =>
    if isBreak c then (true, (overBlanks false t).2)
    else if comment then overBlanks true t
    else if c = ' ' then overBlanks false t
    else if c = '#' then overBlanks true t
    else (false, c :: t)

/-- Goes on to the beginning of the next token. Outside of brackets, a key may stand at the
beginning of a line. -/
def toNext (l : Lexer) : Lexer :=
  let place := if l.place.index = 0 && l.place.rest.head? = some orderMark then l.place.advance 1
    else l.place
  let (broken, rest) := overBlanks false place.rest
  { l with place := place.upTo rest, keyAllowed := l.keyAllowed || (broken && !l.flow) }

/-- The mark for the beginning or the end of a document. -/
def mark (l : Lexer) (t : Token) : Except Fault Lexer := do
  let l ← l.closeAll.dropCandidate
  return { l with keyAllowed := false }.emitOver 3 t

def directive (l : Lexer) : Except Fault Lexer := do
  let l ← l.closeAll.dropCandidate
  let (d, rest) ← Yaml.directive l.place.rest.tail
  return { l with keyAllowed := false }.emitUpTo rest (.directive d)

/-- An opening bracket. -/
def opening (l : Lexer) (t : Token) : Except Fault Lexer := do
  let l ← l.addCandidate
  return { l with inner := none :: l.inner, keyAllowed := true }.emitOver 1 t

/-- A closing bracket. -/
def closing (l : Lexer) (t : Token) : Except Fault Lexer :=
  match l.inner with
  | [] => .error .contentExpected
  | _ :: inner => .ok ({ l with inner, keyAllowed := false }.emitOver 1 t)

def comma (l : Lexer) : Except Fault Lexer := do
  let l ← l.dropCandidate
  return { l with keyAllowed := true }.emitOver 1 .comma

def item (l : Lexer) : Except Fault Lexer := do
  if !l.flow && !l.keyAllowed then .error .misplacedItem
  let l := if l.flow then l else l.openHere .blockSequence
  let l ← { l with keyAllowed := true }.dropCandidate
  return l.emitOver 1 .item

/-- The sign before a key that is not known by its colon. -/
def key (l : Lexer) : Except Fault Lexer := do
  if !l.flow && !l.keyAllowed then .error .misplacedKey
  let l := if l.flow then l else l.openHere .blockMapping
  let l ← { l with keyAllowed := !l.flow }.dropCandidate
  return l.emitOver 1 .key

/-- A colon after a candidate, which is a key now. Outside of brackets it may be the first one of a
mapping. -/
def valueOf (l : Lexer) (k : KeyCandidate) : Lexer :=
  let l := { l.setCandidate none with keyAllowed := false }
  let column := k.start.column
  let l :=
    if !l.flow && l.opensAt column then
      { l with
        indents := column :: l.indents
        inserted := (k.number, [.blockMapping, .key]) :: l.inserted }
    else { l with inserted := (k.number, [.key]) :: l.inserted }
  l.emitOver 1 .value

/-- A colon. -/
def value (l : Lexer) : Except Fault Lexer := do
  match l.candidate with
  | some k => return l.valueOf k
  | none =>
    if !l.flow && !l.keyAllowed then .error .misplacedValue
    let l := if l.flow then l else l.openHere .blockMapping
    return { l with keyAllowed := !l.flow }.emitOver 1 .value

/-- A token that may begin a key, read by a function that gives it and what follows it. -/
def word (l : Lexer) (read : Text → Except Fault (Token × Text)) : Except Fault Lexer := do
  let l ← l.addCandidate
  let (t, rest) ← read l.place.rest
  return { l with keyAllowed := false }.emitUpTo rest t

/-- The least column of the lines that belong to a text. -/
def least (l : Lexer) : Nat := (l.indents.head?.map (· + 1)).getD 0

def block (l : Lexer) (folded : Bool) : Except Fault Lexer := do
  let l ← { l with keyAllowed := true }.dropCandidate
  let (text, rest) ← blockText folded l.least l.place.rest.tail
  return l.emitUpTo rest (.scalar false text)

def plain (l : Lexer) : Except Fault Lexer := do
  let l ← l.addCandidate
  let (text, broken, rest) := plainText l.flow l.least l.place.rest
  return { l with keyAllowed := broken }.emitUpTo rest (.scalar true text)

/-- The token that begins with a character, before a text; it is not the end of the document. -/
def tokenAt (l : Lexer) (c : Char) (t : Text) : Except Fault Lexer :=
  let newLine := l.place.column = 0
  if newLine && c = '%' then l.directive
  else if newLine && atDocumentStart (c :: t) then l.mark .documentStart
  else if newLine && atDocumentEnd (c :: t) then l.mark .documentEnd
  else if c = '[' then l.opening .openBracket
  else if c = '{' then l.opening .openBrace
  else if c = ']' then l.closing .closeBracket
  else if c = '}' then l.closing .closeBrace
  else if c = ',' then l.comma
  else if c = '-' && atGap t then l.item
  else if c = '?' && (l.flow || atGap t) then l.key
  else if c = ':' && (l.flow || atGap t) then l.value
  else if c = '*' then l.word fun t => (anchorName t.tail).map fun (n, rest) => (.alias n, rest)
  else if c = '&' then l.word fun t => (anchorName t.tail).map fun (n, rest) => (.anchor n, rest)
  else if c = '!' then l.word fun t => (tag t).map fun (tag, rest) => (.tag tag, rest)
  else if c = '|' && !l.flow then l.block false
  else if c = '>' && !l.flow then l.block true
  else if c = '\'' || c = '"' then
    l.word fun t => (quotedText c t.tail).map fun (text, rest) => (.scalar false text, rest)
  else if atPlain l.flow (c :: t) then l.plain
  else .error (.unexpected c)

/-- Reads all tokens. Every round takes a character at least. -/
def run : Nat → Lexer → Except Fault Lexer
  | 0, l => .ok l
  | limit + 1, l => do
    let l ← l.toNext.dropOver
    let l := l.closeTo l.place.column
    match l.place.rest with
    | [] => l.closeAll.dropCandidate
    | c :: t => run limit (← l.tokenAt c t)

/-- Puts tokens in before the tokens of their numbers. The numbers ascend. -/
def weave : List (Nat × List Token) → Nat → List Token → List Token
  | [], _, tokens => tokens
  | _, _, [] => []
  | (number, ts) :: inserted, n, t :: tokens =>
    if number = n then ts ++ t :: weave inserted (n + 1) tokens
    else t :: weave ((number, ts) :: inserted) (n + 1) tokens

end Lexer

/-- The tokens of a document. -/
def Token.scan (t : Text) : Except Fault (List Token) := do
  let l ← Lexer.run (t.length + 1) { place := { rest := t } }
  return Lexer.weave (l.inserted.mergeSort fun a b => a.1 ≤ b.1) 0 l.tokens.reverse

end AnnotatedRoutes.Yaml
