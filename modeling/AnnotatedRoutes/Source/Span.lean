import AnnotatedRoutes.Annotation.Docblock
import AnnotatedRoutes.Source.Token

namespace AnnotatedRoutes.Source

inductive SpanKind where
  | block
  | line
  | string
  deriving DecidableEq

/-- The characters from `start` up to but not including `stop`. -/
structure Span where
  kind : SpanKind
  start : Nat
  stop : Nat
  deriving DecidableEq

def Span.covers (s : Span) (offset : Nat) : Bool := s.start ≤ offset && offset < s.stop

namespace Span

def blockOpening : Text := "/*".toList

def lineOpening : Text := "//".toList

/-- Opens an attribute, and so no line comment. -/
def attributeOpening : Text := "#[".toList

def heredocOpening : Text := "<<<".toList

/-- The number of characters up to the end of a block comment, after its opening. -/
def blockLength (t : Text) : Nat :=
  match Text.indexOf? Docblock.closing t with
  | some n => n + Docblock.closing.length
  | none => t.length

/-- The number of characters up to the end of the line. -/
def lineLength (t : Text) : Nat := (t.takeWhile (· ≠ '\n')).length

/-- The number of characters through the quote that ends a string, after its opening quote. A
backslash takes the character after it along. -/
def quotedLength (quote : Char) : Text → Nat
  | [] => 0
  | [_] => 1
  | c :: d :: t =>
    if c = '\\' then quotedLength quote t + 2
    else if c = quote then 1
    else quotedLength quote (d :: t) + 1

/-- The optional quote around the label of a heredoc. -/
def labelQuote : Text → Text
  | c :: _ => if c = '\'' || c = '"' then [c] else []
  | [] => []

/-- The label of a heredoc that opens at the beginning, and the text from its first line on. -/
def heredoc? (t : Text) : Option (Text × Text) := do
  let t ← Text.after? heredocOpening t
  let t := Text.trimStartOf isIndent t
  let quote := labelQuote t
  let (label, t) ← identifier? (t.drop quote.length)
  let t ← Text.after? quote t
  let body ← Text.after? ['\n'] ((Text.after? ['\r'] t).getD t)
  pure (label, body)

/-- The number of characters through the label that closes a heredoc, if the line begins with
it. -/
def closingLabel? (label t : Text) : Option Nat := do
  let body := Text.trimStartOf isIndent t
  let rest ← Text.after? label body
  if Text.atWordEnd rest then some (t.length - rest.length) else none

/-- The number of characters through the closing label of a heredoc, from its first line on. -/
def heredocLength (label : Text) (lineStart : Bool) : Text → Nat
  | [] => 0
  | c :: t =>
    match if lineStart then closingLabel? label (c :: t) else none with
    | some n => n
    | none => heredocLength label (c = '\n') t + 1

/-- The span that opens at the beginning of a text: its kind and its length. Without an end it
takes all of the text. -/
def first? : Text → Option (SpanKind × Nat)
  | [] => none
  | c :: t =>
    let text := c :: t
    if Text.startsWith text blockOpening then some (.block, blockLength (text.drop 2) + 2)
    else if Text.startsWith text lineOpening || (c = '#' && !Text.startsWith text attributeOpening)
    then some (.line, lineLength text)
    else if c = '\'' || c = '"' then some (.string, quotedLength c t + 1)
    else (heredoc? text).map fun (label, body) =>
      (.string, text.length - body.length + heredocLength label true body)

/-- The spans of a text that stands at `offset`, the first `skip` characters of which belong to a
span that opened before. -/
def scanFrom (offset skip : Nat) : Text → List Span
  | [] => []
  | c :: t =>
    match skip with
    | skip + 1 => scanFrom (offset + 1) skip t
    | 0 =>
      match first? (c :: t) with
      | none => scanFrom (offset + 1) 0 t
      | some (kind, length) =>
        ⟨kind, offset, offset + length⟩ :: scanFrom (offset + 1) (length - 1) t

/-- The comments and string literals of a source, in order. -/
def scan (source : Text) : List Span := scanFrom 0 0 source

end Span

/-- The text, standing at `offset`, with a space for every covered character but line feeds. -/
def maskFrom (offset : Nat) (spans : List Span) : Text → Text
  | [] => []
  | c :: t =>
    (if c ≠ '\n' ∧ spans.any (·.covers offset) then ' ' else c) :: maskFrom (offset + 1) spans t

/-- The source with its spans blanked out; offsets and line feeds stay. -/
def mask (source : Text) (spans : List Span) : Text := maskFrom 0 spans source

/-- The source without what comments and string literals say. -/
def masked (source : Text) : Text := mask source (Span.scan source)

end AnnotatedRoutes.Source
