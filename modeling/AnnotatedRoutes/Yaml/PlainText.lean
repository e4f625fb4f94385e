import AnnotatedRoutes.Yaml.Place

namespace AnnotatedRoutes.Yaml

/-- Whether a colon before this text divides a key from its value. Inside brackets a sign may follow
it at once. -/
def divides (flow : Bool) (t : Text) : Bool :=
  atGap t || (flow && t.head?.any (",[]\x7b\x7d".toList.contains ·))

/-- Whether plain text ends before a character that another text follows. -/
def endsPlain (flow : Bool) (c : Char) (t : Text) : Bool :=
  isSpace c || isBreak c || (c = ':' && divides flow t) ||
    (flow && ",?[]\x7b\x7d".toList.contains c)

/-- Whether plain text can begin here. -/
def atPlain (flow : Bool) : Text → Bool
  | [] => false
  | c :: t =>
    if isSpace c || isBreak c || "-?:,[]\x7b\x7d#&*!|>'\"%@\x60".toList.contains c then
      !atGap t && (c = '-' || (!flow && (c = '?' || c = ':')))
    else true

/-- The longest piece of plain text without blanks. -/
def plainPiece (flow : Bool) : Text → Text
  | [] => []
  | c :: t => if endsPlain flow c t then [] else c :: plainPiece flow t

/-- What stands between two pieces of plain text. -/
structure PlainGap where
  /-- The text that it stands for; there is none before a document mark. -/
  shown : Text
  /-- The column after it, if it ends in another line. -/
  column : Option Nat
  rest : Text

/-- Goes over spaces and line ends up to a document mark: the line ends, the column, whether there
is a mark, and what follows. -/
def plainLines (column : Nat) : Text → Text × Nat × Bool × Text
  | [] => ([], column, false, [])
  | c :: t =>
    if c = ' ' then plainLines (column + 1) t
    else if isBreak c then
      if atMark t then ([c], 0, true, t)
      else
        let (breaks, column, marked, rest) := plainLines 0 t
        (c :: breaks, column, marked, rest)
    else ([], column, false, c :: t)

/-- The gap that begins here. -/
def plainGap (t : Text) : PlainGap :=
  let spaces := t.takeWhile (· = ' ')
  match plainLines 0 (t.drop spaces.length) with
  | ([], _, _, rest) => ⟨spaces, none, rest⟩
  | (first :: more, column, marked, rest) =>
    ⟨if marked then [] else fold first more, some column, rest⟩

/-- Pieces and gaps up to the end of a plain text: the text, whether the gap after it goes over line
ends, and what follows it. Outside of brackets lines begin at a column or to the right of it. Every
round takes a character at least. -/
def plainPieces (flow : Bool) (least : Nat) : Nat → Text → Text × Bool × Text
  | 0, t => ([], false, t)
  | limit + 1, t =>
    let piece := plainPiece flow t
    let gap := plainGap (t.drop piece.length)
    let ends := gap.shown = [] || gap.rest.head? = some '#' ||
      (!flow && gap.column.any (· < least)) || plainPiece flow gap.rest = []
    if ends then (piece, gap.column.isSome, gap.rest)
    else
      let (more, broken, rest) := plainPieces flow least limit gap.rest
      (piece ++ gap.shown ++ more, broken, rest)

/-- A plain text. -/
def plainText (flow : Bool) (least : Nat) (t : Text) : Text × Bool × Text :=
  plainPieces flow least t.length t

end AnnotatedRoutes.Yaml
