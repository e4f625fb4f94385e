import AnnotatedRoutes.Yaml.Place

namespace AnnotatedRoutes.Yaml

/-- What becomes of the line ends after a block of lines. -/
inductive Chomping where
  | clip
  | strip
  | keep
  deriving DecidableEq

/-- The opening of a block: what becomes of the line ends after it, and its indentation relative to
what it belongs to. -/
structure BlockHeader where
  chomping : Chomping := .clip
  indent : Option Nat := none
  deriving DecidableEq

def chompingOf? : Char → Option Chomping
  | '-' => some .strip
  | '+' => some .keep
  | _ => none

/-- An indentation is one digit, and no zero. -/
def indentOf? (c : Char) : Option Nat := if c.isDigit then some (c.toNat - '0'.toNat) else none

/-- The signs of an opening, in either order, and what follows them. -/
def blockSigns (t : Text) : BlockHeader × Text :=
  match t with
  | [] => ({}, [])
  | c :: rest =>
    match chompingOf? c, indentOf? c with
    | some chomping, _ =>
      match rest.head?.bind indentOf? with
      | some n => ({ chomping, indent := some n }, rest.tail)
      | none => ({ chomping }, rest)
    | none, some n =>
      match rest.head?.bind chompingOf? with
      | some chomping => ({ chomping, indent := some n }, rest.tail)
      | none => ({ indent := some n }, rest)
    | none, none => ({}, t)

/-- The opening of a block, and the lines after it. -/
def blockHeader (t : Text) : Except Fault (BlockHeader × Text) :=
  let (header, rest) := blockSigns t
  if header.indent = some 0 || !atSpace rest then .error .headerUnreadable
  else
    let rest := rest.dropWhile (· = ' ')
    let rest := if rest.head? = some '#' then rest.dropWhile (!isBreak ·) else rest
    match rest with
    | [] => .ok (header, [])
    | c :: rest => if isBreak c then .ok (header, rest) else .error .headerUnreadable

/-- Goes over the lines before the first one with content: the line ends, the greatest column that
spaces reach, the last column, and what follows. -/
def blockStart (widest column : Nat) : Text → Text × Nat × Nat × Text
  | [] => ([], widest, column, [])
  | c :: t =>
    if c = ' ' then blockStart (max widest (column + 1)) (column + 1) t
    else if isBreak c then
      let (breaks, rest) := blockStart widest 0 t
      (c :: breaks, rest)
    else ([], widest, column, c :: t)

/-- Goes over empty lines and the indentation of the next line: the line ends, the column, and what
follows. -/
def blockGap (indent column : Nat) : Text → Text × Nat × Text
  | [] => ([], column, [])
  | c :: t =>
    if c = ' ' && column < indent then blockGap indent (column + 1) t
    else if isBreak c then
      let (breaks, rest) := blockGap indent 0 t
      (c :: breaks, rest)
    else ([], column, c :: t)

/-- The lines of a block from the content of one on. -/
structure BlockLines where
  text : Text
  /-- The end of the last line, and the further line ends. -/
  lastBreak : Text
  breaks : Text
  rest : Text

/-- What stands between two lines of a block. Where lines are folded, a single line feed between
lines that do not begin with blanks is a space. -/
def blockJoint (folded : Bool) (lastBreak breaks line next : Text) : Text :=
  let isProse := fun (t : Text) => !t.head?.any isSpace
  if folded && lastBreak = ['\n'] && isProse line && isProse next then
    if breaks = [] then [' '] else breaks
  else lastBreak ++ breaks

/-- Reads lines from the content of one on. Every round takes a line. -/
def blockLines (folded : Bool) (indent : Nat) : Nat → Text → BlockLines
  | 0, t => ⟨[], [], [], t⟩
  | limit + 1, t =>
    let line := t.takeWhile (!isBreak ·)
    let rest := t.drop line.length
    let lastBreak := rest.take 1
    let (breaks, column, next) := blockGap indent 0 (rest.drop 1)
    if column = indent && next ≠ [] then
      let more := blockLines folded indent limit next
      { more with text := line ++ blockJoint folded lastBreak breaks line next ++ more.text }
    else ⟨line, lastBreak, breaks, next⟩

/-- The line ends that stay at the end of a block. -/
def Chomping.apply (chomping : Chomping) (lastBreak breaks : Text) : Text :=
  match chomping with
  | .strip => []
  | .clip => lastBreak
  | .keep => lastBreak ++ breaks

/-- A block of lines after the sign that opens it, and what follows it; `least` is the least
indentation it may have. -/
def blockText (folded : Bool) (least : Nat) (t : Text) : Except Fault (Text × Text) := do
  let (header, t) ← blockHeader t
  let least := max least 1
  let (breaks, indent, column, rest) := match header.indent with
    | some n =>
      let indent := least + n - 1
      let (breaks, column, rest) := blockGap indent 0 t
      (breaks, indent, column, rest)
    | none =>
      let (breaks, widest, column, rest) := blockStart 0 0 t
      (breaks, max least widest, column, rest)
  if column = indent && rest ≠ [] then
    let lines := blockLines folded indent rest.length rest
    return (breaks ++ lines.text ++ header.chomping.apply lines.lastBreak lines.breaks, lines.rest)
  else return (header.chomping.apply [] breaks, rest)

end AnnotatedRoutes.Yaml
