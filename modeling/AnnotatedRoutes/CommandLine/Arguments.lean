import AnnotatedRoutes.Text.Digit
import AnnotatedRoutes.Text.Quoted

namespace AnnotatedRoutes.CommandLine

/-- The options of the command line, in the order in which help lists them. -/
inductive Flag where
  | help | controllers | catalog | out | modelOut | stdout | verbose | logFile
  deriving DecidableEq

/-- How many values an option takes. -/
inductive Arity where
  | none | one | some
  deriving DecidableEq

namespace Flag

def all : List Flag := [help, controllers, catalog, out, modelOut, stdout, verbose, logFile]

def name : Flag → Text
  | help => "--help".toList
  | controllers => "--controllers".toList
  | catalog => "--catalog".toList
  | out => "--out".toList
  | modelOut => "--model-out".toList
  | stdout => "--stdout".toList
  | verbose => "--verbose".toList
  | logFile => "--log-file".toList

/-- The name in messages. Help has a short form. -/
def label (f : Flag) : Text := if f = help then "-h/--help".toList else f.name

def arity : Flag → Arity
  | help | stdout | verbose => .none
  | controllers => .some
  | catalog | out | modelOut | logFile => .one

/-- The short form of help. -/
def shortHelp : Text := ['-', 'h']

/-- The option of exactly this name. -/
def ofName? (t : Text) : Option Flag :=
  if t = shortHelp then some help else all.find? (·.name = t)

/-- The options whose names begin so. -/
def startingWith (t : Text) : List Flag := all.filter fun f => Text.startsWith f.name t

end Flag

/-- Why arguments are refused. -/
inductive Misuse where
  | ambiguous (argument : Text) (flags : List Flag)
  | valueMissing (f : Flag)
  | valueIgnored (f : Flag) (value : Text)
  | conflict (f earlier : Flag)
  | sourceMissing
  | unrecognized (arguments : List Text)
  deriving DecidableEq

def Misuse.about (f : Flag) (complaint : Text) : Text :=
  "argument ".toList ++ f.label ++ ": ".toList ++ complaint

def Misuse.message : Misuse → Text
  | .ambiguous argument flags =>
    "ambiguous option: ".toList ++ argument ++ " could match ".toList ++
      Text.join ", ".toList (flags.map Flag.name)
  | .valueMissing f =>
    about f (if f.arity = .some then "expected at least one argument".toList
      else "expected one argument".toList)
  | .valueIgnored f value => about f ("ignored explicit argument ".toList ++ Text.quoted value)
  | .conflict f earlier => about f ("not allowed with argument ".toList ++ earlier.label)
  | .sourceMissing =>
    "one of the arguments ".toList ++
      Text.join [' '] ([Flag.controllers, Flag.catalog].map Flag.label) ++ " is required".toList
  | .unrecognized arguments => "unrecognized arguments: ".toList ++ Text.join [' '] arguments

/-- What an argument is by itself. -/
inductive Piece where
  | operand (t : Text)
  /-- Two dashes: there are no options after it. -/
  | separator
  /-- An option, with the value that is written into the same argument. -/
  | option (f : Flag) (value : Option Text)
  | unknown (t : Text)
  deriving DecidableEq

namespace Piece

def separatorText : Text := ['-', '-']

/-- An argument at an equals sign: what stands before it and, if there is one, what follows. -/
def atEquals : Text → Text × Option Text
  | [] => ([], none)
  | c :: t =>
    if c = '=' then ([], some t)
    else
      let (before, after) := atEquals t
      (c :: before, after)

/-- What follows the short form of help in one argument and is no further short option: a value,
which help does not take. -/
def shortValue? : Text → Option Text
  | [] => none
  | 'h' :: t => shortValue? t
  | t => some t

/-- Negative numbers are values. -/
def isNegativeNumber (t : Text) : Bool :=
  let digits := fun (t : Text) => t.all fun c => (Text.digitValue? c).isSome
  match (if t.getLast? = some '\n' then t.dropLast else t) with
  | '-' :: t =>
    match Text.splitAt '.' t with
    | [whole] => whole ≠ [] && digits whole
    | [whole, part] => digits whole && part ≠ [] && digits part
    | _ => false
  | _ => false

/-- An argument that is no option by name and no shortened option. -/
def ofOther (t : Text) : Piece :=
  if isNegativeNumber t || t.contains ' ' then .operand t else .unknown t

/-- Reads an argument that begins with a dash. -/
def ofDashed (t : Text) : Except Misuse Piece :=
  match Flag.ofName? t, atEquals t with
  | some f, _ => .ok (.option f none)
  | none, (before, after) =>
    match after, Flag.ofName? before with
    | some [], some f => .ok (.option f (some []))
    | some value, some f =>
      .ok (.option f (if before = Flag.shortHelp then shortValue? value else some value))
    | _, _ =>
      match t with
      | '-' :: '-' :: _ =>
        match Flag.startingWith before with
        | [] => .ok (ofOther t)
        | [f] => .ok (.option f after)
        | flags => .error (.ambiguous t flags)
      | '-' :: 'h' :: tail => .ok (.option .help (shortValue? tail))
      | _ => .ok (ofOther t)

/-- Reads an argument before the separator. -/
def ofArgument : Text → Except Misuse Piece
  | '-' :: c :: t => ofDashed ('-' :: c :: t)
  | t => .ok (.operand t)

/-- Reads all arguments. -/
def ofArguments : List Text → Except Misuse (List Piece)
  | [] => .ok []
  | t :: ts =>
    if t = separatorText then .ok (.separator :: ts.map .operand)
    else do
      let piece ← ofArgument t
      return piece :: (← ofArguments ts)

/-- The operands at the beginning, and what follows them. -/
def leadingOperands : List Piece → List Text × List Piece
  | .operand t :: pieces =>
    let (operands, rest) := leadingOperands pieces
    (t :: operands, rest)
  | pieces => ([], pieces)

theorem length_leadingOperands (pieces : List Piece) :
    (leadingOperands pieces).2.length ≤ pieces.length := by
  induction pieces with
  | nil => simp [leadingOperands]
  | cons piece pieces ih =>
    cases piece with
    | operand t => simp only [leadingOperands, List.length_cons]; omega
    | _ => simp [leadingOperands]

end Piece

/-- Where the controllers come from. Either option may be there without a value. -/
inductive Origin where
  | controllers (inputs : List Text)
  | catalog (path : Option Text)
  deriving DecidableEq

def Origin.flag : Origin → Flag
  | .controllers _ => .controllers
  | .catalog _ => .catalog

/-- The options as they are given; an empty text gives no path. -/
structure Options where
  out : Option Text := none
  modelOut : Option Text := none
  logFile : Option Text := none
  toStdout : Bool := false
  verbose : Bool := false
  deriving DecidableEq

/-- Accepted arguments. -/
structure Arguments extends Options where
  origin : Origin
  deriving DecidableEq

/-- Why no arguments are accepted. -/
inductive Interruption where
  | helpWanted
  | misuse (fault : Misuse)
  deriving DecidableEq

namespace Arguments

/-- The arguments read so far. -/
structure Draft where
  origin : Option Origin := none
  options : Options := {}
  unrecognized : List Text := []
  deriving DecidableEq

/-- A text with content. -/
def filled? (t : Text) : Option Text := if t = [] then none else some t

namespace Draft

def leave (d : Draft) (t : Text) : Draft := { d with unrecognized := d.unrecognized ++ [t] }

/-- Names an origin; there is only one kind of it in a command line. -/
def setOrigin (d : Draft) (o : Origin) : Except Interruption Draft :=
  match d.origin with
  | some earlier =>
    if earlier.flag = o.flag then .ok { d with origin := some o }
    else .error (.misuse (.conflict o.flag earlier.flag))
  | none => .ok { d with origin := some o }

/-- Takes in an option without values. -/
def setSwitch (d : Draft) : Flag → Except Interruption Draft
  | .help => .error .helpWanted
  | .stdout => .ok { d with options := { d.options with toStdout := true } }
  | .verbose => .ok { d with options := { d.options with verbose := true } }
  | _ => .ok d

/-- Takes in an option with its values. -/
def setValues (d : Draft) (f : Flag) (values : List Text) : Except Interruption Draft :=
  let path := values.head?.bind filled?
  match f with
  | .controllers => d.setOrigin (.controllers values)
  | .catalog => d.setOrigin (.catalog values.head?)
  | .out => .ok { d with options := { d.options with out := path } }
  | .modelOut => .ok { d with options := { d.options with modelOut := path } }
  | .logFile => .ok { d with options := { d.options with logFile := path } }
  | _ => .ok d

/-- The value after an equals sign. Two dashes mark the end of the options even there, and are no
value. -/
def writtenIn (value : Text) : List Text := if value = Piece.separatorText then [] else [value]

/-- Takes in pieces one after another. -/
def take (d : Draft) : List Piece → Except Interruption Draft
  | [] => .ok d
  | .operand t :: pieces => (d.leave t).take pieces
  | .separator :: pieces => (d.leave Piece.separatorText).take pieces
  | .unknown t :: pieces => (d.leave t).take pieces
  | .option f (some value) :: pieces =>
    if f.arity = .none then .error (.misuse (.valueIgnored f value))
    else (d.setValues f (writtenIn value)).bind fun d => d.take pieces
  | .option f none :: pieces =>
    match f.arity with
    | .none => (d.setSwitch f).bind fun d => d.take pieces
    | .one =>
      match pieces with
      | .operand value :: pieces => (d.setValues f [value]).bind fun d => d.take pieces
      | _ => .error (.misuse (.valueMissing f))
    | .some =>
      match h : Piece.leadingOperands pieces with
      | (value :: more, rest) =>
        have : rest.length ≤ pieces.length := by
          have hl := Piece.length_leadingOperands pieces
          rwa [h] at hl
        (d.setValues f (value :: more)).bind fun d => d.take rest
      | ([], _) => .error (.misuse (.valueMissing f))
termination_by pieces => pieces.length

end Draft

/-- Reads the arguments of a command line. -/
def read (arguments : List Text) : Except Interruption Arguments := do
  let pieces ← (Piece.ofArguments arguments).mapError .misuse
  let d ← Draft.take {} pieces
  match d.origin with
  | none => .error (.misuse .sourceMissing)
  | some origin =>
    if d.unrecognized = [] then return { d.options with origin }
    else .error (.misuse (.unrecognized d.unrecognized))

end Arguments

end AnnotatedRoutes.CommandLine
