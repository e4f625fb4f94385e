import AnnotatedRoutes.Source.PrecedingDocblock
import AnnotatedRoutes.Text.Lowercase

namespace AnnotatedRoutes

/-- A method and the docblock before it. -/
structure HandlerMethod where
  name : Text
  comment : Text
  deriving DecidableEq

/-- A class with its docblock and its methods, in order of declaration. -/
structure HandlerClass where
  qualifiedName : Text
  comment : Text := []
  methods : List HandlerMethod := []
  deriving DecidableEq

namespace Source

def methodModifiers : List Text :=
  ["public".toList, "protected".toList, "private".toList, "static".toList, "abstract".toList,
    "final".toList]

/-- Methods with one of these are not called by the dispatcher. -/
def hiddenModifiers : List Text := ["private".toList, "protected".toList, "static".toList]

/-- A method declaration from the beginning of its line through its opening parenthesis. -/
structure MethodDeclaration where
  modifiers : List Text
  name : Text
  start : Nat
  length : Nat
  deriving DecidableEq

/-- What follows an optional sign and the blanks after it. -/
def afterSign (sign : Char) : Text → Text
  | [] => []
  | c :: t => if c = sign then Text.trimStart t else c :: t

/-- The method declaration on a line that begins at `offset`. -/
def methodAt? (offset : Nat) (line : Text) : Option MethodDeclaration := do
  let (modifiers, t) := keywordRun methodModifiers (Text.trimStartOf isIndent line)
  let t ← afterKeyword? "function".toList t
  let (name, t) ← identifier? (afterSign '&' t)
  let rest ← Text.after? ['('] (Text.trimStart t)
  some ⟨modifiers, name, offset, line.length - rest.length⟩

/-- The method declarations of a text that stands at `offset`, the first `skip` characters of
which belong to a declaration found before. -/
def methodsFrom (offset skip : Nat) (lineStart : Bool) : Text → List MethodDeclaration
  | [] => []
  | c :: t =>
    match skip with
    | skip + 1 => methodsFrom (offset + 1) skip (c = '\n') t
    | 0 =>
      match if lineStart then methodAt? offset (c :: t) else none with
      | none => methodsFrom (offset + 1) 0 (c = '\n') t
      | some m => m :: methodsFrom (offset + 1) (m.length - 1) (c = '\n') t

/-- Whether as many braces close as open before an offset. -/
def bracesBalanced (text : Text) (offset : Nat) : Bool :=
  (text.take offset).count '{' == (text.take offset).count '}'

/-- Whether the dispatcher can call a method that a masked class body declares: a member of the
class itself, not hidden, and not its constructor. -/
def isHandler (constructorName maskedBody : Text) (m : MethodDeclaration) : Bool :=
  bracesBalanced maskedBody m.start &&
    m.modifiers.all (fun modifier => !hiddenModifiers.contains modifier) &&
    Text.lower m.name != Text.lower constructorName

/-- The public instance methods declared in a class body, in order. -/
def publicMethods (constructorName body : Text) : List HandlerMethod :=
  let spans := Span.scan body
  let code := mask body spans
  ((methodsFrom 0 0 true code).filter (isHandler constructorName code)).map fun m =>
    ⟨m.name, precedingDocblock body m.start spans⟩

end Source

end AnnotatedRoutes
