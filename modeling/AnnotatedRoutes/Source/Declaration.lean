import AnnotatedRoutes.Source.Token

namespace AnnotatedRoutes.Source

/-- The first line start at which a reader finds something. -/
def atLineStart? {α : Type} (read : Nat → Text → Option α) (offset : Nat) (lineStart : Bool) :
    Text → Option α
  | [] => none
  | c :: t =>
    match if lineStart then read offset (c :: t) else none with
    | some a => some a
    | none => atLineStart? read (offset + 1) (c = '\n') t

def isNamespaceStart (c : Char) : Bool := isIdentifierStart c || c = '\\'

def isNamespaceChar (c : Char) : Bool := isIdentifierChar c || c = '\\'

/-- The name in a namespace declaration, which a semicolon or a brace follows. -/
def namespaceAt? (t : Text) : Option Text :=
  match afterKeyword? "namespace".toList (Text.trimStart t) with
  | none => none
  | some [] => none
  | some (c :: t) =>
    if isNamespaceStart c then
      match Text.trimStart (t.dropWhile isNamespaceChar) with
      | [] => none
      | d :: _ => if d = ';' || d = '{' then some (c :: t.takeWhile isNamespaceChar) else none
    else none

/-- The name in the first namespace declaration, without the separator's characters around it;
empty if there is none. -/
def namespaceName (separator source : Text) : Text :=
  let name := (atLineStart? (fun _ => namespaceAt?) 0 true source).getD []
  Text.trimEndOf (· ∈ separator) (Text.trimStartOf (· ∈ separator) name)

def classModifiers : List Text := ["abstract".toList, "final".toList, "readonly".toList]

/-- A class declaration from its first keyword through its name. -/
structure ClassDeclaration where
  name : Text
  start : Nat
  stop : Nat
  deriving DecidableEq

/-- The class declaration on a line that begins at `offset`. The name is an identifier that no
word character continues. -/
def classAt? (offset : Nat) (line : Text) : Option ClassDeclaration := do
  let declaration := Text.trimStart line
  let (_, t) := keywordRun classModifiers declaration
  let t ← afterKeyword? "class".toList t
  let (name, rest) ← identifier? t
  if Text.atWordEnd rest then
    some ⟨name, offset + (line.length - declaration.length), offset + (line.length - rest.length)⟩
  else none

/-- The first class declaration. -/
def firstClass? (source : Text) : Option ClassDeclaration := atLineStart? classAt? 0 true source

/-- The name of the first class; empty if there is none. -/
def className (source : Text) : Text := ((firstClass? source).map (·.name)).getD []

/-- The class name after its namespace and a separator. `namespaceSeparator` is what names are
written with in sources. -/
def qualifiedNameWith (separator namespaceSeparator source : Text) : Option Text :=
  (firstClass? source).map fun c =>
    match namespaceName namespaceSeparator source with
    | [] => c.name
    | name => name ++ separator ++ c.name

/-- The name of the class that a source declares; `none` if it declares no class. -/
def qualifiedName (separator source : Text) : Option Text :=
  qualifiedNameWith separator separator source

end AnnotatedRoutes.Source
