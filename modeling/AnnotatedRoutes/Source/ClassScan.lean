import AnnotatedRoutes.Source.Declaration
import AnnotatedRoutes.Source.Method

namespace AnnotatedRoutes.Source

/-- The number of characters before the brace that closes the outermost of `depth` open ones. -/
def bodyLength (depth : Nat) : Text → Nat
  | [] => 0
  | c :: t =>
    if c = '{' then bodyLength (depth + 1) t + 1
    else if c = '}' then
      match depth with
      | depth + 2 => bodyLength (depth + 1) t + 1
      | _ => 0
    else bodyLength depth t + 1

/-- The offsets between the braces that follow `offset` in a masked source. A body that is not
closed reaches to the end; without an opening brace the body is empty. -/
def classBody (code : Text) (offset : Nat) : Nat × Nat :=
  match Text.indexOf? ['{'] (code.drop offset) with
  | none => (offset, offset)
  | some n =>
    let start := offset + n + 1
    (start, start + bodyLength 1 (code.drop start))

/-- The characters from `start` up to but not including `stop`. -/
def slice (text : Text) (start stop : Nat) : Text := (text.take stop).drop start

/-- The first class that a source declares outside comments and strings. -/
def scanClass (constructorName qualifiedName source : Text) : Option HandlerClass :=
  let spans := Span.scan source
  let code := mask source spans
  (firstClass? code).map fun declaration =>
    let body := classBody code declaration.stop
    { qualifiedName
      comment := precedingDocblock source declaration.start spans
      methods := publicMethods constructorName (slice source body.1 body.2) }

end AnnotatedRoutes.Source
