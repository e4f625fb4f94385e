import AnnotatedRoutes.Yaml.Property

namespace AnnotatedRoutes.Yaml

inductive Token where
  | directive (d : Directive)
  | documentStart
  | documentEnd
  /-- A list or a mapping by indentation begins here, and ends at `blockEnd`. -/
  | blockSequence
  | blockMapping
  | blockEnd
  | openBracket
  | closeBracket
  | openBrace
  | closeBrace
  | comma
  /-- The dash before a list item. -/
  | item
  /-- A key begins here. -/
  | key
  /-- The colon after a key. -/
  | value
  | anchor (name : Text)
  | alias (name : Text)
  | tag (t : WrittenTag)
  | scalar (plain : Bool) (text : Text)
  deriving DecidableEq

end AnnotatedRoutes.Yaml
