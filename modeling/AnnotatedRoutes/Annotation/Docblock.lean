import AnnotatedRoutes.Text.Blank
import AnnotatedRoutes.Text.Line

namespace AnnotatedRoutes.Docblock

def opening : Text := "/**".toList

def closing : Text := "*/".toList

/-- The text without a given beginning, or all of it. -/
def withoutOpening (line : Text) : Text := (Text.after? opening line).getD line

def withoutClosing (line : Text) : Text := (Text.before? closing line).getD line

/-- At most one star is taken for the gutter. -/
def withoutGutter : Text → Text
  | '*' :: line => line
  | line => line

/-- The content of one line. -/
def content (line : Text) : Text :=
  Text.trim (withoutGutter (Text.trim (withoutClosing (withoutOpening (Text.trim line)))))

/-- The contents of the lines that have one, in order. -/
def lines (comment : Text) : List Text :=
  ((Text.lines comment).map content).filter (· ≠ [])

end AnnotatedRoutes.Docblock
