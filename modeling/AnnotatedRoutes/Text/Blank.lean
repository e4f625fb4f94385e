import AnnotatedRoutes.Text.Basic

namespace AnnotatedRoutes.Text

/-- White space: the Unicode separators and spaces, the line and page controls, and the four
information separators. Zero-width characters are no blanks. -/
def isBlank (c : Char) : Bool :=
  let n := c.toNat
  (9 ≤ n && n ≤ 13) || (28 ≤ n && n ≤ 32) || n == 0x85 || n == 0xA0 || n == 0x1680 ||
    (0x2000 ≤ n && n ≤ 0x200A) || n == 0x2028 || n == 0x2029 || n == 0x202F || n == 0x205F ||
    n == 0x3000

/-- The text without the characters of a class at its beginning. -/
def trimStartOf (p : Char → Bool) (t : Text) : Text := t.dropWhile p

/-- The text without the characters of a class at its end. -/
def trimEndOf (p : Char → Bool) (t : Text) : Text := (t.reverse.dropWhile p).reverse

def trimStart (t : Text) : Text := trimStartOf isBlank t

def trimEnd (t : Text) : Text := trimEndOf isBlank t

/-- The text without the blanks around it. -/
def trim (t : Text) : Text := trimEnd (trimStart t)

/-- Whether the text holds blanks only. -/
def allBlank (t : Text) : Bool := t.all isBlank

/-- The maximal blank-free pieces of a text. -/
def words : Text → List Text
  | [] => []
  | c :: t =>
    if isBlank c then words t
    else match t with
      | [] => [[c]]
      | d :: _ =>
        if isBlank d then [c] :: words t
        else match words t with
          | [] => [[c]]
          | w :: ws => (c :: w) :: ws

theorem length_dropWhile_le (p : Char → Bool) (t : Text) : (t.dropWhile p).length ≤ t.length :=
  (List.dropWhile_suffix p).length_le

end AnnotatedRoutes.Text
