import AnnotatedRoutes.Text.Basic

namespace AnnotatedRoutes.Text

/-- Closed ranges of code points, in ascending order. -/
abbrev CodeRanges := List (Nat × Nat)

/-- Whether a character lies in one of the ranges. -/
def CodeRanges.has : CodeRanges → Char → Bool
  | [], _ => false
  | (first, last) :: rest, c =>
    if c.toNat < first then false
    else if c.toNat ≤ last then true
    else CodeRanges.has rest c

end AnnotatedRoutes.Text
