import AnnotatedRoutes.Source.Span

namespace AnnotatedRoutes.Source

/-- What precedes the last opening of an attribute; texts are reversed. -/
def beforeAttribute? : Text → Option Text
  | [] => none
  | [_] => none
  | c :: d :: t => if c = '[' ∧ d = '#' then some t else beforeAttribute? (d :: t)

theorem beforeAttribute?_length {t r : Text} (h : beforeAttribute? t = some r) :
    r.length < t.length := by
  fun_induction beforeAttribute? t with
  | case1 => simp at h
  | case2 => simp at h
  | case3 c d t hc => cases Option.some.inj h; simp only [List.length_cons]; omega
  | case4 c d t hc ih => have := ih h; simp only [List.length_cons] at this ⊢; omega

/-- Drops blanks and attributes from the end of a text; texts are reversed. -/
def dropGap (reversed : Text) : Text :=
  match _h : reversed.dropWhile Text.isBlank with
  | [] => []
  | c :: t =>
    if c = ']' then
      match _ha : beforeAttribute? (c :: t) with
      | some before => dropGap before
      | none => c :: t
    else c :: t
termination_by reversed.length
decreasing_by
  have := beforeAttribute?_length _ha
  have := Text.length_dropWhile_le Text.isBlank reversed
  rw [_h] at this
  omega

/-- The shortest docblock: both delimiters written out. -/
def shortestDocblock : Nat := Docblock.opening.length + Docblock.closing.length

/-- Whether a span that ends a text of the given length is a docblock. -/
def isDocblockEnding (head : Text) (length : Nat) (s : Span) : Bool :=
  s.kind = .block && s.stop = length && s.start + shortestDocblock ≤ s.stop &&
    Text.startsWith (head.drop s.start) Docblock.opening

/-- The docblock directly before `limit`, or nothing. The last span that does not reach beyond the
text before `limit` decides; a comment of another kind in that place means that there is none. -/
def precedingDocblock (source : Text) (limit : Nat) (spans : List Span) : Text :=
  let head := (dropGap (source.take limit).reverse).reverse
  if Text.endsWith head Docblock.closing then
    let length := head.length
    match spans.reverse.find? (·.stop ≤ length) with
    | some s => if isDocblockEnding head length s then head.drop s.start else []
    | none => []
  else []

/-- The docblock directly before `limit`; the spans are read off the source if none are given. -/
def docblockBefore (source : Text) (limit : Nat) (spans : Option (List Span)) : Text :=
  precedingDocblock source limit (spans.getD (Span.scan source))

end AnnotatedRoutes.Source
