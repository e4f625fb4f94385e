import AnnotatedRoutes.Proofs.Occurrence
import AnnotatedRoutes.Proofs.TokenReading

namespace AnnotatedRoutes.Source.Span

def OpensLine (t : Text) : Prop :=
  (∃ u, t = '/' :: '/' :: u) ∨ ∃ u, t = '#' :: u ∧ u.head? ≠ some '['

def IsQuote (c : Char) : Prop := c = '\'' ∨ c = '"'

/-- The span that opens at the beginning of a text, by its kind and length. -/
inductive Opens : Text → SpanKind → Nat → Prop
  | block (u : Text) : Opens ('/' :: '*' :: u) .block (blockLength u + 2)
  | line {t : Text} (h : OpensLine t) : Opens t .line (lineLength t)
  | quoted {quote : Char} (h : IsQuote quote) (u : Text) :
    Opens (quote :: u) .string (quotedLength quote u + 1)
  | heredoc {label opening : Text} (h : HeredocOpening label opening) (body : Text) :
    Opens (opening ++ body) .string (opening.length + heredocLength label true body)

theorem heredocOpening_cons {label opening : Text} (h : HeredocOpening label opening) :
    ∃ u, opening = '<' :: '<' :: '<' :: u := by
  obtain ⟨indent, quote, lineEnd, rfl, _⟩ := h
  exact ⟨_, rfl⟩

theorem first?_of_block (u : Text) :
    first? ('/' :: '*' :: u) = some (.block, blockLength u + 2) := by rfl

theorem startsWith_attributeOpening_iff {u : Text} :
    Text.startsWith ('#' :: u) attributeOpening = true ↔ u.head? = some '[' := by
  constructor
  · intro h
    obtain ⟨v, hv⟩ := List.isPrefixOf_iff_prefix.mp h
    rw [← (List.cons.inj hv).2]
    rfl
  · intro h
    obtain ⟨v, rfl⟩ := List.head?_eq_some_iff.mp h
    rfl

theorem opensLine_iff {c : Char} {t : Text} : OpensLine (c :: t) ↔
    (Text.startsWith (c :: t) lineOpening ||
      (c = '#' && !Text.startsWith (c :: t) attributeOpening)) = true := by
  rw [Bool.or_eq_true, Bool.and_eq_true, decide_eq_true_eq, Bool.not_eq_true', OpensLine]
  refine or_congr ⟨?_, ?_⟩ ⟨?_, ?_⟩
  · rintro ⟨u, hu⟩
    exact List.isPrefixOf_iff_prefix.mpr ⟨u, hu.symm⟩
  · intro h
    obtain ⟨u, hu⟩ := List.isPrefixOf_iff_prefix.mp h
    exact ⟨u, hu.symm⟩
  · rintro ⟨u, hu, ha⟩
    obtain ⟨rfl, rfl⟩ := List.cons.inj hu
    exact ⟨rfl, Bool.eq_false_iff.mpr (mt startsWith_attributeOpening_iff.mp ha)⟩
  · rintro ⟨rfl, ha⟩
    exact ⟨t, rfl, mt startsWith_attributeOpening_iff.mpr (Bool.eq_false_iff.mp ha)⟩

theorem OpensLine.not_block {t : Text} (h : OpensLine t) :
    Text.startsWith t blockOpening = false := by
  rcases h with ⟨u, rfl⟩ | ⟨u, rfl, -⟩
  · rfl
  · rfl

theorem first?_of_line {t : Text} (h : OpensLine t) : first? t = some (.line, lineLength t) := by
  cases t with
  | nil => obtain ⟨u, hu⟩ | ⟨u, hu, -⟩ := h <;> cases hu
  | cons c t => simp [first?, h.not_block, opensLine_iff.mp h]

theorem first?_of_quote {quote : Char} (h : IsQuote quote) (u : Text) :
    first? (quote :: u) = some (.string, quotedLength quote u + 1) := by
  rcases h with rfl | rfl <;> rfl

theorem first?_of_heredoc {label opening : Text} (h : HeredocOpening label opening) (body : Text) :
    first? (opening ++ body) = some (.string, opening.length + heredocLength label true body) := by
  have hr : heredoc? (opening ++ body) = some (label, body) :=
    heredoc?_eq_some_iff.mpr ⟨opening, h, rfl⟩
  have hf : first? (opening ++ body) = (heredoc? (opening ++ body)).map fun found =>
      (.string,
        (opening ++ body).length - found.2.length + heredocLength found.1 true found.2) := by
    obtain ⟨u, rfl⟩ := heredocOpening_cons h
    rfl
  simp [hf, hr]

theorem first?_eq_some_iff {t : Text} {kind : SpanKind} {n : Nat} :
    first? t = some (kind, n) ↔ Opens t kind n := by
  constructor
  · intro h
    cases t with
    | nil => simp [first?] at h
    | cons c t =>
      simp only [first?] at h
      split at h
      next hb =>
        obtain ⟨rfl, rfl⟩ := Prod.mk.inj (Option.some.inj h)
        obtain ⟨u, hu⟩ := List.isPrefixOf_iff_prefix.mp hb
        rw [← hu]
        exact .block u
      next =>
        split at h
        next hl =>
          obtain ⟨rfl, rfl⟩ := Prod.mk.inj (Option.some.inj h)
          exact .line (opensLine_iff.mpr hl)
        next =>
          split at h
          next hq =>
            obtain ⟨rfl, rfl⟩ := Prod.mk.inj (Option.some.inj h)
            exact .quoted (by simpa [IsQuote] using hq) t
          next =>
            obtain ⟨⟨label, body⟩, hr, he⟩ := Option.map_eq_some_iff.mp h
            obtain ⟨rfl, rfl⟩ := Prod.mk.inj he
            obtain ⟨opening, ho, ht⟩ := heredoc?_eq_some_iff.mp hr
            rw [ht, List.length_append, Nat.add_sub_cancel]
            exact .heredoc ho body
  · rintro (u | hl | ⟨hq, u⟩ | ⟨ho, body⟩)
    · exact first?_of_block u
    · exact first?_of_line hl
    · exact first?_of_quote hq u
    · exact first?_of_heredoc ho body

theorem stops_isWordChar_iff {t : Text} : Stops Text.isWordChar t ↔ Text.atWordEnd t = true := by
  cases t with
  | nil => simp [stops_nil, Text.atWordEnd]
  | cons c t => simp [stops_cons, Text.atWordEnd]

theorem closingLabel?_eq_some_iff {label t : Text} (hl : Identifier label) {n : Nat} :
    closingLabel? label t = some n ↔ ∃ indent rest, t = indent ++ (label ++ rest) ∧
      (∀ c ∈ indent, isIndent c = true) ∧ Stops Text.isWordChar rest ∧
      n = indent.length + label.length := by
  constructor
  · intro h
    simp only [closingLabel?, Option.bind_eq_bind, Option.bind_eq_some_iff] at h
    obtain ⟨rest, hr, h⟩ := h
    split at h
    next hw =>
      have ht : t = t.takeWhile isIndent ++ (label ++ rest) := by
        rw [← Text.after?_eq_some_iff.mp hr, Text.trimStartOf, List.takeWhile_append_dropWhile]
      refine ⟨_, rest, ht, fun c hc => List.mem_takeWhile_imp hc, stops_isWordChar_iff.mpr hw, ?_⟩
      have := congrArg List.length ht
      simp only [List.length_append] at this
      have := Option.some.inj h
      omega
    next => simp at h
  · rintro ⟨indent, rest, rfl, hi, hr, rfl⟩
    have ht : (indent ++ (label ++ rest)).dropWhile isIndent = label ++ rest :=
      dropWhile_run hi (hl.stops (fun c hc => isIndent_of_identifierStart hc) rest)
    have hlen : indent.length + (label.length + rest.length) - rest.length =
        indent.length + label.length := by omega
    simp only [closingLabel?, Text.trimStartOf, ht, Text.after?_eq_some_iff.mpr rfl,
      Option.bind_eq_bind, Option.bind_some, stops_isWordChar_iff.mp hr, if_true,
      List.length_append, hlen]

theorem length_closing : Docblock.closing.length = 2 := by rfl

theorem closing_ne_nil : Docblock.closing ≠ [] := by decide

theorem blockLength_le (t : Text) : blockLength t ≤ t.length := by
  unfold blockLength
  split
  next n h =>
    obtain ⟨u, v, rfl, rfl⟩ := Text.exists_append_of_indexOf? h
    simp only [List.length_append]
    omega
  next => exact Nat.le_refl _

theorem lineLength_le (t : Text) : lineLength t ≤ t.length :=
  (List.takeWhile_prefix _).length_le

theorem quotedLength_le (quote : Char) (t : Text) : quotedLength quote t ≤ t.length := by
  fun_induction quotedLength quote t with
  | case1 => simp
  | case2 c => simp
  | case3 d t ih => simp only [List.length_cons]; omega
  | case4 d t hq => simp
  | case5 c d t hc hq ih => simp only [List.length_cons] at ih ⊢; omega

theorem closingLabel?_le {label t : Text} (hl : Identifier label) {n : Nat}
    (h : closingLabel? label t = some n) : n ≤ t.length := by
  obtain ⟨indent, rest, rfl, _, _, rfl⟩ := (closingLabel?_eq_some_iff hl).mp h
  simp only [List.length_append]
  omega

theorem heredocLength_le {label : Text} (hl : Identifier label) (lineStart : Bool) (t : Text) :
    heredocLength label lineStart t ≤ t.length := by
  induction t generalizing lineStart with
  | nil => simp [heredocLength]
  | cons c t ih =>
    simp only [heredocLength]
    split
    next n h =>
      split at h
      next => exact closingLabel?_le hl h
      next => simp at h
    next =>
      have := ih (c = '\n')
      simp only [List.length_cons]
      omega

theorem Opens.length_le {t : Text} {kind : SpanKind} {n : Nat} (h : Opens t kind n) :
    0 < n ∧ n ≤ t.length := by
  cases h with
  | block u =>
    have := blockLength_le u
    simp only [List.length_cons]
    omega
  | line h =>
    refine ⟨?_, lineLength_le t⟩
    rcases h with ⟨u, rfl⟩ | ⟨u, rfl, _⟩
    · simp [lineLength]
    · simp [lineLength]
  | @quoted quote h u =>
    have := quotedLength_le quote u
    simp only [List.length_cons]
    omega
  | @heredoc label opening h body =>
    obtain ⟨u, rfl⟩ := heredocOpening_cons h
    obtain ⟨_, _, _, _, hl, _⟩ := h
    have := heredocLength_le hl true body
    simp only [List.length_cons, List.length_append]
    omega

/-- A label that closes a heredoc inside the beginning of a text does not depend on what follows,
if no word goes on there. -/
theorem closingLabel?_append_iff {label u v : Text} (hl : Identifier label)
    (hv : Stops Text.isWordChar v) {n : Nat} (hn : n ≤ u.length) :
    closingLabel? label (u ++ v) = some n ↔ closingLabel? label u = some n := by
  rw [closingLabel?_eq_some_iff hl, closingLabel?_eq_some_iff hl]
  constructor
  · rintro ⟨indent, rest, ht, hi, hr, rfl⟩
    rw [← List.append_assoc] at ht
    have hlen : (indent ++ label).length ≤ u.length := by simpa using hn
    obtain ⟨rest', rfl, rfl⟩ := Text.exists_append_of_append_eq ht hlen
    exact ⟨indent, rest', List.append_assoc _ _ _, hi, Stops.of_append hr, rfl⟩
  · rintro ⟨indent, rest, rfl, hi, hr, rfl⟩
    exact ⟨indent, rest ++ v, by simp only [List.append_assoc], hi, Stops.append_stops hr hv, rfl⟩

theorem heredocLength_of_closing {label t : Text} {c : Char} {n : Nat}
    (h : closingLabel? label (c :: t) = some n) : heredocLength label true (c :: t) = n := by
  rw [heredocLength, if_pos rfl, h]

theorem heredocLength_of_not_closing {label t : Text} {c : Char} {lineStart : Bool}
    (h : lineStart = true → closingLabel? label (c :: t) = none) :
    heredocLength label lineStart (c :: t) = heredocLength label (c = '\n') t + 1 := by
  have hn : (if lineStart = true then closingLabel? label (c :: t) else none) = none := by
    split
    next hl => exact h hl
    next => rfl
  rw [heredocLength, hn]

theorem closing_cases (label t : Text) (lineStart : Bool) :
    (∃ n, lineStart = true ∧ closingLabel? label t = some n) ∨
      (lineStart = true → closingLabel? label t = none) := by
  cases lineStart with
  | false => exact Or.inr fun h => absurd h (by simp)
  | true =>
    cases h : closingLabel? label t with
    | none => exact Or.inr fun _ => rfl
    | some n => exact Or.inl ⟨n, rfl, rfl⟩

theorem heredocLength_append {label u v : Text} (hl : Identifier label)
    (hv : Stops Text.isWordChar v) (lineStart : Bool)
    (h : heredocLength label lineStart (u ++ v) ≤ u.length) :
    heredocLength label lineStart u = heredocLength label lineStart (u ++ v) := by
  induction u generalizing lineStart with
  | nil =>
    simp only [List.nil_append, List.length_nil] at h ⊢
    simp only [heredocLength]
    omega
  | cons c u ih =>
    rcases closing_cases label (c :: (u ++ v)) lineStart with ⟨n, rfl, hc⟩ | hall
    · have hn : n ≤ (c :: u).length := by rwa [List.cons_append, heredocLength_of_closing hc] at h
      have hcu : closingLabel? label (c :: u) = some n := (closingLabel?_append_iff hl hv hn).mp hc
      rw [List.cons_append, heredocLength_of_closing hc, heredocLength_of_closing hcu]
    · have hcut : lineStart = true → closingLabel? label (c :: u) = none := by
        intro hs
        by_contra hne
        obtain ⟨n, hn⟩ := Option.ne_none_iff_exists'.mp hne
        have := (closingLabel?_append_iff hl hv (closingLabel?_le hl hn)).mpr hn
        exact absurd (hall hs) (by rw [← List.cons_append, this]; simp)
      rw [List.cons_append, heredocLength_of_not_closing hall] at h ⊢
      rw [heredocLength_of_not_closing hcut, ih _ (by simpa using h)]

theorem quotedLength_pos (quote c : Char) (t : Text) : 0 < quotedLength quote (c :: t) := by
  cases t with
  | nil => simp [quotedLength]
  | cons d t =>
    simp only [quotedLength]
    split
    next => omega
    next => split <;> omega

theorem quotedLength_append {quote : Char} {u v : Text}
    (h : quotedLength quote (u ++ v) ≤ u.length) :
    quotedLength quote u = quotedLength quote (u ++ v) := by
  fun_induction quotedLength quote u with
  | case1 => simp only [List.nil_append, List.length_nil] at h ⊢; omega
  | case2 c =>
    cases v with
    | nil => rfl
    | cons d v =>
      have := quotedLength_pos quote d v
      simp only [List.cons_append, List.nil_append, List.length_singleton, quotedLength] at h ⊢
      split at h
      next => omega
      next hc =>
        rw [if_neg hc]
        split at h
        next hq => rw [if_pos hq]
        next => omega
  | case3 d t ih =>
    simp only [List.cons_append, List.length_cons, quotedLength, if_true] at h ⊢
    rw [ih (by omega)]
  | case4 d t hq => simp [quotedLength, hq]
  | case5 c d t hc hq ih =>
    simp only [List.cons_append, List.length_cons, quotedLength, hc, hq, if_false] at h ⊢
    rw [ih (by simpa using h), List.cons_append]

theorem lineLength_append {u v : Text} (h : lineLength (u ++ v) ≤ u.length) :
    lineLength u = lineLength (u ++ v) := by
  unfold lineLength at h ⊢
  by_cases hu : (u.takeWhile (· ≠ '\n')).length = u.length
  · rw [List.takeWhile_append, if_pos hu, List.length_append] at h ⊢
    omega
  · rw [List.takeWhile_append, if_neg hu]

theorem blockLength_append {u v : Text} (h : blockLength (u ++ v) ≤ u.length) :
    blockLength u = blockLength (u ++ v) := by
  cases hi : Text.indexOf? Docblock.closing (u ++ v) with
  | some n =>
    simp only [blockLength, hi] at h ⊢
    rw [(Text.indexOf?_append_iff closing_ne_nil h v).mp hi]
  | none =>
    have hv : v = [] := by
      simp only [blockLength, hi, List.length_append] at h
      exact List.length_eq_zero_iff.mp (by omega)
    rw [hv, List.append_nil]

/-- A line comment that takes characters of the beginning of a text opens there. -/
theorem OpensLine.of_append {u v : Text} (h : OpensLine (u ++ v))
    (hn : lineLength (u ++ v) ≤ u.length) : OpensLine u := by
  rcases h with ⟨w, hw⟩ | ⟨w, hw, hb⟩
  · have htwo : 2 ≤ u.length := by
      refine Nat.le_trans ?_ hn
      rw [hw]
      simp [lineLength]
    obtain ⟨u', rfl, -⟩ := Text.exists_append_of_append_eq (p := ['/', '/']) hw htwo
    exact Or.inl ⟨u', rfl⟩
  · cases u with
    | nil => rw [hw] at hn; simp [lineLength] at hn
    | cons c u =>
      obtain ⟨rfl, ht⟩ := List.cons.inj hw
      refine Or.inr ⟨u, rfl, ?_⟩
      intro hu
      obtain ⟨u', rfl⟩ := List.head?_eq_some_iff.mp hu
      exact hb (by rw [← ht]; rfl)

/-- A span that ends inside the beginning of a text does not depend on what follows. -/
theorem Opens.of_append {u v : Text} {kind : SpanKind} {n : Nat} (h : Opens (u ++ v) kind n)
    (hv : Stops Text.isWordChar v) (hn : n ≤ u.length) : Opens u kind n := by
  generalize ht : u ++ v = t at h
  cases h with
  | block w =>
    obtain ⟨u', rfl, rfl⟩ := Text.exists_append_of_append_eq (p := ['/', '*']) ht
      (by simp only [List.length_cons, List.length_nil]; omega)
    simp only [List.cons_append, List.nil_append, List.length_cons] at hn ⊢
    rw [← blockLength_append (u := u') (by omega)]
    exact .block u'
  | line h =>
    subst ht
    rw [← lineLength_append hn]
    exact .line (h.of_append hn)
  | @quoted quote h w =>
    cases u with
    | nil => simp at hn
    | cons c u =>
      obtain ⟨rfl, hw⟩ := List.cons.inj ht
      have hw : u ++ v = w := hw
      subst hw
      rw [← quotedLength_append (by simpa using hn)]
      exact .quoted h u
  | @heredoc label opening h body =>
    obtain ⟨u', rfl, rfl⟩ := Text.exists_append_of_append_eq ht (by omega)
    have hl : Identifier label := by
      obtain ⟨_, _, _, _, hl, _⟩ := h
      exact hl
    rw [List.length_append] at hn
    rw [← heredocLength_append hl hv true (by omega)]
    exact .heredoc h u'

/-- The characters that open a comment or a string literal. -/
def IsOpening (c : Char) : Prop := c = '/' ∨ c = '#' ∨ c = '\'' ∨ c = '"' ∨ c = '<'

theorem Opens.isOpening {t : Text} {kind : SpanKind} {n : Nat} (h : Opens t kind n) :
    ∃ c, t.head? = some c ∧ IsOpening c := by
  cases h with
  | block u => exact ⟨'/', rfl, Or.inl rfl⟩
  | line h =>
    rcases h with ⟨u, rfl⟩ | ⟨u, rfl, -⟩
    · exact ⟨'/', rfl, Or.inl rfl⟩
    · exact ⟨'#', rfl, Or.inr (Or.inl rfl)⟩
  | @quoted quote h u => exact ⟨quote, rfl, Or.inr (Or.inr (h.imp_right Or.inl))⟩
  | heredoc h body =>
    obtain ⟨u, rfl⟩ := heredocOpening_cons h
    exact ⟨'<', rfl, Or.inr (Or.inr (Or.inr (Or.inr rfl)))⟩

/-- Whether a span opens in a text does not depend on what follows, an attribute sign apart. -/
theorem Opens.append {u : Text} {kind : SpanKind} {n : Nat} (h : Opens u kind n) {v : Text}
    (hv : v.head? ≠ some '[') : ∃ kind' n', Opens (u ++ v) kind' n' := by
  cases h with
  | block w => exact ⟨_, _, .block (w ++ v)⟩
  | line h =>
    refine ⟨_, _, .line ?_⟩
    rcases h with ⟨w, rfl⟩ | ⟨w, rfl, hb⟩
    · exact Or.inl ⟨w ++ v, rfl⟩
    · refine Or.inr ⟨w ++ v, rfl, ?_⟩
      cases w with
      | nil => exact hv
      | cons c w => exact hb
  | quoted h w => exact ⟨_, _, .quoted h (w ++ v)⟩
  | heredoc h body =>
    rw [List.append_assoc]
    exact ⟨_, _, .heredoc h (body ++ v)⟩

/-- How a span that ends before the text does ends: what it takes, and what follows it. -/
inductive Closed : SpanKind → Text → Text → Prop
  | block (u v : Text) : Closed .block (u ++ Docblock.closing) v
  | line {u : Text} (h : '\n' ∉ u) (v : Text) : Closed .line u ('\n' :: v)
  | string (u : Text) {c : Char} (h : IsQuote c ∨ isIdentifierChar c = true) (v : Text) :
    Closed .string (u ++ [c]) v

theorem exists_of_quotedLength_lt {quote : Char} {t : Text} (h : quotedLength quote t < t.length) :
    ∃ u v, t = u ++ quote :: v ∧ quotedLength quote t = u.length + 1 := by
  fun_induction quotedLength quote t with
  | case1 => simp at h
  | case2 c => simp at h
  | case3 d t ih =>
    obtain ⟨u, v, rfl, hu⟩ := ih (by simp only [List.length_cons] at h; omega)
    exact ⟨'\\' :: d :: u, v, rfl, by simp [hu]⟩
  | case4 d t hq => exact ⟨[], d :: t, rfl, rfl⟩
  | case5 c d t hc hq ih =>
    obtain ⟨u, v, ht, hu⟩ := ih (by simp only [List.length_cons] at h ⊢; omega)
    exact ⟨c :: u, v, by rw [ht]; rfl, by simp [hu]⟩

theorem exists_of_heredocLength_lt {label t : Text} (hl : Identifier label) {lineStart : Bool}
    (h : heredocLength label lineStart t < t.length) :
    ∃ u v, t = u ++ (label ++ v) ∧ heredocLength label lineStart t = u.length + label.length := by
  induction t generalizing lineStart with
  | nil => simp at h
  | cons c t ih =>
    rcases closing_cases label (c :: t) lineStart with ⟨n, rfl, hc⟩ | hall
    · rw [heredocLength_of_closing hc]
      obtain ⟨indent, rest, ht, _, _, rfl⟩ := (closingLabel?_eq_some_iff hl).mp hc
      exact ⟨indent, rest, ht, rfl⟩
    · rw [heredocLength_of_not_closing hall] at h ⊢
      obtain ⟨u, v, rfl, hu⟩ := ih (by simpa using h)
      exact ⟨c :: u, v, rfl, by simp only [hu, List.length_cons]; omega⟩

theorem Opens.closed {u v : Text} {kind : SpanKind} (h : Opens (u ++ v) kind u.length)
    (hv : v ≠ []) : Closed kind u v := by
  have hlt : u.length < (u ++ v).length := by
    have := List.length_pos_iff.mpr hv
    simp only [List.length_append]
    omega
  generalize ht : u ++ v = t at h hlt
  generalize hn : u.length = n at h hlt
  cases h with
  | block w =>
    cases hi : Text.indexOf? Docblock.closing w with
    | none => simp [blockLength, hi] at hlt
    | some m =>
      obtain ⟨a, b, rfl, rfl⟩ := Text.exists_append_of_indexOf? hi
      have hu : u ++ v = ('/' :: '*' :: a ++ Docblock.closing) ++ b := by
        rw [ht]; simp
      obtain ⟨rfl, _⟩ := List.append_inj hu (by simp [hn, blockLength, hi, length_closing])
      exact .block _ v
  | line h =>
    subst ht
    have hs := List.takeWhile_append_dropWhile (p := (· ≠ '\n')) (l := u ++ v)
    obtain ⟨hu, hd⟩ := List.append_inj hs hn.symm
    have hstop := stops_dropWhile (· ≠ '\n') (u ++ v)
    rw [hd] at hstop
    have hnl : '\n' ∉ u := by
      rw [← hu]
      intro hm
      simpa using List.mem_takeWhile_imp hm
    cases v with
    | nil => exact absurd rfl hv
    | cons c v =>
      obtain rfl : c = '\n' := by simpa using stops_cons.mp hstop
      exact .line hnl v
  | @quoted quote h w =>
    obtain ⟨a, b, rfl, hq⟩ := exists_of_quotedLength_lt (by simpa using hlt)
    have hu : u ++ v = (quote :: a ++ [quote]) ++ b := by
      rw [ht]; simp
    obtain ⟨rfl, _⟩ := List.append_inj hu (by simp [hn, hq])
    exact .string _ (Or.inl h) v
  | @heredoc label opening h body =>
    obtain ⟨indent, quote, lineEnd, _, hl, _⟩ := h
    obtain ⟨a, b, rfl, hq⟩ := exists_of_heredocLength_lt hl (by simpa using hlt)
    have hu : u ++ v = (opening ++ (a ++ label)) ++ b := by
      rw [ht]; simp
    obtain ⟨rfl, _⟩ := List.append_inj hu (by simp [hn, hq])
    obtain ⟨init, last, rfl⟩ := List.eq_nil_or_concat label |>.resolve_left hl.ne_nil
    have hlast : isIdentifierChar last = true := hl.all last (by simp)
    have he : opening ++ (a ++ init.concat last) = (opening ++ (a ++ init)) ++ [last] := by simp
    rw [he]
    exact .string _ (Or.inr hlast) v

end AnnotatedRoutes.Source.Span
