import AnnotatedRoutes.Proofs.KeywordReading
import AnnotatedRoutes.Proofs.SpanScan

namespace AnnotatedRoutes.Source

theorem dropGap_eq (t : Text) : dropGap t = match t.dropWhile Text.isBlank with
    | [] => []
    | c :: u =>
      if c = ']' then ((beforeAttribute? (c :: u)).map dropGap).getD (c :: u) else c :: u := by
  rw [dropGap]
  split
  next h => simp [h]
  next c u h =>
    rw [h]
    split
    next hc =>
      subst hc
      split
      next before hb => simp [hb]
      next hb => simp [hb]
    next hc => simp [hc]

theorem dropGap_append_of_blank {gap : Text} (h : Blank gap) (t : Text) :
    dropGap (gap ++ t) = dropGap t := by
  rw [dropGap_eq, dropGap_eq t, List.dropWhile_append_of_pos h]

theorem dropGap_of_code {c : Char} (hb : Text.isBlank c = false) (hc : c ≠ ']') (t : Text) :
    dropGap (c :: t) = c :: t := by
  rw [dropGap_eq, List.dropWhile_cons_of_neg (by simp [hb])]
  simp [hc]

theorem dropGap_reverse_append {gap : Text} (h : Blank gap) (t : Text) :
    dropGap (t ++ gap).reverse = dropGap t.reverse := by
  rw [List.reverse_append, dropGap_append_of_blank fun c hc => h c (List.mem_reverse.mp hc)]

theorem dropGap_reverse_of_code {c : Char} (hb : Text.isBlank c = false) (hc : c ≠ ']') (t : Text) :
    (dropGap (t ++ [c]).reverse).reverse = t ++ [c] := by
  rw [List.reverse_append, List.reverse_singleton, List.singleton_append, dropGap_of_code hb hc,
    List.reverse_cons, List.reverse_reverse]

/-- Nothing is dropped behind the end of a comment. -/
theorem dropGap_reverse_of_closing {t : Text} (h : Docblock.closing <:+ t) :
    (dropGap t.reverse).reverse = t := by
  obtain ⟨u, rfl⟩ := h
  have hcl : u ++ Docblock.closing = (u ++ ['*']) ++ ['/'] := by simp [Docblock.closing]
  rw [hcl, dropGap_reverse_of_code (by decide) (by decide)]

/-- The last span that does not reach beyond a position. -/
def lastBefore (limit : Nat) (spans : List Span) : Option Span :=
  spans.reverse.find? (·.stop ≤ limit)

theorem precedingDocblock_of_head {source head : Text} {limit : Nat}
    (h : (dropGap (source.take limit).reverse).reverse = head) (spans : List Span) :
    precedingDocblock source limit spans =
      if Text.endsWith head Docblock.closing then
        match lastBefore head.length spans with
        | some s => if isDocblockEnding head head.length s then head.drop s.start else []
        | none => []
      else [] := by
  subst h
  rfl

/-- Blanks before a position do not hide the docblock before them. -/
theorem precedingDocblock_of_gap {source : Text} {limit limit' : Nat} {gap : Text} (h : Blank gap)
    (ht : source.take limit = source.take limit' ++ gap) (spans : List Span) :
    precedingDocblock source limit spans = precedingDocblock source limit' spans := by
  simp only [precedingDocblock, ht, dropGap_reverse_append h]

theorem precedingDocblock_of_blank {source : Text} {limit : Nat} (h : Blank (source.take limit))
    (spans : List Span) : precedingDocblock source limit spans = [] := by
  have hd : dropGap (source.take limit).reverse = [] := by
    rw [← List.nil_append (source.take limit), dropGap_reverse_append h, dropGap_eq]
    rfl
  simp only [precedingDocblock, hd]
  rfl

theorem closing_suffix_append_singleton {t : Text} {c : Char} (h : Docblock.closing <:+ t ++ [c]) :
    c = '/' := by
  obtain ⟨u, hu⟩ := h
  have hc : Docblock.closing = ['*'] ++ ['/'] := by decide
  rw [hc, ← List.append_assoc] at hu
  exact (List.cons.inj (List.append_inj' hu rfl).2).1.symm

/-- Code directly before a position means that there is no docblock. -/
theorem precedingDocblock_of_code {source before gap : Text} {c : Char} {limit : Nat}
    (hb : Text.isBlank c = false) (hc : c ≠ ']') (hs : c ≠ '/') (h : Blank gap)
    (ht : source.take limit = before ++ [c] ++ gap) (spans : List Span) :
    precedingDocblock source limit spans = [] := by
  have he : Text.endsWith (before ++ [c]) Docblock.closing = false := by
    rw [Bool.eq_false_iff]
    exact fun h => hs (closing_suffix_append_singleton (List.isSuffixOf_iff_suffix.mp h))
  have hd : (dropGap (source.take limit).reverse).reverse = before ++ [c] := by
    rw [ht, dropGap_reverse_append h, dropGap_reverse_of_code hb hc]
  simp [precedingDocblock_of_head hd, he]

/-- The text of a docblock; empty if the span is none. -/
def Span.docblock (source : Text) (s : Span) : Text :=
  if isDocblockEnding (source.take s.stop) s.stop s then slice source s.start s.stop else []

/-- A block comment directly before a position is the docblock there, or there is none. -/
theorem precedingDocblock_of_block {source before gap : Text} {s : Span} {limit : Nat}
    (h : Blank gap) (ht : source.take limit = before ++ gap) (hs : s.stop = before.length)
    (hc : Docblock.closing <:+ before) {spans : List Span}
    (hlast : lastBefore s.stop spans = some s) :
    precedingDocblock source limit spans = s.docblock source := by
  have hd : (dropGap (source.take limit).reverse).reverse = before := by
    rw [ht, dropGap_reverse_append h, dropGap_reverse_of_closing hc]
  have he : Text.endsWith before Docblock.closing = true := List.isSuffixOf_iff_suffix.mpr hc
  have hle : s.stop ≤ limit := by
    have := congrArg List.length ht
    rw [List.length_take, List.length_append] at this
    omega
  have htake : source.take s.stop = before := by
    rw [← Nat.min_eq_left hle, ← List.take_take, ht, hs, List.take_left]
  rw [precedingDocblock_of_head hd, if_pos he, ← hs, hlast, Span.docblock, slice, htake]

theorem of_lastBefore_eq_none {limit : Nat} {spans : List Span} (h : lastBefore limit spans = none)
    {s : Span} (hs : s ∈ spans) : limit < s.stop := by
  have := List.find?_eq_none.mp h s (List.mem_reverse.mpr hs)
  simpa using this

theorem of_lastBefore_eq_some {limit : Nat} {spans : List Span}
    (ho : spans.Pairwise fun r s => r.stop ≤ s.start) {s : Span}
    (h : lastBefore limit spans = some s) :
    s ∈ spans ∧ s.stop ≤ limit ∧ ∀ r ∈ spans, r.stop ≤ s.start ∨ r = s ∨ limit < r.stop := by
  obtain ⟨hs, later, earlier, hl, hn⟩ := List.find?_eq_some_iff_append.mp h
  have hl : spans = earlier.reverse ++ s :: later.reverse := by
    rw [← List.reverse_reverse spans, hl]
    simp
  subst hl
  refine ⟨by simp, by simpa using hs, fun r hr => ?_⟩
  rcases List.mem_append.mp hr with hr | hr
  · exact Or.inl ((List.pairwise_append.mp ho).2.2 r hr s List.mem_cons_self)
  · rcases List.mem_cons.mp hr with rfl | hr
    · exact Or.inr (Or.inl rfl)
    · have := hn r (List.mem_reverse.mp hr)
      exact Or.inr (Or.inr (by simpa using this))

theorem lastBefore_stop {limit : Nat} {spans : List Span} {s : Span}
    (h : lastBefore limit spans = some s) : lastBefore s.stop spans = some s := by
  obtain ⟨hs, later, earlier, hl, hn⟩ := List.find?_eq_some_iff_append.mp h
  refine List.find?_eq_some_iff_append.mpr ⟨by simp, later, earlier, hl, fun r hr => ?_⟩
  have hle : s.stop ≤ limit := by simpa using hs
  have hlt : limit < r.stop := by simpa using hn r hr
  simp only [Bool.not_eq_true', decide_eq_false_iff_not]
  omega

/-- The span that ends in a position is the last one before it. -/
theorem Span.lastBefore_of_mem {source : Text} {s : Span} (hs : s ∈ scan source) :
    lastBefore s.stop (scan source) = some s := by
  cases h : lastBefore s.stop (scan source) with
  | none => exact absurd (of_lastBefore_eq_none h hs) (Nat.lt_irrefl _)
  | some r =>
    obtain ⟨hr, hle, hother⟩ := of_lastBefore_eq_some (pairwise_scan source) h
    have hlt := (of_mem_scan hr).1
    rcases hother s hs with hstop | rfl | hlt'
    · omega
    · rfl
    · omega

/-- A span that ends before its source does is closed there. -/
theorem Span.closed_of_mem_scan {source : Text} {s : Span} (hs : s ∈ Span.scan source)
    (h : s.stop < source.length) :
    Closed s.kind (slice source s.start s.stop) (source.drop s.stop) := by
  obtain ⟨hlt, hle, ho⟩ := Span.of_mem_scan hs
  refine Opens.closed ?_ (mt List.drop_eq_nil_iff.mp (Nat.not_le.mpr h))
  rw [slice_append_drop hlt.le, slice, List.length_drop, List.length_take_of_le hle]
  exact ho

/-- The last character of a string literal does not end a comment or an attribute. -/
theorem of_stringEnd {c : Char} (h : Span.IsQuote c ∨ isIdentifierChar c = true) :
    Text.isBlank c = false ∧ c ≠ ']' ∧ c ≠ '/' := by
  rcases h with (rfl | rfl) | h
  · decide
  · decide
  · refine ⟨not_isBlank_of_identifierChar h, ?_, ?_⟩
    · rintro rfl
      exact absurd h (by decide)
    · rintro rfl
      exact absurd h (by decide)

/-- Behind a span on the line of a position, only that span can be the docblock there. -/
theorem precedingDocblock_of_last {source : Text} {limit : Nat} {s : Span}
    (h : lastBefore limit (Span.scan source) = some s) {c : Char} (hc : source[limit]? = some c)
    (hn : c ≠ '\n') (hgap : ∀ d ∈ slice source s.stop limit, isIndent d = true) :
    precedingDocblock source limit (Span.scan source) = s.docblock source := by
  obtain ⟨hs, hle, -⟩ := of_lastBefore_eq_some (Span.pairwise_scan source) h
  have hlimit : limit < source.length := (List.getElem?_eq_some_iff.mp hc).1
  have hblank : Blank (slice source s.stop limit) := fun d hd => isBlank_of_isIndent (hgap d hd)
  have htake : source.take limit = source.take s.stop ++ slice source s.stop limit :=
    (take_append_slice hle source).symm
  have hlen : (source.take s.stop).length = s.stop := List.length_take_of_le (by omega)
  have hclosed := Span.closed_of_mem_scan hs (by omega)
  have hbefore : source.take s.stop = source.take s.start ++ slice source s.start s.stop :=
    (take_append_slice (Span.of_mem_scan hs).1.le source).symm
  -- only a block ends in what the lookup goes by; a line comment ends with the line
  generalize slice source s.start s.stop = u at hclosed hbefore
  generalize hv : source.drop s.stop = v at hclosed
  generalize hk : s.kind = kind at hclosed
  cases hclosed with
  | block u v =>
    have hcl : Docblock.closing <:+ source.take s.stop := by
      rw [hbefore, ← List.append_assoc]
      exact List.suffix_append _ _
    exact precedingDocblock_of_block hblank htake hlen.symm hcl (lastBefore_stop h)
  | line hnl v =>
    have hget : source[s.stop]? = some '\n' := by rw [← List.head?_drop, hv, List.head?_cons]
    rcases Nat.lt_or_eq_of_le hle with hlt | heq
    · have hm : '\n' ∈ slice source s.stop limit := by
        refine List.mem_of_getElem? (i := 0) ?_
        rw [getElem?_slice, if_pos (by simpa using hlt), Nat.add_zero, hget]
      exact absurd (hgap _ hm) (by decide)
    · rw [heq, hc] at hget
      exact absurd (Option.some.inj hget) hn
  | @string u d hd v =>
    obtain ⟨hb, ha, hs⟩ := of_stringEnd hd
    have hcode : source.take limit =
        (source.take s.start ++ u) ++ [d] ++ slice source s.stop limit := by
      simp only [htake, hbefore, List.append_assoc]
    rw [precedingDocblock_of_code hb ha hs hblank hcode, Span.docblock]
    simp [isDocblockEnding, hk]

end AnnotatedRoutes.Source
