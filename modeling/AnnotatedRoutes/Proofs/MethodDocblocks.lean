import AnnotatedRoutes.Proofs.DocblockLookup
import AnnotatedRoutes.Proofs.MethodReading

namespace AnnotatedRoutes.Source

/-- The declarations in a class body that the dispatcher can call. -/
def handlers (constructorName body : Text) : List MethodDeclaration :=
  (methodsFrom 0 0 true (masked body)).filter (isHandler constructorName (masked body))

/-- The offset of the first keyword of a method in a masked class body. -/
def MethodDeclaration.keyword (code : Text) (m : MethodDeclaration) : Nat :=
  m.start + ((code.drop m.start).takeWhile isIndent).length

/-- Between the beginning of its line and its first keyword a method is indented. -/
theorem of_mem_methods {code : Text} {m : MethodDeclaration} (h : m ∈ methodsFrom 0 0 true code) :
    (∀ c ∈ slice code m.start (m.keyword code), isIndent c = true) ∧
      m.firstKeyword <+: code.drop (m.keyword code) ∧
      ∃ c, code[m.keyword code]? = some c ∧ isIdentifierChar c = true := by
  obtain ⟨before, line, rfl, -, hs, hm⟩ := of_mem_methodsFrom h
  obtain ⟨indent, head, rest, rfl, hi, hh, -, -⟩ := exists_of_methodAt? hm
  rw [Nat.zero_add] at hs
  obtain ⟨c, hc, hid⟩ := hh.exists_first
  have hhead : (head ++ rest).head? = some c := by rw [List.head?_append, hc, Option.some_or]
  have hstop := hh.stops_isIndent rest
  have hk : m.keyword (before ++ (indent ++ (head ++ rest))) = before.length + indent.length := by
    rw [MethodDeclaration.keyword, hs, List.drop_left, takeWhile_run hi hstop]
  have hdrop : (before ++ (indent ++ (head ++ rest))).drop (before.length + indent.length) =
      head ++ rest := by
    rw [← List.length_append, ← List.append_assoc, List.drop_left]
  rw [hk, hs, slice_append, hdrop]
  refine ⟨hi, hh.firstKeyword_prefix.trans (List.prefix_append _ _), c, ?_, hid⟩
  rw [← List.head?_drop, hdrop, hhead]

/-- The docblock before the line of a method is the one before its first keyword just when every
comment and string literal that ends in between says the same. -/
theorem precedingDocblock_at_keyword_iff {body : Text} {m : MethodDeclaration}
    (hm : m ∈ methodsFrom 0 0 true (masked body)) :
    precedingDocblock body m.start (Span.scan body) =
        precedingDocblock body (m.keyword (masked body)) (Span.scan body) ↔
      ∀ s ∈ lastBefore (m.keyword (masked body)) (Span.scan body), m.start < s.stop →
        precedingDocblock body m.start (Span.scan body) = s.docblock body := by
  obtain ⟨hi, -, c, hc, hid⟩ := of_mem_methods hm
  have hle : m.start ≤ m.keyword (masked body) := Nat.le_add_right _ _
  generalize m.keyword (masked body) = k at hi hc hle ⊢
  obtain ⟨hget, hout⟩ := of_getElem?_masked hc (not_isBlank_of_identifierChar hid)
  have hn : c ≠ '\n' := by
    rintro rfl
    exact absurd hid (by decide)
  have indented : (∀ s ∈ Span.scan body, s.stop ≤ m.start ∨ k ≤ s.start) →
      precedingDocblock body m.start (Span.scan body) =
        precedingDocblock body k (Span.scan body) := by
    intro hclear
    rw [slice_masked_of_clear hclear] at hi
    exact (precedingDocblock_of_gap (fun d hd => isBlank_of_isIndent (hi d hd))
      (take_append_slice hle body).symm _).symm
  -- the spans before the keyword end before the line of the method, or the last one is the last
  -- thing on it
  cases hl : lastBefore k (Span.scan body) with
  | none =>
    have hclear : ∀ s ∈ Span.scan body, s.stop ≤ m.start ∨ k ≤ s.start := by
      intro s hs
      have := of_lastBefore_eq_none hl hs
      have := hout s hs
      omega
    simp [indented hclear]
  | some s =>
    obtain ⟨hs, hsk, hall⟩ := of_lastBefore_eq_some (Span.pairwise_scan body) hl
    have hlt := (Span.of_mem_scan hs).1
    have hclear : ∀ start, s.stop ≤ start → ∀ r ∈ Span.scan body, r.stop ≤ start ∨ k ≤ r.start := by
      intro start hstart r hr
      have := hout r hr
      rcases hall r hr with h | rfl | h <;> omega
    by_cases hstart : m.start < s.stop
    · have hgap : ∀ d ∈ slice body s.stop k, isIndent d = true := by
        rw [← slice_masked_of_clear (hclear s.stop (Nat.le_refl _))]
        exact fun d hd => hi d (mem_slice_of_le hstart.le hd)
      simp [precedingDocblock_of_last hl hget hn hgap, hstart]
    · have := indented (hclear m.start (by omega))
      simp [this, hstart]

/-- The first keyword of a listed method stands where `MethodDeclaration.keyword` says. The methods
have the docblocks before their keywords just when a comment or a string literal that ends on the
line of a method, before its keyword, is what the lookup before the line finds. -/
theorem publicMethods_docblocks_iff (constructorName body : Text) :
    (∀ m ∈ handlers constructorName body,
        m.firstKeyword <+: (masked body).drop (m.keyword (masked body))) ∧
      (publicMethods constructorName body =
          (handlers constructorName body).map (fun m =>
            ⟨m.name, precedingDocblock body (m.keyword (masked body)) (Span.scan body)⟩) ↔
        ∀ m ∈ handlers constructorName body,
          ∀ s ∈ lastBefore (m.keyword (masked body)) (Span.scan body), m.start < s.stop →
            precedingDocblock body m.start (Span.scan body) = s.docblock body) := by
  have hmem : ∀ m ∈ handlers constructorName body, m ∈ methodsFrom 0 0 true (masked body) :=
    fun m hm => (List.mem_filter.mp hm).1
  have hp : publicMethods constructorName body = (handlers constructorName body).map fun m =>
      ⟨m.name, precedingDocblock body m.start (Span.scan body)⟩ := rfl
  refine ⟨fun m hm => (of_mem_methods (hmem m hm)).2.1, ?_⟩
  rw [hp, List.map_inj_left]
  refine forall₂_congr fun m hm => ?_
  rw [HandlerMethod.mk.injEq, ← precedingDocblock_at_keyword_iff (hmem m hm)]
  exact and_iff_right rfl

/-- A docblock on the line before the method, behind another member and a comment. -/
theorem publicMethods_docblocks_of_lines :
    let body := "  private $n = 1; // one\n  /** doc */\n  public function foo() \x7b\x7d\n".toList
    publicMethods "Home".toList body =
      (handlers "Home".toList body).map fun m =>
        ⟨m.name, precedingDocblock body (m.keyword (masked body)) (Span.scan body)⟩ :=
  (publicMethods_docblocks_iff _ _).2.mpr (by decide +kernel)

/-- A docblock on the line of the method itself is not found. -/
theorem publicMethods_docblock_on_own_line :
    let body := "    /** doc */ public function foo() \x7b\x7d\n".toList
    publicMethods "Home".toList body ≠
      (handlers "Home".toList body).map fun m =>
        ⟨m.name, precedingDocblock body (m.keyword (masked body)) (Span.scan body)⟩ := by
  decide +kernel

end AnnotatedRoutes.Source
