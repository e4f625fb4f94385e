import AnnotatedRoutes.Proofs.CommentClosing
import AnnotatedRoutes.Proofs.DocblockLookup

namespace AnnotatedRoutes.Source

open Docblock (Unclosed ClosesAtEnd)

theorem beforeAttribute?_suffix {t r : Text} (h : beforeAttribute? t = some r) : r <:+ t := by
  fun_induction beforeAttribute? t with
  | case1 => cases h
  | case2 => cases h
  | case3 c d t hc =>
    cases Option.some.inj h
    exact (List.suffix_cons d r).trans (List.suffix_cons c (d :: r))
  | case4 c d t hc ih => exact (ih h).trans (List.suffix_cons c (d :: t))

theorem dropGap_suffix (t : Text) : dropGap t <:+ t := by
  fun_induction dropGap t with
  | case1 t h => exact List.nil_suffix
  | case2 t u before h hb ih =>
    have hu : ']' :: u <:+ t := h ▸ List.dropWhile_suffix Text.isBlank
    exact (ih.trans (beforeAttribute?_suffix hb)).trans hu
  | case3 t u h hb => exact h ▸ List.dropWhile_suffix Text.isBlank
  | case4 t c u h hc => exact h ▸ List.dropWhile_suffix Text.isBlank

theorem isPrefix_dropGap_reverse (source : Text) (limit : Nat) :
    (dropGap (source.take limit).reverse).reverse <+: source := by
  have h : (dropGap (source.take limit).reverse).reverse <+: source.take limit := by
    rw [← List.reverse_suffix, List.reverse_reverse]
    exact dropGap_suffix _
  exact h.trans (List.take_prefix limit source)

namespace Span

theorem closesAtEnd_take_blockLength (t : Text) : ClosesAtEnd (t.take (blockLength t)) := by
  rintro u v huv
  -- a closing before the end would have been found first
  obtain ⟨rest, hrest⟩ := List.take_prefix (blockLength t) t
  rw [huv, List.append_assoc, List.append_assoc] at hrest
  obtain ⟨n, hn, hle⟩ := Text.exists_indexOf?_le closing_ne_nil u (v ++ rest)
  rw [hrest] at hn
  have hlen := congrArg List.length huv
  rw [blockLength, hn] at hlen
  simp only [List.length_take, List.length_append] at hlen
  exact List.length_eq_zero_iff.mp (by omega)

/-- A comment that begins as a docblock does is closed at its end and not before. -/
theorem closesAtEnd_of_mem_scan {source : Text} {s : Span} (hs : s ∈ scan source)
    (hk : s.kind = .block) (ho : Docblock.opening <+: slice source s.start s.stop) :
    ClosesAtEnd (slice source s.start s.stop) := by
  obtain ⟨hlt, hle, h⟩ := of_mem_scan hs
  have hslice : slice source s.start s.stop = (source.drop s.start).take (s.stop - s.start) :=
    List.drop_take ..
  rw [hslice] at ho ⊢
  generalize source.drop s.start = t at h ho ⊢
  generalize s.stop - s.start = n at h ho ⊢
  rw [hk] at h
  cases h with
  | block u =>
    have hw := closesAtEnd_take_blockLength u
    rw [List.take_succ_cons, List.take_succ_cons] at ho ⊢
    generalize u.take (blockLength u) = w at hw ho ⊢
    have hstar : ['*'] <+: w :=
      (List.cons_prefix_cons.mp (List.cons_prefix_cons.mp ho).2).2
    intro x y hxy
    rw [Docblock.closing_eq] at hxy
    -- the star of the opening belongs to no closing: the docblock goes on with another star
    rcases x with - | ⟨c, - | ⟨d, x⟩⟩
    · cases (List.cons.inj hxy).1
    · have hslash : w = '/' :: y := (List.cons.inj (List.cons.inj hxy).2).2
      rw [hslash] at hstar
      cases (List.cons_prefix_cons.mp hstar).1
    · exact hw x y (List.cons.inj (List.cons.inj hxy).2).2

end Span

/-- What is found is a comment of the source, and it ends where the walk back ends. -/
theorem exists_of_precedingDocblock {source : Text} {limit : Nat}
    (h : precedingDocblock source limit (Span.scan source) ≠ []) :
    ∃ s ∈ Span.scan source, s.kind = .block ∧ s.start + shortestDocblock ≤ s.stop ∧
      (dropGap (source.take limit).reverse).reverse =
        source.take s.start ++ slice source s.start s.stop ∧
      Docblock.opening <+: slice source s.start s.stop ∧
      Docblock.closing <:+ slice source s.start s.stop ∧
      precedingDocblock source limit (Span.scan source) = slice source s.start s.stop := by
  obtain ⟨rest, hhead⟩ := isPrefix_dropGap_reverse source limit
  generalize hd : (dropGap (source.take limit).reverse).reverse = head at hhead
  rw [precedingDocblock_of_head hd] at h ⊢
  split at h
  next he =>
    split at h
    next s hlast =>
      split at h
      next hends =>
        obtain ⟨hs, -, -⟩ := of_lastBefore_eq_some (Span.pairwise_scan source) hlast
        have hparts := hends
        simp only [isDocblockEnding, Bool.and_eq_true, decide_eq_true_eq] at hparts
        obtain ⟨⟨⟨hk, hstop⟩, hlen⟩, ho⟩ := hparts
        have hslice : head.drop s.start = slice source s.start s.stop := by
          rw [slice, hstop, ← hhead, List.take_left]
        have htake : head = source.take s.start ++ slice source s.start s.stop := by
          rw [take_append_slice (by omega), hstop, ← hhead, List.take_left]
        have hclosing : Docblock.closing <:+ slice source s.start s.stop := by
          have hsuffix := List.isSuffixOf_iff_suffix.mp he
          rw [htake] at hsuffix
          refine List.suffix_of_suffix_length_le hsuffix (List.suffix_append _ _) ?_
          rw [length_slice (Span.of_mem_scan hs).2.1]
          have : shortestDocblock = Docblock.closing.length + 3 := rfl
          omega
        rw [hslice] at ho
        refine ⟨s, hs, hk, hlen, htake, List.isPrefixOf_iff_prefix.mp ho, hclosing, ?_⟩
        rw [if_pos he, if_pos hends, hslice]
      next => exact absurd rfl h
    next => exact absurd rfl h
  next => exact absurd rfl h

/-- A comment ends in a docblock only where the docblock ends. -/
theorem closesAtEnd_precedingDocblock (source : Text) (limit : Nat) :
    ClosesAtEnd (precedingDocblock source limit (Span.scan source)) := by
  by_cases h : precedingDocblock source limit (Span.scan source) = []
  · rw [h]
    exact Docblock.closesAtEnd_nil
  · obtain ⟨s, hs, hk, -, -, ho, -, he⟩ := exists_of_precedingDocblock h
    rw [he]
    exact Span.closesAtEnd_of_mem_scan hs hk ho

/-- Without the end of a comment in a source there is no docblock in it. -/
theorem precedingDocblock_of_unclosed {source : Text} (h : Unclosed source) (limit : Nat)
    (spans : List Span) : precedingDocblock source limit spans = [] := by
  rw [precedingDocblock_of_head rfl, if_neg]
  intro he
  exact h ((List.isSuffixOf_iff_suffix.mp he).isInfix.trans
    (isPrefix_dropGap_reverse source limit).isInfix)

end AnnotatedRoutes.Source
