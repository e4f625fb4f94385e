import AnnotatedRoutes.Proofs.DocblockEnd

namespace AnnotatedRoutes.Source

theorem attributeOpening_eq : Span.attributeOpening = ['#', '['] := rfl

/-- The search from the end of a text finds the last opening of an attribute. -/
theorem exists_of_beforeAttribute? {reversed before : Text}
    (h : beforeAttribute? reversed = some before) :
    ∃ t, reversed.reverse = before.reverse ++ (Span.attributeOpening ++ t) ∧
      ¬ Span.attributeOpening <:+: t := by
  rw [attributeOpening_eq]
  fun_induction beforeAttribute? reversed with
  | case1 => cases h
  | case2 => cases h
  | case3 c d t hc =>
    obtain ⟨rfl, rfl⟩ := hc
    obtain rfl := Option.some.inj h
    exact ⟨[], by simp, by simp⟩
  | case4 c d t hc ih =>
    obtain ⟨u, hu, hn⟩ := ih h
    refine ⟨u ++ [c], by rw [List.reverse_cons, hu]; simp, fun hi => ?_⟩
    rcases List.infix_concat_iff.mp hi with ⟨w, hw⟩ | hi
    · -- an opening that ends in the further character would have been found
      obtain ⟨rfl, rfl⟩ : w ++ ['#'] = u ∧ '[' = c := by
        rw [← List.singleton_append, ← List.append_assoc] at hw
        exact List.append_singleton_inj.mp hw
      rw [List.reverse_cons, ← List.append_assoc, ← List.append_assoc] at hu
      exact hc ⟨rfl, (List.append_singleton_inj.mp hu).2⟩
    · exact hn hi

/-- Before a closing bracket, what is found and the bracket are an attribute. -/
theorem exists_attribute_of_beforeAttribute? {reversed before : Text}
    (h : beforeAttribute? (']' :: reversed) = some before) :
    ∃ t, (']' :: reversed).reverse = before.reverse ++ (Span.attributeOpening ++ (t ++ [']'])) ∧
      ¬ Span.attributeOpening <:+: t := by
  obtain ⟨t, ht, hn⟩ := exists_of_beforeAttribute? h
  have hend := ht
  rw [List.reverse_cons, attributeOpening_eq] at hend
  rcases List.eq_nil_or_concat t with rfl | ⟨v, c, rfl⟩
  · have hlast := congrArg List.getLast? hend
    simp at hlast
  · rw [List.concat_eq_append] at hend ht hn
    rw [← List.append_assoc, ← List.append_assoc] at hend
    obtain rfl : ']' = c := (List.append_singleton_inj.mp hend).2
    exact ⟨v, ht, fun hi => hn (hi.trans (List.prefix_append v _).isInfix)⟩

theorem beforeAttribute?_reverse {t : Text} (ht : ¬ Span.attributeOpening <:+: t) (u : Text) :
    beforeAttribute? (u ++ (Span.attributeOpening ++ t)).reverse = some u.reverse := by
  have hr : ¬ ['[', '#'] <:+: t.reverse := fun h => ht (List.reverse_infix.mp h)
  have heq : (u ++ (Span.attributeOpening ++ t)).reverse =
      t.reverse ++ '[' :: '#' :: u.reverse := by simp [attributeOpening_eq]
  rw [heq]
  generalize t.reverse = r at hr
  induction r with
  | nil => rfl
  | cons c r ih =>
    have hc : ∀ w, ¬ (c = '[' ∧ r = '#' :: w) := by
      rintro w ⟨rfl, rfl⟩
      exact hr ((List.prefix_append ['[', '#'] w).isInfix)
    have ih := ih fun h => hr (h.trans (List.suffix_cons c r).isInfix)
    cases r with
    | nil => simp [beforeAttribute?]
    | cons d r =>
      have hcd : ¬ (c = '[' ∧ d = '#') := fun h => hc r ⟨h.1, by rw [h.2]⟩
      rw [List.cons_append, List.cons_append, beforeAttribute?, if_neg hcd]
      exact ih

/-- Blanks, and attributes behind them that each have blanks behind them. -/
inductive Gap : Text → Prop
  | blank {blanks : Text} (h : Blank blanks) : Gap blanks
  | attributed {gap t blanks : Text} (h : Gap gap) (ht : ¬ Span.attributeOpening <:+: t)
      (hb : Blank blanks) : Gap (gap ++ (Span.attributeOpening ++ (t ++ ']' :: blanks)))

theorem attributeOpening_infix_append_close {t : Text} (h : Span.attributeOpening <:+: t ++ [']']) :
    Span.attributeOpening <:+: t := by
  rcases List.infix_concat_iff.mp h with ⟨w, hw⟩ | h
  · rw [attributeOpening_eq, ← List.singleton_append, ← List.append_assoc] at hw
    exact absurd (List.append_singleton_inj.mp hw).2 (by decide)
  · exact h

theorem dropGap_reverse_attribute {t : Text} (ht : ¬ Span.attributeOpening <:+: t) (u : Text) :
    dropGap (u ++ (Span.attributeOpening ++ (t ++ [']']))).reverse = dropGap u.reverse := by
  have hbefore := beforeAttribute?_reverse (mt attributeOpening_infix_append_close ht) u
  have hclose : (u ++ (Span.attributeOpening ++ (t ++ [']']))).reverse =
      ']' :: (u ++ (Span.attributeOpening ++ t)).reverse := by simp
  rw [hclose] at hbefore ⊢
  rw [dropGap_eq, List.dropWhile_cons_of_neg (by decide)]
  simp only [hbefore, ↓reduceIte, Option.map_some, Option.getD_some]

/-- The walk back skips a whole gap. -/
theorem Gap.dropGap_reverse_append {gap : Text} (h : Gap gap) (u : Text) :
    dropGap (u ++ gap).reverse = dropGap u.reverse := by
  induction h with
  | blank hb => exact Source.dropGap_reverse_append hb u
  | @attributed gap t blanks h ht hb ih =>
    have hsplit : u ++ (gap ++ (Span.attributeOpening ++ (t ++ ']' :: blanks))) =
        ((u ++ gap) ++ (Span.attributeOpening ++ (t ++ [']']))) ++ blanks := by simp
    rw [hsplit, Source.dropGap_reverse_append hb, dropGap_reverse_attribute ht, ih]

/-- The walk back skips nothing but a gap. -/
theorem exists_gap_dropGap (reversed : Text) :
    ∃ gap, Gap gap ∧ reversed.reverse = (dropGap reversed).reverse ++ gap := by
  have hblank (r : Text) : Blank (r.takeWhile Text.isBlank).reverse :=
    fun c hc => List.mem_takeWhile_imp (List.mem_reverse.mp hc)
  have hsplit (r : Text) : r.reverse =
      (r.dropWhile Text.isBlank).reverse ++ (r.takeWhile Text.isBlank).reverse := by
    rw [← List.reverse_append, List.takeWhile_append_dropWhile]
  fun_induction dropGap reversed with
  | case1 r h => exact ⟨_, .blank (hblank r), by rw [hsplit r, h]⟩
  | case2 r u before h hb ih =>
    obtain ⟨gap, hgap, hbefore⟩ := ih
    obtain ⟨t, ht, hn⟩ := exists_attribute_of_beforeAttribute? hb
    exact ⟨_, .attributed hgap hn (hblank r), by rw [hsplit r, h, ht, hbefore]; simp⟩
  | case3 r u h hb => exact ⟨_, .blank (hblank r), by rw [hsplit r, h]⟩
  | case4 r c u h hc => exact ⟨_, .blank (hblank r), by rw [hsplit r, h]⟩

/-- A docblock among the comments of a source that has only a gap between it and a position. -/
structure Adjoins (source : Text) (limit : Nat) (before docblock gap : Text) : Prop where
  take_eq : source.take limit = before ++ (docblock ++ gap)
  isGap : Gap gap
  mem_scan : ⟨.block, before.length, before.length + docblock.length⟩ ∈ Span.scan source
  opening : Docblock.opening <+: docblock
  closing : Docblock.closing <:+ docblock
  length_le : 5 ≤ docblock.length

theorem Adjoins.precedingDocblock_eq {source before docblock gap : Text} {limit : Nat}
    (h : Adjoins source limit before docblock gap) :
    precedingDocblock source limit (Span.scan source) = docblock := by
  have hclosing : Docblock.closing <:+ before ++ docblock :=
    h.closing.trans (List.suffix_append before docblock)
  have hd : (dropGap (source.take limit).reverse).reverse = before ++ docblock := by
    rw [h.take_eq, ← List.append_assoc, h.isGap.dropGap_reverse_append,
      dropGap_reverse_of_closing hclosing]
  have hends : Text.endsWith (before ++ docblock) Docblock.closing = true :=
    List.isSuffixOf_iff_suffix.mpr hclosing
  have hstart : Text.startsWith docblock Docblock.opening = true :=
    List.isPrefixOf_iff_prefix.mpr h.opening
  have hlen : shortestDocblock ≤ docblock.length := h.length_le
  have hlast := Span.lastBefore_of_mem h.mem_scan
  rw [precedingDocblock_of_head hd, if_pos hends, List.length_append, hlast]
  simp [isDocblockEnding, hstart, hlen]

theorem exists_adjoins_precedingDocblock {source : Text} {limit : Nat}
    (h : precedingDocblock source limit (Span.scan source) ≠ []) :
    ∃ before gap,
      Adjoins source limit before (precedingDocblock source limit (Span.scan source)) gap := by
  obtain ⟨s, hs, hk, hlen, hhead, ho, hc, he⟩ := exists_of_precedingDocblock h
  obtain ⟨gap, hgap, htake⟩ := exists_gap_dropGap (source.take limit).reverse
  obtain ⟨hlt, hle, -⟩ := Span.of_mem_scan hs
  have hbefore : (source.take s.start).length = s.start := List.length_take_of_le (by omega)
  have hslice : (slice source s.start s.stop).length = s.stop - s.start := length_slice hle
  rw [List.reverse_reverse, hhead, List.append_assoc] at htake
  rw [he]
  refine ⟨source.take s.start, gap, htake, hgap, ?_, ho, hc, ?_⟩
  · rw [hbefore, hslice, Nat.add_sub_cancel' hlt.le, ← hk]
    exact hs
  · have : shortestDocblock = 5 := rfl
    omega

/-- A docblock is found before a position if and only if it is a docblock of the source with only
blanks and attributes behind it up to the position. -/
theorem docblockBefore_eq_iff {source docblock : Text} {limit : Nat} {spans : Option (List Span)}
    (hs : spans = none ∨ spans = some (Span.scan source)) (hd : docblock ≠ []) :
    docblockBefore source limit spans = docblock ↔
      ∃ before gap, Adjoins source limit before docblock gap := by
  have heq : docblockBefore source limit spans =
      precedingDocblock source limit (Span.scan source) := by
    rcases hs with rfl | rfl <;> rfl
  rw [heq]
  constructor
  · rintro rfl
    exact exists_adjoins_precedingDocblock hd
  · rintro ⟨before, gap, h⟩
    exact h.precedingDocblock_eq

/-- Behind a docblock that holds another opening of a comment stand two attributes, one of them with
brackets inside. -/
theorem docblockBefore_eq_attributed :
    let source := "$a = '/*'; /** url=/files/* */\n#[Pure]\n#[Get(['a'])] function f".toList
    let docblock := "/** url=/files/* */".toList
    docblock ≠ [] ∧ docblockBefore source 53 none = docblock := by
  intro source docblock
  have hd : docblock ≠ [] := by decide
  have hgap : Gap ("\n".toList ++
      (Span.attributeOpening ++ ("Pure".toList ++ ']' :: "\n".toList)) ++
        (Span.attributeOpening ++ ("Get(['a'])".toList ++ ']' :: " ".toList))) :=
    .attributed (.attributed (.blank (by decide)) (by decide) (by decide)) (by decide) (by decide)
  have hadjoins : Adjoins source 53 "$a = '/*'; ".toList docblock _ :=
    ⟨by decide +kernel, hgap, by decide +kernel, by decide, by decide, by decide⟩
  exact ⟨hd, (docblockBefore_eq_iff (.inl rfl) hd).mpr ⟨_, _, hadjoins⟩⟩

end AnnotatedRoutes.Source
