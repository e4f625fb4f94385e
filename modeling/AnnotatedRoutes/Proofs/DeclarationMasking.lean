import AnnotatedRoutes.Proofs.DeclarationReading

namespace AnnotatedRoutes.Source

/-- No comment and no string literal reaches into the characters from `start` up to `stop`. -/
def Bare (source : Text) (start stop : Nat) : Prop :=
  ∀ s ∈ Span.scan source, s.stop ≤ start ∨ stop ≤ s.start

/-- The comments and string literals that begin before `stop` end on a line before that of
`start`. -/
def Alone (source : Text) (start stop : Nat) : Prop :=
  ∀ s ∈ Span.scan source, s.start < stop → '\n' ∈ slice source s.stop start

instance (source : Text) (start stop : Nat) : Decidable (Bare source start stop) :=
  List.decidableBAll _ _

instance (source : Text) (start stop : Nat) : Decidable (Alone source start stop) :=
  List.decidableBAll _ _

theorem masked_newline_iff {t : Text} {i : Nat} :
    (masked t)[i]? = some '\n' ↔ t[i]? = some '\n' := by
  rw [getElem?_masked]
  constructor
  · intro h
    obtain ⟨c, hc, he⟩ := Option.map_eq_some_iff.mp h
    split at he
    next => simp at he
    next => rw [hc, he]
  · intro h
    simp [h]

theorem startsLine_masked_iff {t : Text} {i : Nat} :
    StartsLine true (masked t) i ↔ StartsLine true t i := by
  cases i with
  | zero => rfl
  | succ i => exact masked_newline_iff

theorem blank_slice_masked {t : Text} {start stop : Nat} (h : Blank (slice t start stop)) :
    Blank (slice (masked t) start stop) := by
  intro c hc
  obtain ⟨i, hle, hlt, hi⟩ := mem_slice_iff.mp hc
  rw [getElem?_masked] at hi
  obtain ⟨d, hd, he⟩ := Option.map_eq_some_iff.mp hi
  split at he
  next =>
    subst he
    decide
  next =>
    subst he
    exact h d (mem_slice_iff.mpr ⟨i, hle, hlt, hd⟩)

theorem exists_line (t : Text) (offset : Nat) :
    ∃ i, StartsLine true t i ∧ i ≤ offset ∧ '\n' ∉ slice t i offset := by
  induction offset with
  | zero => exact ⟨0, rfl, Nat.le_refl 0, by simp [slice_self]⟩
  | succ offset ih =>
    by_cases hn : t[offset]? = some '\n'
    · exact ⟨offset + 1, hn, Nat.le_refl _, by simp [slice_self]⟩
    · obtain ⟨i, hs, hle, hnot⟩ := ih
      refine ⟨i, hs, by omega, fun hm => ?_⟩
      obtain ⟨j, hij, hj, hc⟩ := mem_slice_iff.mp hm
      by_cases hjo : j = offset
      · exact hn (hjo ▸ hc)
      · exact hnot (mem_slice_iff.mpr ⟨j, hij, by omega, hc⟩)

namespace DeclarationForm

variable {form : DeclarationForm} {source : Text} {d : Declaration}

/-- A declaration that no span reaches into can be read in the masked text as well. -/
theorem Declares.to_masked (h : form.Declares source d) (hb : Bare source d.start d.stop) :
    form.Declares (masked source) d := by
  obtain ⟨i, hs, hle, hi⟩ := h.line
  refine ⟨⟨i, startsLine_masked_iff.mpr hs, hle, blank_slice_masked hi⟩, ?_, ?_,
    h.start_le_stop, ?_⟩
  · rw [slice_masked_of_clear hb]
    exact h.head
  · intro c hc
    rw [List.head?_drop, getElem?_masked] at hc
    obtain ⟨e, he, hce⟩ := Option.map_eq_some_iff.mp hc
    split at hce
    next =>
      subst hce
      by_contra hn
      rw [Bool.not_eq_false] at hn
      exact absurd (form.isWordChar_of_continues hn) (by decide)
    next =>
      subst hce
      exact h.stops e (by rwa [List.head?_drop])
  · rw [length_masked]
    exact h.stop_le_length

/-- A declaration of the masked text can be read in the source if the spans before it end on
earlier lines. -/
theorem Declares.of_masked (h : form.Declares (masked source) d)
    (ha : Alone source d.start d.stop) : form.Declares source d := by
  obtain ⟨i, hs, hle, hi⟩ := h.line
  obtain ⟨j, hsj, hj, hn⟩ := exists_line source d.start
  have hij : i ≤ j := by
    cases i with
    | zero => omega
    | succ i =>
      by_contra hlt
      exact hn (mem_slice_iff.mpr ⟨i, by omega, by omega, masked_newline_iff.mp hs⟩)
  have hclear : ∀ s ∈ Span.scan source, s.stop ≤ j ∨ d.stop ≤ s.start := by
    intro s hm
    by_cases hlt : s.start < d.stop
    · obtain ⟨k, hk, hkd, hc⟩ := mem_slice_iff.mp (ha s hm hlt)
      by_contra hno
      exact hn (mem_slice_iff.mpr ⟨k, by omega, hkd, hc⟩)
    · exact Or.inr (by omega)
  refine ⟨⟨j, hsj, hj, ?_⟩, ?_, ?_, h.start_le_stop, length_masked source ▸ h.stop_le_length⟩
  · rw [← slice_masked_of_clear fun s hm => (hclear s hm).imp_right h.start_le_stop.trans]
    exact fun c hc => hi c (mem_slice_of_le hij hc)
  · rw [← slice_masked_of_clear fun s hm => (hclear s hm).imp_left (·.trans hj)]
    exact h.head
  · intro c hc
    rw [List.head?_drop] at hc
    by_cases hout : ∀ s ∈ Span.scan source, s.stop ≤ d.stop ∨ d.stop < s.start
    · exact h.stops c (by rw [List.head?_drop, getElem?_masked_of_clear hout, hc])
    · -- a span opens where the declaration ends
      simp only [not_forall, not_or] at hout
      obtain ⟨s, hm, hstop, hstart⟩ := hout
      have hd : s.start = d.stop := by
        have := h.start_le_stop
        rcases hclear s hm with hs | hs <;> omega
      obtain ⟨e, he, ho⟩ := exists_opening_of_mem_scan hm
      rw [hd, hc] at he
      obtain rfl := Option.some.inj he
      by_contra hn
      rw [Bool.not_eq_false] at hn
      exact absurd (form.isWordChar_of_continues hn) (by simp [ho.not_isWordChar])

/-- What can be read in both texts has no span inside. -/
theorem Declares.bare (h : form.Declares source d) (hm : form.Declares (masked source) d) :
    Bare source d.start d.stop := by
  obtain ⟨c, hc, hb⟩ := hm.exists_first
  intro s hsm
  rcases (of_getElem?_masked hc hb).2 s hsm with hstop | hstart
  · exact Or.inl hstop
  · by_contra hno
    obtain ⟨e, he, ho⟩ := exists_opening_of_mem_scan hsm
    exact form.not_isOpening h.head e (mem_slice_iff.mpr ⟨s.start, by omega, by omega, he⟩) ho

/-- Before a declaration that no span touches, none ends on its line. -/
theorem Declares.alone (h : form.Declares source d) (hbare : Bare source d.start d.stop) :
    Alone source d.start d.stop := by
  obtain ⟨i, hs, hle, hi⟩ := h.line
  intro s hsm hlt
  have hstop : s.stop ≤ d.start := (hbare s hsm).resolve_right (by omega)
  obtain ⟨hpos, hlen, -⟩ := Span.of_mem_scan hsm
  have hblank : ∀ {k e}, i ≤ k → k < d.start → source[k]? = some e → Text.isBlank e = true :=
    fun hik hkd he => hi _ (mem_slice_iff.mpr ⟨_, hik, hkd, he⟩)
  -- the span opens before the line, for the line is blank up to the declaration
  have hopen : s.start < i := by
    by_contra hno
    obtain ⟨e, he, ho⟩ := exists_opening_of_mem_scan hsm
    exact absurd (hblank (by omega) (by omega) he) (by simp [ho.not_isBlank])
  obtain ⟨j, rfl⟩ : ∃ j, i = j + 1 := ⟨i - 1, by omega⟩
  have hnl : source[j]? = some '\n' := hs
  refine mem_slice_iff.mpr ⟨j, ?_, by omega, hnl⟩
  -- and it ends before the line feed: a block or a string cannot end in it or in a blank
  by_contra hno
  have := h.stop_le_length
  have := h.start_lt_stop
  rcases last_of_mem_scan hsm (by omega) with ⟨e, he, hb⟩ | hline
  · by_cases hj : s.stop - 1 = j
    · rw [hj, hnl] at he
      obtain rfl := Option.some.inj he
      exact absurd hb (by decide)
    · exact absurd (hblank (by omega) (by omega) he) (by simp [hb])
  · exact hline (mem_slice_iff.mpr ⟨j, by omega, by omega, hnl⟩)

/-- The searches in a source and in its masked text find the same just when the declaration that the
first one finds is no part of a comment or string literal, and no such thing stands before the one
that the second one finds, on its line. -/
theorem first?_masked_iff (form : DeclarationForm) (source : Text) :
    form.first? source = form.first? (masked source) ↔
      (∀ d ∈ form.first? source, Bare source d.start d.stop) ∧
        ∀ d ∈ form.first? (masked source), Alone source d.start d.stop := by
  constructor
  · intro h
    have bare : ∀ d ∈ form.first? source, Bare source d.start d.stop :=
      fun d hd => (first?_eq_some_iff.mp hd).1.bare (first?_eq_some_iff.mp (h ▸ hd)).1
    have alone : ∀ d ∈ form.first? source, Alone source d.start d.stop :=
      fun d hd => (first?_eq_some_iff.mp hd).1.alone (bare d hd)
    exact ⟨bare, fun d hd => alone d (h ▸ hd)⟩
  · rintro ⟨hbare, halone⟩
    have agree : ∀ {d m}, form.first? source = some d → form.first? (masked source) = some m →
        d = m := by
      intro d m hd hm
      obtain ⟨hds, hmin⟩ := first?_eq_some_iff.mp hd
      obtain ⟨hmm, hmin'⟩ := first?_eq_some_iff.mp hm
      have hms := hmm.of_masked (halone m hm)
      have := hmin m hms
      have := hmin' d (hds.to_masked (hbare d hd))
      exact hds.eq_of_start_eq hms (by omega)
    cases hs : form.first? source with
    | some d =>
      obtain ⟨m, hm⟩ := ((first?_eq_some_iff.mp hs).1.to_masked (hbare d hs)).exists_first?
      rw [hm, agree hs hm]
    | none =>
      cases hm : form.first? (masked source) with
      | none => rfl
      | some m =>
        obtain ⟨d, hd⟩ := ((first?_eq_some_iff.mp hm).1.of_masked (halone m hm)).exists_first?
        exact absurd (hs.symm.trans hd) (by simp)

end DeclarationForm

end AnnotatedRoutes.Source
