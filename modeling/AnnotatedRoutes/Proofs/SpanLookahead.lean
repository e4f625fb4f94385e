import AnnotatedRoutes.Proofs.SelfContained
import AnnotatedRoutes.Proofs.SpanPartition

namespace AnnotatedRoutes.Source

theorem slice_append_of_le {u : Text} {stop : Nat} (h : stop ≤ u.length) (v : Text) (start : Nat) :
    slice (u ++ v) start stop = slice u start stop := by
  rw [slice, slice, List.take_append_of_le_length h]

theorem startsLine_append_iff {u : Text} {i : Nat} (h : i ≤ u.length) (lineStart : Bool)
    (v : Text) : StartsLine lineStart (u ++ v) i ↔ StartsLine lineStart u i := by
  cases i with
  | zero => rfl
  | succ i => rw [StartsLine, StartsLine, List.getElem?_append_left h]

theorem stops_drop_append_iff {u : Text} {i : Nat} (h : i < u.length) (p : Char → Bool)
    (v : Text) : Stops p ((u ++ v).drop i) ↔ Stops p (u.drop i) := by
  rw [Stops, Stops, List.head?_drop, List.head?_drop, List.getElem?_append_left h]

theorem prefix_drop_append_iff {p u : Text} {i : Nat} (h : i + p.length ≤ u.length) (v : Text) :
    p <+: (u ++ v).drop i ↔ p <+: u.drop i := by
  rw [List.drop_append_of_le_length (by omega)]
  exact Text.prefix_append_iff (by rw [List.length_drop]; omega) v

/-- A beginning without a character ends before that character. -/
theorem prefix_of_not_mem {p u v : Text} {c : Char} (h : p <+: u ++ c :: v) (hc : c ∉ p) :
    p <+: u := by
  by_cases hle : p.length ≤ u.length
  · exact (Text.prefix_append_iff hle _).mp h
  · have hu : u ++ [c] <+: u ++ c :: v := ⟨v, by simp⟩
    have := List.prefix_of_prefix_length_le hu h
      (by rw [List.length_append, List.length_singleton]; omega)
    exact absurd (this.subset (by simp)) hc

namespace Span

section Local

variable {u : Text} {i : Nat}

theorem closesLine_append_iff (h : i < u.length) (v : Text) :
    ClosesLine (u ++ v) i ↔ ClosesLine u i := by
  rw [ClosesLine, ClosesLine, List.getElem?_append_left h]

theorem closesBlock_append_iff (h : i + Docblock.closing.length < u.length) (v : Text) :
    ClosesBlock (u ++ v) i ↔ ClosesBlock u i :=
  prefix_drop_append_iff h.le v

theorem escaped_append (h : i ≤ u.length) (v : Text) : escaped (u ++ v) i = escaped u i := by
  induction i with
  | zero => rfl
  | succ i ih => rw [escaped, escaped, ih (by omega), List.getElem?_append_left h]

theorem closesQuoted_append_iff {quote : Char} (h : i + 1 < u.length) (v : Text) :
    ClosesQuoted quote (u ++ v) i ↔ ClosesQuoted quote u i := by
  rw [ClosesQuoted, ClosesQuoted, List.getElem?_append_left (by omega),
    escaped_append (by omega)]

theorem closesHeredoc_append_iff {label : Text} {lineStart : Bool}
    (h : i + label.length < u.length) (v : Text) :
    ClosesHeredoc label lineStart (u ++ v) i ↔ ClosesHeredoc label lineStart u i := by
  refine exists_congr fun k => and_congr_right fun hk => ?_
  rw [startsLine_append_iff (by omega), slice_append_of_le (by omega),
    prefix_drop_append_iff h.le, stops_drop_append_iff h]

end Local

/-- Two ends are the same if one of them lies inside the common beginning of two texts. -/
theorem EndsAtFirst.eq_of_append {closes : Text → Nat → Prop} {u v : Text} {width m n : Nat}
    (h : EndsAtFirst u.length (closes u) width 0 m)
    (h' : EndsAtFirst (u ++ v).length (closes (u ++ v)) width 0 n)
    (hlocal : ∀ i, i + width < u.length → (closes (u ++ v) i ↔ closes u i))
    (hlt : m < u.length ∨ n < u.length) : m = n := by
  rcases hlt with hm | hn
  · exact (h.congr hm fun i hi => hlocal i (by omega)).eq h'
  · have hlen : n < (u ++ v).length := by
      rw [List.length_append]
      omega
    exact h.eq (h'.congr hlen fun i hi => (hlocal i (by omega)).symm)

theorem lineLength_eq_of_append {u v : Text}
    (h : lineLength u < u.length ∨ lineLength (u ++ v) < u.length) :
    lineLength u = lineLength (u ++ v) :=
  (endsAtFirst_lineLength u).eq_of_append (endsAtFirst_lineLength (u ++ v))
    (fun _ hi => closesLine_append_iff hi v) h

theorem blockLength_eq_of_append {u v : Text}
    (h : blockLength u < u.length ∨ blockLength (u ++ v) < u.length) :
    blockLength u = blockLength (u ++ v) :=
  (endsAtFirst_blockLength u).eq_of_append (endsAtFirst_blockLength (u ++ v))
    (fun _ hi => closesBlock_append_iff hi v) h

theorem quotedLength_eq_of_append {quote : Char} (hq : IsQuote quote) {u v : Text}
    (h : quotedLength quote u < u.length ∨ quotedLength quote (u ++ v) < u.length) :
    quotedLength quote u = quotedLength quote (u ++ v) :=
  (endsAtFirst_quotedLength hq.ne_backslash u).eq_of_append
    (endsAtFirst_quotedLength hq.ne_backslash (u ++ v))
    (fun _ hi => closesQuoted_append_iff hi v) h

theorem heredocLength_eq_of_append {label : Text} (hl : Identifier label) {lineStart : Bool}
    {u v : Text} (h : heredocLength label lineStart u < u.length ∨
      heredocLength label lineStart (u ++ v) < u.length) :
    heredocLength label lineStart u = heredocLength label lineStart (u ++ v) :=
  (endsAtFirst_heredocLength hl lineStart u).eq_of_append
    (endsAtFirst_heredocLength hl lineStart (u ++ v))
    (fun _ hi => closesHeredoc_append_iff hi v) h

theorem opensLine_append_iff {u : Text} (h : 1 < u.length) (v : Text) :
    OpensLine (u ++ v) ↔ OpensLine u := by
  obtain ⟨c, d, u, rfl⟩ : ∃ c d u', u = c :: d :: u' := by
    match u, h with
    | c :: d :: u, _ => exact ⟨c, d, u, rfl⟩
  simp [OpensLine]

/-- A span that ends before the end of a text is one of every text that goes on from there. -/
theorem opens_append_iff {u : Text} {kind : SpanKind} {n : Nat} (hn : n < u.length) (v : Text) :
    Opens (u ++ v) kind n ↔ Opens u kind n := by
  constructor
  · intro h
    have hpos := h.length_le.1
    generalize ht : u ++ v = t at h
    cases h with
    | block w =>
      obtain ⟨u', rfl, rfl⟩ := Text.exists_append_of_append_eq (p := ['/', '*']) ht
        (by simp only [List.length_cons, List.length_nil]; omega)
      simp only [List.cons_append, List.nil_append, List.length_cons] at hn ⊢
      rw [← blockLength_eq_of_append (Or.inr (by omega))]
      exact .block u'
    | line h =>
      subst ht
      rw [← lineLength_eq_of_append (Or.inr hn)]
      exact .line ((opensLine_append_iff (by omega) v).mp h)
    | @quoted quote hq w =>
      obtain ⟨u', rfl, rfl⟩ := Text.exists_append_of_append_eq (p := [quote]) ht
        (by rw [List.length_singleton]; omega)
      simp only [List.cons_append, List.nil_append, List.length_cons] at hn ⊢
      rw [← quotedLength_eq_of_append hq (Or.inr (by omega))]
      exact .quoted hq u'
    | @heredoc label opening ho body =>
      obtain ⟨u', rfl, rfl⟩ := Text.exists_append_of_append_eq ht (by omega)
      rw [List.length_append] at hn
      rw [← heredocLength_eq_of_append ho.identifier (Or.inr (by omega))]
      exact .heredoc ho u'
  · intro h
    have hpos := h.length_le.1
    cases h with
    | block w =>
      simp only [List.length_cons] at hn
      rw [blockLength_eq_of_append (v := v) (Or.inl (by omega))]
      exact .block (w ++ v)
    | line h =>
      rw [lineLength_eq_of_append (v := v) (Or.inl hn)]
      exact .line ((opensLine_append_iff (by omega) v).mpr h)
    | @quoted quote hq w =>
      simp only [List.length_cons] at hn
      rw [quotedLength_eq_of_append hq (v := v) (Or.inl (by omega))]
      exact .quoted hq (w ++ v)
    | @heredoc label opening ho body =>
      rw [List.length_append] at hn
      rw [heredocLength_eq_of_append ho.identifier (v := v) (Or.inl (by omega)),
        List.append_assoc]
      exact .heredoc ho (body ++ v)

end Span

theorem IsBrace.not_isIdentifierChar {c : Char} (h : IsBrace c) : isIdentifierChar c = false := by
  rcases h with rfl | rfl <;> decide

theorem IsBrace.not_isOpening {c : Char} (h : IsBrace c) : ¬ Span.IsOpening c := by
  rcases h with rfl | rfl <;> decide

theorem IsBrace.not_mem_heredocOpening {c : Char} (h : IsBrace c) {label opening : Text}
    (ho : Span.HeredocOpening label opening) : c ∉ opening := by
  obtain ⟨indent, quote, lineEnd, rfl, hl, hi, hq, he⟩ := ho
  have hindent : c ∉ indent := by
    intro hm
    have := isBlank_of_isIndent (hi c hm)
    simp [h.not_isBlank] at this
  have hlabel : c ∉ label := fun hm => by simpa [h.not_isIdentifierChar] using hl.all c hm
  have hfixed : c ∉ Span.heredocOpening ∧ c ≠ '\'' ∧ c ≠ '"' ∧ c ≠ '\n' ∧ c ≠ '\r' := by
    rcases h with rfl | rfl <;> decide
  obtain ⟨hopen, hsingle, hdouble, hfeed, hreturn⟩ := hfixed
  have hquote : c ∉ quote := by rcases hq with rfl | rfl | rfl <;> simp [hsingle, hdouble]
  have hend : c ∉ lineEnd := by rcases he with rfl | rfl <;> simp [hfeed, hreturn]
  simp [hindent, hlabel, hopen, hquote, hend]

namespace Span

/-- Whether a span opens before a brace does not depend on what follows the brace. -/
theorem Opens.of_brace {u v : Text} {c : Char} (hc : IsBrace c) {kind : SpanKind} {n : Nat}
    (h : Opens (u ++ c :: v) kind n) (v' : Text) :
    ∃ kind' n', Opens (u ++ c :: v') kind' n' := by
  have hfixed : c ∉ blockOpening ∧ c ∉ lineOpening ∧ c ≠ '#' ∧ ¬ IsQuote c := by
    rcases hc with rfl | rfl <;> exact ⟨by decide, by decide, by decide, by simp [IsQuote]⟩
  obtain ⟨hblock, hline, hsign, hquote⟩ := hfixed
  generalize ht : u ++ c :: v = t at h
  cases h with
  | block w =>
    obtain ⟨u, rfl⟩ := prefix_of_not_mem (p := blockOpening) ⟨w, ht.symm⟩ hblock
    exact ⟨_, _, .block (u ++ c :: v')⟩
  | line h =>
    rcases h with ⟨w, rfl⟩ | ⟨w, rfl, hb⟩
    · obtain ⟨u, rfl⟩ := prefix_of_not_mem (p := lineOpening) ⟨w, ht.symm⟩ hline
      exact ⟨_, _, .line (Or.inl ⟨u ++ c :: v', rfl⟩)⟩
    · cases u with
      | nil => exact absurd (List.cons.inj ht).1 hsign
      | cons d u =>
        obtain ⟨rfl, rfl⟩ := List.cons.inj ht
        refine ⟨_, _, .line (Or.inr ⟨u ++ c :: v', rfl, ?_⟩)⟩
        simpa using hb
  | @quoted quote hq w =>
    cases u with
    | nil => exact absurd ((List.cons.inj ht).1 ▸ hq) hquote
    | cons d u =>
      obtain ⟨rfl, -⟩ := List.cons.inj ht
      exact ⟨_, _, .quoted hq (u ++ c :: v')⟩
  | @heredoc label opening ho body =>
    obtain ⟨u, rfl⟩ := prefix_of_not_mem ⟨body, ht.symm⟩ (hc.not_mem_heredocOpening ho)
    rw [List.append_assoc]
    exact ⟨_, _, .heredoc ho (u ++ c :: v')⟩

theorem first?_eq_none_of_brace {u v : Text} {c : Char} (hc : IsBrace c)
    (h : first? (u ++ c :: v) = none) (v' : Text) : first? (u ++ c :: v') = none := by
  by_contra hne
  obtain ⟨⟨kind, n⟩, hs⟩ := Option.ne_none_iff_exists'.mp hne
  obtain ⟨kind', n', ho⟩ := (first?_eq_some_iff.mp hs).of_brace hc v
  exact absurd (h.symm.trans (first?_eq_some_iff.mpr ho)) (by simp)

end Span

theorem selfContained_cons {c : Char} {u : Text}
    (hnone : ∀ rest, Span.first? (c :: (u ++ rest)) = none) (hu : SelfContained u) :
    SelfContained (c :: u) := by
  have hself : Span.first? (c :: u) = none := List.append_nil u ▸ hnone []
  intro rest
  rw [List.cons_append, Span.scan_cons_of_none (hnone rest), Span.scan_cons_of_none hself, hu rest,
    List.map_append, Span.map_shift_shift, List.length_cons]

/-- A span that ends before a text does may be taken off the text. -/
theorem selfContained_of_span {u : Text} {kind : SpanKind} {n : Nat} (hn : n < u.length)
    (ho : Span.Opens u kind n) (hu : SelfContained (u.drop n)) : SelfContained u := by
  intro rest
  rw [Span.scan_of_opens ((Span.opens_append_iff hn rest).mpr ho), Span.scan_of_opens ho,
    List.drop_append_of_le_length hn.le, hu rest, List.map_append, Span.map_shift_shift,
    List.length_drop, Nat.sub_add_cancel hn.le, List.cons_append]

/-- A brace outside all spans closes what stands before it: nothing behind it changes that. -/
theorem selfContained_of_brace {u v : Text} {c : Char} (hc : IsBrace c)
    (h : Span.Uncovered (Span.scan (u ++ c :: v)) u.length) : SelfContained (u ++ [c]) := by
  -- by length, since a span takes many characters at once
  induction hlen : u.length using Nat.strong_induction_on generalizing u with
  | _ len ih =>
    cases u with
    | nil => exact Code.selfContained (List.forall_mem_singleton.mpr hc.not_isOpening)
    | cons d u =>
      rw [List.length_cons] at hlen
      cases hf : Span.first? (d :: u ++ c :: v) with
      | none =>
        have hu : Span.Uncovered (Span.scan (u ++ c :: v)) u.length := by
          rw [List.cons_append] at hf h
          rw [Span.scan_cons_of_none hf] at h
          exact Span.uncovered_map_shift.mp h
        have hnone : ∀ rest, Span.first? (d :: (u ++ [c] ++ rest)) = none := by
          intro rest
          rw [List.append_assoc]
          exact Span.first?_eq_none_of_brace hc hf rest
        exact selfContained_cons hnone (ih u.length (by omega) hu rfl)
      | some found =>
        obtain ⟨kind, n⟩ := found
        have ho := Span.first?_eq_some_iff.mp hf
        have hpos := ho.length_le.1
        have hs := Span.scan_of_opens ho
        have hn : n ≤ (d :: u).length :=
          (h ⟨kind, 0, n⟩ (hs ▸ List.mem_cons_self)).resolve_right (Nat.not_lt_zero _)
        have hlt : n < (d :: u ++ [c]).length := by
          rw [List.length_append, List.length_singleton]
          omega
        have hw : Span.Opens (d :: u ++ [c]) kind n := by
          refine (Span.opens_append_iff hlt v).mp ?_
          rwa [List.append_assoc]
        have hdrop : ∀ w, (d :: u ++ w).drop n = (d :: u).drop n ++ w :=
          fun w => List.drop_append_of_le_length hn
        have hu : Span.Uncovered (Span.scan ((d :: u).drop n ++ c :: v))
            ((d :: u).drop n).length := by
          rw [hs, hdrop] at h
          rw [← Span.uncovered_map_shift, List.length_drop, Nat.sub_add_cancel hn]
          exact fun s hm => h s (List.mem_cons_of_mem _ hm)
        refine selfContained_of_span hlt hw (hdrop [c] ▸ ih _ ?_ hu rfl)
        rw [List.length_drop, List.length_cons]
        omega

/-- A text up to a brace that its mask shows is self-contained. -/
theorem exists_selfContained_of_masked_brace {t before after : Text} {c : Char} (hc : IsBrace c)
    (h : masked t = before ++ c :: after) :
    ∃ u v, t = u ++ c :: v ∧ masked (u ++ [c]) = before ++ [c] ∧ SelfContained (u ++ [c]) := by
  obtain ⟨u, v, rfl, hu, -, -⟩ := exists_of_masked_brace hc h
  have hlen : u.length = before.length := by rw [← length_masked u, hu]
  have hi : (masked (u ++ c :: v))[u.length]? = some c := by simp [h, hlen]
  have hself := selfContained_of_brace hc (of_getElem?_masked hi hc.not_isBlank).2
  refine ⟨u, v, rfl, ?_, hself⟩
  have happend : masked (u ++ [c]) ++ masked v = before ++ [c] ++ after := by
    rw [← hself.masked_append v, List.append_assoc, List.singleton_append, h, List.append_cons]
  have hrest : (masked v).length = after.length := by
    have := congrArg List.length h
    simp only [List.length_append, List.length_cons, length_masked] at this ⊢
    omega
  exact (List.append_inj' happend hrest).1

end AnnotatedRoutes.Source
