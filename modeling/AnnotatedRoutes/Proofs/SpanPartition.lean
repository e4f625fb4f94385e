import AnnotatedRoutes.Proofs.SpanEnd

namespace AnnotatedRoutes.Source

namespace Span

/-- No span covers the offset. -/
def Uncovered (spans : List Span) (i : Nat) : Prop := ∀ s ∈ spans, s.stop ≤ i ∨ i < s.start

/-- Neither a comment nor a string literal opens at the offset. -/
structure NothingOpens (t : Text) (i : Nat) : Prop where
  noBlock : ¬ blockOpening <+: t.drop i
  noLine : ¬ lineOpening <+: t.drop i
  noNumberSign : t[i]? = some '#' → t[i + 1]? = some '['
  noQuote : ∀ c, IsQuote c → t[i]? ≠ some c
  noHeredoc : ∀ label opening, HeredocOpening label opening → ¬ opening <+: t.drop i

/-- The span begins with what opens a span of its kind, and ends where it is closed first. -/
inductive Delimited (t : Text) : Span → Prop
  | block {start stop : Nat} (opens : blockOpening <+: t.drop start)
    (ends : EndsAtFirst t.length (ClosesBlock t) Docblock.closing.length
      (start + blockOpening.length) stop) : Delimited t ⟨.block, start, stop⟩
  | line {start stop : Nat} (opens : OpensLine (t.drop start))
    (ends : EndsAtFirst t.length (ClosesLine t) 0 start stop) : Delimited t ⟨.line, start, stop⟩
  | quoted {quote : Char} {start stop : Nat} (h : IsQuote quote) (opens : t[start]? = some quote)
    (ends : EndsAtFirst t.length (ClosesQuoted quote t) 1 (start + 1) stop) :
    Delimited t ⟨.string, start, stop⟩
  | heredoc {label opening : Text} {start stop : Nat} (h : HeredocOpening label opening)
    (opens : opening <+: t.drop start)
    (ends : EndsAtFirst t.length (ClosesHeredoc label true t) label.length
      (start + opening.length) stop) : Delimited t ⟨.string, start, stop⟩

/-- The spans divide the text into comments, string literals and code. -/
structure Partitions (t : Text) (spans : List Span) : Prop where
  nonempty : ∀ s ∈ spans, s.start < s.stop
  bounded : ∀ s ∈ spans, s.stop ≤ t.length
  ordered : spans.Pairwise fun r s => r.stop ≤ s.start
  delimited : ∀ s ∈ spans, Delimited t s
  code : ∀ i, Uncovered spans i → NothingOpens t i

theorem nothingOpens_of_first?_eq_none {t : Text} {i : Nat} (h : first? (t.drop i) = none) :
    NothingOpens t i := by
  have none_opens : ∀ {u kind n}, t.drop i = u → ¬ Opens u kind n := by
    rintro u kind n rfl ho
    rw [first?_eq_some_iff.mpr ho] at h
    cases h
  have at_head : ∀ {c}, t[i]? = some c → t.drop i = c :: t.drop (i + 1) := by
    intro c hc
    obtain ⟨hlt, rfl⟩ := List.getElem?_eq_some_iff.mp hc
    exact (List.cons_getElem_drop_succ).symm
  constructor
  case noBlock =>
    rintro ⟨u, hu⟩
    exact none_opens hu.symm (.block u)
  case noLine =>
    rintro ⟨u, hu⟩
    exact none_opens rfl (.line (Or.inl ⟨u, hu.symm⟩))
  case noNumberSign =>
    intro hc
    by_contra hb
    refine none_opens rfl (.line (Or.inr ⟨_, at_head hc, ?_⟩))
    rwa [List.head?_drop]
  case noQuote =>
    intro c hq hc
    exact none_opens (at_head hc) (.quoted hq _)
  case noHeredoc =>
    rintro label opening ho ⟨body, hb⟩
    exact none_opens hb.symm (.heredoc ho body)

theorem uncovered_map_shift {spans : List Span} {n i : Nat} :
    Uncovered (spans.map (shift n)) (i + n) ↔ Uncovered spans i := by
  simp only [Uncovered, List.forall_mem_map, shift_start, shift_stop, Nat.add_le_add_iff_right,
    Nat.add_lt_add_iff_right]

theorem first?_eq_none_of_uncovered {t : Text} {i : Nat} (h : Uncovered (scan t) i) :
    first? (t.drop i) = none := by
  induction t using scan_induction generalizing i with
  | nil => rw [List.drop_nil, first?]
  | code c t hf ih =>
    cases i with
    | zero => exact hf
    | succ i =>
      rw [scan_cons_of_none hf] at h
      exact ih (uncovered_map_shift.mp h)
  | span t kind n ho ih =>
    rw [scan_of_opens ho] at h
    have hn : n ≤ i := (h _ List.mem_cons_self).resolve_right (Nat.not_lt_zero i)
    obtain ⟨j, rfl⟩ := Nat.exists_eq_add_of_le' hn
    have hj : Uncovered (scan (t.drop n)) j :=
      uncovered_map_shift.mp fun s hs => h s (List.mem_cons_of_mem _ hs)
    have := ih hj
    rwa [List.drop_drop, Nat.add_comm n j] at this

/-- An end that is found behind a place of the text is one of the whole text. -/
theorem EndsAtFirst.of_drop {t : Text} {n width stop : Nat} {closes closes' : Nat → Prop}
    (hn : n ≤ t.length) (hc : ∀ i, closes' (i + n) ↔ closes i)
    (h : EndsAtFirst (t.drop n).length closes width 0 stop) :
    EndsAtFirst t.length closes' width n (n + stop) := by
  have := h.shift n hc
  rwa [List.length_drop, Nat.sub_add_cancel hn, Nat.add_comm stop n] at this

theorem closesLine_drop (t : Text) (n i : Nat) :
    ClosesLine t (i + n) ↔ ClosesLine (t.drop n) i := by
  rw [ClosesLine, ClosesLine, List.getElem?_drop, Nat.add_comm n i]

theorem closesBlock_drop (t : Text) (n i : Nat) :
    ClosesBlock t (i + n) ↔ ClosesBlock (t.drop n) i := by
  rw [ClosesBlock, ClosesBlock, List.drop_drop, Nat.add_comm n i]

theorem closesQuoted_drop {t : Text} {n : Nat} (h : escaped t n = false) (quote : Char) (i : Nat) :
    ClosesQuoted quote t (i + n) ↔ ClosesQuoted quote (t.drop n) i := by
  rw [ClosesQuoted, ClosesQuoted, List.getElem?_drop, Nat.add_comm n i, ← escaped_drop h]

theorem startsLine_drop {t : Text} {n : Nat} (h : StartsLine true t n) (k : Nat) :
    StartsLine true t (k + n) ↔ StartsLine true (t.drop n) k := by
  cases k with
  | zero => simpa [StartsLine] using h
  | succ k => rw [Nat.add_right_comm, StartsLine, StartsLine, List.getElem?_drop, Nat.add_comm n k]

/-- Behind the line that opens a heredoc only what follows it matters for its end. -/
theorem closesHeredoc_drop {t : Text} {n : Nat} (h : StartsLine true t n) (hpos : 0 < n)
    {label : Text} (hl : Identifier label) (i : Nat) :
    ClosesHeredoc label true t (i + n) ↔ ClosesHeredoc label true (t.drop n) i := by
  rw [closesHeredoc_iff hl, closesHeredoc_iff hl]
  constructor
  · rintro ⟨k, hk, hs, hc⟩
    -- the line feed before the body is no indent
    have hnk : n ≤ k := by
      by_contra hlt
      obtain ⟨m, rfl⟩ : ∃ m, n = m + 1 := ⟨n - 1, by omega⟩
      obtain ⟨indent, rest, ht, hi, -, he⟩ := (closingLabel?_eq_some_iff hl).mp hc
      have hget : (t.drop k)[m - k]? = some '\n' := by
        rw [List.getElem?_drop, Nat.add_sub_cancel' (by omega)]
        exact h
      rw [ht, List.getElem?_append_left (by omega)] at hget
      exact absurd (hi _ (List.mem_of_getElem? hget)) (by decide)
    obtain ⟨j, rfl⟩ := Nat.exists_eq_add_of_le' hnk
    refine ⟨j, by omega, (startsLine_drop h j).mp hs, ?_⟩
    rwa [List.drop_drop, Nat.add_comm n j, ← Nat.add_sub_add_right i n j]
  · rintro ⟨k, hk, hs, hc⟩
    refine ⟨k + n, by omega, (startsLine_drop h k).mpr hs, ?_⟩
    rwa [Nat.add_sub_add_right, Nat.add_comm k n, ← List.drop_drop]

theorem escaped_succ_of_quote {t : Text} {i : Nat} {quote : Char} (hq : IsQuote quote)
    (h : t[i]? = some quote) : escaped t (i + 1) = false := by
  rw [escaped, h]
  rcases hq with rfl | rfl <;> rfl

theorem startsLine_of_heredocOpening {label opening t : Text} {start : Nat}
    (h : HeredocOpening label opening) (hp : opening <+: t.drop start) :
    StartsLine true t (start + opening.length) ∧ 0 < opening.length := by
  have hlast : ∃ init, opening = init ++ ['\n'] := by
    obtain ⟨indent, quote, lineEnd, rfl, -, -, -, rfl | rfl⟩ := h
    · exact ⟨heredocOpening ++ (indent ++ (quote ++ (label ++ quote))), by simp⟩
    · exact ⟨heredocOpening ++ (indent ++ (quote ++ (label ++ (quote ++ ['\r'])))), by simp⟩
  obtain ⟨init, rfl⟩ := hlast
  obtain ⟨body, hb⟩ := hp
  refine ⟨?_, by simp⟩
  have hget : (t.drop start)[init.length]? = some '\n' := by rw [← hb]; simp
  rw [List.getElem?_drop] at hget
  simpa [StartsLine, ← Nat.add_assoc] using hget

theorem IsQuote.ne_backslash {quote : Char} (h : IsQuote quote) : quote ≠ '\\' := by
  rcases h with rfl | rfl <;> decide

theorem HeredocOpening.identifier {label opening : Text} (h : HeredocOpening label opening) :
    Identifier label := by
  obtain ⟨_, _, _, _, hl, _⟩ := h
  exact hl

/-- What opens at a place of a text is a span of the text. -/
theorem Opens.delimited {t : Text} {start n : Nat} {kind : SpanKind}
    (h : Opens (t.drop start) kind n) : Delimited t ⟨kind, start, start + n⟩ := by
  have hlen := h.length_le
  rw [List.length_drop] at hlen
  generalize ht : t.drop start = rest at h
  cases h with
  | block u =>
    have hd : t.drop (start + 2) = u := by rw [← List.drop_drop, ht]; rfl
    refine .block (ht ▸ ⟨u, rfl⟩) ?_
    rw [Nat.add_comm (blockLength u), ← Nat.add_assoc, ← hd]
    exact (endsAtFirst_blockLength _).of_drop (show start + 2 ≤ t.length by omega)
      (closesBlock_drop t _)
  | line h =>
    subst ht
    exact .line h ((endsAtFirst_lineLength _).of_drop (by omega) (closesLine_drop t start))
  | @quoted quote hq u =>
    have hopens : t[start]? = some quote := by rw [← List.head?_drop, ht, List.head?_cons]
    have hd : t.drop (start + 1) = u := by rw [← List.drop_drop, ht]; rfl
    refine .quoted hq hopens ?_
    rw [Nat.add_comm (quotedLength quote u), ← Nat.add_assoc, ← hd]
    exact (endsAtFirst_quotedLength hq.ne_backslash _).of_drop (by omega)
      (closesQuoted_drop (escaped_succ_of_quote hq hopens) quote)
  | @heredoc label opening ho body =>
    have hopens : opening <+: t.drop start := ht ▸ List.prefix_append opening body
    have hd : t.drop (start + opening.length) = body := by
      rw [← List.drop_drop, ht, List.drop_left]
    obtain ⟨hline, hpos⟩ := startsLine_of_heredocOpening ho hopens
    refine .heredoc ho hopens ?_
    rw [← Nat.add_assoc, ← hd]
    exact (endsAtFirst_heredocLength ho.identifier true _).of_drop (by omega)
      (closesHeredoc_drop hline (by omega) ho.identifier)

theorem partitions_scan (t : Text) : Partitions t (scan t) where
  nonempty _ hs := (of_mem_scan hs).1
  bounded _ hs := (of_mem_scan hs).2.1
  ordered := pairwise_scan t
  delimited s hs := by
    obtain ⟨hlt, -, ho⟩ := of_mem_scan hs
    have := ho.delimited
    rwa [Nat.add_sub_cancel' hlt.le] at this
  code _ h := nothingOpens_of_first?_eq_none (first?_eq_none_of_uncovered h)

end Span

/-- A text with blanks in place of its spans: as long as the text, and with its lines. -/
structure BlankedOut (t : Text) (spans : List Span) (code : Text) : Prop where
  length_eq : code.length = t.length
  uncovered : ∀ i, Span.Uncovered spans i → code[i]? = t[i]?
  newline : ∀ i : Nat, t[i]? = some '\n' → code[i]? = some '\n'
  covered : ∀ i < t.length, ¬ Span.Uncovered spans i → t[i]? ≠ some '\n' → code[i]? = some ' '

theorem any_covers_iff {spans : List Span} {i : Nat} :
    spans.any (·.covers i) = true ↔ ¬ Span.Uncovered spans i := by
  simp only [List.any_eq_true, Span.covers_iff, Span.Uncovered, not_forall, not_or, Nat.not_le,
    Nat.not_lt, exists_prop]
  exact exists_congr fun s => and_congr_right fun _ => and_comm

theorem blankedOut_masked (t : Text) : BlankedOut t (Span.scan t) (masked t) where
  length_eq := length_masked t
  uncovered _ h := getElem?_masked_of_clear h
  newline i h := by simp [getElem?_masked, h]
  covered i hi h hn := by
    rw [List.getElem?_eq_getElem hi] at hn
    have hc : t[i] ≠ '\n' := fun he => hn (congrArg some he)
    simp [getElem?_masked, List.getElem?_eq_getElem hi, any_covers_iff.mpr h, hc]

/-- The scan divides every text, and its mask blanks out comments and string literals only. -/
theorem scan_divides (t : Text) :
    Span.Partitions t (Span.scan t) ∧ BlankedOut t (Span.scan t) (mask t (Span.scan t)) :=
  ⟨Span.partitions_scan t, blankedOut_masked t⟩

end AnnotatedRoutes.Source
