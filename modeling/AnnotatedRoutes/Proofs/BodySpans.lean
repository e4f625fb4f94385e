import AnnotatedRoutes.Proofs.SpanScan

namespace AnnotatedRoutes.Source

/-- A body ends before the brace that closes it, or with the text. -/
theorem exists_of_bodyLength (depth : Nat) (t : Text) :
    ∃ inside after, t = inside ++ after ∧ bodyLength depth t = inside.length ∧
      (after = [] ∨ ∃ rest, after = '}' :: rest) := by
  fun_induction bodyLength depth t with
  | case1 => exact ⟨[], [], rfl, rfl, Or.inl rfl⟩
  | case2 depth t ih =>
    obtain ⟨inside, after, rfl, hl, ha⟩ := ih
    exact ⟨'{' :: inside, after, rfl, by rw [hl, List.length_cons], ha⟩
  | case3 t depth hc ih =>
    obtain ⟨inside, after, rfl, hl, ha⟩ := ih
    exact ⟨'}' :: inside, after, rfl, by rw [hl, List.length_cons], ha⟩
  | case4 depth t hc hd => exact ⟨[], '}' :: t, rfl, rfl, Or.inr ⟨t, rfl⟩⟩
  | case5 depth c t ho hc ih =>
    obtain ⟨inside, after, rfl, hl, ha⟩ := ih
    exact ⟨c :: inside, after, rfl, by rw [hl, List.length_cons], ha⟩

/-- A class body is empty or stands behind a brace. -/
theorem classBody_cases (code : Text) (offset : Nat) :
    classBody code offset = (offset, offset) ∨
      ∃ before inside after, code = before ++ '{' :: (inside ++ after) ∧
        classBody code offset = (before.length + 1, before.length + 1 + inside.length) ∧
        (after = [] ∨ ∃ rest, after = '}' :: rest) := by
  rw [classBody]
  cases hi : Text.indexOf? ['{'] (code.drop offset) with
  | none => exact Or.inl rfl
  | some n =>
    obtain ⟨skipped, rest, hd, rfl⟩ := Text.exists_append_of_indexOf? hi
    have hlen : (code.take offset ++ skipped).length = offset + skipped.length := by
      have := congrArg List.length hd
      simp only [List.length_drop, List.length_append, List.length_cons, List.length_take] at this ⊢
      omega
    have hc : code = (code.take offset ++ skipped) ++ '{' :: rest := by
      calc code = code.take offset ++ code.drop offset := (List.take_append_drop offset code).symm
        _ = (code.take offset ++ skipped) ++ '{' :: rest := by rw [hd, List.append_assoc]; rfl
    generalize code.take offset ++ skipped = before at hlen hc
    have hrest : code.drop (offset + skipped.length + 1) = rest := by
      rw [hc, ← hlen, ← List.drop_drop, List.drop_left, List.drop_one, List.tail_cons]
    obtain ⟨inside, after, rfl, hl, ha⟩ := exists_of_bodyLength 1 rest
    refine Or.inr ⟨before, inside, after, hc, ?_, ha⟩
    simp only [hrest, hl, hlen]

/-- A class body is empty, or a text between two braces that the mask shows as well; the second one
may be missing. -/
theorem classBody_cut (source : Text) (offset : Nat) :
    classBody (masked source) offset = (offset, offset) ∨
      ∃ u w x after spans, source = u ++ '{' :: (w ++ x) ∧
        classBody (masked source) offset = (u.length + 1, u.length + 1 + w.length) ∧
        masked source = masked u ++ '{' :: (masked w ++ after) ∧
        Span.scan source =
          Span.scan u ++ (Span.scan w ++ spans).map (Span.shift (u.length + 1)) ∧
        ∀ s ∈ spans, w.length < s.stop := by
  rcases classBody_cases (masked source) offset with hb | ⟨before, inside, after, hc, hb, ha⟩
  · exact .inl hb
  · obtain ⟨u, v, rfl, rfl, hv, hs⟩ := exists_of_masked_brace (Or.inl rfl) hc
    obtain ⟨w, x, spans, rfl, rfl, hw, hx⟩ : ∃ w x spans, v = w ++ x ∧ masked w = inside ∧
        Span.scan v = Span.scan w ++ spans ∧ ∀ s ∈ spans, w.length < s.stop := by
      rcases ha with rfl | ⟨rest, rfl⟩
      · exact ⟨v, [], [], by simp, by simpa using hv, by simp, by simp⟩
      · obtain ⟨w, x, rfl, hw, -, hs⟩ := exists_of_masked_brace (Or.inr rfl) hv
        refine ⟨w, '}' :: x, _, rfl, hw, hs, ?_⟩
        intro s hm
        obtain ⟨r, _, rfl⟩ := List.mem_map.mp hm
        simp only [Span.shift_stop]
        omega
    refine .inr ⟨u, w, x, after, spans, rfl, ?_, hc, by rw [hs, hw], hx⟩
    simpa only [length_masked] using hb

theorem slice_behind_brace (u w x : Text) :
    slice (u ++ '{' :: (w ++ x)) (u.length + 1) (u.length + 1 + w.length) = w := by
  simpa using slice_append (u ++ ['{']) w x

/-- The mask of a class body is the one that the whole source has there. -/
theorem masked_classBody (source : Text) (offset : Nat) :
    let body := classBody (masked source) offset
    masked (slice source body.1 body.2) = slice (masked source) body.1 body.2 := by
  intro body
  rcases classBody_cut source offset with hb | ⟨u, w, x, after, -, hsource, hb, hmasked, -⟩
  · have hbody : body = (offset, offset) := hb
    rw [hbody, slice_self, slice_self]
    rfl
  · have hbody : body = (u.length + 1, u.length + 1 + w.length) := hb
    have hmask : slice (masked u ++ '{' :: (masked w ++ after)) (u.length + 1)
        (u.length + 1 + w.length) = masked w := by
      simpa only [length_masked] using slice_behind_brace (masked u) (masked w) after
    rw [hbody, hmasked, hmask, hsource, slice_behind_brace]

theorem filter_within_self (t : Text) (offset : Nat) :
    (Span.scan t).filter (fun s => offset ≤ s.start ∧ s.stop ≤ offset) = [] := by
  rw [List.filter_eq_nil_iff]
  intro s hs
  have := (Span.of_mem_scan hs).1
  rw [decide_eq_true_eq]
  omega

theorem filter_within {start stop : Nat} {before inside after : List Span}
    (hb : ∀ s ∈ before, s.start < start) (hi : ∀ s ∈ inside, start ≤ s.start ∧ s.stop ≤ stop)
    (ha : ∀ s ∈ after, stop < s.stop) :
    (before ++ (inside ++ after)).filter (fun s => start ≤ s.start ∧ s.stop ≤ stop) = inside := by
  rw [List.filter_append, List.filter_append]
  have hbefore : before.filter (fun s => start ≤ s.start ∧ s.stop ≤ stop) = [] := by
    rw [List.filter_eq_nil_iff]
    intro s hs
    have := hb s hs
    rw [decide_eq_true_eq]
    omega
  have hafter : after.filter (fun s => start ≤ s.start ∧ s.stop ≤ stop) = [] := by
    rw [List.filter_eq_nil_iff]
    intro s hs
    have := ha s hs
    rw [decide_eq_true_eq]
    omega
  have hinside : inside.filter (fun s => start ≤ s.start ∧ s.stop ≤ stop) = inside :=
    List.filter_eq_self.mpr fun s hs => decide_eq_true (hi s hs)
  rw [hbefore, hinside, hafter, List.nil_append, List.append_nil]

/-- Reading a class body on its own masks it as reading the whole source does, and finds the spans
of the source that lie inside it. -/
theorem scan_classBody (source : Text) (offset : Nat) :
    let body := classBody (masked source) offset
    masked (slice source body.1 body.2) = slice (masked source) body.1 body.2 ∧
      (Span.scan (slice source body.1 body.2)).map (Span.shift body.1) =
        (Span.scan source).filter fun s => body.1 ≤ s.start ∧ s.stop ≤ body.2 := by
  intro body
  refine ⟨masked_classBody source offset, ?_⟩
  rcases classBody_cut source offset with hb | ⟨u, w, x, -, spans, hsource, hb, -, hs, hspans⟩
  · have hbody : body = (offset, offset) := hb
    rw [hbody, slice_self, filter_within_self]
    rfl
  · have hbody : body = (u.length + 1, u.length + 1 + w.length) := hb
    have hslice : slice source (u.length + 1) (u.length + 1 + w.length) = w := by
      rw [hsource, slice_behind_brace]
    simp only [hbody, hslice]
    rw [hs, List.map_append]
    refine (filter_within ?_ ?_ ?_).symm
    · intro s hm
      have := Span.of_mem_scan hm
      omega
    · intro s hm
      obtain ⟨r, hr, rfl⟩ := List.mem_map.mp hm
      have := Span.of_mem_scan hr
      simp only [Span.shift_start, Span.shift_stop]
      omega
    · intro s hm
      obtain ⟨r, hr, rfl⟩ := List.mem_map.mp hm
      have := hspans r hr
      simp only [Span.shift_stop]
      omega

end AnnotatedRoutes.Source
