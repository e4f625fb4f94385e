import AnnotatedRoutes.Proofs.SpanScan

namespace AnnotatedRoutes.Source

/-- The spans of the text stand before any continuation, and the continuation keeps its own. -/
def SelfContained (t : Text) : Prop :=
  ∀ rest, Span.scan (t ++ rest) = Span.scan t ++ (Span.scan rest).map (Span.shift t.length)

theorem SelfContained.append {u v : Text} (hu : SelfContained u) (hv : SelfContained v) :
    SelfContained (u ++ v) := by
  intro rest
  rw [List.append_assoc, hu, hv, hu v, List.map_append, Span.map_shift_shift, List.length_append,
    List.append_assoc, Nat.add_comm v.length]

theorem selfContained_nil : SelfContained [] := by
  intro rest
  rw [List.nil_append, Span.scan_nil, List.nil_append, List.length_nil, Span.map_shift_zero]

theorem SelfContained.flatMap {α : Type} {f : α → Text} {as : List α}
    (h : ∀ a ∈ as, SelfContained (f a)) : SelfContained (as.flatMap f) := by
  induction as with
  | nil => exact selfContained_nil
  | cons a as ih =>
    obtain ⟨ha, has⟩ := List.forall_mem_cons.mp h
    rw [List.flatMap_cons]
    exact ha.append (ih has)

theorem SelfContained.masked_append {u : Text} (hu : SelfContained u) (rest : Text) :
    masked (u ++ rest) = masked u ++ masked rest := Source.masked_append (hu rest)

theorem scan_of_opens_self {u : Text} {kind : SpanKind}
    (h : ∀ rest, Span.Opens (u ++ rest) kind u.length) : Span.scan u = [⟨kind, 0, u.length⟩] := by
  have := Span.scan_of_opens (h [])
  rwa [List.append_nil, List.drop_length, Span.scan_nil, List.map_nil] at this

/-- A comment or string literal that ends in itself. -/
theorem selfContained_of_opens {u : Text} {kind : SpanKind}
    (h : ∀ rest, Span.Opens (u ++ rest) kind u.length) : SelfContained u := by
  intro rest
  rw [Span.scan_of_opens (h rest), List.drop_left, scan_of_opens_self h, List.singleton_append]

/-- Characters at which no comment and no string literal can open. -/
def Code (t : Text) : Prop := ∀ c ∈ t, ¬ Span.IsOpening c

instance (c : Char) : Decidable (Span.IsOpening c) := inferInstanceAs (Decidable (_ ∨ _))

instance (t : Text) : Decidable (Code t) := List.decidableBAll _ t

theorem first?_eq_none_of_not_isOpening {c : Char} (h : ¬ Span.IsOpening c) (t : Text) :
    Span.first? (c :: t) = none := by
  by_contra hne
  obtain ⟨⟨kind, n⟩, hs⟩ := Option.ne_none_iff_exists'.mp hne
  obtain ⟨d, hd, ho⟩ := (Span.first?_eq_some_iff.mp hs).isOpening
  obtain rfl := Option.some.inj hd
  exact h ho

theorem Code.scan_append {t : Text} (h : Code t) (rest : Text) :
    Span.scan (t ++ rest) = (Span.scan rest).map (Span.shift t.length) := by
  induction t with
  | nil => rw [List.nil_append, List.length_nil, Span.map_shift_zero]
  | cons c t ih =>
    obtain ⟨hc, ht⟩ := List.forall_mem_cons.mp h
    rw [List.cons_append, Span.scan_cons_of_none (first?_eq_none_of_not_isOpening hc _), ih ht,
      Span.map_shift_shift, List.length_cons]

theorem Code.scan_eq_nil {t : Text} (h : Code t) : Span.scan t = [] := by
  have := h.scan_append []
  rwa [List.append_nil, Span.scan_nil, List.map_nil] at this

theorem Code.selfContained {t : Text} (h : Code t) : SelfContained t := by
  intro rest
  rw [h.scan_append, h.scan_eq_nil, List.nil_append]

theorem masked_of_scan_eq_nil {t : Text} (h : Span.scan t = []) : masked t = t := by
  refine List.ext_getElem? fun i => ?_
  exact getElem?_masked_of_clear (by simp [h])

theorem Code.masked_eq {t : Text} (h : Code t) : masked t = t := masked_of_scan_eq_nil h.scan_eq_nil

theorem code_append {u v : Text} : Code (u ++ v) ↔ Code u ∧ Code v := List.forall_mem_append

theorem Word.code {t : Text} (h : Identifier t) : Code t := by
  intro c hc ho
  have hn : isIdentifierChar c = false := by
    rcases ho with rfl | rfl | rfl | rfl | rfl <;> decide
  exact absurd (h.all c hc) (by simp [hn])

/-- In a text that contains itself no span takes the line feed at the end. -/
theorem masked_append_newline {t : Text} (h : SelfContained (t ++ ['\n'])) :
    masked (t ++ ['\n']) = masked t ++ ['\n'] := by
  have hsep : Span.Separates ['\n'] := ⟨by simp, stops_cons.mpr (by decide)⟩
  have hs : Span.scan (t ++ ['\n']) =
      Span.scan t ++ (Span.scan ['\n']).map (Span.shift t.length) := by
    refine Span.scan_append hsep fun s hm hlt => ?_
    by_contra hno
    have hstop : s.stop = t.length + 1 := by
      have := (Span.of_mem_scan hm).2.1
      simp only [List.length_append, List.length_singleton] at this
      omega
    have hmem : s ∈ Span.scan (t ++ ['\n'] ++ ['x']) := by
      rw [h ['x']]
      exact List.mem_append_left _ hm
    have hnl : (t ++ ['\n'] ++ ['x'])[t.length]? = some '\n' := by simp
    rcases last_of_mem_scan hmem (by simp [hstop]) with ⟨c, hc, hb⟩ | hline
    · rw [hstop, Nat.add_sub_cancel, hnl] at hc
      obtain rfl := Option.some.inj hc
      exact absurd hb (by decide)
    · exact hline (mem_slice_iff.mpr ⟨t.length, by omega, by omega, hnl⟩)
  have hn : Code ['\n'] := by decide
  rw [Source.masked_append hs, hn.masked_eq]

end AnnotatedRoutes.Source
