import AnnotatedRoutes.Proofs.AnnotationText

namespace AnnotatedRoutes.Docblock

/-- A comment that the text is written into does not end in it. -/
def Unclosed (t : Text) : Prop := ¬ closing <:+: t

instance : DecidablePred Unclosed := fun t => inferInstanceAs (Decidable (¬ closing <:+: t))

/-- A comment can end in the text only where the text ends. -/
def ClosesAtEnd (t : Text) : Prop := ∀ u v, t = u ++ (closing ++ v) → v = []

theorem closing_eq : closing = ['*', '/'] := by decide

theorem unclosed_nil : Unclosed [] := by decide

theorem Unclosed.part {t u : Text} (h : Unclosed u) (hi : t <:+: u) : Unclosed t :=
  fun hc => h (hc.trans hi)

/-- Where two texts meet, a comment is closed only by a star before a slash. -/
theorem closing_infix_append {u v : Text} (h : closing <:+: u ++ v) :
    closing <:+: u ∨ closing <:+: v ∨ (u.getLast? = some '*' ∧ v.head? = some '/') := by
  induction u with
  | nil => exact Or.inr (Or.inl h)
  | cons c u ih =>
    rcases List.infix_cons_iff.mp h with hp | hi
    · rw [closing_eq] at hp ⊢
      obtain ⟨rfl, hslash⟩ := List.cons_prefix_cons.mp hp
      cases u with
      | nil =>
        obtain ⟨rest, rfl⟩ := hslash
        exact Or.inr (Or.inr ⟨rfl, rfl⟩)
      | cons d u =>
        obtain ⟨rfl, -⟩ := List.cons_prefix_cons.mp hslash
        exact Or.inl ⟨[], u, rfl⟩
    · rcases ih hi with h | h | ⟨hu, hv⟩
      · exact Or.inl (h.trans (List.suffix_cons c u).isInfix)
      · exact Or.inr (Or.inl h)
      · refine Or.inr (Or.inr ⟨?_, hv⟩)
        rw [List.getLast?_cons, hu]
        rfl

theorem closing_infix_append_cons {c : Char} (hs : c ≠ '*') (he : c ≠ '/') {u v : Text}
    (h : closing <:+: u ++ c :: v) : closing <:+: u ∨ closing <:+: v := by
  rcases closing_infix_append h with h | h | ⟨-, hc⟩
  · exact Or.inl h
  · rcases List.infix_cons_iff.mp h with h | h
    · rw [closing_eq] at h
      exact absurd (List.cons_prefix_cons.mp h).1.symm hs
    · exact Or.inr h
  · exact absurd (Option.some.inj hc) he

theorem Unclosed.append {u v : Text} (hu : Unclosed u) (hv : Unclosed v)
    (hs : u.getLast? ≠ some '*' ∨ v.head? ≠ some '/') : Unclosed (u ++ v) := by
  intro h
  rcases closing_infix_append h with h | h | ⟨hl, hh⟩
  · exact hu h
  · exact hv h
  · rcases hs with hs | hs
    · exact hs hl
    · exact hs hh

/-- A text without stars that does not begin with a slash closes no comment with what is around
it. -/
def Neutral (t : Text) : Prop := '*' ∉ t ∧ t.head? ≠ some '/'

instance : DecidablePred Neutral := fun _ => inferInstanceAs (Decidable (_ ∧ _))

theorem unclosed_of_not_mem {t : Text} (h : '*' ∉ t) : Unclosed t := by
  rintro ⟨u, v, rfl⟩
  exact h (by simp [closing_eq])

theorem unclosed_append_left {u t : Text} (hu : '*' ∉ u) (ht : Unclosed t) : Unclosed (u ++ t) :=
  (unclosed_of_not_mem hu).append ht (Or.inl fun hl => hu (List.mem_of_getLast? hl))

theorem Unclosed.append_right {t v : Text} (ht : Unclosed t) (hv : Neutral v) :
    Unclosed (t ++ v) :=
  ht.append (unclosed_of_not_mem hv.1) (Or.inr hv.2)

theorem Unclosed.append_between {t u v : Text} (ht : Unclosed t) (hu : Neutral u) (hne : u ≠ [])
    (hv : Unclosed v) : Unclosed (t ++ (u ++ v)) := by
  refine ht.append (unclosed_append_left hu.1 hv) (Or.inr ?_)
  rw [List.head?_append_of_ne_nil _ hne]
  exact hu.2

theorem unclosed_between {u t v : Text} (hu : '*' ∉ u) (ht : Unclosed t) (hv : Neutral v) :
    Unclosed (u ++ (t ++ v)) :=
  unclosed_append_left hu (ht.append_right hv)

theorem unclosed_among {u t v t' w : Text} (hu : '*' ∉ u) (ht : Unclosed t) (hv : Neutral v)
    (hne : v ≠ []) (ht' : Unclosed t') (hw : Neutral w) :
    Unclosed (u ++ (t ++ (v ++ (t' ++ w)))) :=
  unclosed_append_left hu (ht.append_between hv hne (ht'.append_right hw))

theorem ClosesAtEnd.part {t u : Text} (h : ClosesAtEnd u) (hi : t <:+: u) : ClosesAtEnd t := by
  -- what closes in the part closes in the whole, where nothing may follow
  obtain ⟨before, after, rfl⟩ := hi
  rintro x y rfl
  have hy := h (before ++ x) (y ++ after) (by simp)
  exact (List.append_eq_nil_iff.mp hy).1

theorem Unclosed.closesAtEnd {t : Text} (h : Unclosed t) : ClosesAtEnd t := by
  rintro u v rfl
  exact absurd ⟨u, v, List.append_assoc ..⟩ h

theorem closesAtEnd_nil : ClosesAtEnd [] := unclosed_nil.closesAtEnd

theorem unclosed_withoutClosing {t : Text} (h : ClosesAtEnd t) : Unclosed (withoutClosing t) := by
  rw [withoutClosing, Text.before?]
  cases hr : Text.after? closing.reverse t.reverse with
  | none =>
    rw [Option.map_none, Option.getD_none]
    rintro ⟨u, v, huv⟩
    rw [List.append_assoc] at huv
    obtain rfl := h u v huv.symm
    have hrev : t.reverse = closing.reverse ++ u.reverse := by simp [← huv]
    rw [Text.after?_eq_some_iff.mpr hrev] at hr
    cases hr
  | some r =>
    rw [Option.map_some, Option.getD_some]
    have ht : t = r.reverse ++ closing := by
      rw [← List.reverse_reverse t, Text.after?_eq_some_iff.mp hr]
      simp
    rintro ⟨u, v, huv⟩
    have hv := h u (v ++ closing) (by simp [ht, ← huv])
    exact absurd (List.append_eq_nil_iff.mp hv).2 (by decide)

theorem unclosed_content {t : Text} (h : ClosesAtEnd t) : Unclosed (content t) := by
  have inside : withoutOpening t.trim <:+: t :=
    (isSuffix_withoutOpening _).isInfix.trans (Text.isInfix_trim t)
  exact (unclosed_withoutClosing (h.part inside)).part (isInfix_content t)

theorem unclosed_of_mem_lines {comment l : Text} (h : ClosesAtEnd comment)
    (hl : l ∈ lines comment) : Unclosed l := by
  obtain ⟨raw, hr, rfl⟩ := List.mem_map.mp (List.mem_filter.mp hl).1
  exact unclosed_content (h.part (Text.infix_of_mem_lines comment raw hr))

end AnnotatedRoutes.Docblock
