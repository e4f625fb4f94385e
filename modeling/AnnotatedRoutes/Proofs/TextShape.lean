import AnnotatedRoutes.Text.Blank
import AnnotatedRoutes.Text.Line
import Mathlib.Data.List.TakeWhile

namespace AnnotatedRoutes.Text

/-- No character of the text ends a line. -/
def Unbroken (t : Text) : Prop := ∀ c ∈ t, isLineBreak c = false

instance (t : Text) : Decidable t.Unbroken := List.decidableBAll _ t

theorem unbroken_append {t t' : Text} : Unbroken (t ++ t') ↔ t.Unbroken ∧ t'.Unbroken :=
  List.forall_mem_append

theorem unbroken_cons {c : Char} {t : Text} :
    Unbroken (c :: t) ↔ isLineBreak c = false ∧ t.Unbroken :=
  List.forall_mem_cons

theorem lines_cons {c : Char} (h : isLineBreak c = false) {t l : Text} {ls : List Text}
    (ht : lines t = l :: ls) : lines (c :: t) = (c :: l) :: ls := by
  have hc : c ≠ '\r' := by rintro rfl; exact absurd h (by decide)
  rw [lines]
  · simp [h, ht]
  · rintro t' rfl
    exact absurd rfl hc

theorem lines_of_unbroken {t : Text} (h : t.Unbroken) (hne : t ≠ []) : lines t = [t] := by
  induction t with
  | nil => exact absurd rfl hne
  | cons c t ih =>
    obtain ⟨hc, ht⟩ := unbroken_cons.mp h
    cases t with
    | nil => simp [lines, hc]
    | cons d t => exact lines_cons hc (ih ht (List.cons_ne_nil d t))

theorem lines_append_newline {t : Text} (h : t.Unbroken) (rest : Text) :
    lines (t ++ '\n' :: rest) = t :: lines rest := by
  induction t with
  | nil => simp [lines, isLineBreak]
  | cons c t ih =>
    obtain ⟨hc, ht⟩ := unbroken_cons.mp h
    exact lines_cons hc (ih ht)

theorem lines_join {ls : List Text} {last : Text} (h : ∀ l ∈ ls, l.Unbroken)
    (hl : last.Unbroken) (hne : last ≠ []) : lines (join ['\n'] (ls ++ [last])) = ls ++ [last] := by
  induction ls with
  | nil => exact lines_of_unbroken hl hne
  | cons l ls ih =>
    obtain ⟨h, hs⟩ := List.forall_mem_cons.mp h
    have hj : join ['\n'] (l :: (ls ++ [last])) = l ++ '\n' :: join ['\n'] (ls ++ [last]) := by
      cases ls with
      | nil => simp [join]
      | cons l' ls => simp [join]
    rw [List.cons_append, hj, lines_append_newline h, ih hs]

/-- The text has no blanks around it. -/
def Trimmed (t : Text) : Prop := trim t = t

instance (t : Text) : Decidable t.Trimmed := inferInstanceAs (Decidable (_ = _))

theorem trim_cons_of_blank {c : Char} (h : isBlank c = true) (t : Text) :
    trim (c :: t) = trim t := by
  simp [trim, trimStart, trimStartOf, h]

theorem dropWhile_eq_self_iff_head {p : Char → Bool} {t : Text} :
    t.dropWhile p = t ↔ ∀ c, t.head? = some c → p c = false := by
  rw [List.dropWhile_eq_self_iff]
  cases t <;> simp

/-- Only the two ends of a text decide whether it is trimmed. -/
theorem trimmed_iff {t : Text} : t.Trimmed ↔
    (∀ c, t.head? = some c → isBlank c = false) ∧ ∀ c, t.getLast? = some c → isBlank c = false := by
  have hs : t.trimStart = t ↔ ∀ c, t.head? = some c → isBlank c = false :=
    dropWhile_eq_self_iff_head
  have he : t.trimEnd = t ↔ ∀ c, t.getLast? = some c → isBlank c = false := by
    rw [trimEnd, trimEndOf, List.reverse_eq_iff, dropWhile_eq_self_iff_head, List.head?_reverse]
  rw [← hs, ← he]
  constructor
  · intro h
    have hle := length_dropWhile_le isBlank t.trimStart.reverse
    have hlen : t.length ≤ t.trimStart.length := by
      calc t.length = t.trim.length := by rw [show t.trim = t from h]
        _ ≤ t.trimStart.length := by simpa [trim, trimEnd, trimEndOf] using hle
    have hstart : t.trimStart = t := (List.dropWhile_suffix isBlank).eq_of_length_le hlen
    have hend : t.trimStart.trimEnd = t := h
    exact ⟨hstart, by rwa [hstart] at hend⟩
  · rintro ⟨hs, he⟩
    rw [Trimmed, trim, hs, he]

/-- A trimmed text stays so behind a text that does not begin with a blank. -/
theorem Trimmed.append {t u : Text} (ht : t.Trimmed) (hne : t ≠ []) {c : Char}
    (hu : u.head? = some c) (hc : isBlank c = false) : (u ++ t).Trimmed := by
  refine trimmed_iff.mpr ⟨?_, ?_⟩
  · intro d hd
    rw [List.head?_append, hu] at hd
    cases Option.some.inj hd
    exact hc
  · intro d hd
    obtain ⟨e, he⟩ := Option.ne_none_iff_exists'.mp (mt List.getLast?_eq_none_iff.mp hne)
    rw [List.getLast?_append, he] at hd
    cases Option.some.inj hd
    exact (trimmed_iff.mp ht).2 d he

end AnnotatedRoutes.Text
