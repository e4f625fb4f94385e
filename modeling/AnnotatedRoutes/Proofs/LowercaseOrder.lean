import AnnotatedRoutes.Proofs.TextOrder
import AnnotatedRoutes.Text.Lowercase

namespace AnnotatedRoutes.Text

theorem meetsCased_append {t : Text} (h : meetsCased t = true) (u : Text) :
    meetsCased (t ++ u) = true := by
  unfold meetsCased at h ⊢
  rw [List.dropWhile_append]
  cases hd : t.dropWhile isCaseIgnorable with
  | nil => simp [hd] at h
  | cons c v => simpa [hd] using h

/-- A text that goes on keeps the lower-case form of a character, unless that of a sigma is no
longer the final one. -/
theorem lowerBetween_append (before : Text) (c : Char) (after t : Text) :
    lowerBetween before c (after ++ t) = lowerBetween before c after ∨
      lowerBetween before c after = [Char.ofNat 0x3C2] ∧
        lowerBetween before c (after ++ t) = [Char.ofNat 0x3C3] := by
  unfold lowerBetween
  by_cases hc : c.toNat = 0x3A3
  · rw [if_pos hc, if_pos hc]
    by_cases ha : meetsCased after = true
    · left
      rw [ha, meetsCased_append ha t]
    · rw [Bool.not_eq_true] at ha
      rw [ha]
      cases meetsCased before with
      | false => exact Or.inl rfl
      | true =>
        cases meetsCased (after ++ t) with
        | false => exact Or.inl rfl
        | true => exact Or.inr ⟨rfl, rfl⟩
  · left
    rw [if_neg hc, if_neg hc]

theorem lowerBetween_ne_nil (before : Text) (c : Char) (after : Text) :
    lowerBetween before c after ≠ [] := by
  unfold lowerBetween
  by_cases hc : c.toNat = 0x3A3
  · rw [if_pos hc]
    split <;> exact List.cons_ne_nil _ _
  · rw [if_neg hc]
    split <;> exact List.cons_ne_nil _ _

theorem lowerAfter_ne_nil (before : Text) {t : Text} (ht : t ≠ []) : lowerAfter before t ≠ [] := by
  obtain ⟨c, t, rfl⟩ := List.exists_cons_of_ne_nil ht
  exact fun h => lowerBetween_ne_nil before c t (List.append_eq_nil_iff.mp h).1

theorem lowerAfter_lt_append (before u : Text) {t : Text} (ht : t ≠ []) :
    lowerAfter before u < lowerAfter before (u ++ t) := by
  induction u generalizing before with
  | nil => exact lt_append (lowerAfter_ne_nil before ht) []
  | cons c u ih =>
    have later := ih (c :: before)
    rw [List.cons_append, lowerAfter, lowerAfter]
    rcases lowerBetween_append before c u t with same | ⟨final, inner⟩
    · rw [same]
      exact append_lt_append later _
    · rw [final, inner]
      exact List.Lex.rel (by decide)

/-- In lower case too, a proper beginning comes before the whole text. -/
theorem lower_lt_of_prefix {u v : Text} (h : u <+: v) (hne : u ≠ v) : lower u < lower v := by
  obtain ⟨t, rfl⟩ := h
  exact lowerAfter_lt_append [] u fun ht => hne (by rw [ht, List.append_nil])

end AnnotatedRoutes.Text
