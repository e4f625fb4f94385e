import AnnotatedRoutes.Source.ClassScan
import Mathlib.Data.List.Infix

namespace AnnotatedRoutes.Source

/-- As many braces close as open, and at no point more. -/
structure Balanced (t : Text) : Prop where
  within : ∀ p, p <+: t → p.count '}' ≤ p.count '{'
  settled : t.count '}' = t.count '{'

instance (t : Text) : Decidable (Balanced t) :=
  decidable_of_iff ((∀ p ∈ t.inits, p.count '}' ≤ p.count '{') ∧ t.count '}' = t.count '{')
    ⟨fun ⟨hw, hs⟩ => ⟨fun p hp => hw p ((List.mem_inits p t).mpr hp), hs⟩,
      fun h => ⟨fun p hp => h.within p ((List.mem_inits p t).mp hp), h.settled⟩⟩

theorem prefix_append_cases {u v p : Text} (h : p <+: u ++ v) :
    p <+: u ∨ ∃ q, q <+: v ∧ p = u ++ q := by
  rcases List.prefix_or_prefix_of_prefix h (List.prefix_append u v) with hp | ⟨q, rfl⟩
  · exact Or.inl hp
  · exact Or.inr ⟨q, (List.prefix_append_right_inj u).mp h, rfl⟩

theorem balanced_of_not_mem {t : Text} (ho : '{' ∉ t) (hc : '}' ∉ t) : Balanced t where
  within p hp := by simp [List.count_eq_zero_of_not_mem fun hm => hc (hp.subset hm)]
  settled := by rw [List.count_eq_zero_of_not_mem ho, List.count_eq_zero_of_not_mem hc]

theorem Balanced.append {u v : Text} (hu : Balanced u) (hv : Balanced v) : Balanced (u ++ v) where
  within p hp := by
    rcases prefix_append_cases hp with hp | ⟨q, hq, rfl⟩
    · exact hu.within p hp
    · have := hv.within q hq
      rw [List.count_append, List.count_append, hu.settled]
      omega
  settled := by rw [List.count_append, List.count_append, hu.settled, hv.settled]

/-- Behind an open brace, a balanced text has more open braces than closed ones throughout. -/
theorem Balanced.count_lt {u t p : Text} (hu : Balanced u) (ht : Balanced t) (hp : p <+: t) :
    (u ++ '{' :: p).count '}' < (u ++ '{' :: p).count '{' := by
  have := ht.within p hp
  simp [hu.settled]
  omega

theorem Balanced.braced {t : Text} (h : Balanced t) : Balanced ('{' :: (t ++ ['}'])) where
  within p hp := by
    rcases List.prefix_cons_iff.mp hp with rfl | ⟨q, rfl, hq⟩
    · simp
    · rcases prefix_append_cases hq with hq | ⟨r, hr, rfl⟩
      · have := h.within q hq
        simp
        omega
      · have := h.settled
        have := hr.sublist.count_le '}'
        simp at this ⊢
        omega
  settled := by simp [h.settled]

theorem bracesBalanced_of_take {t p : Text} {i : Nat} (h : t.take i = p) :
    bracesBalanced t i = (p.count '{' == p.count '}') := by
  rw [bracesBalanced, h]

theorem Balanced.bracesBalanced_length {u : Text} (hu : Balanced u) (v : Text) :
    bracesBalanced (u ++ v) u.length = true := by
  rw [bracesBalanced_of_take List.take_left, hu.settled, beq_self_eq_true]

theorem Balanced.bracesBalanced_append {u : Text} (hu : Balanced u) (v : Text) (i : Nat) :
    bracesBalanced (u ++ v) (u.length + i) = bracesBalanced v i := by
  rw [bracesBalanced_of_take (List.take_length_add_append i), bracesBalanced]
  rw [List.count_append, List.count_append, hu.settled, Bool.eq_iff_iff, beq_iff_eq, beq_iff_eq]
  omega

/-- Between the braces of a member the braces do not balance. -/
theorem Balanced.bracesBalanced_inside {u inside : Text} (hu : Balanced u) (hi : Balanced inside)
    (rest : Text) {i : Nat} (hlt : u.length < i) (hle : i ≤ u.length + 1 + inside.length) :
    bracesBalanced (u ++ '{' :: (inside ++ rest)) i = false := by
  obtain ⟨j, rfl⟩ : ∃ j, i = u.length + (j + 1) := ⟨i - u.length - 1, by omega⟩
  have htake : (u ++ '{' :: (inside ++ rest)).take (u.length + (j + 1)) =
      u ++ '{' :: inside.take j := by
    rw [List.take_length_add_append, List.take_succ_cons, List.take_append_of_le_length (by omega)]
  have := hu.count_lt hi (List.take_prefix j inside)
  rw [bracesBalanced_of_take htake, beq_eq_false_iff_ne]
  omega

theorem bodyLength_open (depth : Nat) (t : Text) :
    bodyLength depth ('{' :: t) = bodyLength (depth + 1) t + 1 := by
  simp [bodyLength]

theorem bodyLength_close (depth : Nat) (t : Text) :
    bodyLength (depth + 2) ('}' :: t) = bodyLength (depth + 1) t + 1 := by
  simp [bodyLength]

theorem bodyLength_end (t : Text) : bodyLength 1 ('}' :: t) = 0 := by
  simp [bodyLength]

theorem bodyLength_other {c : Char} (ho : c ≠ '{') (hc : c ≠ '}') (depth : Nat) (t : Text) :
    bodyLength depth (c :: t) = bodyLength depth t + 1 := by
  simp [bodyLength, ho, hc]

/-- A text that closes no more than what is open stands inside the body. -/
theorem bodyLength_append {depth : Nat} {t : Text}
    (h : ∀ p, p <+: t → p.count '}' ≤ p.count '{' + depth) (rest : Text) :
    bodyLength (depth + 1) (t ++ rest) =
      t.length + bodyLength (depth + t.count '{' - t.count '}' + 1) rest := by
  induction t generalizing depth with
  | nil => simp
  | cons c t ih =>
    have htail : ∀ p, p <+: t → (c :: p).count '}' ≤ (c :: p).count '{' + depth :=
      fun p hp => h (c :: p) (List.prefix_cons_inj c |>.mpr hp)
    rw [List.cons_append]
    by_cases ho : c = '{'
    · subst ho
      have hs : ∀ p, p <+: t → p.count '}' ≤ p.count '{' + (depth + 1) := by
        intro p hp
        have := htail p hp
        simp at this
        omega
      have hd : depth + ('{' :: t).count '{' - ('{' :: t).count '}' =
          depth + 1 + t.count '{' - t.count '}' := by
        simp
        omega
      rw [bodyLength_open, ih hs, hd, List.length_cons]
      omega
    · by_cases hc : c = '}'
      · subst hc
        obtain ⟨depth, rfl⟩ : ∃ d, depth = d + 1 := by
          have := htail [] List.nil_prefix
          exact ⟨depth - 1, by simp at this; omega⟩
        have hs : ∀ p, p <+: t → p.count '}' ≤ p.count '{' + depth := by
          intro p hp
          have := htail p hp
          simp at this
          omega
        have hd : depth + 1 + ('}' :: t).count '{' - ('}' :: t).count '}' =
            depth + t.count '{' - t.count '}' := by
          simp
          omega
        rw [bodyLength_close, ih hs, hd, List.length_cons]
        omega
      · have hs : ∀ p, p <+: t → p.count '}' ≤ p.count '{' + depth := by
          intro p hp
          have := htail p hp
          simpa [List.count_cons, ho, hc] using this
        rw [bodyLength_other ho hc, ih hs, List.count_cons_of_ne ho, List.count_cons_of_ne hc,
          List.length_cons]
        omega

theorem Balanced.bodyLength_append {t : Text} (h : Balanced t) (depth : Nat) (rest : Text) :
    bodyLength (depth + 1) (t ++ rest) = t.length + bodyLength (depth + 1) rest := by
  rw [Source.bodyLength_append fun p hp => (h.within p hp).trans (Nat.le_add_right _ _), h.settled,
    Nat.add_sub_cancel]

end AnnotatedRoutes.Source
