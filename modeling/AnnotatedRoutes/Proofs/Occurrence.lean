import AnnotatedRoutes.Text.Basic
import Mathlib.Data.List.Infix

namespace AnnotatedRoutes.Text

theorem prefix_append_iff {p u : Text} (h : p.length ≤ u.length) (v : Text) :
    p <+: u ++ v ↔ p <+: u :=
  ⟨fun hp => List.prefix_of_prefix_length_le hp (List.prefix_append u v) h,
    fun hp => hp.trans (List.prefix_append u v)⟩

theorem exists_append_of_append_eq {p u v w : Text} (h : u ++ v = p ++ w)
    (hp : p.length ≤ u.length) : ∃ u', u = p ++ u' ∧ w = u' ++ v := by
  obtain ⟨u', rfl⟩ := (prefix_append_iff hp v).mp ⟨w, h.symm⟩
  rw [List.append_assoc] at h
  exact ⟨u', rfl, (List.append_cancel_left h).symm⟩

theorem indexOf?_cons_of_starts {p t : Text} {c : Char} (h : p <+: c :: t) :
    indexOf? p (c :: t) = some 0 := by
  rw [indexOf?, if_pos (List.isPrefixOf_iff_prefix.mpr h)]

theorem indexOf?_cons_of_not_starts {p t : Text} {c : Char} (h : ¬ p <+: c :: t) :
    indexOf? p (c :: t) = (indexOf? p t).map (· + 1) := by
  rw [indexOf?, if_neg fun hp => h (List.isPrefixOf_iff_prefix.mp hp)]

theorem exists_append_of_indexOf? {p t : Text} {n : Nat} (h : indexOf? p t = some n) :
    ∃ u v, t = u ++ (p ++ v) ∧ u.length = n := by
  induction t generalizing n with
  | nil =>
    simp only [indexOf?] at h
    split at h
    next hp => exact ⟨[], [], by simp [hp], by simpa using h⟩
    next => simp at h
  | cons c t ih =>
    by_cases hp : p <+: c :: t
    · rw [indexOf?_cons_of_starts hp] at h
      obtain ⟨v, hv⟩ := hp
      exact ⟨[], v, hv.symm, by simpa using h⟩
    · rw [indexOf?_cons_of_not_starts hp] at h
      obtain ⟨m, hm, rfl⟩ := Option.map_eq_some_iff.mp h
      obtain ⟨u, v, rfl, rfl⟩ := ih hm
      exact ⟨c :: u, v, rfl, rfl⟩

/-- The first occurrence does not stand behind any other. -/
theorem exists_indexOf?_le {p : Text} (hp : p ≠ []) (u v : Text) :
    ∃ n, indexOf? p (u ++ (p ++ v)) = some n ∧ n ≤ u.length := by
  induction u with
  | nil =>
    obtain ⟨c, q, rfl⟩ := List.exists_cons_of_ne_nil hp
    exact ⟨0, indexOf?_cons_of_starts (List.prefix_append (c :: q) v), Nat.le_refl 0⟩
  | cons c u ih =>
    obtain ⟨n, hn, hle⟩ := ih
    by_cases hc : p <+: c :: (u ++ (p ++ v))
    · exact ⟨0, indexOf?_cons_of_starts hc, Nat.zero_le _⟩
    · refine ⟨n + 1, ?_, Nat.succ_le_succ hle⟩
      rw [List.cons_append, indexOf?_cons_of_not_starts hc, hn]
      rfl

theorem not_mem_take_of_indexOf? {c : Char} {t : Text} {n : Nat} (h : indexOf? [c] t = some n) :
    c ∉ t.take n := by
  intro hm
  obtain ⟨u, v, huv⟩ := List.append_of_mem hm
  have ht : t = u ++ ([c] ++ (v ++ t.drop n)) := by
    conv_lhs => rw [← List.take_append_drop n t, huv]
    simp
  obtain ⟨i, hi, hle⟩ := exists_indexOf?_le (List.cons_ne_nil c []) u (v ++ t.drop n)
  rw [← ht, h] at hi
  obtain rfl := Option.some.inj hi
  have := congrArg List.length huv
  simp at this
  omega

/-- A first occurrence inside the beginning of a text does not depend on what follows. -/
theorem indexOf?_append_iff {p u : Text} {n : Nat} (hp : p ≠ []) (h : n + p.length ≤ u.length)
    (v : Text) : indexOf? p (u ++ v) = some n ↔ indexOf? p u = some n := by
  induction u generalizing n with
  | nil =>
    have hl := List.length_pos_iff.mpr hp
    simp only [List.length_nil] at h
    omega
  | cons c u ih =>
    have hpre := prefix_append_iff (show p.length ≤ (c :: u).length by omega) v
    rw [List.cons_append] at hpre ⊢
    by_cases hc : p <+: c :: u
    · rw [indexOf?_cons_of_starts hc, indexOf?_cons_of_starts (hpre.mpr hc)]
    · rw [indexOf?_cons_of_not_starts hc, indexOf?_cons_of_not_starts (mt hpre.mp hc)]
      cases n with
      | zero => simp
      | succ n =>
        have hu : n + p.length ≤ u.length := by simp only [List.length_cons] at h; omega
        simpa using ih hu

end AnnotatedRoutes.Text
