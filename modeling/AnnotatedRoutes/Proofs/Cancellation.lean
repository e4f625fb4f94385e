import Mathlib.Data.List.Basic

namespace AnnotatedRoutes

/-- Two runs of elements of a kind, before elements that are not of it, end at one place. -/
theorem append_inj_of_run {α : Type} {p : α → Prop} {xs ys rest rest' : List α}
    (hx : ∀ x ∈ xs, p x) (hy : ∀ y ∈ ys, p y) (hr : ∀ x, rest.head? = some x → ¬ p x)
    (hr' : ∀ y, rest'.head? = some y → ¬ p y) (h : xs ++ rest = ys ++ rest') :
    xs = ys ∧ rest = rest' := by
  induction xs generalizing ys with
  | nil =>
    cases ys with
    | nil => exact ⟨rfl, h⟩
    | cons y ys =>
      have he : rest = y :: (ys ++ rest') := h
      exact absurd (hy y (by simp)) (hr y (by rw [he]; rfl))
  | cons x xs ih =>
    cases ys with
    | nil =>
      have he : x :: (xs ++ rest) = rest' := h
      exact absurd (hx x (by simp)) (hr' x (by rw [← he]; rfl))
    | cons y ys =>
      obtain ⟨he, ht⟩ := List.cons.inj h
      obtain ⟨hs, hrest⟩ := ih (fun z hz => hx z (List.mem_cons_of_mem x hz))
        (fun z hz => hy z (List.mem_cons_of_mem y hz)) ht
      exact ⟨by rw [he, hs], hrest⟩

theorem not_prefix_of_prefix {α : Type} {u v t : List α} (hu : u <+: t) (huv : ¬ u <+: v)
    (hvu : ¬ v <+: u) : ¬ v <+: t :=
  fun hv => (List.prefix_or_prefix_of_prefix hu hv).elim huv hvu

/-- Good items are written so that the beginning of one shows, and so that they can be cancelled
before all that may follow them. -/
structure Separable {α β γ : Type} (good : α → Prop) (f : α → List β) (view : α → γ)
    (starts follows : List β → Prop) : Prop where
  starts_append : ∀ a rest, good a → starts (f a ++ rest)
  follows_of_starts : ∀ rest, starts rest → follows rest
  append_inj : ∀ a b rest rest', good a → good b → follows rest → follows rest' →
    f a ++ rest = f b ++ rest' → view a = view b ∧ rest = rest'

namespace Separable

variable {α β γ : Type} {good : α → Prop} {f : α → List β} {view : α → γ}
  {starts follows : List β → Prop}

theorem follows_flatMap (s : Separable good f view starts follows) {as : List α} {rest : List β}
    (ha : ∀ a ∈ as, good a) (hr : follows rest) : follows (as.flatMap f ++ rest) := by
  cases as with
  | nil => exact hr
  | cons a as =>
    rw [List.flatMap_cons, List.append_assoc]
    exact s.follows_of_starts _ (s.starts_append a _ (ha a (by simp)))

/-- Lists of items can be cancelled as well before what may follow them but begins no item. -/
theorem flatMap_append_inj (s : Separable good f view starts follows) {as bs : List α}
    {rest rest' : List β} (ha : ∀ a ∈ as, good a) (hb : ∀ b ∈ bs, good b)
    (hr : follows rest ∧ ¬ starts rest) (hr' : follows rest' ∧ ¬ starts rest')
    (h : as.flatMap f ++ rest = bs.flatMap f ++ rest') :
    as.map view = bs.map view ∧ rest = rest' := by
  induction as generalizing bs with
  | nil =>
    cases bs with
    | nil => exact ⟨rfl, h⟩
    | cons b bs =>
      rw [List.flatMap_cons, List.append_assoc] at h
      have he : rest = f b ++ (bs.flatMap f ++ rest') := h
      exact absurd (he ▸ s.starts_append b _ (hb b (by simp))) hr.2
  | cons a as ih =>
    cases bs with
    | nil =>
      rw [List.flatMap_cons, List.append_assoc] at h
      have he : f a ++ (as.flatMap f ++ rest) = rest' := h
      exact absurd (he ▸ s.starts_append a _ (ha a (by simp))) hr'.2
    | cons b bs =>
      obtain ⟨ha, has⟩ := List.forall_mem_cons.mp ha
      obtain ⟨hb, hbs⟩ := List.forall_mem_cons.mp hb
      simp only [List.flatMap_cons, List.append_assoc] at h
      obtain ⟨hv, ht⟩ := s.append_inj a b _ _ ha hb (s.follows_flatMap has hr.1)
        (s.follows_flatMap hbs hr'.1) h
      obtain ⟨hvs, hrest⟩ := ih has hbs ht
      exact ⟨by rw [List.map_cons, List.map_cons, hv, hvs], hrest⟩

end Separable

end AnnotatedRoutes
