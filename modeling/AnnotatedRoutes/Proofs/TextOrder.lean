import AnnotatedRoutes.Text.Basic
import Mathlib.Data.List.Perm.Basic

namespace AnnotatedRoutes

namespace Text

theorem le_iff {a b : Text} : le a b = true ↔ List.le a b := by
  unfold le
  rw [decide_eq_true_eq]

theorem le_trans {a b c : Text} (h : le a b = true) (h' : le b c = true) : le a c = true :=
  le_iff.mpr (List.le_trans (le_iff.mp h) (le_iff.mp h'))

theorem le_total (a b : Text) : (le a b || le b a) = true := by
  rw [Bool.or_eq_true, le_iff, le_iff]
  exact List.le_total a b

theorem le_refl (t : Text) : le t t = true := le_iff.mpr (List.le_refl t)

theorem le_antisymm {a b : Text} (h : le a b = true) (h' : le b a = true) : a = b :=
  List.le_antisymm (le_iff.mp h) (le_iff.mp h')

theorem lt_of_le_of_ne {a b : Text} (h : le a b = true) (hne : a ≠ b) : a < b := by
  by_contra hn
  exact hne (le_antisymm h (le_iff.mpr hn))

theorem not_le_of_lt {a b : Text} (h : a < b) : ¬ le b a = true := fun hle => le_iff.mp hle h

theorem lt_of_lt_of_le {a b c : Text} (h : a < b) (h' : le b c = true) : a < c := by
  by_contra hn
  exact not_le_of_lt h (le_trans h' (le_iff.mpr hn))

theorem le_greatest {ts : List Text} {t : Text} (h : t ∈ ts) : le t (greatest ts) = true := by
  induction ts with
  | nil => cases h
  | cons u us ih =>
    rw [greatest]
    split
    next hle =>
      rcases List.mem_cons.mp h with rfl | h
      · exact hle
      · exact ih h
    next hle =>
      have hu : le (greatest us) u = true := by simpa [hle] using le_total (greatest us) u
      rcases List.mem_cons.mp h with rfl | h
      · exact le_refl t
      · exact le_trans (ih h) hu

theorem lt_append {t : Text} (ht : t ≠ []) (u : Text) : u < u ++ t := by
  induction u with
  | nil =>
    obtain ⟨c, t, rfl⟩ := List.exists_cons_of_ne_nil ht
    exact List.Lex.nil
  | cons c u ih => exact List.Lex.cons ih

/-- A proper beginning comes before the whole text. -/
theorem lt_of_prefix {u v : Text} (h : u <+: v) (hne : u ≠ v) : u < v := by
  obtain ⟨t, rfl⟩ := h
  exact lt_append (fun ht => hne (by rw [ht, List.append_nil])) u

theorem append_lt_append {u v : Text} (h : u < v) (t : Text) : t ++ u < t ++ v := by
  induction t with
  | nil => exact h
  | cons c t ih => exact List.Lex.cons ih

theorem pairwise_lt_mergeSort {ts : List Text} (h : ts.Nodup) :
    (ts.mergeSort le).Pairwise (· < ·) := by
  have hle : (ts.mergeSort le).Pairwise fun a b => le a b = true := by
    apply List.pairwise_mergeSort
    · intro a b c h h'
      exact le_trans h h'
    · exact le_total
  have hne : (ts.mergeSort le).Nodup := (List.mergeSort_perm ts _).nodup_iff.mpr h
  exact (hle.and hne).imp fun h => lt_of_le_of_ne h.1 h.2

end Text

variable {α : Type} (key : α → Text)

/-- The elements with the greatest key first; those with one key keep their order. -/
def descending (as : List α) : List α := as.mergeSort fun a b => Text.le (key b) (key a)

theorem pairwise_descending (as : List α) :
    (descending key as).Pairwise fun a b => Text.le (key b) (key a) = true := by
  apply List.pairwise_mergeSort
  · intro a b c h h'
    exact Text.le_trans h' h
  · intro a b
    exact Text.le_total (key b) (key a)

theorem descending_of_pairwise {as : List α}
    (h : as.Pairwise fun a b => Text.le (key b) (key a) = true) : descending key as = as :=
  List.mergeSort_of_pairwise h

/-- With distinct keys the sorted list does not depend on the order before. -/
theorem descending_eq_of_perm {as bs : List α} (h : as.Perm bs)
    (distinct : ∀ a ∈ as, ∀ b ∈ as, key a = key b → a = b) :
    descending key as = descending key bs := by
  have ha : (descending key as).Perm as := List.mergeSort_perm _ _
  have hb : (descending key bs).Perm bs := List.mergeSort_perm _ _
  refine List.Perm.eq_of_pairwise ?_ (pairwise_descending key as) (pairwise_descending key bs)
    (ha.trans (h.trans hb.symm))
  intro a b hma hmb hba hab
  have hma : a ∈ as := ha.mem_iff.mp hma
  have hmb : b ∈ as := h.mem_iff.mpr (hb.mem_iff.mp hmb)
  exact distinct a hma b hmb (Text.le_antisymm hab hba)

end AnnotatedRoutes
