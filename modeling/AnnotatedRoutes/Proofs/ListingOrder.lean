import AnnotatedRoutes.Proofs.TextOrder

namespace AnnotatedRoutes

namespace Discovery

/-- Names of which the first come before the second in the listing of a directory: the files in it
come first, then what is in its subdirectories, both in the order of the names. -/
inductive Precedes : List Text → List Text → Prop
  | file {a b : Text} (h : a < b) : Precedes [a] [b]
  | fileFirst (a b : Text) {bs : List Text} (hb : bs ≠ []) : Precedes [a] (b :: bs)
  | directory {a b : Text} {as bs : List Text} (h : a < b) (ha : as ≠ []) (hb : bs ≠ []) :
    Precedes (a :: as) (b :: bs)
  | within (a : Text) {as bs : List Text} (h : Precedes as bs) : Precedes (a :: as) (a :: bs)

namespace Precedes

theorem ne_nil {as bs : List Text} (h : Precedes as bs) : as ≠ [] ∧ bs ≠ [] := by
  cases h <;> simp

theorem cons_iff {a b : Text} {as bs : List Text} (ha : as ≠ []) (hb : bs ≠ []) :
    Precedes (a :: as) (b :: bs) ↔ a < b ∨ a = b ∧ Precedes as bs := by
  constructor
  · intro h
    cases h with
    | file => exact absurd rfl ha
    | fileFirst => exact absurd rfl ha
    | directory h => exact .inl h
    | within _ h => exact .inr ⟨rfl, h⟩
  · rintro (h | ⟨rfl, h⟩)
    · exact .directory h ha hb
    · exact .within a h

theorem append_left {as bs : List Text} (h : Precedes as bs) (names : List Text) :
    Precedes (names ++ as) (names ++ bs) := by
  induction names with
  | nil => exact h
  | cons name names ih => exact .within name ih

theorem asymm {as bs : List Text} (h : Precedes as bs) : ¬ Precedes bs as := by
  induction h with
  | file h =>
    intro h'
    cases h' with
    | file h' => exact List.lt_asymm h h'
    | fileFirst _ _ hb => exact hb rfl
    | directory _ ha => exact ha rfl
    | within _ h' => exact h'.ne_nil.1 rfl
  | fileFirst a b hb =>
    intro h'
    cases h' with
    | file => exact hb rfl
    | fileFirst _ _ hb' => exact hb' rfl
    | directory _ _ ha => exact ha rfl
    | within _ h' => exact h'.ne_nil.2 rfl
  | directory h ha hb =>
    rw [cons_iff hb ha]
    rintro (h' | ⟨rfl, -⟩)
    · exact List.lt_asymm h h'
    · exact List.lt_irrefl _ h
  | within a h ih =>
    rw [cons_iff h.ne_nil.2 h.ne_nil.1]
    rintro (h' | ⟨-, h'⟩)
    · exact List.lt_irrefl _ h'
    · exact ih h'

theorem ne {as bs : List Text} (h : Precedes as bs) : as ≠ bs := by
  rintro rfl
  exact h.asymm h

end Precedes

/-- The order of files below a directory: the files of a directory come before those of its
subdirectories, and both come in the order of their names. -/
def before : List Text → List Text → Bool
  | [], _ => true
  | _ :: _, [] => false
  | [a], [b] => Text.le a b
  | [_], _ :: _ :: _ => true
  | _ :: _ :: _, [_] => false
  | a :: c :: as, b :: d :: bs => if a = b then before (c :: as) (d :: bs) else Text.le a b

theorem le_iff_eq_or_lt {a b : Text} : Text.le a b = true ↔ a = b ∨ a < b := by
  constructor
  · intro h
    by_cases hab : a = b
    · exact .inl hab
    · exact .inr (Text.lt_of_le_of_ne h hab)
  · rintro (rfl | h)
    · exact Text.le_refl a
    · exact Text.le_iff.mpr (List.le_of_lt h)

theorem before_iff {as bs : List Text} (ha : as ≠ []) (hb : bs ≠ []) :
    before as bs = true ↔ as = bs ∨ Precedes as bs := by
  fun_induction before as bs with
  | case1 => exact absurd rfl ha
  | case2 => exact absurd rfl hb
  | case3 a b =>
    rw [le_iff_eq_or_lt, List.cons.injEq, and_iff_left rfl]
    refine or_congr_right ⟨.file, fun h => ?_⟩
    cases h with
    | file h => exact h
    | fileFirst _ _ hb => exact absurd rfl hb
    | directory _ ha => exact absurd rfl ha
    | within _ h => exact absurd rfl h.ne_nil.1
  | case4 a b d bs =>
    exact iff_of_true rfl (.inr (.fileFirst a b (List.cons_ne_nil d bs)))
  | case5 a c as b =>
    refine iff_of_false (by simp) ?_
    rintro (h | h)
    · simp at h
    · cases h with
      | directory _ _ hb => exact absurd rfl hb
      | within _ h => exact absurd rfl h.ne_nil.2
  | case6 c as a d bs ih =>
    have ha : c :: as ≠ [] := List.cons_ne_nil c as
    have hb : d :: bs ≠ [] := List.cons_ne_nil d bs
    have hirrefl : ¬ a < a := List.lt_irrefl a
    rw [ih ha hb, Precedes.cons_iff ha hb]
    simp only [List.cons.injEq, true_and, hirrefl, false_or]
  | case7 a c as b d bs hne =>
    rw [Precedes.cons_iff (List.cons_ne_nil c as) (List.cons_ne_nil d bs), le_iff_eq_or_lt]
    simp [hne]

theorem before_total (as bs : List Text) : (before as bs || before bs as) = true := by
  fun_induction before as bs with
  | case1 | case4 => rfl
  | case2 | case5 => rfl
  | case3 a b => exact Text.le_total a b
  | case6 c as a d bs ih =>
    rw [before, if_pos rfl]
    exact ih
  | case7 a c as b d bs hne =>
    rw [before, if_neg (Ne.symm hne)]
    exact Text.le_total a b

theorem before_trans {as bs cs : List Text} (h : before as bs = true) (h' : before bs cs = true) :
    before as cs = true := by
  fun_induction before as bs generalizing cs with
  | case1 => rfl
  | case2 | case5 => cases h
  | case3 a b =>
    match cs with
    | [] => cases h'
    | [c] => exact Text.le_trans h h'
    | c :: _ :: _ => rfl
  | case4 a b d bs =>
    match cs with
    | [] | [_] => cases h'
    | _ :: _ :: _ => rfl
  | case6 c as a d bs ih =>
    match cs with
    | [] | [_] => cases h'
    | e :: f :: cs =>
      rw [before] at h' ⊢
      split at h'
      next hae => rw [if_pos hae]; exact ih h h'
      next hae => rw [if_neg hae]; exact h'
  | case7 a c as b d bs hne =>
    match cs with
    | [] | [_] => cases h'
    | e :: f :: cs =>
      rw [before] at h' ⊢
      split at h'
      next hbe =>
        obtain rfl := hbe
        rw [if_neg hne]
        exact h
      next hbe =>
        have hae : a ≠ e := by
          rintro rfl
          exact hne (Text.le_antisymm h h')
        rw [if_neg hae]
        exact Text.le_trans h h'

end Discovery

end AnnotatedRoutes
