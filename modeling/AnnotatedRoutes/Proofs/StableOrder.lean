import AnnotatedRoutes.Proofs.OutputOrder
import AnnotatedRoutes.Proofs.TextOrder

namespace AnnotatedRoutes

section Pair

variable {α : Type} {a b c : α} {as bs : List α}

theorem pair_sublist_cons : [a, b].Sublist (c :: as) ↔ a = c ∧ b ∈ as ∨ [a, b].Sublist as := by
  rw [List.cons_sublist_cons', List.singleton_sublist, or_comm]

theorem mem_of_pair_sublist (h : [a, b].Sublist as) : a ∈ as ∧ b ∈ as :=
  ⟨h.subset (by simp), h.subset (by simp)⟩

theorem pair_sublist_append : [a, b].Sublist (as ++ bs) ↔
    [a, b].Sublist as ∨ a ∈ as ∧ b ∈ bs ∨ [a, b].Sublist bs := by
  induction as with
  | nil => simp
  | cons c as ih =>
    rw [List.cons_append, pair_sublist_cons, pair_sublist_cons, ih, List.mem_append, List.mem_cons,
      and_or_left, or_and_right]
    simp only [or_assoc, or_left_comm]

theorem pair_sublist_total (hne : a ≠ b) (ha : a ∈ as) (hb : b ∈ as) :
    [a, b].Sublist as ∨ [b, a].Sublist as := by
  induction as with
  | nil => cases ha
  | cons c as ih =>
    rw [pair_sublist_cons, pair_sublist_cons]
    rcases List.mem_cons.mp ha with rfl | ha'
    · exact Or.inl (Or.inl ⟨rfl, (List.mem_cons.mp hb).resolve_left hne.symm⟩)
    · rcases List.mem_cons.mp hb with rfl | hb'
      · exact Or.inr (Or.inl ⟨rfl, ha'⟩)
      · exact (ih ha' hb').imp Or.inr Or.inr

theorem not_pair_sublist_swap (hn : as.Nodup) (h : [a, b].Sublist as) : ¬ [b, a].Sublist as := by
  induction as with
  | nil => cases h
  | cons c as ih =>
    obtain ⟨hc, hn⟩ := List.nodup_cons.mp hn
    rw [pair_sublist_cons] at h ⊢
    rintro (⟨rfl, ha⟩ | h')
    · rcases h with ⟨rfl, -⟩ | h
      · exact hc ha
      · exact hc (mem_of_pair_sublist h).2
    · rcases h with ⟨rfl, -⟩ | h
      · exact hc (mem_of_pair_sublist h').2
      · exact ih hn h h'

/-- What is added at the end does not change the order of the elements before it. -/
theorem pair_sublist_append_left (hn : (as ++ bs).Nodup) (ha : a ∈ as) (hb : b ∈ as) :
    [a, b].Sublist (as ++ bs) ↔ [a, b].Sublist as := by
  have hout : ∀ d ∈ as, d ∉ bs := fun d hd hd' => (List.nodup_append.mp hn).2.2 d hd d hd' rfl
  rw [pair_sublist_append, or_iff_left]
  rintro (⟨-, hb'⟩ | h)
  · exact hout b hb hb'
  · exact hout a ha (mem_of_pair_sublist h).1

/-- Two lists of the same elements that agree on the order of every two of them are equal. -/
theorem eq_of_pair_sublist (hp : as.Perm bs) (hn : bs.Nodup)
    (h : ∀ {a b}, [a, b].Sublist as → [a, b].Sublist bs) : as = bs := by
  refine hp.eq_of_pairwise ?_ (List.pairwise_iff_forall_sublist.mpr h)
    (List.pairwise_iff_forall_sublist.mpr id)
  exact fun a b _ _ hab hba => absurd hba (not_pair_sublist_swap hn hab)

/-- In a sorted list the greater key comes first, and equal keys keep their order. -/
theorem pair_sublist_descending_iff (key : α → Text) (hn : as.Nodup) (hne : a ≠ b) (ha : a ∈ as)
    (hb : b ∈ as) : [a, b].Sublist (descending key as) ↔
      key b < key a ∨ key a = key b ∧ [a, b].Sublist as := by
  have hperm : (descending key as).Perm as := List.mergeSort_perm _ _
  have hsorted : ∀ {a b}, [a, b].Sublist (descending key as) → Text.le (key b) (key a) = true :=
    List.pairwise_iff_forall_sublist.mp (pairwise_descending key as)
  have hstable : ∀ {a b}, Text.le (key b) (key a) = true → [a, b].Sublist as →
      [a, b].Sublist (descending key as) := by
    intro a b hk hs
    refine List.pair_sublist_mergeSort ?_ ?_ hk hs
    · exact fun a b c h h' => Text.le_trans h' h
    · exact fun a b => Text.le_total (key b) (key a)
  constructor
  · intro h
    by_cases he : key a = key b
    · refine Or.inr ⟨he, (pair_sublist_total hne ha hb).resolve_right fun hs => ?_⟩
      have hswap := hstable (he ▸ Text.le_refl (key a)) hs
      exact not_pair_sublist_swap (hperm.nodup_iff.mpr hn) h hswap
    · exact Or.inl (Text.lt_of_le_of_ne (hsorted h) (Ne.symm he))
  · rintro (hlt | ⟨he, hs⟩)
    · refine (pair_sublist_total hne (hperm.mem_iff.mpr ha)
        (hperm.mem_iff.mpr hb)).resolve_right fun hs => ?_
      exact Text.not_le_of_lt hlt (hsorted hs)
    · exact hstable (he ▸ Text.le_refl (key a)) hs

end Pair

theorem firstOfEach_append {α κ : Type} [DecidableEq κ] (key : α → κ) (as bs : List α) :
    firstOfEach key (as ++ bs) =
      firstOfEach key as ++ (firstOfEach key bs).filter (key · ∉ as.map key) := by
  induction as with
  | nil => simp [firstOfEach]
  | cons a as ih =>
    rw [List.cons_append, firstOfEach, ih, firstOfEach, List.filter_append, List.filter_filter]
    simp [not_or]

namespace Keyed

variable {α β : Type} [DecidableEq α]

theorem keys_put (m : Keyed α β) (key : α) (value : β) :
    (m.put key value).keys = if key ∈ m.keys then m.keys else m.keys ++ [key] :=
  map_fst_putEntry key value m.entries

/-- New keys come behind those that are there, in the order in which they are first written. -/
theorem keys_putAll (m : Keyed α β) (pairs : List (α × β)) :
    (m.putAll pairs).keys =
      m.keys ++ (firstOfEach id (pairs.map Prod.fst)).filter (· ∉ m.keys) := by
  induction pairs generalizing m with
  | nil => simp [firstOfEach]
  | cons p pairs ih =>
    rw [putAll_cons, ih, keys_put, List.map_cons, firstOfEach]
    split
    next h =>
      have hf : ∀ k ∈ firstOfEach id (pairs.map Prod.fst),
          (decide (k ∉ m.keys) && decide (id k ≠ id p.1)) = decide (k ∉ m.keys) := by
        intro k _
        by_cases hk : k = p.1
        · simp [hk, h]
        · simp [hk]
      rw [List.filter_cons_of_neg (by simpa using h), List.filter_filter, List.filter_congr hf]
    next h =>
      rw [List.filter_cons_of_pos (by simpa using h), List.filter_filter, List.append_assoc,
        List.singleton_append]
      simp [not_or]

/-- The entries are the keys with what is found under them. -/
theorem filterMap_keys (m : Keyed α β) :
    (m.keys.filterMap fun key => (m.get? key).map fun value => (key, value)) = m.entries := by
  rw [keys, List.filterMap_map]
  have h : ∀ entry ∈ m.entries,
      ((fun key => (m.get? key).map fun value => (key, value)) ∘ Prod.fst) entry = some entry := by
    intro entry he
    rw [Function.comp_apply, get?_eq_some_iff.mpr he, Option.map_some]
  rw [List.filterMap_congr h, List.filterMap_some]

theorem eq_of_keys_eq {m m' : Keyed α β} (hk : m.keys = m'.keys)
    (h : ∀ key, m.get? key = m'.get? key) : m = m' := by
  apply Keyed.ext
  rw [← m.filterMap_keys, ← m'.filterMap_keys, hk]
  simp only [h]

theorem pair_sublist_keys_iff {m : Keyed α β} {x y : α} {u v : β} (hx : m.get? x = some u)
    (hy : m.get? y = some v) : [x, y].Sublist m.keys ↔ [(x, u), (y, v)].Sublist m.entries := by
  constructor
  · intro h
    obtain ⟨entries, hs, he⟩ := List.sublist_map_iff.mp h
    obtain ⟨first, rest, rfl, rfl, hrest⟩ := List.map_eq_cons_iff.mp he.symm
    obtain ⟨second, rest, rfl, rfl, hnil⟩ := List.map_eq_cons_iff.mp hrest
    obtain rfl := List.map_eq_nil_iff.mp hnil
    obtain ⟨hu, hv⟩ := mem_of_pair_sublist hs
    rw [get?_eq_some_iff.mpr hu] at hx
    rw [get?_eq_some_iff.mpr hv] at hy
    cases hx
    cases hy
    exact hs
  · exact fun h => h.map Prod.fst

/-- A sort by the values moves a greater value to the front and keeps the order of equal ones. -/
theorem pair_sublist_keys_sortBy_iff {m : Keyed α β} {key : β → Text} {x y : α} {u v : β}
    (hne : x ≠ y) (hx : m.get? x = some u) (hy : m.get? y = some v) :
    [x, y].Sublist (m.sortBy fun a b => Text.le (key b.2) (key a.2)).keys ↔
      key v < key u ∨ key u = key v ∧ [x, y].Sublist m.keys := by
  rw [pair_sublist_keys_iff ((get?_sortBy m _ x).trans hx) ((get?_sortBy m _ y).trans hy),
    pair_sublist_keys_iff hx hy]
  exact pair_sublist_descending_iff (fun entry => key entry.2) (List.Nodup.of_map _ m.distinct)
    (fun h => hne (congrArg Prod.fst h)) (get?_eq_some_iff.mp hx) (get?_eq_some_iff.mp hy)

end Keyed

end AnnotatedRoutes
