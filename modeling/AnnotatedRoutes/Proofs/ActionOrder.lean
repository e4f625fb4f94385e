import AnnotatedRoutes.Proofs.RecordOrder
import AnnotatedRoutes.Proofs.RepeatedClass

namespace AnnotatedRoutes

theorem Text.greatest_mem {ts : List Text} (h : ts ≠ []) : greatest ts ∈ ts := by
  induction ts with
  | nil => exact absurd rfl h
  | cons t ts ih =>
    rw [greatest]
    split
    next hle =>
      by_cases hts : ts = []
      · subst hts
        have hempty : Text.le (greatest []) t = true := by
          rw [greatest, le_iff]
          exact List.nil_le t
        exact List.mem_cons.mpr (Or.inl (Text.le_antisymm hempty hle))
      · exact List.mem_cons_of_mem t (ih hts)
    next => exact List.mem_cons_self

theorem ne_of_pair_sublist {α : Type} {a b : α} {as : List α} (hn : as.Nodup)
    (h : [a, b].Sublist as) : a ≠ b := by
  rintro rfl
  exact not_pair_sublist_swap hn h h

/-- The greatest lower-case URL of an action, or the empty text where there is none. -/
structure Action.HasKey (a : Action) (key : Text) : Prop where
  bound : ∀ route ∈ a.routes, Text.le (Text.lower route.url) key = true
  attained : a.routes ≠ [] → ∃ route ∈ a.routes, Text.lower route.url = key
  empty : a.routes = [] → key = []

theorem Action.hasKey_iff {a : Action} {key : Text} : a.HasKey key ↔ key = a.sortKey := by
  have hkey : a.HasKey a.sortKey := by
    constructor
    case bound => exact fun route h => lower_le_sortKey h
    case attained =>
      intro hne
      exact List.mem_map.mp (Text.greatest_mem (by simpa using hne))
    case empty =>
      intro hnil
      rw [sortKey, hnil]
      rfl
  refine ⟨fun h => ?_, fun h => h ▸ hkey⟩
  by_cases hnil : a.routes = []
  · rw [h.empty hnil, hkey.empty hnil]
  · obtain ⟨route, hroute, rfl⟩ := h.attained hnil
    obtain ⟨other, hother, he⟩ := hkey.attained hnil
    exact Text.le_antisymm (hkey.bound route hroute) (he ▸ h.bound other hother)

namespace Controller

variable {k k' : Controller}

/-- A controller with the same actions in descending order of their sort keys, those with one sort
key in the order in which they were. -/
structure SortedInto (k k' : Controller) : Prop where
  className : k'.className = k.className
  perm : k'.actions.entries.Perm k.actions.entries
  descending : k'.Descending
  stable : ∀ {a b : Text × Action}, a.2.sortKey = b.2.sortKey →
    ([a, b].Sublist k'.actions.entries ↔ [a, b].Sublist k.actions.entries)

theorem nodup_entries (k : Controller) : k.actions.entries.Nodup :=
  List.Nodup.of_map _ k.actions.distinct

/-- Which of two actions comes first after the sort. -/
theorem pair_sublist_orderActions_iff {a b : Text × Action} (hne : a ≠ b)
    (ha : a ∈ k.actions.entries) (hb : b ∈ k.actions.entries) :
    [a, b].Sublist k.orderActions.actions.entries ↔
      b.2.sortKey < a.2.sortKey ∨
        a.2.sortKey = b.2.sortKey ∧ [a, b].Sublist k.actions.entries :=
  pair_sublist_descending_iff (fun entry : Text × Action => entry.2.sortKey) k.nodup_entries hne
    ha hb

theorem sortedInto_orderActions (k : Controller) : k.SortedInto k.orderActions where
  className := rfl
  perm := List.mergeSort_perm _ _
  descending :=
    pairwise_descending (fun entry : Text × Action => entry.2.sortKey) k.actions.entries
  stable := by
    intro a b he
    have hperm : k.orderActions.actions.entries.Perm k.actions.entries := List.mergeSort_perm _ _
    have hirrefl : ¬ b.2.sortKey < a.2.sortKey :=
      fun hlt => Text.not_le_of_lt hlt (he ▸ Text.le_refl _)
    constructor
    · intro h
      obtain ⟨ha, hb⟩ := mem_of_pair_sublist h
      have hne := ne_of_pair_sublist k.orderActions.nodup_entries h
      exact (((pair_sublist_orderActions_iff hne (hperm.mem_iff.mp ha) (hperm.mem_iff.mp hb)).mp
        h).resolve_left hirrefl).2
    · intro h
      obtain ⟨ha, hb⟩ := mem_of_pair_sublist h
      have hne := ne_of_pair_sublist k.nodup_entries h
      exact (pair_sublist_orderActions_iff hne ha hb).mpr (Or.inr ⟨he, h⟩)

/-- There is only one such order. -/
theorem SortedInto.eq (h : k.SortedInto k') : k' = k.orderActions := by
  have hentries : k'.actions.entries = k.orderActions.actions.entries := by
    refine eq_of_pair_sublist (h.perm.trans (sortedInto_orderActions k).perm.symm)
      k.orderActions.nodup_entries ?_
    intro a b hs
    obtain ⟨ha, hb⟩ := mem_of_pair_sublist hs
    refine (pair_sublist_orderActions_iff (ne_of_pair_sublist k'.nodup_entries hs)
      (h.perm.mem_iff.mp ha) (h.perm.mem_iff.mp hb)).mpr ?_
    by_cases he : a.2.sortKey = b.2.sortKey
    · exact Or.inr ⟨he, (h.stable he).mp hs⟩
    · have hle : Text.le b.2.sortKey a.2.sortKey = true :=
        List.pairwise_iff_forall_sublist.mp h.descending hs
      exact Or.inl (Text.lt_of_le_of_ne hle (Ne.symm he))
  have hactions : k'.actions = k.orderActions.actions := Keyed.ext hentries
  cases k'
  exact congrArg₂ Controller.mk h.className hactions

/-- Ordering the actions keeps all of them as they are and moves those with a greater sort key to
the front, where actions with one sort key stay in order; nothing else does, and there is nothing
left to do the second time. The sort key is the greatest of the lower-case URLs, if there is one. -/
theorem orderActions_sorts (k : Controller) :
    (∀ k', k.SortedInto k' ↔ k' = k.orderActions) ∧
      k.orderActions.orderActions = k.orderActions ∧
        ∀ (a : Action) (key : Text), a.HasKey key ↔ key = a.sortKey := by
  have hsorted := sortedInto_orderActions k
  refine ⟨fun k' => ⟨SortedInto.eq, fun h => h ▸ hsorted⟩, ?_, fun a key => Action.hasKey_iff⟩
  exact hsorted.descending.orderActions

end Controller

end AnnotatedRoutes
