import AnnotatedRoutes.Proofs.ModelMeaning
import AnnotatedRoutes.Proofs.StableOrder
import Mathlib.Data.List.Infix

namespace AnnotatedRoutes

/-- The names of the actions under a routing name, in the order in which they are first declared. -/
def declaredNames (n : Text) (classes : List HandlerClass) : List Text :=
  firstOfEach id ((actionsUnder n classes).map Prod.fst)

/-- The actions of a controller in the order of some names. -/
def Controller.arranged (k : Controller) (names : List Text) : List (Text × Action) :=
  names.filterMap fun name => (k.actions.get? name).map fun a => (name, a)

/-- The sort key that the action of a name has after some classes. -/
def sortKeyAfter (n : Text) (classes : List HandlerClass) (name : Text) : Option Text :=
  (Keyed.lastUnder name (actionsUnder n classes)).map Action.sortKey

/-- After some classes both names have an action, and the first one has the greater sort key. -/
def Outranks (n : Text) (classes : List HandlerClass) (x y : Text) : Prop :=
  ∃ u ∈ sortKeyAfter n classes x, ∃ v ∈ sortKeyAfter n classes y, v < u

/-- The first action outranked the second after some class, and they had equal sort keys after every
class since then. -/
def RanAhead (n : Text) (classes : List HandlerClass) (x y : Text) : Prop :=
  ∃ before ∈ classes.inits, Outranks n before x y ∧
    ∀ later ∈ classes.inits, before.length < later.length →
      sortKeyAfter n later x = sortKeyAfter n later y

instance (n : Text) (classes : List HandlerClass) (x y : Text) :
    Decidable (Outranks n classes x y) :=
  inferInstanceAs (Decidable (∃ u ∈ sortKeyAfter n classes x,
    ∃ v ∈ sortKeyAfter n classes y, v < u))

instance (n : Text) (classes : List HandlerClass) (x y : Text) :
    Decidable (RanAhead n classes x y) :=
  inferInstanceAs (Decidable (∃ before ∈ classes.inits, Outranks n before x y ∧
    ∀ later ∈ classes.inits, before.length < later.length →
      sortKeyAfter n later x = sortKeyAfter n later y))

variable {n x y u v : Text} {classes : List HandlerClass}

theorem mem_declaredNames :
    x ∈ declaredNames n classes ↔ x ∈ (actionsUnder n classes).map Prod.fst := by
  rw [declaredNames, ← List.map_id (firstOfEach id _), mem_map_firstOfEach, List.map_id]

theorem mem_declaredNames_iff_isSome :
    x ∈ declaredNames n classes ↔ (sortKeyAfter n classes x).isSome := by
  rw [mem_declaredNames, sortKeyAfter, Option.isSome_map, Option.isSome_iff_ne_none, Ne,
    Keyed.lastUnder_eq_none_iff, not_not]

theorem nodup_declaredNames (n : Text) (classes : List HandlerClass) :
    (declaredNames n classes).Nodup := by
  have := nodup_map_firstOfEach id ((actionsUnder n classes).map Prod.fst)
  rwa [List.map_id] at this

/-- Names that further classes add stand behind all others, in the order of declaration. -/
theorem declaredNames_append (n : Text) (classes classes' : List HandlerClass) :
    declaredNames n (classes ++ classes') = declaredNames n classes ++
      (declaredNames n classes').filter (· ∉ declaredNames n classes) := by
  rw [declaredNames, actionsUnder_append, List.map_append, firstOfEach_append, List.map_id]
  exact congrArg _ (List.filter_congr fun name _ =>
    decide_eq_decide.mpr (not_congr mem_declaredNames.symm))

theorem Outranks.iff_lt (hx : sortKeyAfter n classes x = some u)
    (hy : sortKeyAfter n classes y = some v) : Outranks n classes x y ↔ v < u := by
  simp [Outranks, hx, hy]

/-- What a further class does to the lead of an action. -/
theorem ranAhead_append_singleton {c : HandlerClass} : RanAhead n (classes ++ [c]) x y ↔
    Outranks n (classes ++ [c]) x y ∨
      sortKeyAfter n (classes ++ [c]) x = sortKeyAfter n (classes ++ [c]) y ∧
        RanAhead n classes x y := by
  have hinits : ∀ before, before ∈ (classes ++ [c]).inits ↔
      before = classes ++ [c] ∨ before ∈ classes.inits := by
    intro before
    rw [List.mem_inits, List.mem_inits, List.prefix_concat_iff]
  have hlength : ∀ before ∈ classes.inits, before.length < (classes ++ [c]).length := by
    intro before hb
    rw [List.length_append, List.length_singleton]
    exact Nat.lt_succ_of_le ((List.mem_inits before classes).mp hb).length_le
  constructor
  · rintro ⟨before, hb, hout, hlater⟩
    rcases (hinits before).mp hb with rfl | hb
    · exact Or.inl hout
    · have hlast := hlater _ ((hinits _).mpr (Or.inl rfl)) (hlength before hb)
      refine Or.inr ⟨hlast, before, hb, hout, fun later hl => ?_⟩
      exact hlater later ((hinits later).mpr (Or.inr hl))
  · rintro (hout | ⟨he, before, hb, hout, hlater⟩)
    · refine ⟨_, (hinits _).mpr (Or.inl rfl), hout, fun later hl hlt => ?_⟩
      rcases (hinits later).mp hl with rfl | hl
      · exact absurd hlt (Nat.lt_irrefl _)
      · exact absurd (hlength later hl) (Nat.lt_asymm hlt)
    · refine ⟨before, (hinits before).mpr (Or.inr hb), hout, fun later hl hlt => ?_⟩
      rcases (hinits later).mp hl with rfl | hl
      · exact he
      · exact hlater later hl hlt

theorem sortKeyAfter_append_of_isSome (h : (sortKeyAfter n classes x).isSome)
    (classes' : List HandlerClass) : (sortKeyAfter n (classes ++ classes') x).isSome := by
  rw [← mem_declaredNames_iff_isSome] at h ⊢
  rw [declaredNames_append]
  exact List.mem_append_left _ h

theorem RanAhead.isSome (h : RanAhead n classes x y) :
    (sortKeyAfter n classes x).isSome ∧ (sortKeyAfter n classes y).isSome := by
  obtain ⟨before, hb, ⟨u, hu, v, hv, -⟩, -⟩ := h
  obtain ⟨rest, rfl⟩ := (List.mem_inits before classes).mp hb
  exact ⟨sortKeyAfter_append_of_isSome (Option.isSome_of_mem hu) rest,
    sortKeyAfter_append_of_isSome (Option.isSome_of_mem hv) rest⟩

/-- The actions of a controller after some classes; none if there is no such controller. -/
def actionsOf (n : Text) (classes : List HandlerClass) : Keyed Text Action :=
  ((RoutingModel.addClasses {} classes).controllers.get? n).elim ∅ (·.actions)

/-- The actions with the greater sort keys first; equal ones in the order in which they were. -/
def inOrder (m : Keyed Text Action) : Keyed Text Action :=
  m.sortBy fun a b => Text.le b.2.sortKey a.2.sortKey

theorem inOrder_inOrder (m : Keyed Text Action) : inOrder (inOrder m) = inOrder m :=
  Keyed.ext (descending_of_pairwise _ (pairwise_descending _ m.entries))

theorem actionsOf_append_singleton_eq (n : Text) (classes : List HandlerClass) (c : HandlerClass) :
    actionsOf n (classes ++ [c]) = if c.routingName = n ∧ n ≠ [] then
      inOrder ((actionsOf n classes).putAll c.actions) else actionsOf n classes := by
  rw [actionsOf, RoutingModel.addClasses_append_singleton, RoutingModel.get?_controllers_addClass,
    actionsOf]
  split
  · cases (RoutingModel.addClasses {} classes).controllers.get? n with
    | none => rfl
    | some k => rfl
  · rfl

theorem inOrder_actionsOf (n : Text) (classes : List HandlerClass) :
    inOrder (actionsOf n classes) = actionsOf n classes := by
  induction classes using List.reverseRecOn with
  | nil => exact Keyed.ext List.mergeSort_nil
  | append_singleton classes c ih =>
    rw [actionsOf_append_singleton_eq]
    split
    · exact inOrder_inOrder _
    · exact ih

/-- A class writes its actions over those that are there, and then all of them are sorted. -/
theorem actionsOf_append_singleton (n : Text) (classes : List HandlerClass) (c : HandlerClass) :
    actionsOf n (classes ++ [c]) = inOrder ((actionsOf n classes).putAll (actionsUnder n [c])) := by
  rw [actionsOf_append_singleton_eq, actionsUnder, classesUnder_singleton]
  split
  · rw [List.flatMap_singleton]
  · exact (inOrder_actionsOf n classes).symm

theorem get?_actionsOf (n : Text) (classes : List HandlerClass) (name : Text) :
    (actionsOf n classes).get? name = Keyed.lastUnder name (actionsUnder n classes) := by
  rw [← RoutingModel.actions_get?_addClasses, actionsOf]
  cases (RoutingModel.addClasses {} classes).controllers.get? n with
  | none => rfl
  | some k => rfl

theorem mem_keys_actionsOf : x ∈ (actionsOf n classes).keys ↔ x ∈ declaredNames n classes := by
  rw [Keyed.mem_keys_iff, get?_actionsOf, mem_declaredNames_iff_isSome, sortKeyAfter,
    Option.isSome_map]

theorem keys_putAll_actionsOf (n : Text) (classes : List HandlerClass) (c : HandlerClass) :
    ((actionsOf n classes).putAll (actionsUnder n [c])).keys = (actionsOf n classes).keys ++
      (declaredNames n [c]).filter (· ∉ declaredNames n classes) := by
  rw [Keyed.keys_putAll]
  exact congrArg _ (List.filter_congr fun name _ => by simp only [mem_keys_actionsOf])

theorem exists_get?_putAll_actionsOf {c : HandlerClass}
    (h : x ∈ declaredNames n (classes ++ [c])) :
    ∃ a, ((actionsOf n classes).putAll (actionsUnder n [c])).get? x = some a ∧
      sortKeyAfter n (classes ++ [c]) x = some a.sortKey := by
  have hget : ((actionsOf n classes).putAll (actionsUnder n [c])).get? x =
      Keyed.lastUnder x (actionsUnder n (classes ++ [c])) := by
    rw [Keyed.get?_putAll, get?_actionsOf, actionsUnder_append, Keyed.lastUnder_append]
  rw [mem_declaredNames_iff_isSome, sortKeyAfter, Option.isSome_map] at h
  obtain ⟨a, ha⟩ := Option.isSome_iff_exists.mp h
  exact ⟨a, hget.trans ha, by rw [sortKeyAfter, ha, Option.map_some]⟩

/-- A further class moves no action past another one before its actions are sorted in. -/
theorem pair_sublist_keys_putAll_iff (c : HandlerClass)
    (ih : x ∈ declaredNames n classes → y ∈ declaredNames n classes →
      ([x, y].Sublist (actionsOf n classes).keys ↔ RanAhead n classes x y ∨
        ¬ RanAhead n classes y x ∧ [x, y].Sublist (declaredNames n classes))) :
    [x, y].Sublist ((actionsOf n classes).putAll (actionsUnder n [c])).keys ↔
      RanAhead n classes x y ∨
        ¬ RanAhead n classes y x ∧ [x, y].Sublist (declaredNames n (classes ++ [c])) := by
  have hkeys := keys_putAll_actionsOf n classes c
  have hnodup : ((actionsOf n classes).putAll (actionsUnder n [c])).keys.Nodup := Keyed.distinct _
  have hdeclared := nodup_declaredNames n (classes ++ [c])
  rw [declaredNames_append] at hdeclared ⊢
  rw [hkeys] at hnodup ⊢
  by_cases hxy : x ∈ declaredNames n classes ∧ y ∈ declaredNames n classes
  · obtain ⟨hx, hy⟩ := hxy
    rw [pair_sublist_append_left hdeclared hx hy, pair_sublist_append_left hnodup
      (mem_keys_actionsOf.mpr hx) (mem_keys_actionsOf.mpr hy), ih hx hy]
  · -- a name that is new now has not run ahead and has not been overtaken
    have hnone : ∀ {x y}, RanAhead n classes x y →
        x ∈ declaredNames n classes ∧ y ∈ declaredNames n classes :=
      fun h => h.isSome.imp mem_declaredNames_iff_isSome.mpr mem_declaredNames_iff_isSome.mpr
    have hx : ¬ RanAhead n classes x y := fun h => hxy (hnone h)
    have hy : ¬ RanAhead n classes y x := fun h => hxy (hnone h).symm
    have hkept : ∀ {names : List Text}, (∀ name, name ∈ names ↔ name ∈ declaredNames n classes) →
        ¬ [x, y].Sublist names :=
      fun hn h => hxy ((mem_of_pair_sublist h).imp (hn x).mp (hn y).mp)
    rw [pair_sublist_append, pair_sublist_append, mem_keys_actionsOf,
      or_iff_right (hkept fun _ => mem_keys_actionsOf), or_iff_right (hkept fun _ => Iff.rfl)]
    simp only [hx, hy, not_false_eq_true, true_and, false_or]

/-- One action stands before another one if it ran ahead, or if the other one did not and it was
declared first. -/
theorem pair_sublist_keys_actionsOf_iff (hne : x ≠ y) (hx : x ∈ declaredNames n classes)
    (hy : y ∈ declaredNames n classes) : [x, y].Sublist (actionsOf n classes).keys ↔
      RanAhead n classes x y ∨
        ¬ RanAhead n classes y x ∧ [x, y].Sublist (declaredNames n classes) := by
  induction classes using List.reverseRecOn with
  | nil => cases hx
  | append_singleton classes c ih =>
    obtain ⟨a, ha, hax⟩ := exists_get?_putAll_actionsOf hx
    obtain ⟨b, hb, hby⟩ := exists_get?_putAll_actionsOf hy
    rw [actionsOf_append_singleton, inOrder, Keyed.pair_sublist_keys_sortBy_iff hne ha hb,
      pair_sublist_keys_putAll_iff c ih, ranAhead_append_singleton, ranAhead_append_singleton,
      Outranks.iff_lt hax hby, Outranks.iff_lt hby hax, hax, hby, Option.some_inj, Option.some_inj]
    rcases (Std.Trichotomous.rel_or_eq_or_rel_swap : a.sortKey < b.sortKey ∨
      a.sortKey = b.sortKey ∨ b.sortKey < a.sortKey) with hlt | he | hlt
    · have hgt := List.lt_asymm hlt
      have hab : a.sortKey ≠ b.sortKey := fun he => List.lt_irrefl _ (he ▸ hlt)
      simp only [hlt, hgt, hab, false_and, or_self, true_or, not_true_eq_false]
    · simp only [he, List.lt_irrefl, true_and, false_or]
    · simp only [hlt, true_or]

/-- The actions under a routing name written one after another, and sorted only then. -/
def sortedOnce (n : Text) (classes : List HandlerClass) : Keyed Text Action :=
  inOrder (Keyed.putAll ∅ (actionsUnder n classes))

theorem keys_putAll_actionsUnder (n : Text) (classes : List HandlerClass) :
    (Keyed.putAll ∅ (actionsUnder n classes)).keys = declaredNames n classes := by
  rw [Keyed.keys_putAll]
  exact List.filter_eq_self.mpr fun name _ => decide_eq_true List.not_mem_nil

theorem get?_actionsOf_eq (n : Text) (classes : List HandlerClass) (name : Text) :
    (actionsOf n classes).get? name = (Keyed.putAll ∅ (actionsUnder n classes)).get? name := by
  rw [get?_actionsOf, Keyed.get?_putAll, Keyed.get?_empty, Option.or_none]

theorem sortKeyAfter_eq (n : Text) (classes : List HandlerClass) (name : Text) :
    sortKeyAfter n classes name = ((actionsOf n classes).get? name).map Action.sortKey := by
  rw [get?_actionsOf, sortKeyAfter]

theorem exists_get?_actionsOf (h : x ∈ declaredNames n classes) :
    ∃ a, (actionsOf n classes).get? x = some a := by
  rw [← mem_keys_actionsOf, Keyed.mem_keys_iff] at h
  exact Option.isSome_iff_exists.mp h

/-- Sorting after every class makes no difference if no action that ran ahead of one declared before
it ends with the same sort key. -/
theorem actionsOf_eq_sortedOnce_iff : actionsOf n classes = sortedOnce n classes ↔
    (declaredNames n classes).Pairwise fun x y =>
      sortKeyAfter n classes x = sortKeyAfter n classes y → ¬ RanAhead n classes y x := by
  have hdeclared := nodup_declaredNames n classes
  have hget := get?_actionsOf_eq n classes
  have honce : ∀ {x y a b}, x ≠ y → (actionsOf n classes).get? x = some a →
      (actionsOf n classes).get? y = some b → ([x, y].Sublist (sortedOnce n classes).keys ↔
        b.sortKey < a.sortKey ∨
          a.sortKey = b.sortKey ∧ [x, y].Sublist (declaredNames n classes)) := by
    intro x y a b hne ha hb
    rw [hget] at ha hb
    rw [← keys_putAll_actionsUnder]
    exact Keyed.pair_sublist_keys_sortBy_iff hne ha hb
  rw [List.pairwise_iff_forall_sublist]
  constructor
  · intro h x y hs hkeys hran
    obtain ⟨hx, hy⟩ := mem_of_pair_sublist hs
    have hne : y ≠ x := (List.pairwise_iff_forall_sublist.mp hdeclared hs).symm
    obtain ⟨a, ha⟩ := exists_get?_actionsOf hx
    obtain ⟨b, hb⟩ := exists_get?_actionsOf hy
    have hyx := (pair_sublist_keys_actionsOf_iff hne hy hx).mpr (Or.inl hran)
    rw [h, honce hne hb ha] at hyx
    rw [sortKeyAfter_eq, sortKeyAfter_eq, ha, hb] at hkeys
    rcases hyx with hlt | ⟨-, hyx⟩
    · exact List.lt_irrefl _ (Option.some.inj hkeys ▸ hlt)
    · exact not_pair_sublist_swap hdeclared hs hyx
  · intro h
    have hget' : ∀ name, (actionsOf n classes).get? name = (sortedOnce n classes).get? name :=
      fun name => (hget name).trans (Keyed.get?_sortBy _ _ name).symm
    refine Keyed.eq_of_keys_eq (eq_of_pair_sublist ((Keyed.perm_of_get?_eq hget').map Prod.fst)
      (Keyed.distinct _) fun {x y} hs => ?_) hget'
    have hne : x ≠ y := List.pairwise_iff_forall_sublist.mp (Keyed.distinct _) hs
    obtain ⟨hx, hy⟩ := mem_of_pair_sublist hs
    have hx := mem_keys_actionsOf.mp hx
    have hy := mem_keys_actionsOf.mp hy
    obtain ⟨a, ha⟩ := exists_get?_actionsOf hx
    obtain ⟨b, hb⟩ := exists_get?_actionsOf hy
    refine (honce hne ha hb).mpr ?_
    -- the actions are in order: a greater key decides, else the keys are equal
    have hsorted := hs
    rw [← inOrder_actionsOf] at hsorted
    refine ((Keyed.pair_sublist_keys_sortBy_iff hne ha hb).mp hsorted).imp_right fun hkeys => ?_
    refine ⟨hkeys.1, ?_⟩
    rcases (pair_sublist_keys_actionsOf_iff hne hx hy).mp hs with hran | ⟨-, hfirst⟩
    · refine (pair_sublist_total hne hx hy).resolve_right fun hs => h hs ?_ hran
      rw [sortKeyAfter_eq, sortKeyAfter_eq, ha, hb, Option.map_some, Option.map_some, hkeys.1]
    · exact hfirst

/-- Where every name is declared once, its sort key never changes, and one sort is enough. -/
theorem actionsOf_eq_sortedOnce_of_nodup (h : ((actionsUnder n classes).map Prod.fst).Nodup) :
    actionsOf n classes = sortedOnce n classes := by
  refine actionsOf_eq_sortedOnce_iff.mpr (List.pairwise_iff_forall_sublist.mpr fun {x y} _ he => ?_)
  rintro ⟨before, hb, ⟨u, hu, v, hv, hlt⟩, -⟩
  obtain ⟨rest, rfl⟩ := (List.mem_inits before classes).mp hb
  rw [actionsUnder_append, List.map_append] at h
  have kept : ∀ {name key}, key ∈ sortKeyAfter n before name →
      sortKeyAfter n (before ++ rest) name = some key := by
    intro name key hkey
    have hbefore : name ∈ (actionsUnder n before).map Prod.fst :=
      mem_declaredNames.mp (mem_declaredNames_iff_isSome.mpr (Option.isSome_of_mem hkey))
    have hrest : Keyed.lastUnder name (actionsUnder n rest) = none :=
      Keyed.lastUnder_eq_none_iff.mpr fun hr => (List.nodup_append.mp h).2.2 _ hbefore _ hr rfl
    rw [sortKeyAfter, actionsUnder_append, Keyed.lastUnder_append, hrest, Option.none_or]
    exact hkey
  rw [kept hu, kept hv] at he
  exact List.lt_irrefl _ (Option.some.inj he ▸ hlt)

theorem arranged_declaredNames {k : Controller} (h : k.actions = actionsOf n classes) :
    k.arranged (declaredNames n classes) = (Keyed.putAll ∅ (actionsUnder n classes)).entries := by
  rw [Controller.arranged, h, ← keys_putAll_actionsUnder, ← Keyed.filterMap_keys]
  simp only [get?_actionsOf_eq]

theorem entries_eq_descending_iff {k : Controller} (h : k.actions = actionsOf n classes) :
    k.actions.entries =
        descending (fun entry => entry.2.sortKey) (k.arranged (declaredNames n classes)) ↔
      actionsOf n classes = sortedOnce n classes := by
  rw [arranged_declaredNames h, h, Keyed.ext_iff]
  rfl

namespace Builder

theorem actions_eq_actionsOf {reflector : Reflector} {k : Controller}
    (hk : (addClasses { reflector } classes).model.controllers.get? n = some k) :
    k.actions = actionsOf n classes := by
  rw [model_addClasses] at hk
  rw [actionsOf, hk, Option.elim_some]

/-- The actions of a controller are those of a single sort, by which equal sort keys keep the order
of declaration, if and only if no action that ran ahead of one declared before it ends with the same
sort key. -/
theorem actions_sorted_once_iff (reflector : Reflector) {classes : List HandlerClass} {n : Text}
    {k : Controller} (hk : (addClasses { reflector } classes).model.controllers.get? n = some k) :
    k.actions.entries =
        descending (fun entry => entry.2.sortKey) (k.arranged (declaredNames n classes)) ↔
      (declaredNames n classes).Pairwise fun x y =>
        sortKeyAfter n classes x = sortKeyAfter n classes y → ¬ RanAhead n classes y x :=
  (entries_eq_descending_iff (actions_eq_actionsOf hk)).trans actionsOf_eq_sortedOnce_iff

/-- The action `y` runs ahead first, but falls behind before its sort key becomes that of `x`. -/
theorem actions_sorted_once_caught_up :
    let first : HandlerClass :=
      ⟨"A".toList, "name=a".toList, [⟨"x".toList, "@route(\nurl=/b\n)".toList⟩,
        ⟨"y".toList, "@route(\nurl=/c\n)".toList⟩]⟩
    let second : HandlerClass :=
      ⟨"B".toList, "name=a".toList, [⟨"y".toList, "@route(\nurl=/a\n)".toList⟩]⟩
    let third : HandlerClass :=
      ⟨"C".toList, "name=a".toList, [⟨"z".toList, "@route(\nurl=/b\n)".toList⟩,
        ⟨"y".toList, "@route(\nurl=/B\n)".toList⟩]⟩
    let classes := [first, second, third]
    RanAhead "a".toList [first] "y".toList "x".toList ∧
      ∃ k, (addClasses { reflector := .fixed ∅ } classes).model.controllers.get? "a".toList =
          some k ∧
        k.actions.entries = descending (fun entry => entry.2.sortKey)
          (k.arranged (declaredNames "a".toList classes)) := by
  intro first second third classes
  have hsome : ((addClasses { reflector := .fixed ∅ } classes).model.controllers.get?
      "a".toList).isSome := by decide +kernel
  obtain ⟨k, hk⟩ := Option.isSome_iff_exists.mp hsome
  exact ⟨by decide +kernel, k, hk, (actions_sorted_once_iff _ hk).mpr (by decide +kernel)⟩

/-- The action `y` runs ahead of `x`, and is still before it when their sort keys are equal. -/
theorem actions_not_sorted_once :
    let classes : List HandlerClass :=
      [⟨"A".toList, "name=a".toList, [⟨"x".toList, "@route(\nurl=/a\n)".toList⟩,
          ⟨"y".toList, "@route(\nurl=/b\n)".toList⟩]⟩,
        ⟨"B".toList, "name=a".toList, [⟨"y".toList, "@route(\nurl=/a\n)".toList⟩]⟩]
    ∃ k, (addClasses { reflector := .fixed ∅ } classes).model.controllers.get? "a".toList = some k ∧
      ["y".toList, "x".toList].Sublist k.actions.keys ∧
      k.actions.entries ≠ descending (fun entry => entry.2.sortKey)
        (k.arranged (declaredNames "a".toList classes)) := by
  intro classes
  have hsome : ((addClasses { reflector := .fixed ∅ } classes).model.controllers.get?
      "a".toList).isSome := by decide +kernel
  obtain ⟨k, hk⟩ := Option.isSome_iff_exists.mp hsome
  have hactions := actions_eq_actionsOf hk
  refine ⟨k, hk, ?_, ?_⟩
  · rw [hactions, pair_sublist_keys_actionsOf_iff (by decide) (by decide +kernel)
      (by decide +kernel)]
    decide +kernel
  · rw [Ne, entries_eq_descending_iff hactions, actionsOf_eq_sortedOnce_iff]
    decide +kernel

end Builder

end AnnotatedRoutes
