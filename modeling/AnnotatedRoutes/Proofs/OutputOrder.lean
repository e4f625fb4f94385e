import AnnotatedRoutes.Routing.Record
import AnnotatedRoutes.Proofs.KeyedLookup

namespace AnnotatedRoutes

theorem firstOfEach_sublist {α κ : Type} [DecidableEq κ] (key : α → κ) (as : List α) :
    (firstOfEach key as).Sublist as := by
  induction as with
  | nil => exact List.Sublist.slnil
  | cons a as ih => exact (List.filter_sublist.trans ih).cons_cons a

theorem mem_map_firstOfEach {α κ : Type} [DecidableEq κ] {key : α → κ} {as : List α} {k : κ} :
    k ∈ (firstOfEach key as).map key ↔ k ∈ as.map key := by
  induction as with
  | nil => rfl
  | cons a as ih =>
    by_cases hk : k = key a
    · simp [firstOfEach, hk]
    · have hf : k ∈ ((firstOfEach key as).filter (key · ≠ key a)).map key ↔
          k ∈ (firstOfEach key as).map key := by
        simp only [List.mem_map, List.mem_filter, decide_eq_true_eq]
        constructor
        · rintro ⟨b, ⟨hb, _⟩, rfl⟩
          exact ⟨b, hb, rfl⟩
        · rintro ⟨b, hb, rfl⟩
          exact ⟨b, ⟨hb, hk⟩, rfl⟩
      rw [firstOfEach, List.map_cons, List.mem_cons, hf, ih, List.map_cons, List.mem_cons]

theorem nodup_map_firstOfEach {α κ : Type} [DecidableEq κ] (key : α → κ) (as : List α) :
    ((firstOfEach key as).map key).Nodup := by
  induction as with
  | nil => exact List.nodup_nil
  | cons a as ih =>
    rw [firstOfEach, List.map_cons, List.nodup_cons]
    refine ⟨?_, ih.sublist (List.filter_sublist.map key)⟩
    intro h
    obtain ⟨b, hb, he⟩ := List.mem_map.mp h
    have hne := (List.mem_filter.mp hb).2
    simp [he] at hne

/-- Of the elements with one key, the first one comes before the others. -/
theorem eq_or_rel_of_mem_firstOfEach {α κ : Type} [DecidableEq κ] {key : α → κ}
    {R : α → α → Prop} {as : List α} (h : as.Pairwise R) {a b : α} (ha : a ∈ firstOfEach key as)
    (hb : b ∈ as) (hk : key b = key a) : b = a ∨ R a b := by
  induction as with
  | nil => cases hb
  | cons c as ih =>
    obtain ⟨hc, h⟩ := List.pairwise_cons.mp h
    rcases List.mem_cons.mp ha with rfl | ha
    · rcases List.mem_cons.mp hb with rfl | hb
      · exact Or.inl rfl
      · exact Or.inr (hc b hb)
    · obtain ⟨ha, hne⟩ := List.mem_filter.mp ha
      rcases List.mem_cons.mp hb with rfl | hb
      · simp [hk] at hne
      · exact ih h ha hb

theorem filter_eq_singleton {α κ : Type} [DecidableEq κ] {key : α → κ} {as : List α} {a : α}
    (hn : (as.map key).Nodup) (ha : a ∈ as) : as.filter (key · = key a) = [a] := by
  induction as with
  | nil => simp at ha
  | cons b as ih =>
    obtain ⟨hb, hn⟩ := List.nodup_cons.mp hn
    rcases List.mem_cons.mp ha with rfl | ha
    · have he : as.filter (key · = key a) = [] := by
        refine List.filter_eq_nil_iff.mpr fun c hc => ?_
        have hne : key c ≠ key a := fun h => hb (h ▸ List.mem_map_of_mem hc)
        simpa using hne
      simp [he]
    · have hne : key b ≠ key a := fun h => hb (h ▸ List.mem_map_of_mem ha)
      simp [hne, ih hn ha]

namespace RoutingModel

theorem mem_sortedIndex {m : RoutingModel} {url n : Text} :
    (url, n) ∈ m.sortedIndex ↔ m.urlIndex.get? url = some n := by
  rw [Keyed.get?_eq_some_iff]
  exact List.mem_mergeSort

theorem get?_of_mem_reducedIndex {m : RoutingModel} {url n : Text}
    (h : (url, n) ∈ m.reducedIndex) : m.urlIndex.get? url = some n :=
  mem_sortedIndex.mp ((firstOfEach_sublist _ _).subset h)

theorem mem_names_reducedIndex {m : RoutingModel} {n : Text} :
    n ∈ m.reducedIndex.map Prod.snd ↔ ∃ url, m.urlIndex.get? url = some n := by
  rw [reducedIndex, mem_map_firstOfEach]
  simp only [List.mem_map, Prod.exists, exists_eq_right, mem_sortedIndex]

/-- A controller in the output, with the URL that gives it its place there. -/
structure Visit where
  url : Text
  routingName : Text
  controller : Controller

def visits (m : RoutingModel) : List Visit :=
  m.reducedIndex.filterMap fun owner =>
    (m.controllers.get? owner.2).map fun k => ⟨owner.1, owner.2, k⟩

/-- Every routing name that owns a URL has a controller. -/
def Resolved (m : RoutingModel) : Prop :=
  ∀ url n, m.urlIndex.get? url = some n → ∃ k, m.controllers.get? n = some k

theorem mem_visits {m : RoutingModel} {v : Visit} (h : v ∈ m.visits) :
    (v.url, v.routingName) ∈ m.reducedIndex ∧
      m.controllers.get? v.routingName = some v.controller := by
  obtain ⟨owner, ho, hv⟩ := List.mem_filterMap.mp h
  obtain ⟨k, hk, rfl⟩ := Option.map_eq_some_iff.mp hv
  exact ⟨ho, hk⟩

theorem exists_mem_visits {m : RoutingModel} {n : Text} {k : Controller}
    (hk : m.controllers.get? n = some k) (h : ∃ url, m.urlIndex.get? url = some n) :
    ∃ url, ⟨url, n, k⟩ ∈ m.visits := by
  obtain ⟨owner, ho, rfl⟩ := List.mem_map.mp (mem_names_reducedIndex.mpr h)
  exact ⟨owner.1, List.mem_filterMap.mpr ⟨owner, ho, by simp [hk]⟩⟩

theorem nodup_names_visits (m : RoutingModel) : (m.visits.map (·.routingName)).Nodup := by
  rw [List.Nodup, List.pairwise_map, visits, List.pairwise_filterMap]
  refine (List.pairwise_map.mp (nodup_map_firstOfEach Prod.snd m.sortedIndex)).imp ?_
  intro owner owner' hne v hv w hw
  obtain ⟨k, _, rfl⟩ := Option.map_eq_some_iff.mp hv
  obtain ⟨k', _, rfl⟩ := Option.map_eq_some_iff.mp hw
  exact hne

/-- The visits are the reduced index, with the controllers looked up. -/
theorem map_visits {m : RoutingModel} (h : m.Resolved) :
    m.visits.map (fun v => (v.url, v.routingName)) = m.reducedIndex := by
  have hall : ∀ owner ∈ m.reducedIndex, ∃ k, m.controllers.get? owner.2 = some k :=
    fun owner ho => h owner.1 owner.2 (get?_of_mem_reducedIndex ho)
  unfold visits
  generalize m.reducedIndex = owners at hall
  induction owners with
  | nil => rfl
  | cons owner owners ih =>
    obtain ⟨k, hk⟩ := hall owner (by simp)
    have ih := ih fun o ho => hall o (List.mem_cons_of_mem _ ho)
    simp only [List.filterMap_cons, hk, Option.map_some, List.map_cons, ih]

/-- A fault-free look-up of every owner turns a pass over the index into one over the visits. -/
theorem mapM_reducedIndex {ε α : Type} {m : RoutingModel} (h : m.Resolved)
    {f : Text × Text → Except ε α} {g : Visit → α}
    (hf : ∀ url n k, m.controllers.get? n = some k → f (url, n) = .ok (g ⟨url, n, k⟩)) :
    m.reducedIndex.mapM f = .ok (m.visits.map g) := by
  have found : ∀ v ∈ m.visits, f (v.url, v.routingName) = .ok (g v) :=
    fun v hv => hf v.url v.routingName v.controller (mem_visits hv).2
  rw [← map_visits h, List.mapM_map]
  generalize m.visits = vs at found
  induction vs with
  | nil => rfl
  | cons v vs ih =>
    rw [List.mapM_cons, Function.comp_apply, found v (by simp),
      ih fun w hw => found w (List.mem_cons_of_mem _ hw)]
    rfl

theorem records_eq {m : RoutingModel} (h : m.Resolved) :
    m.records = .ok (m.visits.flatMap fun v => v.controller.records v.routingName) := by
  rw [records, mapM_reducedIndex h (g := fun v => v.controller.records v.routingName)]
  · simp only [Except.map, List.flatMap]
  · intro url n k hk
    simp [RoutingModel.controller, hk, Except.map]

theorem controller_of_mem_records {k : Controller} {n : Text} {r : Record}
    (h : r ∈ k.records n) : r.controller = n := by
  obtain ⟨entry, _, hr⟩ := List.mem_flatMap.mp h
  obtain ⟨route, _, rfl⟩ := List.mem_map.mp hr
  rfl

theorem filter_records (k : Controller) (n n' : Text) :
    (k.records n').filter (·.controller = n) = if n' = n then k.records n' else [] := by
  split
  next h =>
    exact List.filter_eq_self.mpr fun r hr => by simp [controller_of_mem_records hr, h]
  next h =>
    exact List.filter_eq_nil_iff.mpr fun r hr => by simp [controller_of_mem_records hr, h]

theorem filter_flatMap_records (vs : List Visit) (n : Text) :
    (vs.flatMap fun v => v.controller.records v.routingName).filter (·.controller = n) =
      (vs.filter (·.routingName = n)).flatMap fun v => v.controller.records v.routingName := by
  induction vs with
  | nil => rfl
  | cons v vs ih =>
    rw [List.flatMap_cons, List.filter_append, filter_records, ih]
    by_cases h : v.routingName = n
    · simp [h]
    · simp [h]

end RoutingModel

end AnnotatedRoutes
