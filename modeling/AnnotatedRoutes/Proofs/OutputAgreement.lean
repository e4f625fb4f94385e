import AnnotatedRoutes.Proofs.ModelMeaning
import AnnotatedRoutes.Proofs.RouterStatements
import AnnotatedRoutes.Proofs.TextOrder

namespace AnnotatedRoutes

/-- The elements with a tag are these, and they stand together. -/
def IsRun {α κ : Type} (tag : α → κ) (k : κ) (run as : List α) : Prop :=
  ∃ before after, as = before ++ run ++ after ∧ (∀ a ∈ run, tag a = k) ∧
    ∀ a ∈ before ++ after, tag a ≠ k

namespace IsRun

variable {α β κ ι : Type} {tag : α → κ} {k : κ} {run run' as : List α}

theorem mem_iff {a : α} (h : IsRun tag k run as) : a ∈ run ↔ a ∈ as ∧ tag a = k := by
  obtain ⟨before, after, rfl, inside, outside⟩ := h
  constructor
  · intro ha
    exact ⟨by simp [ha], inside a ha⟩
  · rintro ⟨ha, hk⟩
    by_contra hrun
    have hout : a ∈ before ++ after := by simpa [hrun] using ha
    exact outside a hout hk

theorem cons {a : α} (h : IsRun tag k run as) (ha : tag a ≠ k) : IsRun tag k run (a :: as) := by
  obtain ⟨before, after, rfl, inside, outside⟩ := h
  refine ⟨a :: before, after, rfl, inside, ?_⟩
  intro b hb
  rcases List.mem_cons.mp hb with rfl | hb
  · exact ha
  · exact outside b hb

/-- A run by a finer tag inside a run by a coarser one. -/
theorem trans {coarse : α → ι} {i : ι} (h : IsRun coarse i run as) (h' : IsRun tag k run' run)
    (finer : ∀ a, tag a = k → coarse a = i) : IsRun tag k run' as := by
  obtain ⟨before, after, rfl, -, outside⟩ := h
  obtain ⟨before', after', rfl, inside', outside'⟩ := h'
  refine ⟨before ++ before', after' ++ after, by simp, inside', ?_⟩
  intro a ha
  rw [List.append_assoc, List.mem_append, ← List.append_assoc, List.mem_append] at ha
  rcases ha with ha | ha | ha
  · exact fun hk => outside a (List.mem_append_left _ ha) (finer a hk)
  · exact outside' a ha
  · exact fun hk => outside a (List.mem_append_right _ ha) (finer a hk)

theorem flatMap {f : β → κ} {g : β → List α} {bs : List β} {b : β}
    (tagged : ∀ b ∈ bs, ∀ a ∈ g b, tag a = f b) (distinct : (bs.map f).Nodup) (hb : b ∈ bs) :
    IsRun tag (f b) (g b) (bs.flatMap g) := by
  obtain ⟨before, after, rfl⟩ := List.append_of_mem hb
  refine ⟨before.flatMap g, after.flatMap g, by simp, tagged b hb, ?_⟩
  intro a ha hk
  rw [← List.flatMap_append] at ha
  obtain ⟨c, hc, ha⟩ := List.mem_flatMap.mp ha
  have hc' : c ∈ before ++ b :: after := by
    rcases List.mem_append.mp hc with hc | hc
    · exact List.mem_append_left _ hc
    · exact List.mem_append_right _ (List.mem_cons_of_mem _ hc)
  have same : f c = f b := (tagged c hc' a ha).symm.trans hk
  rw [List.map_append, List.map_cons, List.nodup_middle, List.nodup_cons, ← List.map_append]
    at distinct
  exact distinct.1 (same ▸ List.mem_map_of_mem hc)

/-- The elements of a run stand at consecutive places. -/
theorem exists_offset (h : IsRun tag k run as) :
    ∃ offset, ∀ (i : Nat) a, as[i]? = some a → tag a = k →
      ∃ p, i = offset + p ∧ run[p]? = some a := by
  obtain ⟨before, after, rfl, -, outside⟩ := h
  refine ⟨before.length, fun i a hi ha => ?_⟩
  have hnot : ∀ part, (∀ b ∈ part, b ∈ before ++ after) → ∀ n : Nat, part[n]? ≠ some a :=
    fun part hpart n hn => outside a (hpart a (List.mem_of_getElem? hn)) ha
  rw [List.append_assoc] at hi
  by_cases hb : i < before.length
  · rw [List.getElem?_append_left hb] at hi
    exact absurd hi (hnot before (fun b hb => List.mem_append_left _ hb) i)
  · rw [List.getElem?_append_right (by omega)] at hi
    refine ⟨i - before.length, by omega, ?_⟩
    by_cases hr : i - before.length < run.length
    · rwa [List.getElem?_append_left hr] at hi
    · rw [List.getElem?_append_right (by omega)] at hi
      exact absurd hi (hnot after (fun b hb => List.mem_append_right _ hb) _)

end IsRun

/-- The action that a record registers its route for, as the dispatcher knows it. -/
def Record.registration (r : Record) : Text × Route :=
  (Action.identifier r.controller r.action, r.route)

def Record.place (r : Record) : Text × Text := (r.controller, r.action)

def Action.records (a : Action) (n className name : Text) : List Record :=
  a.routes.map fun route => ⟨n, className, name, route, a.acl⟩

theorem Controller.records_eq (k : Controller) (n : Text) :
    k.records n = k.actions.entries.flatMap fun entry =>
      entry.2.records n k.className entry.1 := rfl

/-- The actions stand in the order of their sort keys, greatest first. -/
def Controller.Descending (k : Controller) : Prop :=
  k.actions.entries.Pairwise fun entry next => Text.le next.2.sortKey entry.2.sortKey = true

namespace RoutingModel

/-- A controller that owns a URL. -/
def Contributes (m : RoutingModel) (n : Text) (k : Controller) : Prop :=
  m.controllers.get? n = some k ∧ ∃ url, m.urlIndex.get? url = some n

/-- The statements of the router file tell of the same routes as the records. Whatever stands in
either of them about a controller or an action stands together, once, and in the order of the sort
keys. -/
structure Agrees (m : RoutingModel) (records : List Record) : Prop where
  registrations : m.statements.filterMap Statement.registration? = records.map Record.registration
  contributing : ∀ n k, m.Contributes n k →
    (∃ url, (url, n) ∈ m.reducedIndex ∧
      IsRun Statement.routingName n (k.statements url n) m.statements) ∧
    IsRun Record.controller n (k.records n) records
  others : ∀ n, (∀ k, ¬ m.Contributes n k) →
    (∀ s ∈ m.statements, s.routingName ≠ n) ∧ ∀ r ∈ records, r.controller ≠ n
  actions : ∀ n k, m.Contributes n k → ∀ name a, k.actions.get? name = some a →
    IsRun Statement.place (n, some name) (a.statements n name) m.statements ∧
    IsRun Record.place (n, name) (a.records n k.className name) records
  descending : ∀ n k, m.Contributes n k → k.Descending
  afterRoutes : ∀ n k, m.Contributes n k → ∀ name a, k.actions.get? name = some a → a.acl ≠ [] →
    ∃ before after, m.statements =
      before ++ (a.routes.map (.route n name) ++ .acl n name a.acl :: after)
  rules : ∀ n k, m.Contributes n k → ∀ name a, k.actions.get? name = some a → ∀ rules,
    .acl n name rules ∈ m.statements ↔ a.acl ≠ [] ∧ rules = a.acl

end RoutingModel

namespace Action

variable {a : Action} {n name : Text} {s : Statement}

theorem mem_statements (h : s ∈ a.statements n name) :
    s = .action n name ∨ (∃ r ∈ a.routes, s = .route n name r) ∨
      (a.acl ≠ [] ∧ s = .acl n name a.acl) := by
  unfold statements at h
  split at h
  · cases h
  · rcases List.mem_cons.mp h with rfl | h
    · exact Or.inl rfl
    · rcases List.mem_append.mp h with h | h
      · obtain ⟨r, hr, rfl⟩ := List.mem_map.mp h
        exact Or.inr (Or.inl ⟨r, hr, rfl⟩)
      · split at h
        · cases h
        next hacl => exact Or.inr (Or.inr ⟨hacl, List.mem_singleton.mp h⟩)

theorem place_of_mem_statements (h : s ∈ a.statements n name) : s.place = (n, some name) := by
  rcases mem_statements h with rfl | ⟨r, -, rfl⟩ | ⟨-, rfl⟩
  · rfl
  · rfl
  · rfl

theorem statements_of_acl (h : a.acl ≠ []) : a.statements n name =
    .action n name :: (a.routes.map (.route n name) ++ [.acl n name a.acl]) := by
  have hne : ¬ a.isEmpty := by simp [isEmpty, h]
  rw [statements, if_neg hne, if_neg h]

theorem acl_mem_statements_iff {rules : List Text} :
    .acl n name rules ∈ a.statements n name ↔ a.acl ≠ [] ∧ rules = a.acl := by
  constructor
  · intro h
    rcases mem_statements h with h | ⟨r, -, h⟩ | ⟨hacl, h⟩
    · cases h
    · cases h
    · exact ⟨hacl, (Statement.acl.inj h).2.2⟩
  · rintro ⟨hacl, rfl⟩
    simp [statements_of_acl hacl]

theorem registrations_statements (a : Action) (n className name : Text) :
    (a.statements n name).filterMap Statement.registration? =
      (a.records n className name).map Record.registration := by
  have routes : (a.routes.map (Statement.route n name)).filterMap Statement.registration? =
      (a.records n className name).map Record.registration := by
    rw [List.filterMap_map, records, List.map_map, ← List.filterMap_eq_map]
    rfl
  unfold statements
  split
  next he =>
    have hr : a.routes = [] := by
      simp only [isEmpty, Bool.and_eq_true, List.isEmpty_iff] at he
      exact he.1
    simp [records, hr]
  next =>
    rw [List.filterMap_cons_none rfl, List.filterMap_append, routes]
    split
    · simp
    · simp [Statement.registration?]

end Action

namespace Controller

theorem routingName_of_mem_statements {k : Controller} {url n : Text} {s : Statement}
    (h : s ∈ k.statements url n) : s.routingName = n := by
  rcases List.mem_cons.mp h with rfl | h
  · rfl
  · obtain ⟨entry, -, hs⟩ := List.mem_flatMap.mp h
    rw [← s.fst_place, Action.place_of_mem_statements hs]

theorem registrations_statements (k : Controller) (url n : Text) :
    (k.statements url n).filterMap Statement.registration? =
      (k.records n).map Record.registration := by
  rw [statements, List.filterMap_cons_none rfl, List.filterMap_flatMap, records_eq,
    List.map_flatMap]
  simp only [Action.registrations_statements _ n k.className]

variable {k : Controller} {name : Text} {a : Action}

theorem isRun_statements (url n : Text) (h : k.actions.get? name = some a) :
    IsRun Statement.place (n, some name) (a.statements n name) (k.statements url n) := by
  have distinct : (k.actions.entries.map fun entry => (n, some entry.1)).Nodup :=
    k.actions.nodup_map_of_injective fun name name' he => Option.some.inj (Prod.mk.inj he).2
  have run := IsRun.flatMap (f := fun entry => (n, some entry.1))
    (g := fun entry => entry.2.statements n entry.1)
    (fun entry _ s hs => Action.place_of_mem_statements hs) distinct
    (Keyed.get?_eq_some_iff.mp h)
  exact run.cons (by simp [Statement.place])

theorem isRun_records (n : Text) (h : k.actions.get? name = some a) :
    IsRun Record.place (n, name) (a.records n k.className name) (k.records n) := by
  have distinct : (k.actions.entries.map fun entry => (n, entry.1)).Nodup :=
    k.actions.nodup_map_of_injective fun name name' he => (Prod.mk.inj he).2
  rw [records_eq]
  refine IsRun.flatMap (f := fun entry => (n, entry.1))
    (g := fun entry => entry.2.records n k.className entry.1) ?_ distinct
    (Keyed.get?_eq_some_iff.mp h)
  intro entry _ r hr
  obtain ⟨route, -, rfl⟩ := List.mem_map.mp hr
  rfl

theorem descending_addActions (k : Controller) (actions : List (Text × Action)) :
    (k.addActions actions).Descending :=
  pairwise_descending (fun entry : Text × Action => entry.2.sortKey) _

end Controller

namespace RoutingModel

variable {m : RoutingModel}

theorem contributes_of_mem_visits {v : Visit} (h : v ∈ m.visits) :
    m.Contributes v.routingName v.controller := by
  obtain ⟨owner, hk⟩ := mem_visits h
  exact ⟨hk, v.url, get?_of_mem_reducedIndex owner⟩

theorem isRun_statements {v : Visit} (h : v ∈ m.visits) :
    IsRun Statement.routingName v.routingName (v.controller.statements v.url v.routingName)
      m.statements :=
  IsRun.flatMap (f := Visit.routingName)
    (fun _ _ _ hs => Controller.routingName_of_mem_statements hs) m.nodup_names_visits h

theorem isRun_records {v : Visit} (h : v ∈ m.visits) :
    IsRun Record.controller v.routingName (v.controller.records v.routingName)
      (m.visits.flatMap fun v => v.controller.records v.routingName) :=
  IsRun.flatMap (f := Visit.routingName) (fun _ _ _ hr => controller_of_mem_records hr)
    m.nodup_names_visits h

theorem agrees_of_resolved (h : m.Resolved)
    (descending : ∀ n k, m.controllers.get? n = some k → k.Descending) :
    ∃ records, m.records = .ok records ∧ m.Agrees records := by
  refine ⟨_, records_eq h, ?_⟩
  have visited : ∀ n k, m.Contributes n k → ∃ url, ⟨url, n, k⟩ ∈ m.visits :=
    fun n k hc => exists_mem_visits hc.1 hc.2
  have action : ∀ n k, m.Contributes n k → ∀ name a, k.actions.get? name = some a →
      IsRun Statement.place (n, some name) (a.statements n name) m.statements := by
    intro n k hc name a ha
    obtain ⟨url, hv⟩ := visited n k hc
    refine (isRun_statements hv).trans (k.isRun_statements url n ha) fun s hs => ?_
    rw [← s.fst_place, hs]
  constructor
  case registrations =>
    rw [statements, List.filterMap_flatMap, List.map_flatMap]
    simp only [Controller.registrations_statements]
  case contributing =>
    intro n k hc
    obtain ⟨url, hv⟩ := visited n k hc
    exact ⟨⟨url, (mem_visits hv).1, isRun_statements hv⟩, isRun_records hv⟩
  case others =>
    intro n hn
    constructor
    · rintro s hs rfl
      obtain ⟨v, hv, hs⟩ := List.mem_flatMap.mp hs
      have hname := Controller.routingName_of_mem_statements hs
      exact hn v.controller (hname ▸ contributes_of_mem_visits hv)
    · rintro r hr rfl
      obtain ⟨v, hv, hr⟩ := List.mem_flatMap.mp hr
      have hname := controller_of_mem_records hr
      exact hn v.controller (hname ▸ contributes_of_mem_visits hv)
  case actions =>
    intro n k hc name a ha
    obtain ⟨url, hv⟩ := visited n k hc
    refine ⟨action n k hc name a ha, (isRun_records hv).trans (k.isRun_records n ha) ?_⟩
    exact fun r hr => (Prod.mk.inj hr).1
  case descending => exact fun n k hc => descending n k hc.1
  case afterRoutes =>
    intro n k hc name a ha hacl
    obtain ⟨before, after, hs, -, -⟩ := action n k hc name a ha
    refine ⟨before ++ [.action n name], after, ?_⟩
    rw [hs, Action.statements_of_acl hacl]
    simp
  case rules =>
    intro n k hc name a ha rules
    rw [← Action.acl_mem_statements_iff, (action n k hc name a ha).mem_iff]
    simp [Statement.place]

theorem descending_get?_addClasses (classes : List HandlerClass) :
    ∀ n k, (addClasses {} classes).controllers.get? n = some k → k.Descending := by
  induction classes using List.reverseRecOn with
  | nil =>
    intro n k hk
    cases hk
  | append_singleton classes c ih =>
    intro n k hk
    rw [addClasses_append_singleton, get?_controllers_addClass] at hk
    split at hk
    next =>
      cases hk
      exact Controller.descending_addActions _ _
    next => exact ih n k hk

end RoutingModel

/-- For any classes and any templates, the router file is what the templates write for each of its
statements; with the shipped ones it comes out, line by line. The statements agree with the
records. -/
theorem Builder.agrees_addClasses (reflector : Reflector) (classes : List HandlerClass) :
    let m := (addClasses { reflector } classes).model
    (∀ (ts : RouterTemplates) (file : Text), ts.render m = .ok file ↔
      ∃ blocks, List.Forall₂ ts.Writes m.statements blocks ∧
        file = Text.join ['\n'] (Text.lines ts.header ++ blocks.flatten) ++ ['\n']) ∧
    RouterTemplates.shipped.render m = .ok (ShippedRouter.text
      (Text.lines RouterTemplates.shipped.header ++
        m.statements.flatMap ShippedRouter.statementLines)) ∧
    ∃ records, m.records = .ok records ∧ m.Agrees records := by
  rw [model_addClasses]
  have resolved := RoutingModel.resolved_addClasses classes
  exact ⟨fun ts file => RouterTemplates.render_eq_ok_iff resolved,
    ShippedRouter.render_eq_statementLines resolved,
    RoutingModel.agrees_of_resolved resolved (RoutingModel.descending_get?_addClasses classes)⟩

end AnnotatedRoutes
