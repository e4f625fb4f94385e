import AnnotatedRoutes.Proofs.LowercaseOrder
import AnnotatedRoutes.Proofs.OutputAgreement

namespace AnnotatedRoutes

theorem rel_of_lt_of_pairwise {α : Type} {R : α → α → Prop} {as : List α} (h : as.Pairwise R)
    {i j : Nat} {a b : α} (hi : as[i]? = some a) (hj : as[j]? = some b) (hlt : i < j) : R a b := by
  obtain ⟨hil, rfl⟩ := List.getElem?_eq_some_iff.mp hi
  obtain ⟨hjl, rfl⟩ := List.getElem?_eq_some_iff.mp hj
  exact List.pairwise_iff_getElem.mp h i j hil hjl hlt

theorem ne_of_getElem?_ne {α : Type} {as : List α} {i j : Nat} {a b : α} (hi : as[i]? = some a)
    (hj : as[j]? = some b) (hne : a ≠ b) : i ≠ j := by
  rintro rfl
  exact hne (Option.some.inj (hi.symm.trans hj))

theorem pairwise_idxOf {α : Type} [BEq α] [LawfulBEq α] {as : List α} (h : as.Nodup) :
    as.Pairwise fun a b => as.idxOf a < as.idxOf b := by
  refine List.pairwise_iff_getElem.mpr fun i j hi hj hlt => ?_
  rwa [h.idxOf_getElem, h.idxOf_getElem]

namespace RoutingModel

variable {m : RoutingModel} {n url : Text}

/-- The greatest URL that a routing name owns. -/
structure Leads (m : RoutingModel) (n url : Text) : Prop where
  owned : m.urlIndex.get? url = some n
  greatest : ∀ other, m.urlIndex.get? other = some n → Text.le other url = true

theorem Leads.eq {url' : Text} (h : m.Leads n url) (h' : m.Leads n url') : url = url' :=
  Text.le_antisymm (h'.greatest url h.owned) (h.greatest url' h'.owned)

theorem pairwise_sortedIndex (m : RoutingModel) :
    m.sortedIndex.Pairwise fun a b => Text.le b.1 a.1 = true :=
  pairwise_descending Prod.fst m.urlIndex.entries

theorem sortedIndex_eq_of_perm {index : List (Text × Text)} (h : index.Perm m.urlIndex.entries)
    (sorted : index.Pairwise fun a b => Text.le b.1 a.1 = true) : m.sortedIndex = index := by
  have distinct : ∀ a ∈ m.urlIndex.entries, ∀ b ∈ m.urlIndex.entries, a.1 = b.1 → a = b :=
    fun a ha b hb => List.inj_on_of_nodup_map m.urlIndex.distinct ha hb
  calc m.sortedIndex = descending Prod.fst m.urlIndex.entries := rfl
    _ = descending Prod.fst index := descending_eq_of_perm Prod.fst h.symm distinct
    _ = index := descending_of_pairwise Prod.fst sorted

theorem leads_of_mem_reducedIndex (h : (url, n) ∈ m.reducedIndex) : m.Leads n url where
  owned := get?_of_mem_reducedIndex h
  greatest other ho := by
    have hmem : (other, n) ∈ m.sortedIndex := mem_sortedIndex.mpr ho
    rcases eq_or_rel_of_mem_firstOfEach m.pairwise_sortedIndex h hmem rfl with he | hle
    · cases he
      exact Text.le_refl url
    · exact hle

/-- The controllers come in the order of the greatest URLs that they own. -/
theorem pairwise_visits (m : RoutingModel) :
    m.visits.Pairwise fun v w => Text.le w.url v.url = true := by
  rw [visits, List.pairwise_filterMap]
  refine (m.pairwise_sortedIndex.sublist (firstOfEach_sublist _ _)).imp ?_
  intro owner owner' hle v hv w hw
  obtain ⟨k, -, rfl⟩ := Option.map_eq_some_iff.mp hv
  obtain ⟨k', -, rfl⟩ := Option.map_eq_some_iff.mp hw
  exact hle

/-- The records of the controllers, visit by visit. -/
def visitRecords (m : RoutingModel) : List Record :=
  m.visits.flatMap fun v => v.controller.records v.routingName

theorem exists_leads_of_mem_visitRecords {r : Record} (hr : r ∈ m.visitRecords) :
    ∃ url k, m.Leads r.controller url ∧ m.controllers.get? r.controller = some k ∧
      r ∈ k.records r.controller := by
  obtain ⟨v, hv, hr⟩ := List.mem_flatMap.mp hr
  obtain ⟨howner, hk⟩ := mem_visits hv
  rw [controller_of_mem_records hr]
  exact ⟨v.url, v.controller, leads_of_mem_reducedIndex howner, hk, hr⟩

/-- Of two controllers, the one that owns the greater URL comes first. -/
theorem pairwise_controllers (m : RoutingModel) :
    m.visitRecords.Pairwise fun r s =>
      r.controller ≠ s.controller → ∀ u v, m.Leads r.controller u → m.Leads s.controller v →
        Text.le v u = true := by
  refine List.pairwise_flatMap.mpr ⟨fun v _ => ?_, ?_⟩
  · refine List.pairwise_of_forall_mem_list fun r hr s hs hne => absurd ?_ hne
    rw [controller_of_mem_records hr, controller_of_mem_records hs]
  · refine m.pairwise_visits.imp_of_mem ?_
    intro v w hv hw hle r hr s hs _ u u' hu hu'
    rw [controller_of_mem_records hr] at hu
    rw [controller_of_mem_records hs] at hu'
    rw [hu.eq (leads_of_mem_reducedIndex (mem_visits hv).1),
      hu'.eq (leads_of_mem_reducedIndex (mem_visits hw).1)]
    exact hle

end RoutingModel

/-- Of two actions of a controller, the one that stands first in it comes first. -/
theorem Controller.pairwise_actions (k : Controller) (n : Text) :
    (k.records n).Pairwise fun r s => r.action ≠ s.action →
      k.actions.keys.idxOf r.action < k.actions.keys.idxOf s.action := by
  have action : ∀ {entry : Text × Action} {r : Record},
      r ∈ entry.2.records n k.className entry.1 → r.action = entry.1 := by
    intro entry r hr
    obtain ⟨route, -, rfl⟩ := List.mem_map.mp hr
    rfl
  rw [Controller.records_eq]
  refine List.pairwise_flatMap.mpr ⟨fun entry _ => ?_, ?_⟩
  · refine List.pairwise_of_forall_mem_list fun r hr s hs hne => absurd ?_ hne
    rw [action hr, action hs]
  · refine (List.pairwise_map.mp (pairwise_idxOf k.actions.distinct)).imp ?_
    intro entry next hlt r hr s hs _
    rw [action hr, action hs]
    exact hlt

namespace RoutingModel

theorem pairwise_actions (m : RoutingModel) :
    m.visitRecords.Pairwise fun r s =>
      r.controller = s.controller → r.action ≠ s.action →
        ∀ k, m.controllers.get? r.controller = some k →
          k.actions.keys.idxOf r.action < k.actions.keys.idxOf s.action := by
  refine List.pairwise_flatMap.mpr ⟨fun v hv => ?_, ?_⟩
  · refine (v.controller.pairwise_actions v.routingName).imp_of_mem ?_
    intro r s hr _ h _ hne k hk
    rw [controller_of_mem_records hr, (mem_visits hv).2] at hk
    cases hk
    exact h hne
  · refine (List.pairwise_map.mp m.nodup_names_visits).imp ?_
    intro v w hne r hr s hs heq
    rw [controller_of_mem_records hr, controller_of_mem_records hs] at heq
    exact absurd heq hne

end RoutingModel

theorem Controller.isRun_records_of_action {m : RoutingModel} {n name : Text} {k : Controller}
    {a : Action} (hc : m.Contributes n k) (ha : k.actions.get? name = some a) :
    IsRun Record.place (n, name) (a.records n k.className name) m.visitRecords := by
  obtain ⟨url, hv⟩ := RoutingModel.exists_mem_visits hc.1 hc.2
  exact (RoutingModel.isRun_records hv).trans (k.isRun_records n ha) fun r hr =>
    (Prod.mk.inj hr).1

theorem Keyed.getElem?_idxOf_keys {β : Type} {m : Keyed Text β} {key : Text} {value : β}
    (h : m.get? key = some value) : m.entries[m.keys.idxOf key]? = some (key, value) := by
  obtain ⟨i, hi, he⟩ := List.mem_iff_getElem.mp (Keyed.get?_eq_some_iff.mp h)
  have hl : i < m.keys.length := by
    rw [Keyed.keys, List.length_map]
    exact hi
  have hk : m.keys[i] = key := by simp [Keyed.keys, he]
  have hidx : m.keys.idxOf key = i := by
    rw [← hk]
    exact m.distinct.idxOf_getElem i hl
  rw [hidx, List.getElem?_eq_getElem hi, he]

namespace Controller

variable {k : Controller} {n name name' : Text} {a b : Action}

theorem exists_action_of_mem_records {r : Record} (h : r ∈ k.records n) :
    ∃ a, k.actions.get? r.action = some a ∧ r.route ∈ a.routes := by
  obtain ⟨⟨name, a⟩, he, hr⟩ := List.mem_flatMap.mp h
  obtain ⟨route, hroute, rfl⟩ := List.mem_map.mp hr
  exact ⟨a, Keyed.get?_eq_some_iff.mpr he, hroute⟩

theorem Descending.le_sortKey (h : k.Descending) (ha : k.actions.get? name = some a)
    (hb : k.actions.get? name' = some b)
    (hlt : k.actions.keys.idxOf name < k.actions.keys.idxOf name') :
    Text.le b.sortKey a.sortKey = true :=
  rel_of_lt_of_pairwise h (Keyed.getElem?_idxOf_keys ha) (Keyed.getElem?_idxOf_keys hb) hlt

end Controller

namespace RoutingModel

variable {m : RoutingModel} {i j : Nat} {r s : Record}

theorem lt_iff_of_controllers_ne (hi : m.visitRecords[i]? = some r)
    (hj : m.visitRecords[j]? = some s) (hne : r.controller ≠ s.controller) :
    ∃ u v, m.Leads r.controller u ∧ m.Leads s.controller v ∧ (j < i ↔ u < v) := by
  obtain ⟨u, -, hu, -⟩ := exists_leads_of_mem_visitRecords (List.mem_of_getElem? hi)
  obtain ⟨v, -, hv, -⟩ := exists_leads_of_mem_visitRecords (List.mem_of_getElem? hj)
  have hij : i ≠ j := ne_of_getElem?_ne hi hj fun he => hne (congrArg Record.controller he)
  have huv : u ≠ v := by
    rintro rfl
    exact hne (Option.some.inj (hu.owned.symm.trans hv.owned))
  refine ⟨u, v, hu, hv, fun hlt => ?_, fun hlt => ?_⟩
  · have hle := rel_of_lt_of_pairwise m.pairwise_controllers hj hi hlt hne.symm v u hv hu
    exact Text.lt_of_le_of_ne hle huv
  · by_contra hn
    have hle := rel_of_lt_of_pairwise m.pairwise_controllers hi hj (by omega) hne u v hu hv
    exact Text.not_le_of_lt hlt hle

theorem lt_iff_of_actions_ne (descending : ∀ n k, m.controllers.get? n = some k → k.Descending)
    (hi : m.visitRecords[i]? = some r) (hj : m.visitRecords[j]? = some s)
    (he : r.controller = s.controller) (hne : r.action ≠ s.action) :
    ∃ k a b, m.controllers.get? r.controller = some k ∧ k.actions.get? r.action = some a ∧
      k.actions.get? s.action = some b ∧ r.route ∈ a.routes ∧ s.route ∈ b.routes ∧
      (j < i ↔ a.sortKey < b.sortKey ∨ (a.sortKey = b.sortKey ∧
        k.actions.keys.idxOf s.action < k.actions.keys.idxOf r.action)) := by
  obtain ⟨-, k, -, hk, hr⟩ := exists_leads_of_mem_visitRecords (List.mem_of_getElem? hi)
  obtain ⟨-, k', -, hk', hs⟩ := exists_leads_of_mem_visitRecords (List.mem_of_getElem? hj)
  rw [← he, hk] at hk'
  cases hk'
  obtain ⟨a, ha, hra⟩ := Controller.exists_action_of_mem_records hr
  obtain ⟨b, hb, hsb⟩ := Controller.exists_action_of_mem_records hs
  have hij : i ≠ j := ne_of_getElem?_ne hi hj fun he => hne (congrArg Record.action he)
  have earlier : i < j → k.actions.keys.idxOf r.action < k.actions.keys.idxOf s.action :=
    fun hlt => rel_of_lt_of_pairwise m.pairwise_actions hi hj hlt he hne k hk
  have later : j < i → k.actions.keys.idxOf s.action < k.actions.keys.idxOf r.action :=
    fun hlt => rel_of_lt_of_pairwise m.pairwise_actions hj hi hlt he.symm hne.symm k (he ▸ hk)
  have sorted := descending _ _ hk
  refine ⟨k, a, b, hk, ha, hb, hra, hsb, fun hlt => ?_, fun hkeys => ?_⟩
  · by_cases heq : a.sortKey = b.sortKey
    · exact Or.inr ⟨heq, later hlt⟩
    · exact Or.inl (Text.lt_of_le_of_ne (sorted.le_sortKey hb ha (later hlt)) heq)
  · by_contra hn
    have hidx := earlier (by omega)
    rcases hkeys with hlt | ⟨-, hlt⟩
    · exact Text.not_le_of_lt hlt (sorted.le_sortKey ha hb hidx)
    · omega

theorem lt_iff_of_actions_eq (hi : m.visitRecords[i]? = some r)
    (hj : m.visitRecords[j]? = some s) (he : r.controller = s.controller)
    (hea : r.action = s.action) :
    ∃ k a, ∃ p q : Nat, m.controllers.get? r.controller = some k ∧
      k.actions.get? r.action = some a ∧ a.routes[p]? = some r.route ∧
      a.routes[q]? = some s.route ∧ (j < i ↔ q < p) := by
  obtain ⟨u, k, hu, hk, hr⟩ := exists_leads_of_mem_visitRecords (List.mem_of_getElem? hi)
  obtain ⟨a, ha, -⟩ := Controller.exists_action_of_mem_records hr
  -- the records of an action stand together, in the order of its routes
  obtain ⟨offset, hplace⟩ :=
    (Controller.isRun_records_of_action ⟨hk, u, hu.owned⟩ ha).exists_offset
  obtain ⟨p, rfl, hp⟩ := hplace i r hi rfl
  obtain ⟨q, rfl, hq⟩ := hplace j s hj (by rw [Record.place, ← he, ← hea])
  rw [Action.records, List.getElem?_map] at hp hq
  obtain ⟨route, hp, hrp⟩ := Option.map_eq_some_iff.mp hp
  obtain ⟨route', hq, hsq⟩ := Option.map_eq_some_iff.mp hq
  obtain rfl : route = r.route := congrArg Record.route hrp
  obtain rfl : route' = s.route := congrArg Record.route hsq
  exact ⟨k, a, p, q, hk, ha, hp, hq, by omega⟩

/-- What decides whether the record `s` at `j` comes before the record `r` at `i`: the greatest URLs
that their controllers own, the sort keys of their actions, or the order of their routes in the
action. -/
structure Precedence (m : RoutingModel) (i j : Nat) (r s : Record) : Prop where
  controllers : r.controller ≠ s.controller →
    ∃ u v, m.Leads r.controller u ∧ m.Leads s.controller v ∧ (j < i ↔ u < v)
  actions : r.controller = s.controller → r.action ≠ s.action →
    ∃ k a b, m.controllers.get? r.controller = some k ∧ k.actions.get? r.action = some a ∧
      k.actions.get? s.action = some b ∧ r.route ∈ a.routes ∧ s.route ∈ b.routes ∧
      (j < i ↔ a.sortKey < b.sortKey ∨ (a.sortKey = b.sortKey ∧
        k.actions.keys.idxOf s.action < k.actions.keys.idxOf r.action))
  routes : r.controller = s.controller → r.action = s.action →
    ∃ k a, ∃ p q : Nat, m.controllers.get? r.controller = some k ∧
      k.actions.get? r.action = some a ∧ a.routes[p]? = some r.route ∧
      a.routes[q]? = some s.route ∧ (j < i ↔ q < p)

theorem precedence_of_resolved {records : List Record} (h : m.Resolved)
    (descending : ∀ n k, m.controllers.get? n = some k → k.Descending)
    (hrecords : m.records = .ok records) (hi : records[i]? = some r) (hj : records[j]? = some s) :
    m.Precedence i j r s := by
  obtain rfl : m.visitRecords = records :=
    Except.ok.inj ((records_eq h).symm.trans hrecords)
  exact ⟨lt_iff_of_controllers_ne hi hj, lt_iff_of_actions_ne descending hi hj,
    lt_iff_of_actions_eq hi hj⟩

end RoutingModel

/-- The URL of the record goes on from that of another one. -/
structure Record.Specializes (s r : Record) : Prop where
  ne_nil : r.route.url ≠ []
  isPrefix : r.route.url <+: s.route.url
  ne : r.route.url ≠ s.route.url

theorem Action.lower_le_sortKey {a : Action} {route : Route} (h : route ∈ a.routes) :
    Text.le (Text.lower route.url) a.sortKey = true :=
  Text.le_greatest (List.mem_map_of_mem h)

namespace RoutingModel.Precedence

variable {m : RoutingModel} {i j : Nat} {r s : Record}

theorem lt_of_leads (h : m.Precedence i j r s) (hs : s.Specializes r)
    (hne : r.controller ≠ s.controller) (hr : m.Leads r.controller r.route.url)
    (howned : m.urlIndex.get? s.route.url = some s.controller) : j < i := by
  obtain ⟨u, v, hu, hv, hiff⟩ := h.controllers hne
  obtain rfl := hr.eq hu
  exact hiff.mpr (Text.lt_of_lt_of_le (Text.lt_of_prefix hs.isPrefix hs.ne)
    (hv.greatest _ howned))

theorem lt_of_sortKey {k : Controller} {a : Action} (h : m.Precedence i j r s)
    (hs : s.Specializes r) (he : r.controller = s.controller) (hne : r.action ≠ s.action)
    (hk : m.controllers.get? r.controller = some k) (ha : k.actions.get? r.action = some a)
    (hkey : a.sortKey = Text.lower r.route.url) : j < i := by
  obtain ⟨k', a', b, hk', ha', -, -, hsb, hiff⟩ := h.actions he hne
  obtain rfl := Option.some.inj (hk.symm.trans hk')
  obtain rfl := Option.some.inj (ha.symm.trans ha')
  refine hiff.mpr (Or.inl ?_)
  rw [hkey]
  exact Text.lt_of_lt_of_le (Text.lower_lt_of_prefix hs.isPrefix hs.ne)
    (Action.lower_le_sortKey hsb)

end RoutingModel.Precedence

/-- The first class of a routing name, with its actions in the order of their sort keys already. -/
theorem RoutingModel.addClass_of_descending {m : RoutingModel} {c : HandlerClass}
    (hc : c.routingName ≠ []) (new : m.controllers.get? c.routingName = none)
    (h : Controller.Descending ⟨c.qualifiedName, Keyed.putAll ∅ c.actions⟩) :
    (m.addClass c).model =
      { controllers := m.controllers.put c.routingName ⟨c.qualifiedName, Keyed.putAll ∅ c.actions⟩
        urlIndex := m.urlIndex.putAll c.claims } := by
  have sorted := descending_of_pairwise (fun entry : Text × Action => entry.2.sortKey) h
  have actions : Controller.addActions { className := c.qualifiedName } c.actions =
      ⟨c.qualifiedName, Keyed.putAll ∅ c.actions⟩ :=
    congrArg (Controller.mk c.qualifiedName) (Keyed.ext sorted)
  rw [addClass_of_accepted m hc, new, Option.getD_none, actions]

namespace Builder

/-- Of two controllers the one with the greater owned URL comes first, of two actions the one with
the greater sort key, and the routes of an action come as they are declared. So the more specific of
two URLs comes first if the other one is the greatest of its controller or of its action. -/
theorem precedence_addClasses (reflector : Reflector) (classes : List HandlerClass) :
    let m := (addClasses { reflector } classes).model
    ∃ records, m.records = .ok records ∧
      m.statements.filterMap Statement.registration? = records.map Record.registration ∧
      ∀ (i j : Nat) (r s : Record), records[i]? = some r → records[j]? = some s →
        m.Precedence i j r s ∧
        (s.Specializes r → r.controller ≠ s.controller → m.Leads r.controller r.route.url →
          m.urlIndex.get? s.route.url = some s.controller → j < i) ∧
        (s.Specializes r → r.controller = s.controller → r.action ≠ s.action →
          ∀ k a, m.controllers.get? r.controller = some k → k.actions.get? r.action = some a →
            a.sortKey = Text.lower r.route.url → j < i) := by
  rw [model_addClasses]
  have resolved := RoutingModel.resolved_addClasses classes
  have descending := RoutingModel.descending_get?_addClasses classes
  obtain ⟨records, hrecords, agrees⟩ := RoutingModel.agrees_of_resolved resolved descending
  refine ⟨records, hrecords, agrees.registrations, fun i j r s hi hj => ?_⟩
  have precedence := RoutingModel.precedence_of_resolved resolved descending hrecords hi hj
  exact ⟨precedence, fun hs hne hr howned => precedence.lt_of_leads hs hne hr howned,
    fun hs he hne k a hk ha hkey => precedence.lt_of_sortKey hs he hne hk ha hkey⟩

/-- A class with a route for each of the URLs of its methods. -/
def routesClass (className routingName : Text) (methods : List (Text × List Text)) :
    HandlerClass where
  qualifiedName := className
  comment := "/** name=".toList ++ routingName ++ " */".toList
  methods := methods.map fun method =>
    ⟨method.1, "/**\n".toList ++ (method.2.flatMap fun url =>
      " * @route(\n * url=".toList ++ url ++ "\n * )\n".toList) ++ " */".toList⟩

/-- Two classes, of which one has a URL that goes on from that of the other. -/
theorem precedence_of_longer_url :
    let m := (addClasses { reflector := .silent }
      [routesClass ['A'] ['a'] [(['l'], ["/u".toList])],
        routesClass ['B'] ['b'] [(['l'], ["/u/w".toList])]]).model
    ∃ records r s, ∃ i j : Nat, m.records = .ok records ∧ records[i]? = some r ∧
      records[j]? = some s ∧ r.route.url = "/u".toList ∧ s.route.url = "/u/w".toList ∧ j < i := by
  intro m
  have index : m.sortedIndex = [("/u/w".toList, ['b']), ("/u".toList, ['a'])] :=
    RoutingModel.sortedIndex_eq_of_perm (by decide +kernel) (by decide +kernel)
  have computed : m.records = .ok
      [⟨['b'], ['B'], ['l'], { url := "/u/w".toList }, []⟩,
        ⟨['a'], ['A'], ['l'], { url := "/u".toList }, []⟩] := by
    rw [RoutingModel.records, RoutingModel.reducedIndex, index]
    decide +kernel
  have leads : m.Leads ['a'] "/u".toList :=
    RoutingModel.leads_of_mem_reducedIndex (by rw [RoutingModel.reducedIndex, index]; decide)
  obtain ⟨records, hrecords, -, order⟩ := precedence_addClasses .silent
    [routesClass ['A'] ['a'] [(['l'], ["/u".toList])],
      routesClass ['B'] ['b'] [(['l'], ["/u/w".toList])]]
  obtain rfl := Except.ok.inj (hrecords.symm.trans computed)
  refine ⟨_, _, _, 1, 0, computed, rfl, rfl, rfl, rfl, ?_⟩
  exact (order 1 0 _ _ rfl rfl).2.1 ⟨by decide, by decide, by decide⟩ (by decide) leads
    (by decide +kernel)

/-- A shorter URL may stand before longer ones: before one of the same action, before one of another
action and before one of another controller. -/
theorem not_more_specific_first :
    let first := routesClass "A".toList "a".toList
      [("list".toList, ["/u".toList, "/u/x".toList, "/z".toList]),
        ("show".toList, ["/u/y".toList])]
    let second := routesClass "B".toList "b".toList [("list".toList, ["/u/w".toList])]
    let m := (addClasses { reflector := .silent } [first, second]).model
    ∃ records, m.records = .ok records ∧
      records.map (fun r => (r.controller, r.action, r.route.url)) =
        [("a".toList, "list".toList, "/u".toList), ("a".toList, "list".toList, "/u/x".toList),
          ("a".toList, "list".toList, "/z".toList), ("a".toList, "show".toList, "/u/y".toList),
          ("b".toList, "list".toList, "/u/w".toList)] ∧
      (∀ j ∈ [1, 3, 4], ∃ r s, records[0]? = some r ∧ records[j]? = some s ∧ s.Specializes r) ∧
      ¬ ∀ (i j : Nat) (r s : Record), records[i]? = some r → records[j]? = some s →
        s.Specializes r → j < i := by
  intro first second m
  have hfirst : first.routingName ≠ [] := by decide +kernel
  have hsecond : second.routingName ≠ [] := by decide +kernel
  have sorted : Controller.Descending ⟨first.qualifiedName, Keyed.putAll ∅ first.actions⟩ := by
    unfold Controller.Descending
    decide +kernel
  have sorted' : Controller.Descending ⟨second.qualifiedName, Keyed.putAll ∅ second.actions⟩ := by
    unfold Controller.Descending
    decide +kernel
  have hm : m = ((({} : RoutingModel).addClass first).model.addClass second).model := rfl
  rw [RoutingModel.addClass_of_descending hfirst rfl sorted,
    RoutingModel.addClass_of_descending hsecond (by decide +kernel) sorted'] at hm
  have index : m.sortedIndex = [("/z".toList, "a".toList), ("/u/y".toList, "a".toList),
      ("/u/x".toList, "a".toList), ("/u/w".toList, "b".toList), ("/u".toList, "a".toList)] := by
    rw [hm]
    exact RoutingModel.sortedIndex_eq_of_perm (by decide +kernel) (by decide +kernel)
  have computed : m.records = .ok
      [⟨"a".toList, "A".toList, "list".toList, { url := "/u".toList }, []⟩,
        ⟨"a".toList, "A".toList, "list".toList, { url := "/u/x".toList }, []⟩,
        ⟨"a".toList, "A".toList, "list".toList, { url := "/z".toList }, []⟩,
        ⟨"a".toList, "A".toList, "show".toList, { url := "/u/y".toList }, []⟩,
        ⟨"b".toList, "B".toList, "list".toList, { url := "/u/w".toList }, []⟩] := by
    rw [RoutingModel.records, RoutingModel.reducedIndex, index, hm]
    decide +kernel
  refine ⟨_, computed, rfl, fun j hj => ?_, fun h => ?_⟩
  · simp only [List.mem_cons, List.not_mem_nil, or_false] at hj
    rcases hj with rfl | rfl | rfl
    · exact ⟨_, _, rfl, rfl, by decide, by decide, by decide⟩
    · exact ⟨_, _, rfl, rfl, by decide, by decide, by decide⟩
    · exact ⟨_, _, rfl, rfl, by decide, by decide, by decide⟩
  · have := h 0 1 _ _ rfl rfl ⟨by decide, by decide, by decide⟩
    omega

end Builder

end AnnotatedRoutes
