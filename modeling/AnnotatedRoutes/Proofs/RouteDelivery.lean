import AnnotatedRoutes.Proofs.ModelMeaning
import AnnotatedRoutes.Proofs.ShippedRouter

namespace AnnotatedRoutes

namespace RoutingModel

/-- Nothing of a controller is lost: its block stands in the router file, and the records have
each of its routes once. -/
structure Delivers (m : RoutingModel) (n : Text) (k : Controller) : Prop where
  block : ∃ file url before after, RouterTemplates.shipped.render m = .ok file ∧
    file = before ++ (ShippedRouter.text (ShippedRouter.controllerLines ⟨url, n, k⟩) ++ after)
  records : ∃ rs, m.records = .ok rs ∧ rs.filter (·.controller = n) = k.records n

theorem block_of_mem_visits {m : RoutingModel} (h : m.Resolved) {v : Visit} (hv : v ∈ m.visits) :
    ∃ before after, RouterTemplates.shipped.render m =
      .ok (before ++ (ShippedRouter.text (ShippedRouter.controllerLines v) ++ after)) := by
  obtain ⟨vs, vs', hs⟩ := List.append_of_mem hv
  refine ⟨ShippedRouter.text (Text.lines RouterTemplates.shipped.header ++
    vs.flatMap ShippedRouter.controllerLines),
    ShippedRouter.text (vs'.flatMap ShippedRouter.controllerLines), ?_⟩
  rw [ShippedRouter.render_eq h, ShippedRouter.routerLines, hs, List.flatMap_append,
    List.flatMap_cons, ← List.append_assoc, ShippedRouter.text_append, ShippedRouter.text_append,
    ShippedRouter.text_append]

theorem delivers_of_owns {m : RoutingModel} {n : Text} {k : Controller} (h : m.Resolved)
    (hk : m.controllers.get? n = some k) (ho : ∃ url, m.urlIndex.get? url = some n) :
    m.Delivers n k := by
  obtain ⟨url, hv⟩ := exists_mem_visits hk ho
  obtain ⟨before, after, hfile⟩ := block_of_mem_visits h hv
  refine ⟨⟨_, url, before, after, hfile, rfl⟩, _, records_eq h, ?_⟩
  have hf := filter_eq_singleton m.nodup_names_visits hv
  rw [filter_flatMap_records, hf, List.flatMap_singleton]

theorem mem_records_iff_owns {m : RoutingModel} {n : Text} {k : Controller} {r : Record}
    (h : m.Resolved) (hk : m.controllers.get? n = some k) (hr : r ∈ k.records n) :
    (∃ rs, m.records = .ok rs ∧ r ∈ rs) ↔ ∃ url, m.urlIndex.get? url = some n := by
  constructor
  · rintro ⟨rs, hrs, hm⟩
    cases hrs.symm.trans (records_eq h)
    obtain ⟨v, hv, hm⟩ := List.mem_flatMap.mp hm
    have hn : v.routingName = n :=
      (controller_of_mem_records hm).symm.trans (controller_of_mem_records hr)
    exact ⟨v.url, hn ▸ get?_of_mem_reducedIndex (mem_visits hv).1⟩
  · intro ho
    obtain ⟨rs, hrs, hf⟩ := (delivers_of_owns h hk ho).records
    exact ⟨rs, hrs, List.mem_of_mem_filter (hf ▸ hr)⟩

theorem mem_records_of_route {k : Controller} {name : Text} {action : Action} {route : Route}
    (ha : k.actions.get? name = some action) (hr : route ∈ action.routes) (n : Text) :
    ⟨n, k.className, name, route, action.acl⟩ ∈ k.records n :=
  List.mem_flatMap.mpr ⟨(name, action), Keyed.get?_eq_some_iff.mp ha, List.mem_map_of_mem hr⟩

end RoutingModel

namespace Builder

/-- A controller with a route is delivered just when some URL was last registered under its routing
name, and just then do the records have the routes of the last method of a name. -/
theorem delivers_iff_owns_url (reflector : Reflector) (classes : List HandlerClass) (n : Text)
    (k : Controller)
    (hk : (addClasses { reflector } classes).model.controllers.get? n = some k)
    (hr : ∃ entry ∈ k.actions.entries, entry.2.routes ≠ []) :
    ((addClasses { reflector } classes).model.Delivers n k ↔
      ∃ url, Keyed.lastUnder url (registrations classes) = some n) ∧
    ∀ name action route, Keyed.lastUnder name (actionsUnder n classes) = some action →
      route ∈ action.routes →
      ((∃ rs, (addClasses { reflector } classes).model.records = .ok rs ∧
          ⟨n, k.className, name, route, action.acl⟩ ∈ rs) ↔
        ∃ url, Keyed.lastUnder url (registrations classes) = some n) := by
  rw [model_addClasses] at hk ⊢
  have resolved := RoutingModel.resolved_addClasses classes
  simp only [← RoutingModel.get?_urlIndex_addClasses]
  constructor
  · refine ⟨fun hd => ?_, RoutingModel.delivers_of_owns resolved hk⟩
    obtain ⟨entry, he, hne⟩ := hr
    obtain ⟨route, hroute⟩ := List.exists_mem_of_ne_nil _ hne
    have hm := RoutingModel.mem_records_of_route (Keyed.get?_eq_some_iff.mpr he) hroute n
    obtain ⟨rs, hrs, hf⟩ := hd.records
    exact (RoutingModel.mem_records_iff_owns resolved hk hm).mp
      ⟨rs, hrs, List.mem_of_mem_filter (hf ▸ hm)⟩
  · intro name action route ha hroute
    rw [← RoutingModel.actions_get?_addClasses, hk] at ha
    exact RoutingModel.mem_records_iff_owns resolved hk
      (RoutingModel.mem_records_of_route ha hroute n)

/-- A class with one method, which has a route for each of some URLs. -/
def oneMethodClass (n method : Text) (urls : List Text) : HandlerClass where
  qualifiedName := n
  comment := "/** name=".toList ++ n ++ " */".toList
  methods := [⟨"x".toList, urls.flatMap fun url =>
    "@route(\nmethod=".toList ++ method ++ "\nurl=".toList ++ url ++ "\n)\n".toList⟩]

/-- One URL that no other class takes is enough, although another one is lost. -/
theorem delivers_with_own_url :
    let classes := [oneMethodClass ['a'] ['G'] ["/o".toList, "/s".toList],
      oneMethodClass ['b'] ['P'] ["/s".toList]]
    ∃ k, (addClasses { reflector := .silent } classes).model.controllers.get? ['a'] = some k ∧
      (∃ entry ∈ k.actions.entries, entry.2.routes ≠ []) ∧
      (addClasses { reflector := .silent } classes).model.Delivers ['a'] k := by
  intro classes
  let k : Controller :=
    { className := ['a']
      actions := Keyed.ofList [("x".toList,
        { routes := [{ method := ['G'], url := "/o".toList },
            { method := ['G'], url := "/s".toList }] })] }
  have hk : (addClasses { reflector := .silent } classes).model.controllers.get? ['a'] =
      some k := by decide +kernel
  have hr : ∃ entry ∈ k.actions.entries, entry.2.routes ≠ [] := by decide +kernel
  exact ⟨k, hk, hr, (delivers_iff_owns_url .silent classes ['a'] k hk hr).1.mpr
    ⟨"/o".toList, by decide +kernel⟩⟩

/-- The only URL of a controller, taken by a later class, takes the controller with it. -/
theorem not_delivers_shared_url :
    ¬ ∀ classes n k,
      (addClasses { reflector := .silent } classes).model.controllers.get? n = some k →
      (∃ entry ∈ k.actions.entries, entry.2.routes ≠ []) →
      (addClasses { reflector := .silent } classes).model.Delivers n k := by
  intro h
  let classes := [oneMethodClass ['a'] ['G'] ["/s".toList],
    oneMethodClass ['b'] ['P'] ["/s".toList]]
  let k : Controller :=
    { className := ['a']
      actions := Keyed.ofList [("x".toList,
        { routes := [{ method := ['G'], url := "/s".toList }] })] }
  obtain ⟨rs, hrs, hf⟩ := (h classes ['a'] k (by decide +kernel) (by decide +kernel)).records
  have hb : (addClasses { reflector := .silent } classes).model.records = .ok
      [⟨['b'], ['b'], ['x'], { method := ['P'], url := "/s".toList }, []⟩] := by
    decide +kernel
  cases hrs.symm.trans hb
  revert hf
  decide +kernel

end Builder

end AnnotatedRoutes
