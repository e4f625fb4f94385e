import AnnotatedRoutes.Proofs.Cancellation
import AnnotatedRoutes.Proofs.ShippedRouter
import AnnotatedRoutes.Proofs.WrittenModel

namespace AnnotatedRoutes.ShippedRouter

open RouterTemplates

theorem separable_lines :
    Separable Text.Unbroken (fun l : Text => l ++ ['\n']) id (· ≠ []) (fun _ => True) := by
  have hr : ∀ (rest : Text) (c : Char), ('\n' :: rest).head? = some c →
      ¬ Text.isLineBreak c = false := by
    intro rest c hc
    cases Option.some.inj hc
    decide
  constructor
  case starts_append => exact fun l rest _ => by simp
  case follows_of_starts => exact fun _ _ => trivial
  case append_inj =>
    intro l l' rest rest' hl hl' _ _ h
    rw [List.append_assoc, List.append_assoc] at h
    obtain ⟨hll, ht⟩ := append_inj_of_run hl hl' (hr rest) (hr rest') h
    exact ⟨hll, (List.cons.inj ht).2⟩

theorem text_injective {ls ls' : List Text} (h : ∀ l ∈ ls, l.Unbroken)
    (h' : ∀ l ∈ ls', l.Unbroken) (he : text ls = text ls') : ls = ls' := by
  rw [← List.append_nil (text ls), ← List.append_nil (text ls')] at he
  have hm := (separable_lines.flatMap_append_inj h h' (by simp) (by simp) he).1
  rwa [List.map_id, List.map_id] at hm

/-- A kind of texts: the lines of a filled template are of it if the values are. -/
structure Fills (P : Text → Prop) : Prop where
  empty : P []
  header : ∀ l ∈ Text.lines shipped.header, P l
  controllerRule : P shipped.controllerRule
  actionRule : P shipped.actionRule
  controllerTitle : ∀ {url n}, P url → P n → P (controllerTitle url n)
  definition : ∀ {n className}, P n → P className → ∀ l ∈ Text.lines (definition n className), P l
  identifier : ∀ {n name}, P n → P name → P (Action.identifier n name)
  actionTitle : ∀ {identifier}, P identifier → P (actionTitle identifier)
  routeHead : ∀ {url identifier}, P url → P identifier → P (routeHead url identifier)
  methodCall : ∀ {head method}, P head → P method → P (head ++ methodCall method)
  bindCall : ∀ {name}, P name → P (bindCall name)
  chained : ∀ {call}, P call → P (shipped.chainIndent ++ call)
  ended : ∀ {line}, P line → P (line ++ [';'])
  resource : ∀ {identifier}, P identifier → P (resource identifier)
  allowOpening : ∀ {identifier}, P identifier → ∀ l ∈ Text.lines (allowOpening identifier), P l
  allowRule : ∀ {rule}, P rule → P (allowRule rule)
  allowClosing : ∀ l ∈ Text.lines allowClosing, P l

namespace Fills

variable {P : Text → Prop}

theorem endStatement (hP : Fills P) {ls : List Text} (h : ∀ l ∈ ls, P l) :
    ∀ l ∈ endStatement ls, P l := by
  fun_induction RouterTemplates.endStatement ls with
  | case1 => exact h
  | case2 line => exact List.forall_mem_singleton.mpr (hP.ended (List.forall_mem_singleton.mp h))
  | case3 line lines hne ih =>
    obtain ⟨hl, hs⟩ := List.forall_mem_cons.mp h
    exact List.forall_mem_cons.mpr ⟨hl, ih hs⟩

theorem calls (hP : Fills P) {r : Route} (hr : r.Has P) : ∀ call ∈ calls r, P call := by
  refine List.forall_mem_append.mpr ⟨List.forall_mem_append.mpr ⟨?_, hr.asserts⟩, hr.values⟩
  split
  · exact List.forall_mem_nil _
  · exact List.forall_mem_singleton.mpr (hP.bindCall hr.name)

theorem routeLines (hP : Fills P) {r : Route} {identifier : Text} (hr : r.Has P)
    (hi : P identifier) : ∀ l ∈ routeLines r identifier, P l := by
  have head := hP.routeHead hr.url hi
  rw [routeLines_eq]
  refine hP.endStatement (List.forall_mem_cons.mpr ⟨?_, ?_⟩)
  · split
    · rwa [List.append_nil]
    · exact hP.methodCall head hr.method
  · intro l hl
    obtain ⟨call, hc, rfl⟩ := List.mem_map.mp hl
    exact hP.chained (hP.calls hr call hc)

theorem optionalAcl (hP : Fills P) {identifier : Text} {rules : List Text} (hi : P identifier)
    (hr : ∀ rule ∈ rules, P rule) : ∀ l ∈ optionalAcl identifier rules, P l := by
  unfold ShippedRouter.optionalAcl
  split
  · exact List.forall_mem_nil _
  · simp only [aclLines, List.forall_mem_append, List.forall_mem_cons]
    refine ⟨⟨⟨hP.resource hi, hP.allowOpening hi⟩, ?_⟩, hP.allowClosing⟩
    intro l hl
    obtain ⟨rule, hrule, rfl⟩ := List.mem_map.mp hl
    exact hP.allowRule (hr rule hrule)

theorem actionLines (hP : Fills P) {n name : Text} {a : Action} (hn : P n) (hname : P name)
    (ha : a.Has P) : ∀ l ∈ actionLines n name a, P l := by
  have hi := hP.identifier hn hname
  have hroutes : ∀ l ∈ a.routes.flatMap fun r =>
      ShippedRouter.routeLines r (Action.identifier n name), P l := by
    intro l hl
    obtain ⟨r, hr, hl⟩ := List.mem_flatMap.mp hl
    exact hP.routeLines (ha.routes r hr) hi l hl
  unfold ShippedRouter.actionLines
  split
  · exact List.forall_mem_nil _
  · simp only [List.forall_mem_cons, List.forall_mem_append]
    exact ⟨hP.empty, hP.actionRule, hP.actionTitle hi, hroutes, hP.optionalAcl hi ha.acl⟩

theorem controllerLines (hP : Fills P) {v : RoutingModel.Visit} (hv : v.Has P) :
    ∀ l ∈ controllerLines v, P l := by
  have htitle := hP.controllerTitle hv.url hv.routingName
  refine List.forall_mem_append.mpr ⟨List.forall_mem_append.mpr
    ⟨?_, hP.definition hv.routingName hv.className⟩, ?_⟩
  · simp only [List.forall_mem_cons]
    exact ⟨hP.empty, hP.controllerRule, htitle, hP.controllerRule, List.forall_mem_nil _⟩
  · intro l hl
    obtain ⟨e, he, hl⟩ := List.mem_flatMap.mp hl
    exact hP.actionLines hv.routingName (hv.actions e he).1 (hv.actions e he).2 l hl

theorem routerLines (hP : Fills P) {m : RoutingModel} (h : ∀ v ∈ m.visits, v.Has P) :
    ∀ l ∈ routerLines m, P l := by
  refine List.forall_mem_append.mpr ⟨hP.header, ?_⟩
  intro l hl
  obtain ⟨v, hv, hl⟩ := List.mem_flatMap.mp hl
  exact hP.controllerLines (h v hv) l hl

end Fills

/-- An unbroken text between two fixed ones. -/
theorem unbroken_between {u t v : Text} (hu : u.Unbroken) (ht : t.Unbroken) (hv : v.Unbroken) :
    Text.Unbroken (u ++ (t ++ v)) :=
  Text.unbroken_append.mpr ⟨hu, Text.unbroken_append.mpr ⟨ht, hv⟩⟩

theorem fills_unbroken : Fills Text.Unbroken where
  empty := List.forall_mem_nil _
  header := Text.unbroken_of_mem_lines _
  controllerRule := by decide
  actionRule := by decide
  controllerTitle hu hn :=
    unbroken_between (by decide) hn (unbroken_between (by decide) hu (by decide))
  definition _ _ := Text.unbroken_of_mem_lines _
  identifier hn hname := unbroken_between (t := [':']) hn (by decide) hname
  actionTitle hi := Text.unbroken_append.mpr ⟨by decide, hi⟩
  routeHead hu hi := unbroken_between (by decide) hu (unbroken_between (by decide) hi (by decide))
  methodCall hh hm := Text.unbroken_append.mpr ⟨hh, unbroken_between (by decide) hm (by decide)⟩
  bindCall hn := unbroken_between (by decide) hn (by decide)
  chained hc := Text.unbroken_append.mpr ⟨by decide, hc⟩
  ended hl := Text.unbroken_append.mpr ⟨hl, by decide⟩
  resource hi := unbroken_between (by decide) hi (by decide)
  allowOpening _ := Text.unbroken_of_mem_lines _
  allowRule hr := unbroken_between (by decide) hr (by decide)
  allowClosing := Text.unbroken_of_mem_lines _

theorem unbroken_routerLines {m : RoutingModel} (h : ∀ v ∈ m.visits, v.Written) :
    ∀ l ∈ routerLines m, l.Unbroken :=
  fills_unbroken.routerLines fun v hv => (h v hv).has

end AnnotatedRoutes.ShippedRouter
