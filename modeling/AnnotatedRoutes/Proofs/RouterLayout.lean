import AnnotatedRoutes.Proofs.RouterDecoding
import AnnotatedRoutes.Proofs.TidyModel
import Mathlib.Algebra.GroupWithZero.Nat

namespace AnnotatedRoutes

namespace Text

theorem splitAt_append {sep : Char} {t : Text} (h : sep ∉ t) (rest : Text) :
    splitAt sep (t ++ sep :: rest) = t :: splitAt sep rest := by
  induction t with
  | nil => simp [splitAt]
  | cons c t ih =>
    obtain ⟨hc, ht⟩ := not_or.mp (mt List.mem_cons.mpr h)
    rw [List.cons_append, splitAt, if_neg (Ne.symm hc), ih ht]

end Text

/-- The number of lines that register a route: one and another for each chained call. -/
def Route.lineCount (r : Route) : Nat :=
  1 + ((if r.name = [] then 0 else 1) + r.asserts.length + r.values.length)

/-- The number of lines about an action: an empty one, a rule, the title, those of its routes, and
for access rules five and one for each of them. -/
def Action.lineCount (a : Action) : Nat :=
  if a.isEmpty then 0
  else 3 + (a.routes.map Route.lineCount).sum + if a.acl = [] then 0 else 5 + a.acl.length

def RoutingModel.lineCount (m : RoutingModel) : Nat :=
  3 + (m.visits.map fun v =>
    7 + (v.controller.actions.entries.map fun entry => entry.2.lineCount).sum).sum

namespace ShippedRouter

open RouterTemplates

def headerLayout : List Text :=
  ["<?php".toList, [],
    "// Generated by routegen from controller annotations. Do not edit by hand.".toList]

def definitionLayout (n className : Text) : List Text :=
  ["$app['".toList ++ (n ++ "'] = function () use ($app) \x7b".toList),
    "    return new \\".toList ++ (className ++ "($app);".toList), "\x7d;".toList]

def aclLayout (identifier : Text) (rules : List Text) : List Text :=
  [resource identifier,
    "$app['acl']->allow('".toList ++
      (identifier ++ "', function ($self) use ($app) \x7b".toList),
    "    return array(".toList] ++ rules.map allowRule ++ ["    );".toList, "\x7d);".toList]

def actionLayout (n name : Text) (a : Action) : List Text :=
  if a.isEmpty then []
  else
    let identifier := Action.identifier n name
    [[], shipped.actionRule, actionTitle identifier] ++
      (a.routes.flatMap fun r => routeLines r identifier) ++
      if a.acl = [] then [] else aclLayout identifier a.acl

def controllerLayout (v : RoutingModel.Visit) : List Text :=
  [[], shipped.controllerRule, controllerTitle v.url v.routingName, shipped.controllerRule] ++
    definitionLayout v.routingName v.controller.className ++
    v.controller.actions.entries.flatMap fun entry => actionLayout v.routingName entry.1 entry.2

/-- The lines that the templates call for. -/
def layout (m : RoutingModel) : List Text :=
  headerLayout ++ m.visits.flatMap controllerLayout

/-- The lines of a text of two lines, the first of which holds a name. -/
theorem lines_of_name {u v w n : Text} (hn : n.Unbroken) (h : ∀ t ∈ [u, v, w], Text.Unbroken t)
    (hw : w ≠ []) : Text.lines (u ++ (n ++ (v ++ '\n' :: w))) = [u ++ (n ++ v), w] := by
  simp only [List.forall_mem_cons] at h
  obtain ⟨hu, hv, hw', -⟩ := h
  have he : u ++ (n ++ (v ++ '\n' :: w)) = (u ++ (n ++ v)) ++ '\n' :: w := by
    simp only [List.append_assoc]
  rw [he, Text.lines_append_newline (unbroken_between hu hn hv), Text.lines_of_unbroken hw' hw]

theorem lines_allowOpening {identifier : Text} (h : identifier.Unbroken) :
    Text.lines (allowOpening identifier) =
      ["$app['acl']->allow('".toList ++
        (identifier ++ "', function ($self) use ($app) \x7b".toList),
        "    return array(".toList] := by
  have hfixed : ∀ t ∈ ["$app['acl']->allow('".toList,
      "', function ($self) use ($app) \x7b".toList, "    return array(".toList],
      Text.Unbroken t := by
    decide
  exact lines_of_name h hfixed (by decide)

theorem aclLines_eq {identifier : Text} (h : identifier.Unbroken) (rules : List Text) :
    aclLines identifier rules = aclLayout identifier rules := by
  have hclosing : Text.lines allowClosing = ["    );".toList, "\x7d);".toList] := by rfl
  rw [aclLines, aclLayout, lines_allowOpening h, hclosing]

theorem actionLines_eq_layout {n name : Text} (h : (Action.identifier n name).Unbroken)
    (a : Action) : actionLines n name a = actionLayout n name a := by
  cases he : a.isEmpty with
  | true => simp [actionLines, actionLayout, he]
  | false =>
    rw [actionLines_eq n he, actionLayout, if_neg (by simp [he]), optionalAcl, aclLines_eq h]
    simp only [List.cons_append, List.nil_append]

theorem controllerLines_eq_layout {v : RoutingModel.Visit} (h : v.Written) :
    controllerLines v = controllerLayout v := by
  rw [controllerLines, controllerLayout, lines_definition h.routingName h.className]
  refine congrArg (_ ++ ·) (List.flatMap_congr fun entry he => ?_)
  exact actionLines_eq_layout (fills_unbroken.identifier h.routingName (h.actions entry he).1) _

theorem routerLines_eq_layout {m : RoutingModel} (h : ∀ v ∈ m.visits, v.Written) :
    routerLines m = layout m := by
  have hheader : Text.lines shipped.header = headerLayout := by decide
  rw [routerLines, layout, hheader]
  exact congrArg (_ ++ ·) (List.flatMap_congr fun v hv => controllerLines_eq_layout (h v hv))

/-- Lines without breaks are found again, by a split at line feeds and by one at all breaks. -/
theorem split_text {ls : List Text} (h : ∀ l ∈ ls, l.Unbroken) :
    Text.splitAt '\n' (text ls) = ls ++ [[]] ∧ Text.lines (text ls) = ls := by
  induction ls with
  | nil => exact ⟨rfl, rfl⟩
  | cons l ls ih =>
    obtain ⟨hl, hs⟩ := List.forall_mem_cons.mp h
    have hn : '\n' ∉ l := fun hm => absurd (hl '\n' hm) (by decide)
    have ht : text (l :: ls) = l ++ '\n' :: text ls := by
      rw [text, List.flatMap_cons, List.append_assoc]
      rfl
    rw [ht, Text.splitAt_append hn, Text.lines_append_newline hl, (ih hs).1, (ih hs).2]
    exact ⟨rfl, rfl⟩

theorem length_endStatement (ls : List Text) : (endStatement ls).length = ls.length := by
  fun_induction endStatement ls with
  | case1 => rfl
  | case2 line => rfl
  | case3 line lines hne ih => rw [List.length_cons, ih, List.length_cons]

/-- A route has its head line, and a line for each chained call. -/
theorem length_routeLines (r : Route) (identifier : Text) :
    (routeLines r identifier).length = r.lineCount := by
  have hbind : (if r.name = [] then [] else [bindCall r.name]).length =
      if r.name = [] then 0 else 1 := by
    split <;> rfl
  rw [routeLines_eq, length_endStatement, List.length_cons, List.length_map, calls,
    List.length_append, List.length_append, hbind, Route.lineCount]
  omega

theorem length_aclLayout (identifier : Text) (rules : List Text) :
    (aclLayout identifier rules).length = 5 + rules.length := by
  simp only [aclLayout, List.length_append, List.length_cons, List.length_nil, List.length_map]
  omega

theorem length_actionLayout (n name : Text) (a : Action) :
    (actionLayout n name a).length = a.lineCount := by
  have hacl : (if a.acl = [] then [] else aclLayout (Action.identifier n name) a.acl).length =
      if a.acl = [] then 0 else 5 + a.acl.length := by
    split
    · rfl
    · exact length_aclLayout _ _
  rw [actionLayout, Action.lineCount]
  split
  · rfl
  · simp only [List.length_append, List.length_flatMap, length_routeLines, hacl]
    rfl

theorem length_layout (m : RoutingModel) : (layout m).length = m.lineCount := by
  have hcontroller : ∀ v, (controllerLayout v).length =
      7 + (v.controller.actions.entries.map fun entry => entry.2.lineCount).sum := by
    intro v
    simp only [controllerLayout, List.length_append, List.length_flatMap, length_actionLayout]
    rfl
  simp only [layout, List.length_append, List.length_flatMap, hcontroller, RoutingModel.lineCount]
  rfl

end ShippedRouter

/-- Whatever the docblocks hold, the model that they give is tidy. If the names that the classes
declare have no line breaks, then the router file has exactly the lines of its layout. -/
theorem Builder.layout_render (reflector : Reflector) (classes : List HandlerClass) :
    let m := (addClasses { reflector } classes).model
    m.Tidy ∧ ((∀ c ∈ classes, c.Unbroken) →
      ∃ file, RouterTemplates.shipped.render m = .ok file ∧
        Text.splitAt '\n' file = ShippedRouter.layout m ++ [[]] ∧
        Text.lines file = ShippedRouter.layout m ∧
        (ShippedRouter.layout m).length = m.lineCount) := by
  rw [model_addClasses]
  refine ⟨RoutingModel.tidy_addClasses classes, fun hnames => ?_⟩
  have written : ∀ v ∈ (RoutingModel.addClasses {} classes).visits, v.Written :=
    fun v hv => RoutingModel.written_of_mem_visits hnames hv
  refine ⟨_, ShippedRouter.render_eq (RoutingModel.resolved_addClasses classes), ?_⟩
  obtain ⟨hsplit, hlines⟩ := ShippedRouter.split_text (ShippedRouter.unbroken_routerLines written)
  rw [ShippedRouter.routerLines_eq_layout written] at hsplit hlines ⊢
  exact ⟨hsplit, hlines, ShippedRouter.length_layout _⟩

/-- A docblock with other line breaks than line feeds: they end its lines, and none is left in the
fifteen lines of the file. -/
theorem Builder.layout_render_of_line_separators :
    let c : HandlerClass := ⟨"A".toList, "/** name= a */".toList,
      [⟨"list".toList, "@route(\x0burl=/u\u2028name= n\u0085)".toList⟩]⟩
    let m := (addClasses { reflector := .silent } [c]).model
    c.Unbroken ∧ ∃ file, RouterTemplates.shipped.render m = .ok file ∧
      Text.splitAt '\n' file = ShippedRouter.layout m ++ [[]] ∧
      (ShippedRouter.layout m).length = 15 ∧
      "    ->bind('n');".toList ∈ ShippedRouter.layout m := by
  intro c m
  have hc : c.Unbroken := by decide +kernel
  obtain ⟨file, hfile, hsplit, -, hlength⟩ :=
    (layout_render .silent [c]).2 (List.forall_mem_singleton.mpr hc)
  have hcount : m.lineCount = 15 := by decide +kernel
  exact ⟨hc, file, hfile, hsplit, hlength.trans hcount, by decide +kernel⟩

end AnnotatedRoutes
