import AnnotatedRoutes.Router.Render
import AnnotatedRoutes.Settings.Shipped
import AnnotatedRoutes.Proofs.ExceptRules
import AnnotatedRoutes.Proofs.OutputOrder

namespace AnnotatedRoutes.ShippedRouter

open RouterTemplates

def controllerTitle (url n : Text) : Text :=
  "// ".toList ++ (n ++ (" (".toList ++ (url ++ ")".toList)))

/-- The definition of a handler, three lines in one text. -/
def definition (n className : Text) : Text :=
  "$app['".toList ++ (n ++ ("'] = function () use ($app) \x7b\n    return new \\".toList ++
    (className ++ "($app);\n\x7d;".toList)))

def actionTitle (identifier : Text) : Text := "// ".toList ++ identifier

def routeHead (url identifier : Text) : Text :=
  "$app->match('".toList ++ (url ++ ("', '".toList ++ (identifier ++ "')".toList)))

def methodCall (method : Text) : Text := "->method('".toList ++ (method ++ "')".toList)

def bindCall (name : Text) : Text := "->bind('".toList ++ (name ++ "')".toList)

def resource (identifier : Text) : Text :=
  "$app['acl']->addResource('".toList ++ (identifier ++ "');".toList)

/-- The beginning of an allow-set, two lines in one text. -/
def allowOpening (identifier : Text) : Text :=
  "$app['acl']->allow('".toList ++
    (identifier ++ "', function ($self) use ($app) \x7b\n    return array(".toList)

def allowRule (rule : Text) : Text := "        ".toList ++ (rule ++ ",".toList)

def allowClosing : Text := "    );\n\x7d);".toList

theorem filled_controllerTitle (url n : Text) :
    filled shipped.controllerTitle [("routing_name".toList, n), ("url".toList, url)] =
      .ok (controllerTitle url n) := by rfl

theorem filled_controller (n className : Text) :
    filled shipped.controller [("routing_name".toList, n), ("class_name".toList, className)] =
      .ok (definition n className) := by rfl

theorem filled_actionTitle (identifier : Text) :
    filled shipped.actionTitle [("action_id".toList, identifier)] =
      .ok (actionTitle identifier) := by
  have h : filled shipped.actionTitle [("action_id".toList, identifier)] =
      .ok ("// ".toList ++ (identifier ++ [])) := rfl
  rw [h, List.append_nil, actionTitle]

theorem filled_route (url identifier : Text) :
    filled shipped.route [("url".toList, url), ("action_id".toList, identifier)] =
      .ok (routeHead url identifier) := by rfl

theorem filled_method (method : Text) :
    filled shipped.method [("method".toList, method)] = .ok (methodCall method) := by rfl

theorem filled_bind (name : Text) :
    filled shipped.bind [("name".toList, name)] = .ok (bindCall name) := by rfl

theorem filled_aclResource (identifier : Text) :
    filled shipped.aclResource [("action_id".toList, identifier)] = .ok (resource identifier) := by
  rfl

theorem filled_aclAllowOpen (identifier : Text) :
    filled shipped.aclAllowOpen [("action_id".toList, identifier)] =
      .ok (allowOpening identifier) := by rfl

theorem filled_aclRule (rule : Text) :
    filled shipped.aclRule [("rule".toList, rule)] = .ok (allowRule rule) := by rfl

theorem filled_aclAllowClose (identifier : Text) :
    filled shipped.aclAllowClose [("action_id".toList, identifier)] = .ok allowClosing := by rfl

/-- The calls that are chained to a registration, in the order in which they are written. -/
def calls (r : Route) : List Text :=
  (if r.name = [] then [] else [bindCall r.name]) ++ r.asserts ++ r.values

/-- The registration of a route: each chained call stands on a line of its own, and the last line
ends the statement. -/
def routeLines (r : Route) (identifier : Text) : List Text :=
  let head := routeHead r.url identifier ++ (if r.method = [] then [] else methodCall r.method)
  let lines := head :: (calls r).map (shipped.chainIndent ++ ·)
  lines.dropLast ++ [lines.getLast (List.cons_ne_nil _ _) ++ [';']]

def aclLines (identifier : Text) (rules : List Text) : List Text :=
  resource identifier :: Text.lines (allowOpening identifier) ++ rules.map allowRule ++
    Text.lines allowClosing

/-- The access rules of an action, or nothing. -/
def optionalAcl (identifier : Text) (rules : List Text) : List Text :=
  if rules = [] then [] else aclLines identifier rules

/-- The lines about an action, after an empty one. -/
def actionLines (n name : Text) (a : Action) : List Text :=
  if a.isEmpty then []
  else
    let identifier := Action.identifier n name
    [] :: shipped.actionRule :: actionTitle identifier ::
      ((a.routes.flatMap fun r => routeLines r identifier) ++ optionalAcl identifier a.acl)

def controllerLines (v : RoutingModel.Visit) : List Text :=
  [[], shipped.controllerRule, controllerTitle v.url v.routingName, shipped.controllerRule] ++
    Text.lines (definition v.routingName v.controller.className) ++
    v.controller.actions.entries.flatMap fun entry =>
      actionLines v.routingName entry.1 entry.2

def routerLines (m : RoutingModel) : List Text :=
  Text.lines shipped.header ++ m.visits.flatMap controllerLines

theorem endStatement_eq {lines : List Text} (h : lines ≠ []) :
    endStatement lines = lines.dropLast ++ [lines.getLast h ++ [';']] := by
  fun_induction endStatement lines with
  | case1 => exact absurd rfl h
  | case2 line => rfl
  | case3 line lines hne ih =>
    rw [ih hne, List.dropLast_cons_of_ne_nil hne, List.getLast_cons hne, List.cons_append]

theorem routeLines_eq (r : Route) (identifier : Text) : routeLines r identifier =
    endStatement
      ((routeHead r.url identifier ++ (if r.method = [] then [] else methodCall r.method)) ::
        (calls r).map (shipped.chainIndent ++ ·)) :=
  (endStatement_eq (List.cons_ne_nil _ _)).symm

theorem renderRoute_eq (r : Route) (identifier : Text) :
    shipped.renderRoute r identifier = .ok (routeLines r identifier) := by
  rw [renderRoute, filled_route, filled_method, filled_bind, routeLines_eq, calls]
  by_cases hm : r.method = []
  · by_cases hn : r.name = []
    · simp [hm, hn, Bind.bind, pure, Except.bind, Except.pure]
    · simp [hm, hn, Bind.bind, pure, Except.bind, Except.pure, Except.map]
  · by_cases hn : r.name = []
    · simp [hm, hn, Bind.bind, pure, Except.bind, Except.pure]
    · simp [hm, hn, Bind.bind, pure, Except.bind, Except.pure, Except.map]

theorem renderAcl_eq (identifier : Text) (rules : List Text) :
    shipped.renderAcl identifier rules = .ok (aclLines identifier rules) := by
  simp only [renderAcl, filled_aclResource, filled_aclAllowOpen, filled_aclAllowClose,
    mapM_eq_ok_map fun rule _ => filled_aclRule rule]
  rfl

theorem renderAction_eq (n name : Text) (a : Action) :
    shipped.renderAction n name a = .ok (actionLines n name a).tail := by
  simp only [renderAction, actionLines, optionalAcl, filled_actionTitle, renderAcl_eq,
    mapM_eq_ok_map fun r _ => renderRoute_eq r (Action.identifier n name)]
  by_cases he : a.isEmpty
  · simp [he, pure, Except.pure]
  · by_cases ha : a.acl = []
    · simp [he, ha, Bind.bind, pure, Except.bind, Except.pure, List.flatMap]
    · simp [he, ha, Bind.bind, pure, Except.bind, Except.pure, List.flatMap]

theorem spaced_tail_actionLines (n name : Text) (a : Action) :
    spaced (actionLines n name a).tail = actionLines n name a := by
  unfold actionLines
  split <;> rfl

theorem renderController_eq {m : RoutingModel} {n : Text} {k : Controller}
    (hk : m.controllers.get? n = some k) (url : Text) :
    shipped.renderController m url n = .ok (controllerLines ⟨url, n, k⟩) := by
  simp only [renderController, RoutingModel.controller, hk, Except.mapError,
    filled_controllerTitle, filled_controller,
    mapM_eq_ok_map fun (entry : Text × Action) _ => renderAction_eq n entry.1 entry.2]
  simp [Bind.bind, pure, Except.bind, Except.pure, controllerLines, List.flatMap_map,
    spaced_tail_actionLines]

/-- With the shipped templates a model whose index names only its own controllers is always
written. -/
theorem renderLines_eq {m : RoutingModel} (h : m.Resolved) :
    shipped.renderLines m = .ok (routerLines m) := by
  rw [renderLines, RoutingModel.mapM_reducedIndex h (g := controllerLines)
    fun url n k hk => renderController_eq hk url]
  rfl

/-- Lines with their ends. -/
def text (lines : List Text) : Text := lines.flatMap (· ++ ['\n'])

theorem text_append (lines lines' : List Text) :
    text (lines ++ lines') = text lines ++ text lines' :=
  List.flatMap_append

theorem join_append_newline {lines : List Text} (h : lines ≠ []) :
    Text.join ['\n'] lines ++ ['\n'] = text lines := by
  induction lines with
  | nil => exact absurd rfl h
  | cons line lines ih =>
    cases lines with
    | nil => simp [Text.join, text]
    | cons next lines =>
      rw [Text.join, List.append_assoc, ih (List.cons_ne_nil _ _)]
      rfl

theorem render_eq {m : RoutingModel} (h : m.Resolved) :
    shipped.render m = .ok (text (routerLines m)) := by
  have hne : routerLines m ≠ [] :=
    List.append_ne_nil_of_left_ne_nil (show Text.lines shipped.header ≠ [] by decide) _
  rw [render, renderLines_eq h, Except.map, join_append_newline hne]

end AnnotatedRoutes.ShippedRouter
