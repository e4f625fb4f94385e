import AnnotatedRoutes.Proofs.ShippedRouter

namespace AnnotatedRoutes

/-- What the router file states, in the order in which it is stated. -/
inductive Statement where
  | controller (url routingName className : Text)
  | action (routingName actionName : Text)
  | route (routingName actionName : Text) (r : Route)
  | acl (routingName actionName : Text) (rules : List Text)

namespace Statement

def routingName : Statement → Text
  | controller _ n _ => n
  | action n _ => n
  | route n _ _ => n
  | acl n _ _ => n

/-- The routing name and, if it is about an action, the action name. -/
def place : Statement → Text × Option Text
  | controller _ n _ => (n, none)
  | action n name => (n, some name)
  | route n name _ => (n, some name)
  | acl n name _ => (n, some name)

theorem fst_place (s : Statement) : s.place.1 = s.routingName := by
  cases s <;> rfl

/-- The action that a route statement registers the route for, as the dispatcher knows it. -/
def registration? : Statement → Option (Text × Route)
  | route n name r => some (Action.identifier n name, r)
  | _ => none

end Statement

/-- The statements about an action; none if it is empty. -/
def Action.statements (a : Action) (n name : Text) : List Statement :=
  if a.isEmpty then []
  else .action n name :: (a.routes.map (.route n name) ++
    if a.acl = [] then [] else [.acl n name a.acl])

def Controller.statements (k : Controller) (url n : Text) : List Statement :=
  .controller url n k.className ::
    k.actions.entries.flatMap fun entry => entry.2.statements n entry.1

def RoutingModel.statements (m : RoutingModel) : List Statement :=
  m.visits.flatMap fun v => v.controller.statements v.url v.routingName

namespace RouterTemplates

/-- The piece for a value that may be missing: there is none without the value. -/
inductive Piece (template placeholder : Text) : Text → List Text → Prop
  | missing : Piece template placeholder [] []
  | given {value piece : Text} (hvalue : value ≠ [])
    (hpiece : filled template [(placeholder, value)] = .ok piece) :
    Piece template placeholder value [piece]

/-- The lines that templates call for, statement by statement. -/
inductive Writes (ts : RouterTemplates) : Statement → List Text → Prop
  | controller {url n className title definition : Text}
    (htitle : filled ts.controllerTitle [("routing_name".toList, n), ("url".toList, url)] =
      .ok title)
    (hdefinition : filled ts.controller
      [("routing_name".toList, n), ("class_name".toList, className)] = .ok definition) :
    Writes ts (.controller url n className)
      ([[], ts.controllerRule, title, ts.controllerRule] ++ Text.lines definition)
  | action {n name title : Text}
    (htitle : filled ts.actionTitle [("action_id".toList, Action.identifier n name)] =
      .ok title) :
    Writes ts (.action n name) [[], ts.actionRule, title]
  | route {n name head last : Text} {r : Route} {method bind before : List Text}
    (hhead : filled ts.route
      [("url".toList, r.url), ("action_id".toList, Action.identifier n name)] = .ok head)
    (hmethod : Piece ts.method "method".toList r.method method)
    (hbind : Piece ts.bind "name".toList r.name bind)
    (hlast : (head ++ method.flatten) ::
      (bind ++ r.asserts ++ r.values).map (ts.chainIndent ++ ·) = before ++ [last]) :
    Writes ts (.route n name r) (before ++ [last ++ [';']])
  | acl {n name resource opening closing : Text} {rules ruleLines : List Text}
    (hresource : filled ts.aclResource [("action_id".toList, Action.identifier n name)] =
      .ok resource)
    (hopening : filled ts.aclAllowOpen [("action_id".toList, Action.identifier n name)] =
      .ok opening)
    (hrules : List.Forall₂ (fun rule line => filled ts.aclRule [("rule".toList, rule)] = .ok line)
      rules ruleLines)
    (hclosing : filled ts.aclAllowClose [("action_id".toList, Action.identifier n name)] =
      .ok closing) :
    Writes ts (.acl n name rules)
      (resource :: Text.lines opening ++ ruleLines ++ Text.lines closing)

variable (ts : RouterTemplates)

def renderStatement : Statement → Except RenderFault (List Text)
  | .controller url n className => do
    let title ← filled ts.controllerTitle [("routing_name".toList, n), ("url".toList, url)]
    let definition ← filled ts.controller
      [("routing_name".toList, n), ("class_name".toList, className)]
    return [[], ts.controllerRule, title, ts.controllerRule] ++ Text.lines definition
  | .action n name => do
    let title ← filled ts.actionTitle [("action_id".toList, Action.identifier n name)]
    return [[], ts.actionRule, title]
  | .route n name r => ts.renderRoute r (Action.identifier n name)
  | .acl n name rules => ts.renderAcl (Action.identifier n name) rules

def renderStatements (statements : List Statement) : Except RenderFault (List Text) := do
  let blocks ← statements.mapM ts.renderStatement
  return blocks.flatten

@[simp] theorem renderStatements_nil : ts.renderStatements [] = pure [] := rfl

theorem renderStatements_cons (s : Statement) (statements : List Statement) :
    ts.renderStatements (s :: statements) = do
      let lines ← ts.renderStatement s
      let rest ← ts.renderStatements statements
      return lines ++ rest := by
  simp [renderStatements]

theorem renderStatements_append (statements statements' : List Statement) :
    ts.renderStatements (statements ++ statements') = do
      let lines ← ts.renderStatements statements
      let rest ← ts.renderStatements statements'
      return lines ++ rest := by
  simp [renderStatements]

theorem renderStatements_singleton (s : Statement) :
    ts.renderStatements [s] = ts.renderStatement s := by
  simp [renderStatements]

variable {ts}

/-- A pass that writes a block for each element is a pass over the statements of all of them. -/
theorem mapM_eq_renderStatements {α : Type} {block : α → Except RenderFault (List Text)}
    {finish : List Text → List Text} {statements : α → List Statement} {as : List α}
    (h : ∀ a ∈ as, (do let lines ← block a; return finish lines) =
      ts.renderStatements (statements a)) :
    (do let blocks ← as.mapM block; return blocks.flatMap finish) =
      ts.renderStatements (as.flatMap statements) := by
  induction as with
  | nil => rfl
  | cons a as ih =>
    have ih := ih fun b hb => h b (List.mem_cons_of_mem a hb)
    rw [List.flatMap_cons, renderStatements_append, ← ih, ← h a (by simp)]
    simp

theorem renderAction_eq_statements (n name : Text) (a : Action) :
    (do let lines ← ts.renderAction n name a; return spaced lines) =
      ts.renderStatements (a.statements n name) := by
  have routes : (do
      let blocks ← a.routes.mapM fun r => ts.renderRoute r (Action.identifier n name)
      return blocks.flatMap id) = ts.renderStatements (a.routes.map (.route n name)) := by
    rw [List.map_eq_flatMap]
    refine mapM_eq_renderStatements fun r _ => ?_
    rw [renderStatements_singleton, renderStatement]
    simp
  have acl : (if a.acl = [] then pure [] else ts.renderAcl (Action.identifier n name) a.acl) =
      ts.renderStatements (if a.acl = [] then [] else [.acl n name a.acl]) := by
    split
    · rfl
    · rw [renderStatements_singleton, renderStatement]
  unfold renderAction Action.statements
  by_cases he : a.isEmpty
  · simp [he, spaced]
  · rw [if_neg he, if_neg he, renderStatements_cons, renderStatements_append, ← routes, ← acl,
      renderStatement]
    split
    · simp [spaced]
    · simp [spaced]

theorem renderController_eq_statements {m : RoutingModel} {n : Text} {k : Controller}
    (hk : m.controllers.get? n = some k) (url : Text) :
    ts.renderController m url n = ts.renderStatements (k.statements url n) := by
  have actions : (do
      let blocks ← k.actions.entries.mapM fun entry => ts.renderAction n entry.1 entry.2
      return blocks.flatMap spaced) = ts.renderStatements
        (k.actions.entries.flatMap fun entry => entry.2.statements n entry.1) :=
    mapM_eq_renderStatements fun entry _ => renderAction_eq_statements n entry.1 entry.2
  have known : (m.controller n).mapError RenderFault.controller = pure k := by
    rw [RoutingModel.controller, hk]
    rfl
  rw [renderController, known, Controller.statements, renderStatements_cons, ← actions,
    renderStatement]
  simp

theorem render_eq_statements {m : RoutingModel} (h : m.Resolved) :
    ts.render m = do
      let lines ← ts.renderStatements m.statements
      return Text.join ['\n'] (Text.lines ts.header ++ lines) ++ ['\n'] := by
  have blocks : (do
      let blocks ← m.visits.mapM fun v => ts.renderController m v.url v.routingName
      return blocks.flatMap id) = ts.renderStatements m.statements := by
    refine mapM_eq_renderStatements fun v hv => ?_
    rw [renderController_eq_statements (RoutingModel.mem_visits hv).2]
    simp
  rw [render, renderLines, ← RoutingModel.map_visits h, List.mapM_map, ← blocks]
  simp only [Function.comp_def, List.flatMap_id]
  cases m.visits.mapM fun v => ts.renderController m v.url v.routingName with
  | error e => rfl
  | ok blocks => rfl

theorem pieces_eq_ok_iff {template placeholder value : Text} {pieces : List Text} :
    (if value = [] then pure [] else (filled template [(placeholder, value)]).map ([·])) =
      .ok pieces ↔ Piece template placeholder value pieces := by
  split
  next hvalue =>
    subst hvalue
    constructor
    · rintro ⟨⟩
      exact .missing
    · rintro (_ | ⟨hvalue, -⟩)
      · rfl
      · exact absurd rfl hvalue
  next hvalue =>
    constructor
    · intro h
      cases hpiece : filled template [(placeholder, value)] with
      | error fault =>
        rw [hpiece] at h
        cases h
      | ok piece =>
        rw [hpiece] at h
        cases h
        exact .given hvalue hpiece
    · rintro (_ | ⟨-, hpiece⟩)
      · exact absurd rfl hvalue
      · rw [hpiece]
        rfl

/-- A piece that goes on in the line before it. -/
theorem piece_eq_ok_iff {template placeholder value text : Text} :
    (if value = [] then pure [] else filled template [(placeholder, value)]) = .ok text ↔
      ∃ pieces, Piece template placeholder value pieces ∧ text = pieces.flatten := by
  simp only [← pieces_eq_ok_iff]
  split
  · simp [pure, Except.pure, eq_comm]
  · cases filled template [(placeholder, value)] <;> simp [Except.map, eq_comm]

theorem endStatement_eq_iff {lines lines' : List Text} (h : lines ≠ []) :
    endStatement lines = lines' ↔
      ∃ before last, lines = before ++ [last] ∧ lines' = before ++ [last ++ [';']] := by
  constructor
  · rintro rfl
    exact ⟨_, _, (List.dropLast_concat_getLast h).symm, ShippedRouter.endStatement_eq h⟩
  · rintro ⟨before, last, rfl, rfl⟩
    simp [ShippedRouter.endStatement_eq h]

theorem renderRoute_eq_bind (r : Route) (identifier : Text) :
    ts.renderRoute r identifier =
      filled ts.route [("url".toList, r.url), ("action_id".toList, identifier)] >>= fun head =>
        (if r.method = [] then pure [] else filled ts.method [("method".toList, r.method)]) >>=
          fun method =>
            (if r.name = [] then pure []
              else (filled ts.bind [("name".toList, r.name)]).map ([·])) >>=
              fun bind => pure (endStatement ((head ++ method) ::
                (bind ++ r.asserts ++ r.values).map (ts.chainIndent ++ ·))) := by
  unfold renderRoute
  split <;> split <;> rfl

theorem renderStatement_eq_ok_iff {s : Statement} {lines : List Text} :
    ts.renderStatement s = .ok lines ↔ ts.Writes s lines := by
  cases s with
  | controller url n className =>
    simp only [renderStatement, bind_eq_ok_iff]
    constructor
    · rintro ⟨title, htitle, definition, hdefinition, ⟨⟩⟩
      exact .controller htitle hdefinition
    · intro h
      cases h with
      | controller htitle hdefinition => exact ⟨_, htitle, _, hdefinition, rfl⟩
  | action n name =>
    simp only [renderStatement, bind_eq_ok_iff]
    constructor
    · rintro ⟨title, htitle, ⟨⟩⟩
      exact .action htitle
    · intro h
      cases h with
      | action htitle => exact ⟨_, htitle, rfl⟩
  | route n name r =>
    rw [renderStatement, renderRoute_eq_bind]
    simp only [bind_eq_ok_iff, pieces_eq_ok_iff, piece_eq_ok_iff]
    constructor
    · rintro ⟨head, hhead, _, ⟨method, hmethod, rfl⟩, bind, hbind, hlines⟩
      obtain ⟨before, last, hlast, rfl⟩ :=
        (endStatement_eq_iff (List.cons_ne_nil _ _)).mp (Except.ok.inj hlines)
      exact .route hhead hmethod hbind hlast
    · intro h
      cases h with
      | route hhead hmethod hbind hlast =>
        have hended := (endStatement_eq_iff (List.cons_ne_nil _ _)).mpr ⟨_, _, hlast, rfl⟩
        exact ⟨_, hhead, _, ⟨_, hmethod, rfl⟩, _, hbind, congrArg Except.ok hended⟩
  | acl n name rules =>
    simp only [renderStatement, renderAcl, bind_eq_ok_iff, mapM_eq_ok_iff]
    constructor
    · rintro ⟨resource, hresource, opening, hopening, ruleLines, hrules, closing, hclosing, ⟨⟩⟩
      exact .acl hresource hopening hrules hclosing
    · intro h
      cases h with
      | acl hresource hopening hrules hclosing =>
        exact ⟨_, hresource, _, hopening, _, hrules, _, hclosing, rfl⟩

/-- The router file is its statements, each of them written as the templates say. It comes out
exactly if every statement can be written. -/
theorem render_eq_ok_iff {m : RoutingModel} (h : m.Resolved) {file : Text} :
    ts.render m = .ok file ↔ ∃ blocks, List.Forall₂ ts.Writes m.statements blocks ∧
      file = Text.join ['\n'] (Text.lines ts.header ++ blocks.flatten) ++ ['\n'] := by
  rw [render_eq_statements h, renderStatements]
  simp only [bind_assoc, pure_bind, bind_eq_ok_iff, mapM_eq_ok_iff, renderStatement_eq_ok_iff]
  simp only [pure, Except.pure, Except.ok.injEq, eq_comm]

end RouterTemplates

namespace ShippedRouter

open RouterTemplates

def statementLines : Statement → List Text
  | .controller url n className =>
    [[], shipped.controllerRule, controllerTitle url n, shipped.controllerRule] ++
      Text.lines (definition n className)
  | .action n name => [[], shipped.actionRule, actionTitle (Action.identifier n name)]
  | .route n name r => routeLines r (Action.identifier n name)
  | .acl n name rules => aclLines (Action.identifier n name) rules

theorem writes_statementLines (s : Statement) : shipped.Writes s (statementLines s) := by
  rw [← renderStatement_eq_ok_iff]
  cases s with
  | controller url n className =>
    rw [renderStatement, filled_controllerTitle, filled_controller]
    rfl
  | action n name =>
    rw [renderStatement, filled_actionTitle]
    rfl
  | route n name r => exact renderRoute_eq r _
  | acl n name rules => exact renderAcl_eq _ rules

theorem render_eq_statementLines {m : RoutingModel} (h : m.Resolved) :
    shipped.render m =
      .ok (text (Text.lines shipped.header ++ m.statements.flatMap statementLines)) := by
  have hne : Text.lines shipped.header ++ m.statements.flatMap statementLines ≠ [] :=
    List.append_ne_nil_of_left_ne_nil (show Text.lines shipped.header ≠ [] by decide) _
  rw [render_eq_ok_iff h, ← join_append_newline hne]
  refine ⟨m.statements.map statementLines, ?_, rfl⟩
  rw [List.forall₂_map_right_iff]
  exact List.forall₂_same.mpr fun s _ => writes_statementLines s

end ShippedRouter

end AnnotatedRoutes
