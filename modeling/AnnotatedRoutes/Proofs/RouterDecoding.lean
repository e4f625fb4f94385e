import AnnotatedRoutes.Proofs.RouterLines

namespace AnnotatedRoutes

/-- No URL of a route has the quote that delimits it in the router file. -/
def Action.Unquoted (a : Action) : Prop := ∀ r ∈ a.routes, '\'' ∉ r.url

instance (a : Action) : Decidable a.Unquoted := List.decidableBAll _ a.routes

namespace RoutingModel

/-- What the output shows of a controller: an action without routes and rules is left out. -/
@[ext] structure TableEntry where
  url : Text
  routingName : Text
  className : Text
  actions : List (Text × Action)
  deriving DecidableEq

def Visit.tableEntry (v : Visit) : TableEntry where
  url := v.url
  routingName := v.routingName
  className := v.controller.className
  actions := v.controller.actions.entries.filter fun e => !e.2.isEmpty

def routingTable (m : RoutingModel) : List TableEntry := m.visits.map (·.tableEntry)

def Unquoted (m : RoutingModel) : Prop := ∀ t ∈ m.routingTable, ∀ e ∈ t.actions, e.2.Unquoted

instance (m : RoutingModel) : Decidable m.Unquoted :=
  inferInstanceAs (Decidable (∀ t ∈ m.routingTable, _))

end RoutingModel

namespace ShippedRouter

open RouterTemplates

/-- Lines of which the first does not continue a statement. -/
def NoChain (lines : List Text) : Prop :=
  ∀ line, lines.head? = some line → ¬ shipped.chainIndent <+: line

theorem head?_endStatement (h : Text) (chain rest : List Text) :
    ∃ line, (endStatement (h :: chain) ++ rest).head? = some line ∧ h <+: line := by
  cases chain with
  | nil => exact ⟨h ++ [';'], rfl, List.prefix_append h _⟩
  | cons c chain => exact ⟨h, rfl, List.prefix_refl h⟩

theorem endStatement_append_inj {h h' : Text} {chain chain' rest rest' : List Text}
    (hc : ∀ c ∈ chain, shipped.chainIndent <+: c) (hc' : ∀ c ∈ chain', shipped.chainIndent <+: c)
    (hr : NoChain rest) (hr' : NoChain rest')
    (he : endStatement (h :: chain) ++ rest = endStatement (h' :: chain') ++ rest') :
    h = h' ∧ chain = chain' ∧ rest = rest' := by
  induction chain generalizing h h' chain' with
  | nil =>
    cases chain' with
    | nil =>
      obtain ⟨hh, hrest⟩ := List.cons.inj he
      exact ⟨List.append_cancel_right hh, rfl, hrest⟩
    | cons c' chain' =>
      have ht : rest = endStatement (c' :: chain') ++ rest' := (List.cons.inj he).2
      obtain ⟨line, hl, hp⟩ := head?_endStatement c' chain' rest'
      exact absurd ((hc' c' (by simp)).trans hp) (hr line (ht ▸ hl))
  | cons c chain ih =>
    cases chain' with
    | nil =>
      have ht : endStatement (c :: chain) ++ rest = rest' := (List.cons.inj he).2
      obtain ⟨line, hl, hp⟩ := head?_endStatement c chain rest
      exact absurd ((hc c (by simp)).trans hp) (hr' line (ht ▸ hl))
    | cons c' chain' =>
      obtain ⟨hh, ht⟩ := List.cons.inj he
      obtain ⟨rfl, rfl, hrest⟩ := ih (fun d hd => hc d (List.mem_cons_of_mem c hd))
        (fun d hd => hc' d (List.mem_cons_of_mem c' hd)) ht
      exact ⟨hh, rfl, hrest⟩

/-- A part that is left out when its text is empty still gives the text. -/
theorem optional_injective {α : Type} {f : Text → List α} (hf : Function.Injective f)
    (hne : ∀ t, f t ≠ []) {t t' : Text}
    (h : (if t = [] then [] else f t) = if t' = [] then [] else f t') : t = t' := by
  split at h
  next ht =>
    split at h
    next ht' => rw [ht, ht']
    next => exact absurd h.symm (hne t')
  next =>
    split at h
    next => exact absurd h (hne t)
    next => exact hf h

/-- A text without quotes can be read before one that begins with a quote. -/
theorem quoted_append_inj {u v t t' rest rest' : Text} (ht : '\'' ∉ t) (ht' : '\'' ∉ t')
    (hv : v.head? = some '\'') (h : (u ++ (t ++ v)) ++ rest = (u ++ (t' ++ v)) ++ rest') :
    t = t' ∧ rest = rest' := by
  have hr : ∀ (rest : Text) (c : Char), (v ++ rest).head? = some c → ¬ c ≠ '\'' := by
    intro rest c hc
    rw [List.head?_append, hv] at hc
    exact not_not.mpr (Option.some.inj hc).symm
  rw [List.append_assoc, List.append_assoc, List.append_assoc, List.append_assoc] at h
  obtain ⟨ht, h⟩ := append_inj_of_run (p := (· ≠ '\'')) (fun c hc e => ht (e ▸ hc))
    (fun c hc e => ht' (e ▸ hc)) (hr rest) (hr rest') (List.append_cancel_left h)
  exact ⟨ht, List.append_cancel_left h⟩

theorem routeHead_append_inj {url url' identifier part part' : Text} (hu : '\'' ∉ url)
    (hu' : '\'' ∉ url')
    (h : routeHead url identifier ++ part = routeHead url' identifier ++ part') :
    url = url' ∧ part = part' :=
  quoted_append_inj hu hu' rfl h

/-- A text can be read between two fixed ones. -/
theorem between_injective (u v : Text) : Function.Injective fun t => u ++ (t ++ v) :=
  fun _ _ h => List.append_cancel_right (List.append_cancel_left h)

theorem methodCall_injective : Function.Injective methodCall := between_injective _ _

theorem bindCall_injective : Function.Injective bindCall := between_injective _ _

theorem calls_injective {r r' : Route} (hr : r.Written) (hr' : r'.Written)
    (h : calls r = calls r') :
    r.name = r'.name ∧ r.asserts = r'.asserts ∧ r.values = r'.values := by
  have bound : ∀ r : Route, ∀ c ∈ (if r.name = [] then [] else [bindCall r.name]),
      "->bind".toList <+: c := by
    intro r c hc
    split at hc
    · simp at hc
    · cases List.mem_singleton.mp hc
      exact ⟨_, rfl⟩
  have unasserted : ∀ r : Route, r.Written → ∀ v, r.values.head? = some v →
      ¬ "->assert".toList <+: v := by
    intro r hr v hv
    exact not_prefix_of_prefix (hr.values v (List.mem_of_head? hv)).2 (by decide) (by decide)
  have unbound : ∀ r : Route, r.Written → ∀ c, (r.asserts ++ r.values).head? = some c →
      ¬ "->bind".toList <+: c := by
    intro r hr c hc
    rcases List.mem_append.mp (List.mem_of_head? hc) with ha | hv
    · exact not_prefix_of_prefix (hr.asserts c ha).2 (by decide) (by decide)
    · exact not_prefix_of_prefix (hr.values c hv).2 (by decide) (by decide)
  -- A call shows by its first letters whether it is a bind, an assert or a value.
  rw [calls, calls, List.append_assoc, List.append_assoc] at h
  obtain ⟨hname, h⟩ := append_inj_of_run (bound r) (bound r') (unbound r hr) (unbound r' hr') h
  obtain ⟨hasserts, hvalues⟩ := append_inj_of_run (fun a ha => (hr.asserts a ha).2)
    (fun a ha => (hr'.asserts a ha).2) (unasserted r hr) (unasserted r' hr') h
  exact ⟨optional_injective (fun _ _ e => bindCall_injective (List.cons.inj e).1)
    (fun _ => List.cons_ne_nil _ _) hname, hasserts, hvalues⟩

/-- Lines that begin with the registration of a route. -/
def StartsRoute (lines : List Text) : Prop :=
  ∃ line, lines.head? = some line ∧ "$app->match('".toList <+: line

theorem separable_routes (identifier : Text) :
    Separable (fun r : Route => r.Written ∧ '\'' ∉ r.url) (routeLines · identifier) id StartsRoute
      NoChain := by
  constructor
  case starts_append =>
    intro r rest _
    rw [routeLines_eq]
    obtain ⟨line, hl, hp⟩ := head?_endStatement
      (routeHead r.url identifier ++ (if r.method = [] then [] else methodCall r.method))
      ((calls r).map (shipped.chainIndent ++ ·)) rest
    exact ⟨line, hl, ((List.prefix_append _ _).trans (List.prefix_append _ _)).trans hp⟩
  case follows_of_starts =>
    rintro rest ⟨line, hl, hp⟩ line' hl'
    cases Option.some.inj (hl.symm.trans hl')
    exact not_prefix_of_prefix hp (by decide) (by decide)
  case append_inj =>
    rintro r r' rest rest' ⟨hw, hq⟩ ⟨hw', hq'⟩ hr hr' h
    have indented : ∀ r : Route, ∀ c ∈ (calls r).map (shipped.chainIndent ++ ·),
        shipped.chainIndent <+: c := by
      intro r c hc
      obtain ⟨call, _, rfl⟩ := List.mem_map.mp hc
      exact List.prefix_append _ call
    simp only [routeLines_eq] at h
    obtain ⟨hhead, hchain, hrest⟩ := endStatement_append_inj (indented r) (indented r') hr hr' h
    obtain ⟨hurl, hmethod⟩ := routeHead_append_inj hq hq' hhead
    have hmethod := optional_injective methodCall_injective
      (fun _ => List.append_ne_nil_of_left_ne_nil (by decide) _) hmethod
    have hcalls : calls r = calls r' :=
      List.map_injective_iff.mpr (List.append_right_injective _) hchain
    obtain ⟨hname, hasserts, hvalues⟩ := calls_injective hw hw' hcalls
    refine ⟨?_, hrest⟩
    cases r
    cases r'
    cases hurl
    cases hmethod
    cases hname
    cases hasserts
    cases hvalues
    rfl

/-- Lines of which the first, if there is one, is empty. -/
def Blank (lines : List Text) : Prop := ∀ line, lines.head? = some line → line = []

theorem allowRule_injective : Function.Injective allowRule := between_injective _ _

theorem aclLines_append_inj {identifier : Text} {rules rules' rest rest' : List Text}
    (h : aclLines identifier rules ++ rest = aclLines identifier rules' ++ rest') :
    rules = rules' ∧ rest = rest' := by
  have indented : ∀ rules : List Text, ∀ l ∈ rules.map allowRule, "        ".toList <+: l := by
    intro rules l hl
    obtain ⟨rule, _, rfl⟩ := List.mem_map.mp hl
    exact List.prefix_append _ _
  have closed : ∀ rest : List Text, ∀ l, (Text.lines allowClosing ++ rest).head? = some l →
      ¬ "        ".toList <+: l := by
    intro rest l hl
    have hc : (Text.lines allowClosing).head? = some "    );".toList := by rfl
    rw [List.head?_append, hc] at hl
    cases Option.some.inj hl
    decide
  simp only [aclLines, List.cons_append, List.append_assoc] at h
  obtain ⟨hrules, h⟩ := append_inj_of_run (indented rules) (indented rules') (closed rest)
    (closed rest') (List.append_cancel_left (List.cons.inj h).2)
  exact ⟨List.map_injective_iff.mpr allowRule_injective hrules, List.append_cancel_left h⟩

/-- What follows the routes of an action begins with an empty line or a resource. -/
theorem head?_optionalAcl_append {identifier : Text} {rules rest : List Text} (hr : Blank rest)
    {line : Text} (h : (optionalAcl identifier rules ++ rest).head? = some line) :
    line = [] ∨ line = resource identifier := by
  unfold optionalAcl at h
  split at h
  next => exact Or.inl (hr line h)
  next => exact Or.inr (Option.some.inj h).symm

theorem not_prefix_of_head?_optionalAcl {identifier line u : Text} {rules rest : List Text}
    (hr : Blank rest) (h : (optionalAcl identifier rules ++ rest).head? = some line) (hu : u ≠ [])
    (hru : ¬ "$app['acl']->addResource('".toList <+: u)
    (hur : ¬ u <+: "$app['acl']->addResource('".toList) : ¬ u <+: line := by
  rcases head?_optionalAcl_append hr h with rfl | rfl
  · exact fun hp => hu (List.prefix_nil.mp hp)
  · exact not_prefix_of_prefix (List.prefix_append _ _) hru hur

theorem optionalAcl_append_inj {identifier : Text} {rules rules' rest rest' : List Text}
    (hr : Blank rest) (hr' : Blank rest')
    (h : optionalAcl identifier rules ++ rest = optionalAcl identifier rules' ++ rest') :
    rules = rules' ∧ rest = rest' := by
  have hne : ∀ {rules rest rest' : List Text}, Blank rest →
      rest ≠ aclLines identifier rules ++ rest' := by
    rintro rules _ rest' hr rfl
    exact List.append_ne_nil_of_left_ne_nil (by decide) _ (hr (resource identifier) rfl)
  unfold optionalAcl at h
  split at h
  next hn =>
    split at h
    next hn' => exact ⟨hn.trans hn'.symm, h⟩
    next => exact absurd h (hne hr)
  next =>
    split at h
    next => exact absurd h.symm (hne hr')
    next => exact aclLines_append_inj h

theorem actionTitle_injective (n : Text) :
    Function.Injective fun name => actionTitle (Action.identifier n name) :=
  fun _ _ h => (List.cons.inj (List.append_cancel_left (List.append_cancel_left h))).2

theorem actionLines_eq (n : Text) {name : Text} {a : Action} (h : a.isEmpty = false) :
    actionLines n name a = [] :: shipped.actionRule ::
      actionTitle (Action.identifier n name) ::
        ((a.routes.flatMap fun r => routeLines r (Action.identifier n name)) ++
          optionalAcl (Action.identifier n name) a.acl) := by
  simp only [actionLines, h, Bool.false_eq_true, if_false]

/-- Only the actions that are not empty are written. -/
theorem flatMap_actionLines (n : Text) (entries : List (Text × Action)) :
    (entries.flatMap fun e => actionLines n e.1 e.2) =
      (entries.filter fun e => !e.2.isEmpty).flatMap fun e => actionLines n e.1 e.2 := by
  induction entries with
  | nil => rfl
  | cons e entries ih =>
    cases he : e.2.isEmpty with
    | true =>
      have hs : actionLines n e.1 e.2 = [] := by simp [actionLines, he]
      simp [he, hs, ih]
    | false => simp [he, ih]

theorem separable_actions (n : Text) :
    Separable (fun e : Text × Action => e.2.isEmpty = false ∧ e.2.Written ∧ e.2.Unquoted)
      (fun e => actionLines n e.1 e.2) id
      (fun lines => ∃ rest, lines = [] :: shipped.actionRule :: rest) Blank := by
  constructor
  case starts_append =>
    rintro e rest ⟨hne, _⟩
    exact ⟨_, by rw [actionLines_eq n hne]; rfl⟩
  case follows_of_starts =>
    rintro _ ⟨rest, rfl⟩ line hl
    exact (Option.some.inj hl).symm
  case append_inj =>
    rintro ⟨name, a⟩ ⟨name', a'⟩ rest rest' ⟨hne, hw, hq⟩ ⟨hne', hw', hq'⟩ hr hr' h
    rw [actionLines_eq n hne, actionLines_eq n hne'] at h
    simp only [List.cons_append, List.append_assoc] at h
    obtain ⟨htitle, h⟩ := List.cons.inj (List.cons.inj (List.cons.inj h).2).2
    cases actionTitle_injective n htitle
    have ends : ∀ {rules rest : List Text}, Blank rest →
        NoChain (optionalAcl (Action.identifier n name) rules ++ rest) ∧
          ¬ StartsRoute (optionalAcl (Action.identifier n name) rules ++ rest) := by
      intro rules rest hr
      refine ⟨fun line hl => ?_, ?_⟩
      · exact not_prefix_of_head?_optionalAcl hr hl (by decide) (by decide) (by decide)
      · rintro ⟨line, hl, hp⟩
        exact not_prefix_of_head?_optionalAcl hr hl (by decide) (by decide) (by decide) hp
    obtain ⟨hroutes, h⟩ := (separable_routes (Action.identifier n name)).flatMap_append_inj
      (fun r hr => ⟨hw.routes r hr, hq r hr⟩) (fun r hr => ⟨hw'.routes r hr, hq' r hr⟩) (ends hr)
      (ends hr') h
    obtain ⟨hacl, hrest⟩ := optionalAcl_append_inj hr hr' h
    rw [List.map_id, List.map_id] at hroutes
    refine ⟨?_, hrest⟩
    cases a
    cases a'
    cases hroutes
    cases hacl
    rfl

/-- The lines of a text of three lines, two of which hold a name. -/
theorem lines_of_two_names {u v w x y n c : Text} (hn : n.Unbroken) (hc : c.Unbroken)
    (h : ∀ t ∈ [u, v, w, x, y], Text.Unbroken t) (hy : y ≠ []) :
    Text.lines (u ++ (n ++ ((v ++ '\n' :: w) ++ (c ++ (x ++ '\n' :: y))))) =
      [u ++ (n ++ v), w ++ (c ++ x), y] := by
  simp only [List.forall_mem_cons] at h
  obtain ⟨hu, hv, hw, hx, hy', _⟩ := h
  have hfirst : Text.Unbroken (u ++ (n ++ v)) :=
    Text.unbroken_append.mpr ⟨hu, Text.unbroken_append.mpr ⟨hn, hv⟩⟩
  have hsecond : Text.Unbroken (w ++ (c ++ x)) :=
    Text.unbroken_append.mpr ⟨hw, Text.unbroken_append.mpr ⟨hc, hx⟩⟩
  have he : u ++ (n ++ ((v ++ '\n' :: w) ++ (c ++ (x ++ '\n' :: y)))) =
      (u ++ (n ++ v)) ++ '\n' :: ((w ++ (c ++ x)) ++ '\n' :: y) := by
    simp only [List.append_assoc, List.cons_append]
  rw [he, Text.lines_append_newline hfirst, Text.lines_append_newline hsecond,
    Text.lines_of_unbroken hy' hy]

theorem lines_definition {n c : Text} (hn : n.Unbroken) (hc : c.Unbroken) :
    Text.lines (definition n c) =
      ["$app['".toList ++ (n ++ "'] = function () use ($app) \x7b".toList),
        "    return new \\".toList ++ (c ++ "($app);".toList), "\x7d;".toList] := by
  have h : ∀ t ∈ ["$app['".toList, "'] = function () use ($app) \x7b".toList,
      "    return new \\".toList, "($app);".toList, "\x7d;".toList], Text.Unbroken t := by
    decide
  exact lines_of_two_names hn hc h (by decide)

theorem definition_injective {n n' c c' : Text} (hn : n.Unbroken) (hn' : n'.Unbroken)
    (hc : c.Unbroken) (hc' : c'.Unbroken) {rest rest' : List Text}
    (h : Text.lines (definition n c) ++ rest = Text.lines (definition n' c') ++ rest') :
    n = n' ∧ c = c' ∧ rest = rest' := by
  rw [lines_definition hn hc, lines_definition hn' hc'] at h
  obtain ⟨hfirst, h⟩ := List.cons.inj h
  obtain ⟨hsecond, h⟩ := List.cons.inj h
  exact ⟨between_injective _ _ hfirst, between_injective _ _ hsecond, (List.cons.inj h).2⟩

theorem controllerTitle_injective (n : Text) :
    Function.Injective fun url => controllerTitle url n :=
  fun _ _ h => between_injective _ _ (List.append_cancel_left (List.append_cancel_left h))

theorem controllerLines_eq (v : RoutingModel.Visit) :
    controllerLines v = [] :: shipped.controllerRule :: controllerTitle v.url v.routingName ::
      shipped.controllerRule :: (Text.lines (definition v.routingName v.controller.className) ++
        v.tableEntry.actions.flatMap fun e => actionLines v.routingName e.1 e.2) := by
  rw [controllerLines, flatMap_actionLines]
  rfl

/-- Lines that begin with the title of a controller. -/
def StartsController (lines : List Text) : Prop :=
  ∃ rest, lines = [] :: shipped.controllerRule :: rest

theorem separable_controllers :
    Separable (fun v : RoutingModel.Visit => v.Written ∧ ∀ e ∈ v.tableEntry.actions, e.2.Unquoted)
      controllerLines (·.tableEntry) StartsController
      (fun lines => lines = [] ∨ StartsController lines) := by
  constructor
  case starts_append => exact fun v rest _ => ⟨_, rfl⟩
  case follows_of_starts => exact fun rest h => Or.inr h
  case append_inj =>
    rintro v v' rest rest' ⟨hw, hq⟩ ⟨hw', hq'⟩ hr hr' h
    have ends : ∀ {rest : List Text}, rest = [] ∨ StartsController rest →
        Blank rest ∧ ¬ ∃ lines, rest = [] :: shipped.actionRule :: lines := by
      rintro _ (rfl | ⟨rest, rfl⟩)
      · exact ⟨fun line hl => by simp at hl, by simp⟩
      · refine ⟨fun line hl => (Option.some.inj hl).symm, ?_⟩
        rintro ⟨lines, he⟩
        exact absurd (List.cons.inj (List.cons.inj he).2).1 (by decide)
    have good : ∀ v : RoutingModel.Visit, v.Written → (∀ e ∈ v.tableEntry.actions, e.2.Unquoted) →
        ∀ e ∈ v.tableEntry.actions, e.2.isEmpty = false ∧ e.2.Written ∧ e.2.Unquoted := by
      intro v hw hq e he
      obtain ⟨hm, hne⟩ := List.mem_filter.mp he
      exact ⟨by simpa using hne, (hw.actions e hm).2, hq e he⟩
    simp only [controllerLines_eq, List.cons_append, List.append_assoc] at h
    obtain ⟨htitle, h⟩ := List.cons.inj (List.cons.inj (List.cons.inj h).2).2
    -- The title has two texts in it: only with the routing name known does it tell the URL.
    obtain ⟨hn, hc, h⟩ := definition_injective hw.routingName hw'.routingName hw.className
      hw'.className (List.cons.inj h).2
    rw [← hn] at h htitle
    have hurl := controllerTitle_injective v.routingName htitle
    obtain ⟨hactions, hrest⟩ := (separable_actions v.routingName).flatMap_append_inj
      (good v hw hq) (good v' hw' hq') (ends hr) (ends hr') h
    rw [List.map_id, List.map_id] at hactions
    exact ⟨RoutingModel.TableEntry.ext hurl hn hc hactions, hrest⟩

/-- A router file's lines tell the routing table of the model. -/
theorem routingTable_eq_of_routerLines_eq {m m' : RoutingModel} (hw : ∀ v ∈ m.visits, v.Written)
    (hw' : ∀ v ∈ m'.visits, v.Written) (hq : m.Unquoted) (hq' : m'.Unquoted)
    (h : routerLines m = routerLines m') : m.routingTable = m'.routingTable := by
  have unstarted : ([] : List Text) = [] ∨ StartsController [] := Or.inl rfl
  have hs : ¬ StartsController [] := by rintro ⟨rest, he⟩; simp at he
  have h := List.append_cancel_left h
  rw [← List.append_nil (m.visits.flatMap _), ← List.append_nil (m'.visits.flatMap _)] at h
  exact (separable_controllers.flatMap_append_inj
    (fun v hv => ⟨hw v hv, hq _ (List.mem_map_of_mem hv)⟩)
    (fun v hv => ⟨hw' v hv, hq' _ (List.mem_map_of_mem hv)⟩) ⟨unstarted, hs⟩ ⟨unstarted, hs⟩ h).1

end ShippedRouter

namespace Builder

/-- Models that are built from classes are always written, and from two files that are the same the
same table can be read, whatever the asserts, the values and the rules look like. -/
theorem routingTable_eq_of_render_eq (reflector reflector' : Reflector)
    (classes classes' : List HandlerClass) (hn : ∀ c ∈ classes, c.Unbroken)
    (hn' : ∀ c ∈ classes', c.Unbroken)
    (hq : (addClasses { reflector } classes).model.Unquoted)
    (hq' : (addClasses { reflector := reflector' } classes').model.Unquoted) :
    ∃ file file',
      RouterTemplates.shipped.render (addClasses { reflector } classes).model = .ok file ∧
      RouterTemplates.shipped.render (addClasses { reflector := reflector' } classes').model =
        .ok file' ∧
      (file = file' →
        (addClasses { reflector } classes).model.routingTable =
          (addClasses { reflector := reflector' } classes').model.routingTable) := by
  rw [model_addClasses] at hq hq' ⊢
  rw [model_addClasses]
  refine ⟨_, _, ShippedRouter.render_eq (RoutingModel.resolved_addClasses classes),
    ShippedRouter.render_eq (RoutingModel.resolved_addClasses classes'), fun h => ?_⟩
  have hw : ∀ v ∈ (RoutingModel.addClasses {} classes).visits, v.Written :=
    fun v hv => RoutingModel.written_of_mem_visits hn hv
  have hw' : ∀ v ∈ (RoutingModel.addClasses {} classes').visits, v.Written :=
    fun v hv => RoutingModel.written_of_mem_visits hn' hv
  have hlines := ShippedRouter.text_injective (ShippedRouter.unbroken_routerLines hw)
    (ShippedRouter.unbroken_routerLines hw') h
  exact ShippedRouter.routingTable_eq_of_routerLines_eq hw hw' hq hq' hlines

/-- Two models with one file: the second has a controller that owns no URL. -/
theorem routingTable_eq_of_unvisited_controller :
    let c : HandlerClass := ⟨"C".toList, "name=c".toList, [⟨"x".toList,
      "@route(\nurl=/u\nassert('');\n)".toList⟩]⟩
    let d : HandlerClass := ⟨"D".toList, "name=d".toList, []⟩
    (addClasses { reflector := .silent } [c]).model ≠
        (addClasses { reflector := .silent } [c, d]).model ∧
      (addClasses { reflector := .silent } [c]).model.routingTable =
        (addClasses { reflector := .silent } [c, d]).model.routingTable := by
  intro c d
  refine ⟨by decide +kernel, ?_⟩
  obtain ⟨file, file', h, h', ht⟩ := routingTable_eq_of_render_eq .silent .silent [c] [c, d]
    (by decide +kernel) (by decide +kernel) (by decide +kernel) (by decide +kernel)
  have he : RouterTemplates.shipped.render (addClasses { reflector := .silent } [c]).model =
      RouterTemplates.shipped.render (addClasses { reflector := .silent } [c, d]).model := by
    decide +kernel
  rw [h, h'] at he
  exact ht (Except.ok.inj he)

end Builder

end AnnotatedRoutes
