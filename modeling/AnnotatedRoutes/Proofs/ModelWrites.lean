import AnnotatedRoutes.Proofs.ModelMeaning

namespace AnnotatedRoutes

/-- One change to a model. -/
inductive Write where
  /-- Makes a controller, unless the routing name has one. -/
  | enter (routingName className : Text)
  | claim (routingName url : Text)
  | store (routingName name : Text) (action : Action)
  | order (routingName : Text)

def HandlerMethod.writes (n : Text) (d : HandlerMethod) : List Write :=
  d.reading.urls.map (Write.claim n) ++ [.store n d.name d.reading.action]

/-- The URLs of a method are claimed before its action is stored. -/
def HandlerClass.writes (c : HandlerClass) : List Write :=
  if c.routingName = [] then []
  else .enter c.routingName c.qualifiedName ::
    (c.methods.flatMap (·.writes c.routingName) ++ [.order c.routingName])

namespace RoutingModel

/-- Changes a controller, if there is one. -/
def change (m : RoutingModel) (n : Text) (f : Controller → Controller) : RoutingModel :=
  match m.controllers.get? n with
  | none => m
  | some k => { m with controllers := m.controllers.put n (f k) }

def write (m : RoutingModel) : Write → RoutingModel
  | .enter n className =>
    { m with controllers := m.controllers.put n ((m.controllers.get? n).getD { className }) }
  | .claim n url => m.registerUrl n url
  | .store n name a => m.change n fun k => { k with actions := k.actions.put name a }
  | .order n => m.change n Controller.orderActions

def writeAll (m : RoutingModel) (ws : List Write) : RoutingModel := ws.foldl write m

theorem writeAll_append (m : RoutingModel) (ws ws' : List Write) :
    m.writeAll (ws ++ ws') = (m.writeAll ws).writeAll ws' :=
  List.foldl_append

theorem change_of_get? {m : RoutingModel} {n : Text} {k : Controller}
    (h : m.controllers.get? n = some k) (f : Controller → Controller) :
    m.change n f = { m with controllers := m.controllers.put n (f k) } := by
  rw [change, h]

theorem writeAll_claims (m : RoutingModel) (n : Text) (urls : List Text) :
    m.writeAll (urls.map (Write.claim n)) =
      { m with urlIndex := m.urlIndex.putAll (urls.map fun url => (url, n)) } := by
  rw [← registerUrls_eq, writeAll, List.foldl_map]
  rfl

theorem writeAll_method {m : RoutingModel} {n : Text} {k : Controller}
    (h : m.controllers.get? n = some k) (d : HandlerMethod) :
    m.writeAll (d.writes n) =
      { controllers := m.controllers.put n
          { k with actions := k.actions.put d.name d.reading.action }
        urlIndex := m.urlIndex.putAll (d.reading.urls.map fun url => (url, n)) } := by
  rw [HandlerMethod.writes, writeAll_append, writeAll_claims]
  exact change_of_get? (m := { m with urlIndex := m.urlIndex.putAll _ }) h
    fun k => { k with actions := k.actions.put d.name d.reading.action }

theorem writeAll_methods {m : RoutingModel} {n : Text} {k : Controller}
    (h : m.controllers.get? n = some k) (methods : List HandlerMethod) :
    m.writeAll (methods.flatMap (·.writes n)) =
      { controllers := m.controllers.put n
          { k with
            actions := k.actions.putAll (methods.map fun d => (d.name, d.reading.action)) }
        urlIndex := m.urlIndex.putAll
          (methods.flatMap fun d => d.reading.urls.map fun url => (url, n)) } := by
  induction methods generalizing m k with
  | nil =>
    have hp : m.controllers.put n k = m.controllers := Keyed.put_of_get? h
    simp [writeAll, hp]
  | cons d methods ih =>
    rw [List.flatMap_cons, writeAll_append, writeAll_method h]
    rw [ih (k := { k with actions := k.actions.put d.name d.reading.action })
      (Keyed.get?_put_self ..)]
    simp only [Keyed.put_put, List.map_cons, Keyed.putAll_cons, List.flatMap_cons,
      Keyed.putAll_append]

/-- Adding a class makes its writes. -/
theorem writeAll_writes (m : RoutingModel) (c : HandlerClass) :
    m.writeAll c.writes = (m.addClass c).model := by
  by_cases hc : c.routingName = []
  · rw [addClass_of_rejected m hc, HandlerClass.writes, if_pos hc]
    rfl
  · let k := (m.controllers.get? c.routingName).getD { className := c.qualifiedName }
    let entered : RoutingModel := { m with controllers := m.controllers.put c.routingName k }
    have hget : entered.controllers.get? c.routingName = some k := Keyed.get?_put_self ..
    have hrun : m.writeAll c.writes =
        (entered.writeAll (c.methods.flatMap (·.writes c.routingName))).change c.routingName
          Controller.orderActions := by
      rw [HandlerClass.writes, if_neg hc, writeAll, List.foldl_cons, List.foldl_append]
      rfl
    rw [hrun, writeAll_methods hget, change_of_get? (Keyed.get?_put_self ..),
      addClass_of_accepted m hc]
    simp only [entered, Keyed.put_put]
    rfl

end RoutingModel

end AnnotatedRoutes
