import AnnotatedRoutes.Routing.Builder
import AnnotatedRoutes.Proofs.OutputOrder

namespace AnnotatedRoutes

/-- What the docblock of a method describes. -/
def HandlerMethod.reading (d : HandlerMethod) : Directive.Reading :=
  Directive.readAction (Docblock.lines d.comment)

namespace HandlerClass

/-- The routing name in the docblock of a class; a class is accepted if it has one. -/
def routingName (c : HandlerClass) : Text := Directive.routingName (Docblock.lines c.comment)

/-- The actions that the methods describe, in order. -/
def actions (c : HandlerClass) : List (Text × Action) :=
  c.methods.map fun d => (d.name, d.reading.action)

/-- The URLs that the methods register, in order, under the routing name of the class. -/
def claims (c : HandlerClass) : List (Text × Text) :=
  c.methods.flatMap fun d => d.reading.urls.map fun url => (url, c.routingName)

end HandlerClass

def acceptedClasses (classes : List HandlerClass) : List HandlerClass :=
  classes.filter (·.routingName ≠ [])

def classesUnder (n : Text) (classes : List HandlerClass) : List HandlerClass :=
  (acceptedClasses classes).filter (·.routingName = n)

/-- The actions that classes accepted under a routing name describe, in the order of writing. -/
def actionsUnder (n : Text) (classes : List HandlerClass) : List (Text × Action) :=
  (classesUnder n classes).flatMap (·.actions)

/-- The URLs that accepted classes register, in the order of registration. -/
def registrations (classes : List HandlerClass) : List (Text × Text) :=
  (acceptedClasses classes).flatMap (·.claims)

theorem acceptedClasses_append (classes classes' : List HandlerClass) :
    acceptedClasses (classes ++ classes') = acceptedClasses classes ++ acceptedClasses classes' :=
  List.filter_append ..

theorem classesUnder_append (n : Text) (classes classes' : List HandlerClass) :
    classesUnder n (classes ++ classes') = classesUnder n classes ++ classesUnder n classes' := by
  simp only [classesUnder, acceptedClasses_append, List.filter_append]

theorem actionsUnder_append (n : Text) (classes classes' : List HandlerClass) :
    actionsUnder n (classes ++ classes') = actionsUnder n classes ++ actionsUnder n classes' := by
  simp only [actionsUnder, classesUnder_append, List.flatMap_append]

theorem mem_classesUnder {n : Text} {classes : List HandlerClass} {c : HandlerClass} :
    c ∈ classesUnder n classes ↔ c ∈ classes ∧ c.routingName = n ∧ n ≠ [] := by
  simp only [classesUnder, acceptedClasses, List.mem_filter, decide_eq_true_eq]
  constructor
  · rintro ⟨⟨hc, hne⟩, rfl⟩
    exact ⟨hc, rfl, hne⟩
  · rintro ⟨hc, rfl, hne⟩
    exact ⟨⟨hc, hne⟩, rfl⟩

/-- A further class counts under its own routing name only, and only if it is accepted. -/
theorem classesUnder_singleton (n : Text) (c : HandlerClass) :
    classesUnder n [c] = if c.routingName = n ∧ n ≠ [] then [c] else [] := by
  by_cases hn : c.routingName = n
  · subst hn
    by_cases hc : c.routingName = []
    · simp [classesUnder, acceptedClasses, hc]
    · simp [classesUnder, acceptedClasses, hc]
  · simp [classesUnder, acceptedClasses, List.filter_filter, hn]

theorem exists_of_mem_registrations {url n : Text} {classes : List HandlerClass}
    (h : (url, n) ∈ registrations classes) :
    ∃ c ∈ classesUnder n classes, ∃ d ∈ c.methods, url ∈ d.reading.urls := by
  obtain ⟨c, hc, hp⟩ := List.mem_flatMap.mp h
  obtain ⟨d, hd, hp⟩ := List.mem_flatMap.mp hp
  obtain ⟨u, hu, he⟩ := List.mem_map.mp hp
  obtain ⟨rfl, rfl⟩ := Prod.mk.inj he
  exact ⟨c, List.mem_filter.mpr ⟨hc, by simp⟩, d, hd, hu⟩

/-- The controller with the actions of some more methods, in the order of the output. -/
def Controller.addActions (k : Controller) (actions : List (Text × Action)) : Controller :=
  Controller.orderActions { k with actions := k.actions.putAll actions }

@[simp] theorem Controller.className_addActions (k : Controller) (actions : List (Text × Action)) :
    (k.addActions actions).className = k.className := rfl

theorem Controller.get?_actions_addActions (k : Controller) (actions : List (Text × Action))
    (name : Text) : (k.addActions actions).actions.get? name =
      (Keyed.lastUnder name actions).or (k.actions.get? name) := by
  simp [addActions, orderActions, Keyed.get?_putAll]

namespace RoutingModel

def addClasses (m : RoutingModel) (classes : List HandlerClass) : RoutingModel :=
  classes.foldl (fun m c => (m.addClass c).model) m

theorem addClasses_append_singleton (m : RoutingModel) (classes : List HandlerClass)
    (c : HandlerClass) :
    m.addClasses (classes ++ [c]) = ((m.addClasses classes).addClass c).model := by
  simp [addClasses]

theorem registerUrls_eq (m : RoutingModel) (n : Text) (urls : List Text) :
    m.registerUrls n urls =
      { m with urlIndex := m.urlIndex.putAll (urls.map fun url => (url, n)) } := by
  induction urls generalizing m with
  | nil => rfl
  | cons url urls ih => exact ih (m.registerUrl n url)

theorem foldl_addMethod (n : Text) (methods : List HandlerMethod) (m : RoutingModel)
    (k : Controller) :
    methods.foldl (addMethod n) (m, k) =
      ({ m with
          urlIndex := m.urlIndex.putAll
            (methods.flatMap fun d => d.reading.urls.map fun url => (url, n)) },
        { k with
          actions := k.actions.putAll (methods.map fun d => (d.name, d.reading.action)) }) := by
  induction methods generalizing m k with
  | nil => rfl
  | cons d methods ih =>
    rw [List.foldl_cons, addMethod, registerUrls_eq, ih]
    simp only [List.flatMap_cons, Keyed.putAll_append, List.map_cons, Keyed.putAll_cons]
    rfl

theorem addClass_eq_of_rejected (m : RoutingModel) {c : HandlerClass} (h : c.routingName = []) :
    m.addClass c = ⟨m, none, [.noRoutingName c.qualifiedName]⟩ := by
  have h' : Directive.routingName (Docblock.lines c.comment) = [] := h
  simp [addClass, h']

/-- Everything that comes of an accepted class. -/
theorem addClass_eq_of_accepted (m : RoutingModel) {c : HandlerClass} (h : c.routingName ≠ []) :
    m.addClass c =
      let known := (m.controllers.get? c.routingName).getD { className := c.qualifiedName }
      ⟨{ controllers := m.controllers.put c.routingName (known.addActions c.actions)
         urlIndex := m.urlIndex.putAll c.claims }, some c.routingName,
        (if known.className = c.qualifiedName then []
          else [.merged c.qualifiedName c.routingName known.className]) ++
          [.added c.routingName c.qualifiedName (known.addActions c.actions).actions.size]⟩ := by
  have h' : Directive.routingName (Docblock.lines c.comment) ≠ [] := h
  simp only [addClass, h', if_false, foldl_addMethod]
  rfl

theorem addClass_of_rejected (m : RoutingModel) {c : HandlerClass} (h : c.routingName = []) :
    (m.addClass c).model = m := by
  rw [addClass_eq_of_rejected m h]

theorem addClass_of_accepted (m : RoutingModel) {c : HandlerClass} (h : c.routingName ≠ []) :
    (m.addClass c).model =
      { controllers := m.controllers.put c.routingName
          (((m.controllers.get? c.routingName).getD
            { className := c.qualifiedName }).addActions c.actions)
        urlIndex := m.urlIndex.putAll c.claims } := by
  rw [addClass_eq_of_accepted m h]

theorem routingName_addClass (m : RoutingModel) {c : HandlerClass} (h : c.routingName ≠ []) :
    (m.addClass c).routingName = some c.routingName := by
  rw [addClass_eq_of_accepted m h]

theorem addClasses_acceptedClasses (m : RoutingModel) (classes : List HandlerClass) :
    m.addClasses (acceptedClasses classes) = m.addClasses classes := by
  induction classes generalizing m with
  | nil => rfl
  | cons c classes ih =>
    by_cases h : c.routingName = []
    · have hf : acceptedClasses (c :: classes) = acceptedClasses classes := by
        simp [acceptedClasses, h]
      rw [hf, ih]
      simp [addClasses, addClass_of_rejected m h]
    · have hf : acceptedClasses (c :: classes) = c :: acceptedClasses classes := by
        simp [acceptedClasses, h]
      rw [hf]
      exact ih (m.addClass c).model

theorem urlIndex_addClasses (m : RoutingModel) (classes : List HandlerClass) :
    (m.addClasses classes).urlIndex = m.urlIndex.putAll (registrations classes) := by
  induction classes using List.reverseRecOn with
  | nil => rfl
  | append_singleton classes c ih =>
    rw [addClasses_append_singleton]
    by_cases h : c.routingName = []
    · simp [addClass_of_rejected _ h, ih, registrations, acceptedClasses, h]
    · simp [addClass_of_accepted _ h, ih, registrations, acceptedClasses, h, Keyed.putAll_append]

/-- The step that a class makes, seen under one routing name. -/
theorem get?_controllers_addClass (m : RoutingModel) (c : HandlerClass) (n : Text) :
    (m.addClass c).model.controllers.get? n =
      if c.routingName = n ∧ n ≠ [] then
        some (((m.controllers.get? n).getD { className := c.qualifiedName }).addActions c.actions)
      else m.controllers.get? n := by
  by_cases hc : c.routingName = []
  · have hn : ¬ (c.routingName = n ∧ n ≠ []) := fun h => h.2 (h.1.symm.trans hc)
    rw [addClass_of_rejected m hc, if_neg hn]
  · rw [addClass_of_accepted m hc, Keyed.get?_put]
    by_cases hn : n = c.routingName
    · subst hn
      simp [hc]
    · simp [hn, Ne.symm hn]

theorem className_get?_addClasses (classes : List HandlerClass) (n : Text) :
    ((addClasses {} classes).controllers.get? n).map (·.className) =
      (classesUnder n classes).head?.map (·.qualifiedName) := by
  induction classes using List.reverseRecOn with
  | nil => rfl
  | append_singleton classes c ih =>
    rw [addClasses_append_singleton, get?_controllers_addClass, classesUnder_append,
      classesUnder_singleton, List.head?_append, Option.map_or, ← ih]
    split
    next h =>
      cases (addClasses {} classes).controllers.get? n with
      | none => rfl
      | some k => rfl
    next h => simp

theorem actions_get?_addClasses (classes : List HandlerClass) (n name : Text) :
    ((addClasses {} classes).controllers.get? n).bind (·.actions.get? name) =
      Keyed.lastUnder name (actionsUnder n classes) := by
  induction classes using List.reverseRecOn with
  | nil => rfl
  | append_singleton classes c ih =>
    rw [addClasses_append_singleton, get?_controllers_addClass, actionsUnder_append,
      Keyed.lastUnder_append, ← ih, actionsUnder, classesUnder_singleton]
    split
    next h =>
      cases (addClasses {} classes).controllers.get? n with
      | none => simp [Controller.get?_actions_addActions]
      | some k => simp [Controller.get?_actions_addActions]
    next h => simp [Keyed.lastUnder]

theorem get?_urlIndex_addClasses (classes : List HandlerClass) (url : Text) :
    (addClasses {} classes).urlIndex.get? url = Keyed.lastUnder url (registrations classes) := by
  rw [urlIndex_addClasses, Keyed.get?_putAll, Keyed.get?_empty, Option.or_none]

theorem exists_get?_addClasses_iff (classes : List HandlerClass) (n : Text) :
    (∃ k, (addClasses {} classes).controllers.get? n = some k) ↔
      ∃ c, c ∈ classesUnder n classes := by
  have h := className_get?_addClasses classes n
  constructor
  · rintro ⟨k, hk⟩
    rw [hk] at h
    obtain ⟨c, hc, _⟩ := Option.map_eq_some_iff.mp h.symm
    exact ⟨c, List.mem_of_head? hc⟩
  · rintro ⟨c, hc⟩
    have hne : (classesUnder n classes).head? ≠ none :=
      mt List.head?_eq_none_iff.mp (List.ne_nil_of_mem hc)
    obtain ⟨d, hd⟩ := Option.ne_none_iff_exists'.mp hne
    rw [hd] at h
    obtain ⟨k, hk, _⟩ := Option.map_eq_some_iff.mp h
    exact ⟨k, hk⟩

theorem resolved_addClasses (classes : List HandlerClass) : (addClasses {} classes).Resolved := by
  intro url n h
  rw [get?_urlIndex_addClasses] at h
  obtain ⟨c, hc, _⟩ := exists_of_mem_registrations (Keyed.mem_of_lastUnder_eq_some h)
  exact (exists_get?_addClasses_iff classes n).mpr ⟨c, hc⟩

/-- The first class accepted under a routing name gives the class name, the last method of a name
its action, and the last class to register a URL owns it. -/
structure Reflects (m : RoutingModel) (classes : List HandlerClass) : Prop where
  routingNames : ∀ n, n ∈ m.controllers.keys ↔ ∃ c ∈ classes, c.routingName = n ∧ n ≠ []
  className : ∀ n k, m.controllers.get? n = some k →
    (classesUnder n classes).head?.map (·.qualifiedName) = some k.className
  actionNames : ∀ n k, m.controllers.get? n = some k →
    ∀ name, name ∈ k.actions.keys ↔ ∃ c ∈ classesUnder n classes, ∃ d ∈ c.methods, d.name = name
  actions : ∀ n k, m.controllers.get? n = some k →
    ∀ name, k.actions.get? name = Keyed.lastUnder name (actionsUnder n classes)
  owners : ∀ url, m.urlIndex.get? url = Keyed.lastUnder url (registrations classes)

end RoutingModel

namespace Builder

def addClasses (b : Builder) (classes : List HandlerClass) : Builder :=
  classes.foldl (fun b c => (b.addClass c).builder) b

theorem model_addClasses (b : Builder) (classes : List HandlerClass) :
    (b.addClasses classes).model = b.model.addClasses classes := by
  induction classes generalizing b with
  | nil => rfl
  | cons c classes ih => exact ih (b.addClass c).builder

/-- A builder's model means what its classes declare, and a class that is not accepted leaves no
trace in it. -/
theorem addClasses_reflects (reflector : Reflector) (classes : List HandlerClass) :
    (addClasses { reflector } classes).model.Reflects classes ∧
      (addClasses { reflector } (acceptedClasses classes)).model =
        (addClasses { reflector } classes).model := by
  rw [model_addClasses, model_addClasses]
  refine ⟨?_, RoutingModel.addClasses_acceptedClasses _ classes⟩
  have actions : ∀ n k, (RoutingModel.addClasses {} classes).controllers.get? n = some k →
      ∀ name, k.actions.get? name = Keyed.lastUnder name (actionsUnder n classes) := by
    intro n k hk name
    rw [← RoutingModel.actions_get?_addClasses, hk]
    rfl
  constructor
  case routingNames =>
    intro n
    rw [Keyed.mem_keys_iff, Option.isSome_iff_exists, RoutingModel.exists_get?_addClasses_iff]
    simp only [mem_classesUnder]
  case className =>
    intro n k hk
    rw [← RoutingModel.className_get?_addClasses, hk]
    rfl
  case actionNames =>
    intro n k hk name
    rw [Keyed.mem_keys_iff, actions n k hk, Option.isSome_iff_ne_none, Ne,
      Keyed.lastUnder_eq_none_iff, not_not]
    simp [actionsUnder, HandlerClass.actions]
  case actions => exact actions
  case owners => exact RoutingModel.get?_urlIndex_addClasses classes

end Builder

end AnnotatedRoutes
