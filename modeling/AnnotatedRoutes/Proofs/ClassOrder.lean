import AnnotatedRoutes.Proofs.ModelMeaning
import AnnotatedRoutes.Proofs.ShippedRouter
import AnnotatedRoutes.Proofs.TextOrder

namespace AnnotatedRoutes

namespace RoutingModel

/-- Two models that answer alike, whatever they were told first. -/
structure Alike (m m' : RoutingModel) : Prop where
  controllers : ∀ n, m.controllers.get? n = m'.controllers.get? n
  owners : ∀ url, m.urlIndex.get? url = m'.urlIndex.get? url

/-- Two models that cannot be told apart by anything that is written from them. -/
structure SameOutput (m m' : RoutingModel) : Prop where
  router : ∀ ts : RouterTemplates, ts.render m = ts.render m'
  records : m.records = m'.records
  listing : ∀ limit, m.listing limit = m'.listing limit

variable {m m' : RoutingModel}

theorem Alike.sortedIndex_eq (h : m.Alike m') : m.sortedIndex = m'.sortedIndex := by
  apply descending_eq_of_perm Prod.fst (Keyed.perm_of_get?_eq h.owners)
  intro owner ho owner' ho' he
  exact List.inj_on_of_nodup_map m.urlIndex.distinct ho ho' he

theorem Alike.reducedIndex_eq (h : m.Alike m') : m.reducedIndex = m'.reducedIndex := by
  rw [reducedIndex, reducedIndex, h.sortedIndex_eq]

theorem Alike.controller_eq (h : m.Alike m') (n : Text) : m.controller n = m'.controller n := by
  rw [controller, controller, h.controllers n]

theorem Alike.records_eq (h : m.Alike m') : m.records = m'.records := by
  simp only [records, h.reducedIndex_eq, h.controller_eq]

theorem Alike.render_eq (h : m.Alike m') (ts : RouterTemplates) : ts.render m = ts.render m' := by
  have blocks : ∀ url n, ts.renderController m url n = ts.renderController m' url n := by
    intro url n
    rw [RouterTemplates.renderController, RouterTemplates.renderController, h.controller_eq]
  have lines : ts.renderLines m = ts.renderLines m' := by
    simp only [RouterTemplates.renderLines, h.reducedIndex_eq, blocks]
  rw [RouterTemplates.render, RouterTemplates.render, lines]

theorem Alike.sameOutput (h : m.Alike m') : m.SameOutput m' where
  router := h.render_eq
  records := h.records_eq
  listing limit := by rw [listing, listing, h.records_eq]

end RoutingModel

/-- The URLs that a class registers, also those in routes that it then drops. -/
def HandlerClass.urls (c : HandlerClass) : List Text := c.methods.flatMap (·.reading.urls)

/-- Accepted classes with different routing names do not register the same URL. -/
def Independent (classes : List HandlerClass) : Prop :=
  ∀ c ∈ acceptedClasses classes, ∀ c' ∈ acceptedClasses classes,
    c.routingName ≠ c'.routingName → ∀ url ∈ c.urls, url ∉ c'.urls

/-- The same classes in another order, where those accepted under one routing name keep theirs. -/
structure Reordered (classes classes' : List HandlerClass) : Prop where
  perm : classes.Perm classes'
  underName : ∀ n, classesUnder n classes = classesUnder n classes'

theorem mem_registrations {url n : Text} {classes : List HandlerClass} :
    (url, n) ∈ registrations classes ↔ ∃ c ∈ classesUnder n classes, url ∈ c.urls := by
  constructor
  · intro h
    obtain ⟨c, hc, d, hd, hu⟩ := exists_of_mem_registrations h
    exact ⟨c, hc, List.mem_flatMap.mpr ⟨d, hd, hu⟩⟩
  · rintro ⟨c, hc, hu⟩
    obtain ⟨d, hd, hu⟩ := List.mem_flatMap.mp hu
    obtain ⟨hc, hn⟩ := List.mem_filter.mp hc
    have hn : c.routingName = n := by simpa using hn
    have claimed : (url, n) ∈ c.claims :=
      List.mem_flatMap.mpr ⟨d, hd, List.mem_map.mpr ⟨url, hu, by rw [hn]⟩⟩
    exact List.mem_flatMap.mpr ⟨c, hc, claimed⟩

/-- Two neighbours with different routing names may change places. -/
theorem Reordered.swap {c c' : HandlerClass} (h : c.routingName ≠ c'.routingName)
    (before after : List HandlerClass) :
    Reordered (before ++ c :: c' :: after) (before ++ c' :: c :: after) where
  perm := (List.Perm.swap c' c after).append_left before
  underName n := by
    have apart : classesUnder n [c, c'] = classesUnder n [c', c] := by
      change classesUnder n ([c] ++ [c']) = classesUnder n ([c'] ++ [c])
      rw [classesUnder_append, classesUnder_append, classesUnder_singleton, classesUnder_singleton]
      by_cases hc : c.routingName = n
      · have hc' : c'.routingName ≠ n := fun e => h (hc.trans e.symm)
        simp [hc']
      · simp [hc]
    change classesUnder n (before ++ ([c, c'] ++ after)) =
      classesUnder n (before ++ ([c', c] ++ after))
    simp only [classesUnder_append n before, classesUnder_append n _ after, apart]

theorem Independent.eq_of_mem_registrations {classes : List HandlerClass} (h : Independent classes)
    {url n n' : Text} (hn : (url, n) ∈ registrations classes)
    (hn' : (url, n') ∈ registrations classes) : n = n' := by
  obtain ⟨c, hc, hu⟩ := mem_registrations.mp hn
  obtain ⟨c', hc', hu'⟩ := mem_registrations.mp hn'
  have hname : c.routingName = n := (mem_classesUnder.mp hc).2.1
  have hname' : c'.routingName = n' := (mem_classesUnder.mp hc').2.1
  by_contra hne
  have different : c.routingName ≠ c'.routingName := by rwa [hname, hname']
  exact h c (List.mem_of_mem_filter hc) c' (List.mem_of_mem_filter hc') different url hu hu'

theorem Independent.reordered {classes classes' : List HandlerClass} (h : Independent classes)
    (hr : Reordered classes classes') : Independent classes' := by
  have accepted : ∀ c, c ∈ acceptedClasses classes' → c ∈ acceptedClasses classes :=
    fun c hc => (hr.perm.filter _).mem_iff.mpr hc
  intro c hc c' hc'
  exact h c (accepted c hc) c' (accepted c' hc')

/-- The controller under the routing name of a class, with what was there before. -/
def Controller.extend (k : Option Controller) (c : HandlerClass) : Controller :=
  (k.getD { className := c.qualifiedName }).addActions c.actions

namespace RoutingModel

/-- A controller is made of the classes under its routing name alone, in their order. -/
theorem get?_controllers_addClasses (classes : List HandlerClass) (n : Text) :
    (addClasses {} classes).controllers.get? n =
      (classesUnder n classes).foldl (fun k c => some (Controller.extend k c)) none := by
  induction classes using List.reverseRecOn with
  | nil => rfl
  | append_singleton classes c ih =>
    rw [addClasses_append_singleton, get?_controllers_addClass, classesUnder_append,
      classesUnder_singleton, List.foldl_append, ← ih]
    split
    · rfl
    · rfl

/-- Without rivals, a URL belongs to whoever registers it, early or late. -/
theorem get?_urlIndex_eq_some_iff {classes : List HandlerClass} (h : Independent classes)
    {url n : Text} : (addClasses {} classes).urlIndex.get? url = some n ↔
      ∃ c ∈ classesUnder n classes, url ∈ c.urls := by
  rw [get?_urlIndex_addClasses, ← mem_registrations]
  apply Keyed.lastUnder_eq_some_iff
  rintro ⟨u, n⟩ hv ⟨u', n'⟩ hw rfl
  exact h.eq_of_mem_registrations hv hw

theorem alike_of_reordered {classes classes' : List HandlerClass} (h : Independent classes)
    (hr : Reordered classes classes') :
    (addClasses {} classes).Alike (addClasses {} classes') where
  controllers n := by
    rw [get?_controllers_addClasses, get?_controllers_addClasses, hr.underName]
  owners url := by
    apply Option.ext
    intro n
    rw [get?_urlIndex_eq_some_iff h, get?_urlIndex_eq_some_iff (h.reordered hr), hr.underName]

end RoutingModel

namespace Builder

/-- The order of independent classes leaves no trace in the router file, in the records or in a
listing, all of which can be written. -/
theorem sameOutput_of_reordered (reflector reflector' : Reflector)
    {classes classes' : List HandlerClass} (h : Independent classes)
    (hr : Reordered classes classes') :
    RoutingModel.SameOutput (addClasses { reflector } classes).model
        (addClasses { reflector := reflector' } classes').model ∧
      (∃ file, RouterTemplates.shipped.render (addClasses { reflector } classes).model =
        .ok file) ∧
      (∃ records, (addClasses { reflector } classes).model.records = .ok records) := by
  rw [model_addClasses, model_addClasses]
  have resolved := RoutingModel.resolved_addClasses classes
  exact ⟨(RoutingModel.alike_of_reordered h hr).sameOutput, ⟨_, ShippedRouter.render_eq resolved⟩,
    ⟨_, RoutingModel.records_eq resolved⟩⟩

/-- Two classes of one controller, with another class between them or before both. -/
theorem sameOutput_of_interleaved :
    let first : HandlerClass := ⟨"A".toList, "name=a".toList,
      [⟨"x".toList, "@route(\nurl=/x\n)\n@route(\nurl=/dropped".toList⟩]⟩
    let other : HandlerClass := ⟨"B".toList, "name=b".toList,
      [⟨"y".toList, "@route(\nurl=/y\n)".toList⟩]⟩
    let second : HandlerClass := ⟨"C".toList, "name=a".toList,
      [⟨"x".toList, "@route(\nurl=/z\n)".toList⟩]⟩
    let classes := [first, other, second]
    let classes' := [other, first, second]
    (Independent classes ∧ Reordered classes classes') ∧
      first.urls = ["/x".toList, "/dropped".toList] ∧
      RoutingModel.SameOutput (addClasses { reflector := .fixed ∅ } classes).model
        (addClasses { reflector := .fixed ∅ } classes').model := by
  intro first other second classes classes'
  have independent : Independent classes := by
    unfold Independent
    decide +kernel
  have reordered : Reordered classes classes' := Reordered.swap (by decide +kernel) [] [second]
  exact ⟨⟨independent, reordered⟩, by decide +kernel,
    (sameOutput_of_reordered _ _ independent reordered).1⟩

end Builder

end AnnotatedRoutes
