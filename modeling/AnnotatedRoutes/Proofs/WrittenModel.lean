import AnnotatedRoutes.Proofs.AnnotationText
import AnnotatedRoutes.Proofs.ModelMeaning

namespace AnnotatedRoutes

/-- The names that a class declares have no line breaks. -/
def HandlerClass.Unbroken (c : HandlerClass) : Prop :=
  c.qualifiedName.Unbroken ∧ ∀ d ∈ c.methods, d.name.Unbroken

instance (c : HandlerClass) : Decidable c.Unbroken := inferInstanceAs (Decidable (_ ∧ _))

theorem HandlerMethod.written_reading (d : HandlerMethod) : d.reading.Written :=
  Directive.written_readAction fun _ hl => Docblock.unbroken_of_mem_lines hl

theorem HandlerClass.unbroken_routingName (c : HandlerClass) : c.routingName.Unbroken :=
  Directive.kept_unbroken.routingName fun _ hl => Docblock.unbroken_of_mem_lines hl

theorem exists_of_mem_actionsUnder {n name : Text} {a : Action} {classes : List HandlerClass}
    (h : (name, a) ∈ actionsUnder n classes) :
    ∃ c ∈ classes, ∃ d ∈ c.methods, d.name = name ∧ d.reading.action = a := by
  obtain ⟨c, hc, ha⟩ := List.mem_flatMap.mp h
  obtain ⟨d, hd, he⟩ := List.mem_map.mp ha
  obtain ⟨hn, ha⟩ := Prod.mk.inj he
  exact ⟨c, (mem_classesUnder.mp hc).1, d, hd, hn, ha⟩

namespace RoutingModel

/-- Every text of a visit is declared in one of some classes. -/
structure Visit.DeclaredIn (classes : List HandlerClass) (v : Visit) : Prop where
  url : ∃ c ∈ classes, ∃ d ∈ c.methods, v.url ∈ d.reading.urls
  routingName : ∃ c ∈ classes, c.routingName = v.routingName
  className : ∃ c ∈ classes, c.qualifiedName = v.controller.className
  actions : ∀ entry ∈ v.controller.actions.entries,
    ∃ c ∈ classes, ∃ d ∈ c.methods, d.name = entry.1 ∧ d.reading.action = entry.2

theorem declaredIn_of_mem_visits {classes : List HandlerClass} {v : Visit}
    (hv : v ∈ (addClasses {} classes).visits) : v.DeclaredIn classes := by
  obtain ⟨ho, hk⟩ := mem_visits hv
  have ho := get?_of_mem_reducedIndex ho
  rw [get?_urlIndex_addClasses] at ho
  obtain ⟨c, hc, d, hd, hu⟩ := exists_of_mem_registrations (Keyed.mem_of_lastUnder_eq_some ho)
  obtain ⟨hc, hn, -⟩ := mem_classesUnder.mp hc
  constructor
  case url => exact ⟨c, hc, d, hd, hu⟩
  case routingName => exact ⟨c, hc, hn⟩
  case className =>
    have hf := className_get?_addClasses classes v.routingName
    rw [hk, Option.map_some] at hf
    obtain ⟨e, he, hq⟩ := Option.map_eq_some_iff.mp hf.symm
    exact ⟨e, (mem_classesUnder.mp (List.mem_of_head? he)).1, hq⟩
  case actions =>
    intro entry he
    have ha := actions_get?_addClasses classes v.routingName entry.1
    rw [hk, Option.bind_some, Keyed.get?_eq_some_iff.mpr he] at ha
    exact exists_of_mem_actionsUnder (Keyed.mem_of_lastUnder_eq_some ha.symm)

/-- Every text of a visit is of a kind. -/
structure Visit.Has (P : Text → Prop) (v : Visit) : Prop where
  url : P v.url
  routingName : P v.routingName
  className : P v.controller.className
  actions : ∀ entry ∈ v.controller.actions.entries, P entry.1 ∧ entry.2.Has P

structure Visit.Written (v : Visit) : Prop where
  url : v.url.Unbroken
  routingName : v.routingName.Unbroken
  className : v.controller.className.Unbroken
  actions : ∀ entry ∈ v.controller.actions.entries, entry.1.Unbroken ∧ entry.2.Written

theorem Visit.Written.has {v : Visit} (h : v.Written) : v.Has Text.Unbroken :=
  ⟨h.url, h.routingName, h.className,
    fun entry he => ⟨(h.actions entry he).1, (h.actions entry he).2.has⟩⟩

theorem written_of_mem_visits {classes : List HandlerClass} (h : ∀ c ∈ classes, c.Unbroken)
    {v : Visit} (hv : v ∈ (addClasses {} classes).visits) : v.Written := by
  have declared := declaredIn_of_mem_visits hv
  constructor
  case url =>
    obtain ⟨c, hc, d, hd, hu⟩ := declared.url
    exact d.written_reading.urls v.url hu
  case routingName =>
    obtain ⟨c, hc, hn⟩ := declared.routingName
    exact hn ▸ c.unbroken_routingName
  case className =>
    obtain ⟨c, hc, hn⟩ := declared.className
    exact hn ▸ (h c hc).1
  case actions =>
    intro entry he
    obtain ⟨c, hc, d, hd, hn, ha⟩ := declared.actions entry he
    exact ⟨hn ▸ (h c hc).2 d hd, ha ▸ d.written_reading.action⟩

end RoutingModel

end AnnotatedRoutes
