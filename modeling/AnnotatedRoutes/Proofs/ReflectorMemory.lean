import AnnotatedRoutes.Proofs.ScannedComments

namespace AnnotatedRoutes

/-- The class that a source declares, under the name that is read off the source. -/
def Source.namedClass? (constructorName separator source : Text) : Option (Text × HandlerClass) :=
  (Source.qualifiedName separator source).bind fun name =>
    (Source.scanClass constructorName name source).map fun c => (name, c)

/-- The classes of some sources, each with its label, under their names. -/
def namedClasses (constructorName separator : Text) (sources : List (Text × Text)) :
    List (Text × HandlerClass) :=
  sources.filterMap fun source => Source.namedClass? constructorName separator source.2

theorem Source.qualifiedName_of_scanClass {constructorName name source : Text} {c : HandlerClass}
    (h : Source.scanClass constructorName name source = some c) : c.qualifiedName = name := by
  obtain ⟨d, -, rfl⟩ := Option.map_eq_some_iff.mp h
  rfl

theorem Source.exists_scanClass_of_undisturbed {source separator name : Text}
    (h : Undisturbed source) (hq : Source.qualifiedName separator source = some name)
    (constructorName : Text) : ∃ c, Source.scanClass constructorName name source = some c := by
  obtain ⟨d, hd, -⟩ := Option.map_eq_some_iff.mp hq
  have found : firstClass? (masked source) = some d := ((undisturbed_iff source).mp h).1 ▸ hd
  exact ⟨declaredClass constructorName name source d, by rw [scanClass_eq, found]; rfl⟩

namespace HandlerClass

/-- The class that a reflector's answers about a name make up. -/
def answered (name : Text) (known : Option HandlerClass) : HandlerClass :=
  ⟨name, (known.map (·.comment)).getD [], (known.map (·.methods)).getD []⟩

theorem routingName_answered_none (name : Text) : (answered name none).routingName = [] := rfl

theorem answered_of_scanClass {constructorName name source : Text} {c : HandlerClass}
    (h : Source.scanClass constructorName name source = some c) : answered name (some c) = c := by
  have hname := Source.qualifiedName_of_scanClass h
  subst hname
  rfl

end HandlerClass

namespace Builder

/-- Two steps with one result: they return the same, note the same and leave the same model. -/
structure Step.SameResult (s t : Step) : Prop where
  routingName : s.routingName = t.routingName
  notices : s.notices = t.notices
  model : s.builder.model = t.builder.model

variable {constructorName separator label source name : Text} {indexed : Keyed Text HandlerClass}
  {m : RoutingModel}

theorem addSource_of_scanned {c : HandlerClass}
    (hq : Source.qualifiedName separator source = some name)
    (hs : Source.scanClass constructorName name source = some c) :
    addSource ⟨.scanning constructorName indexed, m⟩ separator label source =
      .ok (addClass ⟨.scanning constructorName (indexed.put name c), m⟩ c) := by
  have hi : ((Reflector.scanning constructorName indexed).index name source).1 =
      .scanning constructorName (indexed.put name c) := by
    rw [Reflector.index, hs]
  have answer : addSource ⟨.scanning constructorName indexed, m⟩ separator label source =
      .ok (addClass ⟨.scanning constructorName (indexed.put name c), m⟩
        (.answered name ((indexed.put name c).get? name))) := by
    simp only [addSource, hq, hi]
    rfl
  rw [answer, Keyed.get?_put_self, HandlerClass.answered_of_scanClass hs]

/-- Where no class is found, the reflector answers from its memory. -/
theorem addSource_of_not_scanned (hq : Source.qualifiedName separator source = some name)
    (hs : Source.scanClass constructorName name source = none) :
    addSource ⟨.scanning constructorName indexed, m⟩ separator label source =
      .ok (addClass ⟨.scanning constructorName indexed, m⟩
        (.answered name (indexed.get? name))) := by
  have hi : ((Reflector.scanning constructorName indexed).index name source).1 =
      .scanning constructorName indexed := by
    rw [Reflector.index, hs]
  simp only [addSource, hq, hi]
  rfl

theorem addSource_of_unnamed (hq : Source.qualifiedName separator source = none) (b : Builder) :
    b.addSource separator label source = .ok ⟨b, none, [.noClass label]⟩ := by
  rw [addSource, hq]

/-- A source leaves the class that it declares in memory, and nothing else. -/
theorem exists_addSource_scanning (constructorName separator label source : Text)
    (indexed : Keyed Text HandlerClass) (m : RoutingModel) :
    ∃ step, addSource ⟨.scanning constructorName indexed, m⟩ separator label source = .ok step ∧
      step.builder.reflector = .scanning constructorName
        (indexed.putAll (Source.namedClass? constructorName separator source).toList) := by
  cases hq : Source.qualifiedName separator source with
  | none =>
    refine ⟨_, addSource_of_unnamed hq _, ?_⟩
    simp [Source.namedClass?, hq]
  | some name =>
    cases hs : Source.scanClass constructorName name source with
    | none =>
      refine ⟨_, addSource_of_not_scanned hq hs, ?_⟩
      simp [Source.namedClass?, hq, hs, addClass]
    | some c =>
      refine ⟨_, addSource_of_scanned hq hs, ?_⟩
      simp [Source.namedClass?, hq, hs, addClass]

theorem exists_addSources_scanning (constructorName separator : Text)
    (indexed : Keyed Text HandlerClass) (m : RoutingModel) (sources : List (Text × Text)) :
    ∃ m', addSources ⟨.scanning constructorName indexed, m⟩ separator sources =
      .ok ⟨.scanning constructorName
        (indexed.putAll (namedClasses constructorName separator sources)), m'⟩ := by
  induction sources generalizing indexed m with
  | nil => exact ⟨m, rfl⟩
  | cons source sources ih =>
    obtain ⟨⟨⟨r, m₁⟩, routingName, notices⟩, hstep, hr⟩ :=
      exists_addSource_scanning constructorName separator source.1 source.2 indexed m
    obtain rfl : r = _ := hr
    obtain ⟨m', hm'⟩ := ih (indexed.putAll
      (Source.namedClass? constructorName separator source.2).toList) m₁
    have hclasses : namedClasses constructorName separator (source :: sources) =
        (Source.namedClass? constructorName separator source.2).toList ++
          namedClasses constructorName separator sources := by
      rw [namedClasses, List.filterMap_cons]
      cases Source.namedClass? constructorName separator source.2 <;> rfl
    refine ⟨m', ?_⟩
    rw [hclasses, Keyed.putAll_append, addSources, List.foldlM_cons, hstep]
    exact hm'

/-- A class that is answered from memory is told from an unknown one just if it is accepted. -/
theorem sameResult_answered_iff (r r' : Reflector) (m : RoutingModel) (name : Text)
    (known : Option HandlerClass) :
    Step.SameResult (addClass ⟨r, m⟩ (.answered name known))
        (addClass ⟨r', m⟩ (.answered name none)) ↔
      ∀ c, known = some c → c.routingName = [] := by
  have unknown := m.addClass_eq_of_rejected (HandlerClass.routingName_answered_none name)
  constructor
  · rintro h c rfl
    by_contra hc
    have accepted : (HandlerClass.answered name (some c)).routingName ≠ [] := hc
    have hresult : (m.addClass (.answered name (some c))).routingName =
        (m.addClass (.answered name none)).routingName := h.routingName
    rw [unknown, m.routingName_addClass accepted] at hresult
    cases hresult
  · intro h
    have rejected : (HandlerClass.answered name known).routingName = [] := by
      cases known with
      | none => rfl
      | some c => exact h c rfl
    have answer := m.addClass_eq_of_rejected rejected
    simp only [addClass, unknown, answer]
    exact ⟨rfl, rfl, rfl⟩

/-- What the source gives is the same with an empty memory, just unless no class is found in it and
an accepted one is kept under its name. -/
theorem sameResult_addSource_iff (constructorName separator label source : Text)
    (indexed : Keyed Text HandlerClass) (m : RoutingModel) :
    ∃ step fresh,
      addSource ⟨.scanning constructorName indexed, m⟩ separator label source = .ok step ∧
      addSource ⟨.fresh constructorName, m⟩ separator label source = .ok fresh ∧
      (step.SameResult fresh ↔
        ∀ name, Source.qualifiedName separator source = some name →
          Source.scanClass constructorName name source = none →
          ∀ c, indexed.get? name = some c → c.routingName = []) := by
  cases hq : Source.qualifiedName separator source with
  | none =>
    exact ⟨_, _, addSource_of_unnamed hq _, addSource_of_unnamed hq _,
      fun _ => nofun, fun _ => ⟨rfl, rfl, rfl⟩⟩
  | some name =>
    cases hs : Source.scanClass constructorName name source with
    | some c =>
      refine ⟨_, _, addSource_of_scanned hq hs, addSource_of_scanned hq hs,
        fun _ name' hn hs' => ?_, fun _ => ⟨rfl, rfl, rfl⟩⟩
      cases hn
      cases hs.symm.trans hs'
    | none =>
      refine ⟨_, _, addSource_of_not_scanned hq hs, addSource_of_not_scanned hq hs, ?_⟩
      rw [Keyed.get?_empty, sameResult_answered_iff]
      constructor
      · intro h name' hn _
        cases hn
        exact h
      · intro h
        exact h name rfl hs

theorem addSource_of_indexed {c : HandlerClass}
    (hq : Source.qualifiedName separator source = some name)
    (hs : Source.scanClass constructorName name source = none)
    (hc : indexed.get? name = some c) :
    addSource ⟨.scanning constructorName indexed, m⟩ separator label source =
      .ok (addClass ⟨.scanning constructorName indexed, m⟩ { c with qualifiedName := name }) := by
  rw [addSource_of_not_scanned hq hs, hc]
  rfl

/-- After any sources, the next one gives what it would give to a reflector that has seen none, just
unless it bears the name of an accepted class in memory and no class is found in it; the class in
memory is then added once more. An undisturbed source is never answered from memory. -/
theorem addSource_forgets_iff (constructorName separator : Text)
    (indexed : Keyed Text HandlerClass) (model : RoutingModel) (history : List (Text × Text))
    (label source : Text) :
    let memory := indexed.putAll (namedClasses constructorName separator history)
    ∃ m step fresh,
      addSources ⟨.scanning constructorName indexed, model⟩ separator history =
        .ok ⟨.scanning constructorName memory, m⟩ ∧
      addSource ⟨.scanning constructorName memory, m⟩ separator label source = .ok step ∧
      addSource ⟨.fresh constructorName, m⟩ separator label source = .ok fresh ∧
      (step.SameResult fresh ↔
        ∀ name, Source.qualifiedName separator source = some name →
          Source.scanClass constructorName name source = none →
          ∀ c, memory.get? name = some c → c.routingName = []) ∧
      (∀ name c, Source.qualifiedName separator source = some name →
        Source.scanClass constructorName name source = none → memory.get? name = some c →
        step = addClass ⟨.scanning constructorName memory, m⟩ { c with qualifiedName := name }) ∧
      (Source.Undisturbed source → step.SameResult fresh) := by
  intro memory
  obtain ⟨m, hm⟩ := exists_addSources_scanning constructorName separator indexed model history
  obtain ⟨step, fresh, hstep, hfresh, same⟩ :=
    sameResult_addSource_iff constructorName separator label source memory m
  refine ⟨m, step, fresh, hm, hstep, hfresh, same, ?_, fun h => same.mpr ?_⟩
  · intro name c hq hs hc
    exact Except.ok.inj (hstep.symm.trans (addSource_of_indexed hq hs hc))
  · intro name hq hs
    obtain ⟨c, hc⟩ := Source.exists_scanClass_of_undisturbed h hq constructorName
    cases hs.symm.trans hc

/-- A class with a routing name and one route, in a file of its own. -/
def classFile (className routingName : Text) : Text :=
  "<?php\n/** name=".toList ++ routingName ++ " */\nclass ".toList ++ className ++
    "\n\x7b\n    /**\n     * @route(\n     * url=/same\n     * )\n     */\n".toList ++
    "    public function list() \x7b\x7d\n\x7d\n".toList

/-- A class that is shown again is scanned again. -/
theorem addSource_forgets_shown_again :
    let source := classFile "A".toList "a".toList
    ∃ m step fresh,
      addSources { reflector := .fresh "__construct".toList } "\\".toList
        [([], source), ([], classFile "B".toList "b".toList)] = .ok m ∧
      addSource m "\\".toList [] source = .ok step ∧
      addSource { m with reflector := .fresh "__construct".toList } "\\".toList [] source =
        .ok fresh ∧
      step.SameResult fresh := by
  intro source
  obtain ⟨m, step, fresh, hm, hstep, hfresh, -, -, same⟩ :=
    addSource_forgets_iff "__construct".toList "\\".toList ∅ {}
      [([], source), ([], classFile "B".toList "b".toList)] [] source
  exact ⟨_, step, fresh, hm, hstep, hfresh, same (by decide +kernel)⟩

theorem told_eq_of_run {α β γ ε : Type} {x : Except ε α} {f : α → Except ε β} {told : β → γ} {a : α}
    {b : β} {t : γ} (h : (x >>= fun a => (f a).map told) = .ok t) (hx : x = .ok a)
    (hf : f a = .ok b) : told b = t := by
  rw [hx] at h
  change (f a).map told = _ at h
  rw [hf] at h
  exact Except.ok.inj h

/-- A file that only speaks of a class in a comment adds the class of an earlier file once more, and
takes a URL back for it. -/
theorem not_forgets_class_in_comment :
    let history := [([], classFile "A".toList "a".toList), ([], classFile "B".toList "b".toList)]
    let source := "<?php\n/*\nclass A\n*/\n".toList
    ∃ m step fresh,
      addSources { reflector := .fresh "__construct".toList } "\\".toList history = .ok m ∧
      addSource m "\\".toList [] source = .ok step ∧
      addSource { m with reflector := .fresh "__construct".toList } "\\".toList [] source =
        .ok fresh ∧
      step.routingName = some "a".toList ∧ fresh.routingName = none ∧
      step.builder.model.urlIndex.get? "/same".toList = some "a".toList ∧
      fresh.builder.model.urlIndex.get? "/same".toList = some "b".toList ∧
      ¬ step.SameResult fresh := by
  intro history source
  have run : (addSources { reflector := .fresh "__construct".toList } "\\".toList history >>=
      fun b => (addSource b "\\".toList [] source).map fun step =>
        (step.routingName, step.builder.model.urlIndex.get? "/same".toList)) =
      .ok (some "a".toList, some "a".toList) := by
    decide +kernel
  have freshRun : (addSources { reflector := .fresh "__construct".toList } "\\".toList history >>=
      fun b => (addSource { b with reflector := .fresh "__construct".toList } "\\".toList []
        source).map fun step =>
          (step.routingName, step.builder.model.urlIndex.get? "/same".toList)) =
      .ok (none, some "b".toList) := by
    decide +kernel
  obtain ⟨m, hm⟩ := exists_addSources_scanning "__construct".toList "\\".toList ∅ {} history
  obtain ⟨step, fresh, hstep, hfresh, -⟩ :=
    sameResult_addSource_iff "__construct".toList "\\".toList [] source
      (Keyed.putAll ∅ (namedClasses "__construct".toList "\\".toList history)) m
  have answer := told_eq_of_run run hm hstep
  have freshAnswer := told_eq_of_run freshRun hm hfresh
  obtain ⟨hr, hu⟩ := Prod.mk.inj answer
  obtain ⟨hr', hu'⟩ := Prod.mk.inj freshAnswer
  refine ⟨_, step, fresh, hm, hstep, hfresh, hr, hr', hu, hu', fun same => ?_⟩
  have := same.routingName
  rw [hr, hr'] at this
  cases this

end Builder

end AnnotatedRoutes
