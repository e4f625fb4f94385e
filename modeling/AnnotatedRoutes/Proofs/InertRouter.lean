import AnnotatedRoutes.Proofs.BuilderCalls
import AnnotatedRoutes.Proofs.RouterLines
import AnnotatedRoutes.Proofs.ScannedComments

namespace AnnotatedRoutes

open Docblock (Unclosed unclosed_of_not_mem unclosed_append_left unclosed_between unclosed_among)

theorem Directive.kept_unclosed : Directive.Kept Unclosed where
  empty := Docblock.unclosed_nil
  part _ _ ht hu := hu.part ht
  call _ hl := unclosed_append_left (by decide) hl

theorem HandlerMethod.WellClosed.unclosed_reading {d : HandlerMethod} (h : d.WellClosed) :
    (∀ url ∈ d.reading.urls, Unclosed url) ∧ d.reading.action.Has Unclosed := by
  have lines : ∀ l ∈ Docblock.lines d.comment, Unclosed l :=
    fun l hl => Docblock.unclosed_of_mem_lines h.comment hl
  exact ⟨Directive.kept_unclosed.urls lines, Directive.kept_unclosed.action lines⟩

theorem HandlerClass.WellClosed.unclosed_routingName {c : HandlerClass} (h : c.WellClosed) :
    Unclosed c.routingName :=
  Directive.kept_unclosed.routingName fun _ hl => Docblock.unclosed_of_mem_lines h.comment hl

namespace RoutingModel

theorem unclosed_of_mem_visits {classes : List HandlerClass} (h : ∀ c ∈ classes, c.WellClosed)
    {v : Visit} (hv : v ∈ (addClasses {} classes).visits) : v.Has Unclosed := by
  have declared := declaredIn_of_mem_visits hv
  constructor
  case url =>
    obtain ⟨c, hc, d, hd, hu⟩ := declared.url
    exact ((h c hc).methods d hd).unclosed_reading.1 v.url hu
  case routingName =>
    obtain ⟨c, hc, hn⟩ := declared.routingName
    exact hn ▸ (h c hc).unclosed_routingName
  case className =>
    obtain ⟨c, hc, hn⟩ := declared.className
    exact hn ▸ (h c hc).qualifiedName
  case actions =>
    intro entry he
    obtain ⟨c, hc, d, hd, hn, ha⟩ := declared.actions entry he
    have hd := (h c hc).methods d hd
    exact ⟨hn ▸ hd.name, ha ▸ hd.unclosed_reading.2⟩

end RoutingModel

namespace ShippedRouter

open RouterTemplates

theorem unclosed_text {lines : List Text} (h : ∀ l ∈ lines, Unclosed l) :
    Unclosed (text lines) := by
  induction lines with
  | nil => exact Docblock.unclosed_nil
  | cons l lines ih =>
    obtain ⟨hl, hs⟩ := List.forall_mem_cons.mp h
    rw [text, List.flatMap_cons, List.append_assoc]
    exact hl.append_between (by decide) (by decide) (ih hs)

theorem unclosed_lines {t : Text} (h : Unclosed t) : ∀ l ∈ Text.lines t, Unclosed l :=
  fun l hl => h.part (Text.infix_of_mem_lines t l hl)

theorem fills_unclosed : Fills Unclosed where
  empty := Docblock.unclosed_nil
  header := unclosed_lines (unclosed_of_not_mem (by decide))
  controllerRule := unclosed_of_not_mem (by decide)
  actionRule := unclosed_of_not_mem (by decide)
  controllerTitle hu hn := unclosed_among (by decide) hn (by decide) (by decide) hu (by decide)
  definition hn hc :=
    unclosed_lines (unclosed_among (by decide) hn (by decide) (by decide) hc (by decide))
  identifier hn hname := hn.append_between (u := [':']) (by decide) (by decide) hname
  actionTitle hi := unclosed_append_left (by decide) hi
  routeHead hu hi := unclosed_among (by decide) hu (by decide) (by decide) hi (by decide)
  methodCall hh hm := hh.append_between (by decide) (by decide) (hm.append_right (by decide))
  bindCall hn := unclosed_between (by decide) hn (by decide)
  chained hc := unclosed_append_left (by decide) hc
  ended hl := hl.append_right (by decide)
  resource hi := unclosed_between (by decide) hi (by decide)
  allowOpening hi := unclosed_lines (unclosed_between (by decide) hi (by decide))
  allowRule hr := unclosed_between (by decide) hr (by decide)
  allowClosing := unclosed_lines (unclosed_of_not_mem (by decide))

end ShippedRouter

namespace RoutingModel

theorem mem_keys_addClass {m : RoutingModel} {c : HandlerClass} {n : Text} :
    n ∈ (m.addClass c).model.controllers.keys ↔
      n ∈ m.controllers.keys ∨ (c.routingName = n ∧ n ≠ []) := by
  rw [Keyed.mem_keys_iff, Keyed.mem_keys_iff, get?_controllers_addClass]
  split
  next h => simp [h]
  next h => simp [h]

theorem keys_addClass {m : RoutingModel} {c : HandlerClass}
    (h : c.routingName ≠ [] → c.routingName ∈ m.controllers.keys) :
    (m.addClass c).model.controllers.keys = m.controllers.keys := by
  by_cases hc : c.routingName = []
  · rw [addClass_of_rejected m hc]
  · rw [addClass_of_accepted m hc]
    exact (Keyed.map_fst_putEntry ..).trans (if_pos (h hc))

end RoutingModel

namespace Reflector

variable {constructorName name source : Text} {indexed : Keyed Text HandlerClass}

/-- Showing a source changes at most what is known under its own name. -/
theorem exists_index_scanning (constructorName name source : Text)
    (indexed : Keyed Text HandlerClass) :
    ∃ indexed', ((scanning constructorName indexed).index name source).1 =
        .scanning constructorName indexed' ∧
      ∀ other, other ≠ name → indexed'.get? other = indexed.get? other := by
  unfold Reflector.index
  dsimp only
  split
  next => exact ⟨indexed, rfl, fun _ _ => rfl⟩
  next c hc =>
    refine ⟨indexed.put name c, rfl, fun other hne => ?_⟩
    rw [Keyed.get?_put, if_neg hne]

/-- A source in which no comment ends documents no class; another source may have. -/
theorem classComment_index_of_unclosed (h : Unclosed source) {comment : Text}
    (hc : ((scanning constructorName indexed).index name source).1.classComment name =
      some comment) :
    comment = [] ∨ ∃ c, indexed.get? name = some c ∧ c.comment = comment := by
  unfold Reflector.index at hc
  dsimp only at hc
  split at hc
  next =>
    have hc := Option.some.inj hc
    cases hk : indexed.get? name with
    | none => exact Or.inl (by rw [← hc, hk]; rfl)
    | some c => exact Or.inr ⟨c, rfl, by rw [← hc, hk]; rfl⟩
  next c hs =>
    left
    obtain ⟨d, -, rfl⟩ := Option.map_eq_some_iff.mp hs
    have hc := Option.some.inj hc
    rw [Keyed.get?_put_self] at hc
    rw [← hc]
    exact Source.precedingDocblock_of_unclosed h d.start _

end Reflector

namespace Builder

variable {b : Builder} {separator label source : Text} {step : Step}

/-- A builder that scans sources, and has added to its model every class that it has found. -/
def UpToDate (b : Builder) : Prop :=
  ∃ constructorName indexed, b.reflector = .scanning constructorName indexed ∧
    ∀ name c, indexed.get? name = some c → c.routingName ≠ [] →
      c.routingName ∈ b.model.controllers.keys

theorem upToDate_fresh (constructorName : Text) :
    UpToDate { reflector := .fresh constructorName } :=
  ⟨constructorName, ∅, rfl, fun _ _ hc => nomatch hc⟩

theorem UpToDate.addSource (h : b.UpToDate) (hs : b.addSource separator label source = .ok step) :
    step.builder.UpToDate := by
  obtain ⟨constructorName, indexed, hr, hadded⟩ := h
  rcases of_addSource hs with ⟨-, rfl⟩ | ⟨name, comment, methods, -, hc, -, rfl⟩
  · exact ⟨constructorName, indexed, hr, hadded⟩
  · rw [hr] at hc
    obtain ⟨indexed', hi, hother⟩ :=
      Reflector.exists_index_scanning constructorName name source indexed
    rw [hi] at hc
    refine ⟨constructorName, indexed', by rw [← hi, ← hr]; rfl, fun other c hk hne => ?_⟩
    refine RoutingModel.mem_keys_addClass.mpr ?_
    -- the class of this source is added now, and all others were added before
    by_cases ho : other = name
    · subst ho
      have hcomment : c.comment = comment := by
        have hc := Option.some.inj hc
        rw [hk] at hc
        exact hc
      subst hcomment
      exact Or.inr ⟨rfl, hne⟩
    · exact Or.inl (hadded other c (hother other ho ▸ hk) hne)

theorem UpToDate.addSources (h : b.UpToDate) {sources : List (Text × Text)} {b' : Builder}
    (hs : b.addSources separator sources = .ok b') : b'.UpToDate := by
  induction sources generalizing b with
  | nil => exact Except.ok.inj hs ▸ h
  | cons source sources ih =>
    rw [Builder.addSources, List.foldlM_cons] at hs
    cases hstep : b.addSource separator source.1 source.2 with
    | error e => rw [hstep] at hs; cases hs
    | ok step =>
      rw [hstep] at hs
      exact ih (h.addSource hstep) hs

theorem UpToDate.keys_of_unclosed (h : b.UpToDate) (hu : Unclosed source)
    (hs : b.addSource separator label source = .ok step) :
    step.builder.model.controllers.keys = b.model.controllers.keys := by
  obtain ⟨constructorName, indexed, hr, hadded⟩ := h
  rcases of_addSource hs with ⟨-, rfl⟩ | ⟨name, comment, methods, -, hc, -, rfl⟩
  · rfl
  · refine RoutingModel.keys_addClass fun hne => ?_
    rw [hr] at hc
    rcases Reflector.classComment_index_of_unclosed hu hc with rfl | ⟨c, hk, rfl⟩
    · exact absurd rfl hne
    · exact hadded name c hk hne

theorem exists_addSource_fresh (constructorName separator label source : Text) :
    ∃ step,
      addSource { reflector := .fresh constructorName } separator label source = .ok step := by
  unfold Builder.addSource
  split
  next => exact ⟨_, rfl⟩
  next name hq =>
    obtain ⟨indexed, hi, -⟩ := Reflector.exists_index_scanning constructorName name source ∅
    have hi : ((Reflector.fresh constructorName).index name source).1 =
      .scanning constructorName indexed := hi
    rw [hi]
    exact ⟨_, rfl⟩

/-- To a builder that has seen nothing it adds nothing at all. -/
theorem addSource_fresh_of_unclosed (hu : Unclosed source) {constructorName : Text}
    (hs : addSource { reflector := .fresh constructorName } separator label source = .ok step) :
    step.routingName = none ∧ step.builder.model = {} := by
  rcases of_addSource hs with ⟨-, rfl⟩ | ⟨name, comment, methods, -, hc, -, rfl⟩
  · exact ⟨rfl, rfl⟩
  · rcases Reflector.classComment_index_of_unclosed hu hc with rfl | ⟨c, hk, -⟩
    · exact ⟨rfl, rfl⟩
    · cases hk

theorem unclosed_render {classes : List HandlerClass} (h : ∀ c ∈ classes, c.WellClosed) :
    ∃ file, RouterTemplates.shipped.render (RoutingModel.addClasses {} classes) = .ok file ∧
      Unclosed file := by
  refine ⟨_, ShippedRouter.render_eq (RoutingModel.resolved_addClasses classes),
    ShippedRouter.unclosed_text (ShippedRouter.fills_unclosed.routerLines fun v hv => ?_)⟩
  exact RoutingModel.unclosed_of_mem_visits h hv

/-- Whatever sources a router file is generated from, no comment ends in it. A scan that begins with
it finds no controller, and a scan that comes to it later finds no further one. -/
theorem inert_render (constructorName : Text) (sources : List (Text × Text)) :
    let separator := Settings.shipped.source.namespaceSeparator
    ∃ b file, addSources { reflector := .fresh constructorName } separator sources = .ok b ∧
      Settings.shipped.templates.render b.model = .ok file ∧ ¬ Docblock.closing <:+: file ∧
      (∀ constructorName' separator' label, ∃ step,
        addSource { reflector := .fresh constructorName' } separator' label file = .ok step ∧
          step.routingName = none ∧ step.builder.model = {}) ∧
      ∀ constructorName' before label, ∃ b' step,
        addSources { reflector := .fresh constructorName' } separator before = .ok b' ∧
          b'.addSource separator label file = .ok step ∧
          step.builder.model.controllers.keys = b'.model.controllers.keys := by
  intro separator
  have hs : '*' ∉ separator := by decide
  have wellClosed : ∀ name, (Builder.mk (.fresh name) {}).reflector.WellClosed :=
    Reflector.wellClosed_fresh
  obtain ⟨b, classes, hb, -, hclasses, hmodel⟩ :=
    exists_addSources hs (wellClosed constructorName) sources
  obtain ⟨file, hfile, hu⟩ := unclosed_render hclasses
  refine ⟨b, file, hb, hmodel ▸ hfile, hu, fun constructorName' separator' label => ?_,
    fun constructorName' before label => ?_⟩
  · obtain ⟨step, hstep⟩ := exists_addSource_fresh constructorName' separator' label file
    exact ⟨step, hstep, addSource_fresh_of_unclosed hu hstep⟩
  · obtain ⟨b', _, hb', hr', -⟩ := exists_addSources hs (wellClosed constructorName') before
    obtain ⟨step, _, hstep, -⟩ := exists_addSource hs hr' label file
    have upToDate := (upToDate_fresh constructorName').addSources hb'
    exact ⟨b', step, hb', hstep, upToDate.keys_of_unclosed hu hstep⟩

end Builder

end AnnotatedRoutes
