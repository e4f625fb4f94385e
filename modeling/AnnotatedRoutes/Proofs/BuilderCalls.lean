import AnnotatedRoutes.Generation
import AnnotatedRoutes.Proofs.ModelIntegrity
import AnnotatedRoutes.Proofs.RunEffects
import AnnotatedRoutes.Proofs.ShippedRouter

namespace AnnotatedRoutes

/-- A reflector of any kind, by what it does with what it keeps. It may fail. -/
structure Reflection (ρ : Type) where
  index : ρ → Text → Text → Option ρ
  classComment : ρ → Text → Option (ρ × Text)
  publicMethods : ρ → Text → Option (ρ × List HandlerMethod)

def Reflector.reflection : Reflection Reflector where
  index r name source := some (r.index name source).1
  classComment r name := (r.classComment name).map fun comment => (r, comment)
  publicMethods r name := (r.publicMethods name).map fun methods => (r, methods)

/-- What the addition of a class leaves of a model. It may break off between any two writes. -/
inductive RoutingModel.Adds (m : RoutingModel) (c : HandlerClass) : RoutingModel → Prop
  | whole : Adds m c (m.addClass c).model
  | brokenOff (k : Nat) : Adds m c (m.writeAll (c.writes.take k))

variable {ρ : Type} (R : Reflection ρ) (separator : Text)

/-- What the addition of a source leaves of a reflector and a model. -/
inductive AddsSource (source : Text) : ρ → RoutingModel → ρ → RoutingModel → Prop
  | noClass {r m} (h : Source.qualifiedName separator source = none) : AddsSource source r m r m
  | unanswered {r m name} (h : Source.qualifiedName separator source = some name) (r' : ρ) :
    AddsSource source r m r' m
  | answered {r m name r₁ r₂ comment r₃ methods m'}
    (h : Source.qualifiedName separator source = some name) (hi : R.index r name source = some r₁)
    (hc : R.classComment r₁ name = some (r₂, comment))
    (hm : R.publicMethods r₂ name = some (r₃, methods)) (ha : m.Adds ⟨name, comment, methods⟩ m') :
    AddsSource source r m r₃ m'

/-- What the addition of files leaves, given what is read from each of them. It may end at any
file. -/
inductive AddsFiles : List (Option Text) → ρ → RoutingModel → ρ → RoutingModel → Prop
  | ended (contents) (r m) : AddsFiles contents r m r m
  | skipped {contents r m r' m'} (h : AddsFiles contents r m r' m') :
    AddsFiles (none :: contents) r m r' m'
  | added {source contents r m r₁ m₁ r' m'} (hs : AddsSource R separator source r m r₁ m₁)
    (h : AddsFiles contents r₁ m₁ r' m') : AddsFiles (some source :: contents) r m r' m'

/-- What a builder's calls can come to, whether they return or fail. -/
inductive Reached : ρ → RoutingModel → Prop
  | fresh (r) : Reached r {}
  | addClass {r m m'} (h : Reached r m) (c : HandlerClass) (ha : m.Adds c m') : Reached r m'
  | addSource {r m r' m'} (h : Reached r m) (source : Text)
    (hs : AddsSource R separator source r m r' m') : Reached r' m'
  | addFiles {r m r' m'} (h : Reached r m) (contents : List (Option Text))
    (hf : AddsFiles R separator contents r m r' m') : Reached r' m'

variable {R separator}

namespace Builder

/-- A source without a class is passed over; otherwise the class is added as it is answered. -/
theorem of_addSource {b : Builder} {label source : Text} {step : Step}
    (h : b.addSource separator label source = .ok step) :
    (Source.qualifiedName separator source = none ∧ step = ⟨b, none, [.noClass label]⟩) ∨
      ∃ name comment methods, Source.qualifiedName separator source = some name ∧
        (b.reflector.index name source).1.classComment name = some comment ∧
        (b.reflector.index name source).1.publicMethods name = some methods ∧
        step = addClass { b with reflector := (b.reflector.index name source).1 }
          ⟨name, comment, methods⟩ := by
  unfold addSource at h
  split at h
  next hn => exact Or.inl ⟨hn, (Except.ok.inj h).symm⟩
  next name hn =>
    dsimp only at h
    split at h
    next comment methods hc hm =>
      exact Or.inr ⟨name, comment, methods, hn, hc, hm, (Except.ok.inj h).symm⟩
    next => cases h

theorem addsSource_addSource {b : Builder} {label source : Text} {step : Step}
    (h : b.addSource separator label source = .ok step) :
    AddsSource Reflector.reflection separator source b.reflector b.model step.builder.reflector
      step.builder.model := by
  rcases of_addSource h with ⟨hn, rfl⟩ | ⟨name, comment, methods, hn, hc, hm, rfl⟩
  · exact .noClass hn
  · have hc : Reflector.reflection.classComment (b.reflector.index name source).1 name =
        some ((b.reflector.index name source).1, comment) := by
      simp [Reflector.reflection, hc]
    have hm : Reflector.reflection.publicMethods (b.reflector.index name source).1 name =
        some ((b.reflector.index name source).1, methods) := by
      simp [Reflector.reflection, hm]
    exact .answered hn rfl hc hm .whole

end Builder

namespace Generator

theorem of_addFile {g : Generator} {b b' : Builder} {p : Path} {name : Option Text}
    {s s' : Session} (h : (g.addFile b p).run.run s = (.ok (b', name), s')) :
    b' = b ∨ ∃ source step,
      b.addSource g.settings.source.namespaceSeparator p.toText source = .ok step ∧
        b' = step.builder := by
  unfold addFile at h
  obtain ⟨t, s₁, -, h⟩ := Run.of_bind_eq_ok h
  split at h
  next e he =>
    dsimp only at h
    split at h
    next =>
      obtain ⟨_, s₂, hthrow, -⟩ := Run.of_bind_eq_ok h
      cases congrArg Prod.fst hthrow
    next =>
      obtain ⟨_, s₂, -, h⟩ := Run.of_bind_eq_ok h
      exact Or.inl (congrArg Prod.fst (Run.of_pure_eq_ok h)).symm
  next source hsource =>
    obtain ⟨step, s₂, hstep, h⟩ := Run.of_bind_eq_ok h
    obtain ⟨_, s₃, -, h⟩ := Run.of_bind_eq_ok h
    exact Or.inr ⟨source, step, Run.of_lift_eq_ok hstep,
      (congrArg Prod.fst (Run.of_pure_eq_ok h)).symm⟩

/-- Adding the files of a tree is adding what is read from them. -/
theorem addsFiles_addFiles {g : Generator} {b b' : Builder} {paths : List Path}
    {names : List Text} {s s' : Session}
    (h : (g.addFiles b paths).run.run s = (.ok (b', names), s')) :
    ∃ contents, AddsFiles Reflector.reflection g.settings.source.namespaceSeparator contents
      b.reflector b.model b'.reflector b'.model := by
  induction paths generalizing b names s s' with
  | nil =>
    cases congrArg Prod.fst (Run.of_pure_eq_ok h)
    exact ⟨[], .ended [] _ _⟩
  | cons p paths ih =>
    obtain ⟨⟨b₁, name⟩, s₁, hfile, h⟩ := Run.of_bind_eq_ok h
    obtain ⟨⟨b₂, names₂⟩, s₂, hfiles, h⟩ := Run.of_bind_eq_ok h
    cases congrArg Prod.fst (Run.of_pure_eq_ok h)
    obtain ⟨contents, hrest⟩ := ih hfiles
    rcases of_addFile hfile with rfl | ⟨source, step, hstep, rfl⟩
    · exact ⟨none :: contents, .skipped hrest⟩
    · exact ⟨some source :: contents, .added (Builder.addsSource_addSource hstep) hrest⟩

/-- A generator's model is one that its builder has reached. -/
theorem reached_buildModel {g : Generator} {inputs : List Path} {m : RoutingModel}
    {s s' : Session} (h : (g.buildModel inputs).run.run s = (.ok m, s')) :
    ∃ reflector, Reached Reflector.reflection g.settings.source.namespaceSeparator reflector m := by
  obtain ⟨files, s₁, -, h⟩ := Run.of_bind_eq_ok h
  obtain ⟨⟨b, names⟩, s₂, hfiles, h⟩ := Run.of_bind_eq_ok h
  obtain ⟨_, s₃, -, h⟩ := Run.of_bind_eq_ok h
  cases Run.of_pure_eq_ok h
  obtain ⟨contents, hf⟩ := addsFiles_addFiles hfiles
  exact ⟨b.reflector, (Reached.fresh g.reflector).addFiles contents hf⟩

end Generator

namespace RoutingModel

variable {m m' : RoutingModel} {r r' : ρ}

theorem Intact.adds {c : HandlerClass} (h : m.Intact) (ha : m.Adds c m') : m'.Intact := by
  cases ha with
  | whole =>
    have hw := h.writeAll_take (m.admitsAll_writes c) c.writes.length
    rwa [List.take_length, writeAll_writes] at hw
  | brokenOff k => exact h.writeAll_take (m.admitsAll_writes c) k

theorem Intact.addsSource {source : Text} (h : m.Intact)
    (hs : AddsSource R separator source r m r' m') : m'.Intact := by
  cases hs with
  | noClass => exact h
  | unanswered => exact h
  | answered _ _ _ _ ha => exact h.adds ha

theorem Intact.addsFiles {contents : List (Option Text)} (h : m.Intact)
    (hf : AddsFiles R separator contents r m r' m') : m'.Intact := by
  induction hf with
  | ended => exact h
  | skipped _ ih => exact ih h
  | added hs _ ih => exact ih (h.addsSource hs)

theorem Intact.of_reached (h : Reached R separator r m) : m.Intact := by
  induction h with
  | fresh => exact intact_empty
  | addClass _ c ha ih => exact ih.adds ha
  | addSource _ source hs ih => exact ih.addsSource hs
  | addFiles _ contents hf ih => exact ih.addsFiles hf

/-- Whatever a builder was told and wherever its calls failed, its model refers to nothing that is
not there, and the router file, the records and every listing can be written. -/
theorem intact_of_reached (h : Reached R separator r m) :
    m.Intact ∧ (∃ file, RouterTemplates.shipped.render m = .ok file) ∧
      ∃ records, m.records = .ok records ∧
        ∀ limit, m.listing limit = .ok (Text.join ['\n'] (Record.listing records limit)) := by
  have intact := Intact.of_reached h
  have records := records_eq intact.resolved
  refine ⟨intact, ⟨_, ShippedRouter.render_eq intact.resolved⟩, _, records, fun limit => ?_⟩
  rw [RoutingModel.listing, records]
  rfl

/-- A reflector that counts what it is asked; the addition of its class breaks off when the first
of two URLs is claimed. -/
theorem intact_of_broken_off :
    let c : HandlerClass := ⟨"C".toList, "name=c".toList,
      [⟨"x".toList, "@route(\nurl=/u\n)\n@route(\nurl=/v\n)".toList⟩]⟩
    let R : Reflection Nat := ⟨fun r _ _ => some (r + 1), fun r _ => some (r + 1, c.comment),
      fun r _ => some (r + 1, c.methods)⟩
    let m := writeAll {} (c.writes.take 2)
    Reached R ['\\'] 3 m ∧ m.urlIndex.keys = ["/u".toList] ∧ m.Intact ∧
      ∃ file, RouterTemplates.shipped.render m = .ok file := by
  intro c R m
  have hname : Source.qualifiedName ['\\'] "class C".toList = some "C".toList := by
    decide +kernel
  have hr : Reached R ['\\'] 3 m :=
    (Reached.fresh 0).addSource "class C".toList (.answered hname rfl rfl rfl (.brokenOff 2))
  obtain ⟨intact, file, -⟩ := intact_of_reached hr
  exact ⟨hr, by decide +kernel, intact, file⟩

end RoutingModel

end AnnotatedRoutes
