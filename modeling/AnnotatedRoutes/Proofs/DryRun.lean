import AnnotatedRoutes.Proofs.CommandRuns
import AnnotatedRoutes.Proofs.WrittenFiles

namespace AnnotatedRoutes

open Run

variable {around : Surroundings}

/-- Home directories are given from the root. -/
def Surroundings.Rooted (around : Surroundings) : Prop :=
  ∀ account home, Path.homeOf? around account = some home → Path.rootOf home ≠ .relative

/-- An expanded path is not expanded further. -/
theorem Path.expandHome_of_expandHome_eq_ok (hr : around.Rooted) {p q : Path}
    (h : p.expandHome around = .ok q) : q.expandHome around = .ok q := by
  unfold expandHome at h
  split at h
  next account names hroot hnames =>
    split at h
    next home hhome =>
      obtain rfl := Except.ok.inj h
      have hrooted : ((ofText home).join ⟨.relative, names⟩).root ≠ .relative :=
        hr account home hhome
      unfold expandHome
      split
      next hrelative _ => exact absurd hrelative hrooted
      next => rfl
    next => split at h <;> cases h
  next hother =>
    obtain rfl := Except.ok.inj h
    unfold expandHome
    split
    next account names hroot hnames => exact absurd hnames (hother account names hroot)
    next => rfl

namespace Discovery

variable {ignored : List Text} {suffix : Text} {t : FileTree}

theorem filesOf_expanded (hr : around.Rooted) {p q : Path} (h : p.expandHome around = .ok q) :
    filesOf around ignored suffix t q = filesOf around ignored suffix t p := by
  rw [filesOf, filesOf, h, Path.expandHome_of_expandHome_eq_ok hr h]

theorem mapM_filesOf_expanded (hr : around.Rooted) {given inputs : List Path}
    (h : given.mapM (fun p => (p.expandHome around).mapError Failure.path) = .ok inputs) :
    inputs.mapM (filesOf around ignored suffix t) =
      given.mapM (filesOf around ignored suffix t) := by
  induction given generalizing inputs with
  | nil =>
    obtain rfl := Except.ok.inj h
    rfl
  | cons p given ih =>
    rw [List.mapM_cons] at h
    cases hp : p.expandHome around with
    | error e => rw [hp] at h; cases h
    | ok q =>
      cases hrest : given.mapM fun p => (p.expandHome around).mapError Failure.path with
      | error e => rw [hp, hrest] at h; cases h
      | ok rest =>
        rw [hp, hrest] at h
        obtain rfl := Except.ok.inj h
        rw [List.mapM_cons, List.mapM_cons, filesOf_expanded hr hp, ih hrest]

end Discovery

namespace Generator

variable {g : Generator} {t : FileTree} {inputs : List Path} {text : Text} {s s' : Session}

theorem textOf_expanded (hr : g.around.Rooted) {given : List Path}
    (h : given.mapM (fun p => (p.expandHome g.around).mapError Failure.path) = .ok inputs) :
    g.textOf t inputs = g.textOf t given := by
  rw [textOf, textOf, modelOf, modelOf, Discovery.filesOfAll, Discovery.filesOfAll,
    Discovery.mapM_filesOf_expanded hr h]

/-- A call that returns has written the router file of its inputs, if the tree allowed it. -/
theorem writeDeep_of_generate (hq : g.log.Quiet false) (htext : g.textOf s.tree inputs = .ok text)
    {elapsed : Text} {out : Path} {written : Bool}
    (h : (g.generate elapsed inputs out).run.run s = (.ok written, s')) :
    ∃ refusal, s.tree.writeDeep g.around.working out text = (s'.tree, refusal) ∧
      written = refusal.isNone := by
  obtain ⟨text', s₁, htext', hs₁, h⟩ := (reads_render hq inputs).of_bind_eq_ok h
  obtain rfl : text = text' := Except.ok.inj (htext.symm.trans htext')
  obtain ⟨b, s₂, hb, hs₂, h⟩ :=
    (changes_writeLogged hq g.around.working out text).of_bind_eq_ok h
  have hlogged : (do
      if b then g.log ("[OK] wrote ".toList ++ out.toText ++ " in ".toList ++ elapsed ++ "s".toList)
      return b : Run Bool).Reads false fun _ => .ok b := by
    cases b with
    | false => exact reads_pure false
    | true => exact Reads.after (hq _) (reads_pure true)
  obtain ⟨hwritten, hs₃⟩ := hlogged.of_eq_ok h
  obtain rfl := Except.ok.inj hwritten
  rw [← hs₁.tree] at hb hs₂
  refine ⟨_, Prod.ext (hs₂.trans hs₃).tree rfl, (of_resultOf_eq_ok hb).1⟩

end Generator

namespace CommandLine

variable {i : Invocation} {s s' : Session} {code : ExitCode} {written : List Text}

namespace Invocation

/-- The same command with other options. -/
def withOptions (i : Invocation) (o : Options) : Invocation :=
  { i with arguments := { o with origin := i.arguments.origin } }

/-- A run for controllers that returns has attempted its one job, unless it was told neither to
write nor to print. -/
theorem attempted_of_run (hlog : i.settings.document.catalogLog = .ok [])
    (hnone : i.arguments.logFile = none) (horigin : i.arguments.origin = .controllers written)
    (hgiven : i.arguments.out.isSome = true ∨ i.arguments.toStdout = true)
    (h : i.run.run.run s = (.ok code, s')) :
    ∃ inputs out modelOut a, written.mapM i.expanded = .ok inputs ∧
      i.locatedIn? s.tree i.arguments.out = .ok out ∧
      i.locatedIn? s.tree i.arguments.modelOut = .ok modelOut ∧
      i.Asks s.tree [⟨[], inputs, i.outOf out, modelOut⟩] ∧
      Job.Attempted ⟨[], inputs, i.outOf out, modelOut⟩ i s.tree a s'.tree ∧
      code = exitCodeOf [a] ∧
      (i.arguments.toStdout = true → s'.output = s.output ++ a.text) := by
  cases returned_run hlog hnone h with
  | badInput hbad =>
    obtain ⟨hout, hstdout⟩ | ⟨_, hcatalog⟩ := hbad
    · simp [hout, hstdout] at hgiven
    · rw [horigin] at hcatalog
      cases hcatalog
  | attempted hasks has hprinted =>
    cases hasks with
    | catalog hcatalog =>
      rw [horigin] at hcatalog
      cases hcatalog
    | controllers hcontrollers hne hout hgiven hmodelOut hinputs =>
      rw [horigin] at hcontrollers
      obtain rfl := Origin.controllers.inj hcontrollers
      cases has with
      | cons first rest =>
        cases rest with
        | nil =>
          rw [List.flatMap_singleton] at hprinted
          exact ⟨_, _, _, _, hinputs, hout, hmodelOut,
            .controllers horigin hne hout hgiven hmodelOut hinputs, first, rfl, hprinted⟩

theorem Asks.withVerbose {t : FileTree} {jobs : List Job} (h : i.Asks t jobs) (verbose : Bool) :
    (i.withOptions { i.arguments.toOptions with verbose }).Asks t jobs := by
  cases h with
  | controllers horigin hne hout hgiven hmodelOut hinputs =>
    exact .controllers horigin hne hout hgiven hmodelOut hinputs
  | catalog horigin hlocated hvalid hmodelOut =>
    exact .catalog horigin hlocated hvalid hmodelOut

end Invocation

/-- What comes of a job does not depend on the options. -/
theorem Job.attempted_withOptions_iff {job : Job} {t t' : FileTree} {a : Attempt} {o : Options} :
    job.Attempted (i.withOptions o) t a t' ↔ job.Attempted i t a t' :=
  ⟨fun h => ⟨h.made, h.written, h.wellFormed⟩, fun h => ⟨h.made, h.written, h.wellFormed⟩⟩

namespace Invocation

/-- Runs from this tree that write a router file instead of printing it, whatever else they are
asked for, make it of these inputs and write this text, if the tree allows it. -/
def WritesRouter (i : Invocation) (t : FileTree) (inputs : List Path) (text : Text) : Prop :=
  ∀ (o : Options) (out : Text) (s s' : Session) (code : ExitCode),
    o.out = some out → o.toStdout = false → o.logFile = none → s.tree = t →
    (i.withOptions o).run.run.run s = (.ok code, s') →
    ∃ p modelOut a, i.locatedIn t out = .ok p ∧ i.locatedIn? t o.modelOut = .ok modelOut ∧
      Job.Attempted ⟨[], inputs, some p, modelOut⟩ i t a s'.tree ∧ a.text = text ∧
      code = exitCodeOf [a] ∧
      (a.routerRefusal = none → s'.tree.read i.around.working p = .ok (Text.encode text))

/-- Generators that are called with these inputs in this tree, whatever log they keep, write this
text, if the tree allows it. -/
def GeneratorsWrite (i : Invocation) (t : FileTree) (inputs : List Path) (text : Text) : Prop :=
  ∀ (verbose : Bool) (log : Log) (elapsed : Text) (out : Path) (s s' : Session) (written : Bool),
    log.Quiet false → s.tree = t →
    ((Generator.ofSettings i.around i.settings verbose log).generate elapsed inputs out).run.run s =
      (.ok written, s') →
    ∃ refusal, t.writeDeep i.around.working out text = (s'.tree, refusal) ∧
      written = refusal.isNone ∧
      (written = true → s'.tree.read i.around.working out = .ok (Text.encode text))

variable {t : FileTree} {inputs : List Path} {text : Text}

theorem writesRouter (hlog : i.settings.document.catalogLog = .ok [])
    (horigin : i.arguments.origin = .controllers written)
    (hinputs : written.mapM i.expanded = .ok inputs)
    (htext : i.generator.textOf t inputs = .ok text) : i.WritesRouter t inputs text := by
  rintro o out s s' code hout hstdout hnone rfl h
  have hgiven : o.out.isSome = true ∨ o.toStdout = true := .inl (by rw [hout]; rfl)
  obtain ⟨inputs', out', modelOut, a, hinputs', hout', hmodelOut, -, ha, hcode, -⟩ :=
    attempted_of_run (i := i.withOptions o) hlog hnone horigin hgiven h
  obtain rfl : inputs = inputs' := Except.ok.inj (hinputs.symm.trans hinputs')
  rw [Job.attempted_withOptions_iff] at ha
  obtain rfl : a.text = text := Except.ok.inj (ha.made.symm.trans htext)
  obtain ⟨p, hp, rfl⟩ := exists_of_locatedIn? (hout ▸ hout')
  have hasked : (i.withOptions o).outOf (some p) = some p := if_neg (by simp [withOptions, hstdout])
  rw [hasked] at ha
  refine ⟨p, modelOut, a, hp, hmodelOut, ha, rfl, hcode, fun hnone => ?_⟩
  obtain ⟨m, records, t₁, -, -, -, hrouter⟩ := ha.written
  rw [hnone] at hrouter
  exact FileTree.read_of_writeDeep hrouter

theorem generatorsWrite (htext : i.generator.textOf t inputs = .ok text) :
    i.GeneratorsWrite t inputs text := by
  rintro verbose log elapsed out s s' written hq rfl h
  let g := Generator.ofSettings i.around i.settings verbose log
  have htext : g.textOf s.tree inputs = .ok text := htext
  obtain ⟨refusal, hwrite, rfl⟩ := Generator.writeDeep_of_generate (g := g) hq htext h
  refine ⟨refusal, hwrite, rfl, fun hwritten => ?_⟩
  rw [Option.isNone_iff_eq_none] at hwritten
  exact FileTree.read_of_writeDeep (hwritten ▸ hwrite)

/-- A run that prints its router files prints nothing else. For controllers this is one text, which
a run that writes it and a generator that is called directly write as well, and details in the log
make no difference. For a catalog it is one text after another. -/
theorem prints_what_is_written (hsettings : i.settings = .shipped)
    (hnone : i.arguments.logFile = none) (hstdout : i.arguments.toStdout = true)
    (h : i.run.run.run s = (.ok code, s')) :
    (∀ written, i.arguments.origin = .controllers written → ∃ inputs text,
      written.mapM i.expanded = .ok inputs ∧ i.generator.textOf s.tree inputs = .ok text ∧
        s'.output = s.output ++ text ∧ i.WritesRouter s.tree inputs text ∧
        i.GeneratorsWrite s.tree inputs text ∧
        (i.around.Rooted → i.GeneratorsWrite s.tree (written.map Path.ofText) text) ∧
        ∀ verbose, ∃ s'',
          (i.withOptions { i.arguments.toOptions with verbose }).run.run.run s = (.ok code, s'') ∧
            s''.output = s'.output ∧ s''.tree = s'.tree) ∧
      (∀ path, i.arguments.origin = .catalog path →
        code = .badInput ∧ s'.output = s.output ∨
          ∃ jobs as, i.Asks s.tree jobs ∧ Attempts i jobs s.tree as s'.tree ∧
            s'.output = s.output ++ as.flatMap (·.text)) := by
  have hlog : i.settings.document.catalogLog = .ok [] := by rw [hsettings]; rfl
  refine ⟨fun written horigin => ?_, fun path hcatalog => ?_⟩
  · obtain ⟨inputs, out, modelOut, a, hinputs, -, -, hasks, ha, rfl, hprinted⟩ :=
      attempted_of_run hlog hnone horigin (.inr hstdout) h
    refine ⟨inputs, a.text, hinputs, ha.made, hprinted hstdout,
      writesRouter hlog horigin hinputs ha.made, generatorsWrite ha.made, fun hr => ?_,
      fun verbose => ?_⟩
    · have hgiven : (written.map Path.ofText).mapM
          (fun p => (p.expandHome i.around).mapError Failure.path) = .ok inputs := by
        rw [List.mapM_map]
        exact hinputs
      refine generatorsWrite ?_
      rw [← Generator.textOf_expanded (g := i.generator) hr hgiven]
      exact ha.made
    · obtain ⟨s'', hrun, ht, ho⟩ := run_of_attempts (s := s)
        (i := i.withOptions { i.arguments.toOptions with verbose }) hlog hnone
        (hasks.withVerbose verbose) (.cons (Job.attempted_withOptions_iff.mpr ha) (.nil _))
      refine ⟨s'', hrun, ?_, ht⟩
      rw [ho hstdout, hprinted hstdout, List.flatMap_singleton]
  · cases returned_run hlog hnone h with
    | badInput _ hs => exact .inl ⟨rfl, (hs.output hstdout).symm⟩
    | attempted hasks has hprinted => exact .inr ⟨_, _, hasks, has, hprinted hstdout⟩

theorem rooted_onInput (o : Options) (w : Text) : (onInput o w).around.Rooted := by
  intro account home h
  unfold Path.homeOf? at h
  split at h
  next =>
    obtain rfl := Option.some.inj h
    exact show Path.rootOf "/home".toList ≠ .relative by decide
  next => cases h

/-- The router file is printed although a directory is in the place of the records. -/
theorem prints_with_directory_as_modelOut :
    let i := onInput { modelOut := some ['d'], toStdout := true } ['x']
    let text := ShippedRouter.text (ShippedRouter.routerLines {})
    ∃ s', i.settings = .shipped ∧ i.arguments.logFile = none ∧ i.arguments.toStdout = true ∧
      i.run.run.run { tree := oneDirectory } = (.ok .writeFailed, s') ∧ s'.output = text ∧
      i.WritesRouter oneDirectory [⟨.relative, [['x']]⟩] text ∧
      i.GeneratorsWrite oneDirectory [Path.ofText ['x']] text := by
  intro i text
  have hasks : i.Asks oneDirectory
      [⟨[], [⟨.relative, [['x']]⟩], none, some ⟨.absolute, [['d']]⟩⟩] :=
    .controllers rfl (by decide) rfl (.inr rfl) (by cbv) (by cbv)
  have hattempted : Job.Attempted
      ⟨[], [⟨.relative, [['x']]⟩], none, some ⟨.absolute, [['d']]⟩⟩ i
      oneDirectory ⟨text, some ⟨.isDirectory, ⟨.absolute, [['d']]⟩⟩, none⟩ oneDirectory :=
    ⟨textOf_missing _, ⟨{}, [], oneDirectory, modelOf_missing _, records_empty,
      writeDeep_oneDirectory _, rfl⟩, by simp⟩
  obtain ⟨s', hrun, -⟩ := run_of_attempts (s := { tree := oneDirectory }) rfl rfl hasks
    (.cons hattempted (.nil _))
  obtain ⟨inputs, text', hinputs, htext, hprinted, hwrites, -, hcalls, -⟩ :=
    (prints_what_is_written rfl rfl rfl hrun).1 _ rfl
  have hmissing : [['x']].mapM i.expanded = .ok [⟨.relative, [['x']]⟩] := by cbv
  obtain rfl := Except.ok.inj (hinputs.symm.trans hmissing)
  obtain rfl : text = text' := Except.ok.inj ((textOf_missing _).symm.trans htext)
  exact ⟨s', rfl, rfl, rfl, hrun, hprinted, hwrites, hcalls (rooted_onInput _ _)⟩

end Invocation

end CommandLine

end AnnotatedRoutes
