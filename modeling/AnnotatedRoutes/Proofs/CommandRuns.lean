import AnnotatedRoutes.Proofs.JobAttempts
import AnnotatedRoutes.Proofs.ShippedRouter
import AnnotatedRoutes.Settings.Shipped
import Mathlib.Data.List.Permutation

namespace AnnotatedRoutes.CommandLine

open Run

/-- The exit code that tells of some attempts. -/
def exitCodeOf (as : List Attempt) : ExitCode :=
  if as.all (!·.failed) then .success else .writeFailed

theorem exitCodeOf_singleton (a : Attempt) :
    exitCodeOf [a] = if !a.failed then .success else .writeFailed := by
  simp [exitCodeOf]

theorem exitCodeOf_eq_ite_count (as : List Attempt) :
    exitCodeOf as =
      if (as.map (!·.failed)).count false = 0 then .success else .writeFailed := by
  have h : (as.map (!·.failed)).count false = 0 ↔ as.all (!·.failed) = true := by
    rw [List.count_eq_zero, List.all_eq_true]
    simp
  simp only [h, exitCodeOf]

theorem number_exitCodeOf_eq_zero (as : List Attempt) :
    (exitCodeOf as).number = 0 ↔ ∀ a ∈ as, a.failed = false := by
  unfold exitCodeOf
  split <;> simp_all [ExitCode.number]

theorem number_exitCodeOf_eq_one (as : List Attempt) :
    (exitCodeOf as).number = 1 ↔ ∃ a ∈ as, a.failed = true := by
  unfold exitCodeOf
  split <;> simp_all [ExitCode.number]

theorem number_exitCodeOf_ne_two (as : List Attempt) : (exitCodeOf as).number ≠ 2 := by
  unfold exitCodeOf
  split <;> decide

namespace Invocation

variable {i : Invocation}

/-- The path that a text stands for, with the home directory in place of a tilde. -/
def expanded (i : Invocation) (written : Text) : Except Failure Path :=
  ((Path.ofText written).expandHome i.around).mapError .path

/-- The canonical path that a text stands for in a tree. -/
def locatedIn (i : Invocation) (t : FileTree) (written : Text) : Except Failure Path := do
  let p ← i.expanded written
  (t.canonical i.around p).mapError .path

def locatedIn? (i : Invocation) (t : FileTree) : Option Text → Except Failure (Option Path)
  | none => .ok none
  | some written => (i.locatedIn t written).map some

theorem exists_of_locatedIn? {t : FileTree} {w : Text} {out : Option Path}
    (h : i.locatedIn? t (some w) = .ok out) : ∃ p, i.locatedIn t w = .ok p ∧ out = some p := by
  rw [locatedIn?] at h
  cases hp : i.locatedIn t w with
  | error e => rw [hp] at h; cases h
  | ok p =>
    rw [hp] at h
    exact ⟨p, rfl, (Except.ok.inj h).symm⟩

/-- The jobs that an invocation asks for in a tree: one for the controllers that are given, or those
of the catalog, if it is valid. -/
inductive Asks (i : Invocation) (t : FileTree) : List Job → Prop
  | controllers {written : List Text} {inputs : List Path} {out modelOut : Option Path}
    (horigin : i.arguments.origin = .controllers written) (hne : written ≠ [])
    (hout : i.locatedIn? t i.arguments.out = .ok out)
    (hgiven : i.arguments.out.isSome = true ∨ i.arguments.toStdout = true)
    (hmodelOut : i.locatedIn? t i.arguments.modelOut = .ok modelOut)
    (hinputs : written.mapM i.expanded = .ok inputs) :
    i.Asks t [⟨[], inputs, i.outOf out, modelOut⟩]
  | catalog {written : Text} {p : Path} {entries : List RouterJob} {modelOut : Option Path}
    (horigin : i.arguments.origin = .catalog (some written))
    (hlocated : i.locatedIn t written = .ok p)
    (hvalid : Catalog.load t i.around p = .ok (.ok entries))
    (hmodelOut : i.locatedIn? t i.arguments.modelOut = .ok modelOut) :
    i.Asks t (entries.map (i.jobOf modelOut))

theorem quiet_logError (i : Invocation) (clean : Bool) : (i.logError none).Quiet clean :=
  fun _ => Reads.after (fun _ => ⟨_, rfl, rfl, fun _ => rfl⟩) (reads_pure ())

theorem quiet_log (i : Invocation) : (i.log none).Quiet i.arguments.toStdout := by
  intro line
  unfold log
  split
  · exact Reads.after (fun _ => ⟨_, rfl, rfl, fun _ => rfl⟩) (reads_pure ())
  next h =>
    simp only [isForErrors, Bool.or_eq_true, not_or, Bool.not_eq_true] at h
    rw [h.1]
    exact Reads.after (fun _ => ⟨_, rfl, rfl, nofun⟩) (reads_pure ())

theorem outOf_of_toStdout (i : Invocation) (h : i.arguments.toStdout = true) (out : Option Path) :
    i.outOf out = none :=
  if_pos h

theorem reads_located (i : Invocation) (clean : Bool) (written : Text) :
    (i.located written).Reads clean fun t => i.locatedIn t written :=
  Reads.bind (reads_lift _ _) fun _ => Reads.withTree fun _ => reads_lift _ _

theorem reads_located? (i : Invocation) (clean : Bool) (written : Option Text) :
    (i.located? written).Reads clean fun t => i.locatedIn? t written := by
  cases written with
  | none => exact reads_pure none
  | some written => exact Reads.bind (i.reads_located clean written) fun p => reads_pure (some p)

theorem reads_expanded (i : Invocation) (clean : Bool) (written : List Text) :
    (written.mapM fun w => liftPath ((Path.ofText w).expandHome i.around)).Reads clean
      fun _ => written.mapM i.expanded :=
  Reads.mapM (fun _ => reads_lift .path _) written

/-- What a run that returns has done: nothing, or all jobs that are asked for. -/
inductive Returned (i : Invocation) (s : Session) : ExitCode → Session → Prop
  | badInput {s' : Session}
    (hbad : i.arguments.out = none ∧ i.arguments.toStdout = false ∨
      ∃ written, i.arguments.origin = .catalog written)
    (hs : s.Matches i.arguments.toStdout s') : Returned i s .badInput s'
  | attempted {jobs : List Job} {as : List Attempt} {s' : Session} (hasks : i.Asks s.tree jobs)
    (has : Attempts i jobs s.tree as s'.tree)
    (hprinted : i.arguments.toStdout = true → s'.output = s.output ++ as.flatMap (·.text)) :
    Returned i s (exitCodeOf as) s'

variable {s₀ s s' : Session} {modelOut : Option Path} {code : ExitCode}

theorem returned_runInputs (hs : s₀.Matches i.arguments.toStdout s) {written : List Text}
    (horigin : i.arguments.origin = .controllers written) (hne : written ≠ [])
    (hmodelOut : i.locatedIn? s₀.tree i.arguments.modelOut = .ok modelOut)
    (h : (i.runInputs (i.log none) (i.logError none) modelOut written).run.run s = (.ok code, s')) :
    i.Returned s₀ code s' := by
  unfold runInputs at h
  split at h
  next hmissing =>
    obtain ⟨_, s₁, -, hs₁, h⟩ := (i.quiet_logError i.arguments.toStdout _).of_bind_eq_ok h
    obtain ⟨rfl, rfl⟩ := of_pure_eq h
    exact .badInput (.inl (by simpa using hmissing)) (hs.trans hs₁)
  next hgiven =>
    have hgiven : i.arguments.out.isSome = true ∨ i.arguments.toStdout = true := by
      cases h : i.arguments.out <;> simp_all
    obtain ⟨out, s₁, hout, hs₁, h⟩ := (i.reads_located? i.arguments.toStdout _).of_bind_eq_ok h
    obtain ⟨inputs, s₂, hinputs, hs₂, h⟩ :=
      (i.reads_expanded i.arguments.toStdout written).of_bind_eq_ok h
    obtain ⟨b, s₃, hrun, h⟩ := Run.of_bind_eq_ok h
    obtain ⟨rfl, rfl⟩ := of_pure_eq h
    obtain ⟨a, ha, rfl, hprinted⟩ := Job.attempted_of_run i.quiet_log hrun
    rw [← hs.tree] at hout
    have hs := hs.trans (hs₁.trans hs₂)
    rw [← hs.tree] at ha
    have hasks := Asks.controllers horigin hne hout hgiven hmodelOut hinputs
    rw [← exitCodeOf_singleton]
    refine .attempted hasks (.cons ha (.nil _)) fun hc => ?_
    rw [hprinted hc, hs.output hc, Job.printed, if_pos (i.outOf_of_toStdout hc out),
      List.flatMap_singleton]

theorem returned_runCatalog (hs : s₀.Matches i.arguments.toStdout s) {written : Text}
    (horigin : i.arguments.origin = .catalog (some written))
    (hmodelOut : i.locatedIn? s₀.tree i.arguments.modelOut = .ok modelOut)
    (h : (i.runCatalog (i.log none) (i.logError none) modelOut written).run.run s =
      (.ok code, s')) : i.Returned s₀ code s' := by
  have htree : Run.tree.Reads i.arguments.toStdout .ok := reads_tree
  obtain ⟨p, s₁, hp, hs₁, h⟩ := (i.reads_located i.arguments.toStdout _).of_bind_eq_ok h
  obtain ⟨t, s₂, ht, hs₂, h⟩ := htree.of_bind_eq_ok h
  have hlift : (Run.lift Failure.ofLoad (Catalog.load t i.around p)).Reads i.arguments.toStdout
      fun _ => (Catalog.load t i.around p).mapError Failure.ofLoad := reads_lift _ _
  obtain ⟨loaded, s₃, hload, hs₃, h⟩ := hlift.of_bind_eq_ok h
  obtain rfl : s₁.tree = t := Except.ok.inj ht
  rw [← hs.tree] at hp
  rw [← hs₁.tree, ← hs.tree] at hload
  have hs := hs.trans (hs₁.trans (hs₂.trans hs₃))
  cases loaded with
  | error refusal =>
    obtain ⟨_, s₄, -, hs₄, h⟩ :=
      (Reads.forM (i.quiet_logError i.arguments.toStdout) refusal.lines).of_bind_eq_ok h
    obtain ⟨rfl, rfl⟩ := of_pure_eq h
    exact .badInput (.inr ⟨_, horigin⟩) (hs.trans hs₄)
  | ok entries =>
    have hvalid : Catalog.load s₀.tree i.around p = .ok (.ok entries) := by
      cases hl : Catalog.load s₀.tree i.around p with
      | error e => rw [hl] at hload; cases hload
      | ok r =>
        rw [hl] at hload
        exact congrArg Except.ok (Except.ok.inj hload)
    obtain ⟨results, s₄, hrun, h⟩ := Run.of_bind_eq_ok h
    obtain ⟨as, has, rfl, hprinted⟩ := attempts_of_mapM i.quiet_log hrun
    rw [← hs.tree] at has
    have hasks := Asks.catalog horigin hp hvalid hmodelOut
    have hprinted : i.arguments.toStdout = true → s₄.output = s₀.output ++ as.flatMap (·.text) :=
      fun hc => by rw [hprinted hc fun entry => i.outOf_of_toStdout hc _, hs.output hc]
    have hreturned : ∀ {s'}, s₄.Matches i.arguments.toStdout s' →
        i.Returned s₀ (exitCodeOf as) s' := fun hs => .attempted hasks (hs.tree ▸ has) fun hc =>
      (hs.output hc).symm.trans (hprinted hc)
    rw [exitCodeOf_eq_ite_count] at hreturned
    dsimp only at h
    split at h
    next hzero =>
      obtain ⟨rfl, rfl⟩ := of_pure_eq h
      rw [if_pos hzero] at hreturned
      exact hreturned (.refl _ _)
    next hsome =>
      obtain ⟨_, s₅, -, hs₅, h⟩ := (i.quiet_logError i.arguments.toStdout _).of_bind_eq_ok h
      obtain ⟨rfl, rfl⟩ := of_pure_eq h
      rw [if_neg hsome] at hreturned
      exact hreturned hs₅

/-- No log file is kept if the settings give none and none is asked for. -/
theorem reads_logFile (hlog : i.settings.document.catalogLog = .ok [])
    (hnone : i.arguments.logFile = none) : i.logFile.Reads clean fun _ => .ok none := by
  unfold logFile
  rw [hnone, hlog]
  refine Reads.after (reads_pure []) ?_
  split
  · exact reads_pure none
  · exact reads_pure none

theorem returned_run (hlog : i.settings.document.catalogLog = .ok [])
    (hnone : i.arguments.logFile = none) (h : i.run.run.run s = (.ok code, s')) :
    i.Returned s code s' := by
  have hlogFile : i.logFile.Reads i.arguments.toStdout fun _ => .ok none :=
    reads_logFile hlog hnone
  obtain ⟨logFile, s₁, hl, hs₁, h⟩ := hlogFile.of_bind_eq_ok h
  obtain rfl := Except.ok.inj hl
  obtain ⟨_, s₂, hkeep, h⟩ := Run.of_bind_eq_ok h
  obtain rfl : s₁ = s₂ := congrArg Prod.snd hkeep
  obtain ⟨modelOut, s₃, hm, hs₃, h⟩ := (i.reads_located? i.arguments.toStdout _).of_bind_eq_ok h
  have hs := hs₁.trans hs₃
  rw [← hs₁.tree] at hm
  dsimp only at h
  split at h
  next => cases congrArg Prod.fst h
  next written hne horigin =>
    exact returned_runInputs hs horigin hne hm h
  next => cases congrArg Prod.fst h
  next written horigin => exact returned_runCatalog hs horigin hm h

theorem runInputs_of_attempted {written : List Text} {inputs : List Path}
    {out modelOut : Option Path} {a : Attempt} {t' : FileTree}
    (hout : i.locatedIn? s.tree i.arguments.out = .ok out)
    (hgiven : i.arguments.out.isSome = true ∨ i.arguments.toStdout = true)
    (hinputs : written.mapM i.expanded = .ok inputs)
    (ha : Job.Attempted ⟨[], inputs, i.outOf out, modelOut⟩ i s.tree a t') :
    ∃ s', (i.runInputs (i.log none) (i.logError none) modelOut written).run.run s =
      (.ok (exitCodeOf [a]), s') ∧ s'.tree = t' ∧
        (i.arguments.toStdout = true → s'.output = s.output ++ a.text) := by
  have hneeded : ¬ (i.arguments.out.isNone && !i.arguments.toStdout) = true := by
    cases h : i.arguments.out <;> simp_all
  obtain ⟨s₁, hrun₁, hs₁⟩ := (i.reads_located? i.arguments.toStdout _).run_ok hout
  obtain ⟨s₂, hrun₂, hs₂⟩ :=
    (i.reads_expanded i.arguments.toStdout written).run_ok (s := s₁) hinputs
  rw [(hs₁.trans hs₂).tree] at ha
  obtain ⟨s₃, hrun₃, ht, ho⟩ := Job.run_of_attempted i.quiet_log ha
  refine ⟨s₃, ?_, ht, fun hc => ?_⟩
  · rw [runInputs, if_neg hneeded, run_bind_ok hrun₁, run_bind_ok hrun₂, run_bind_ok hrun₃,
      exitCodeOf_singleton]
    rfl
  · rw [ho hc, ← (hs₁.trans hs₂).output hc, Job.printed, if_pos (i.outOf_of_toStdout hc out)]

theorem runCatalog_of_attempts {written : Text} {p : Path} {entries : List RouterJob}
    {modelOut : Option Path} {as : List Attempt} {t' : FileTree}
    (hlocated : i.locatedIn s.tree written = .ok p)
    (hvalid : Catalog.load s.tree i.around p = .ok (.ok entries))
    (has : Attempts i (entries.map (i.jobOf modelOut)) s.tree as t') :
    ∃ s', (i.runCatalog (i.log none) (i.logError none) modelOut written).run.run s =
      (.ok (exitCodeOf as), s') ∧ s'.tree = t' ∧
        (i.arguments.toStdout = true → s'.output = s.output ++ as.flatMap (·.text)) := by
  obtain ⟨s₁, hrun₁, hs₁⟩ := (i.reads_located i.arguments.toStdout _).run_ok hlocated
  rw [hs₁.tree] at has hvalid
  obtain ⟨s₂, hrun₂, ht, ho⟩ := mapM_of_attempts i.quiet_log has
  have ho : i.arguments.toStdout = true → s₂.output = s.output ++ as.flatMap (·.text) :=
    fun hc => by rw [ho hc fun entry => i.outOf_of_toStdout hc _, hs₁.output hc]
  have hload : (Run.lift Failure.ofLoad (Catalog.load s₁.tree i.around p)).run.run s₁ =
      (.ok (.ok entries), s₁) := by rw [hvalid]; rfl
  have htree : Run.tree.run.run s₁ = (.ok s₁.tree, s₁) := rfl
  rw [runCatalog, run_bind_ok hrun₁, run_bind_ok htree, run_bind_ok hload]
  dsimp only
  rw [run_bind_ok hrun₂, exitCodeOf_eq_ite_count]
  split
  next => exact ⟨s₂, rfl, ht, ho⟩
  next hsome =>
    obtain ⟨s₃, hrun₃, hs₃⟩ := (i.quiet_logError i.arguments.toStdout _).run_ok (s := s₂) rfl
    exact ⟨s₃, run_bind_ok hrun₃ _, hs₃.tree ▸ ht, fun hc => hs₃.output hc ▸ ho hc⟩

/-- Jobs that are asked for and can be attempted are attempted, and the run returns. -/
theorem run_of_attempts (hlog : i.settings.document.catalogLog = .ok [])
    (hnone : i.arguments.logFile = none) {jobs : List Job} {as : List Attempt} {t' : FileTree}
    (hasks : i.Asks s.tree jobs) (has : Attempts i jobs s.tree as t') :
    ∃ s', i.run.run.run s = (.ok (exitCodeOf as), s') ∧ s'.tree = t' ∧
      (i.arguments.toStdout = true → s'.output = s.output ++ as.flatMap (·.text)) := by
  have hlogFile : i.logFile.Reads i.arguments.toStdout fun _ => .ok none :=
    reads_logFile hlog hnone
  obtain ⟨s₁, hrun₁, hs₁⟩ := hlogFile.run_ok (s := s) rfl
  have hkept : (i.keep none ("[RUN] start ".toList ++ i.stamp ++ " config=".toList ++
      i.settingsPath)).run.run s₁ = (.ok (), s₁) := rfl
  rw [run, run_bind_ok hrun₁, run_bind_ok hkept]
  cases hasks with
  | @controllers written inputs out modelOut horigin hne hout hgiven hm hinputs =>
    rw [hs₁.tree] at hm
    obtain ⟨s₂, hrun₂, hs₂⟩ := (i.reads_located? i.arguments.toStdout _).run_ok hm
    rw [run_bind_ok hrun₂]
    rw [(hs₁.trans hs₂).tree] at hout has
    have ho := (hs₁.trans hs₂).output
    cases has with
    | cons first rest =>
      cases rest with
      | nil =>
        simp only [horigin]
        cases written with
        | nil => exact absurd rfl hne
        | cons w ws =>
          obtain ⟨s₃, hrun₃, ht, hprinted⟩ := runInputs_of_attempted hout hgiven hinputs first
          refine ⟨s₃, hrun₃, ht, fun hc => ?_⟩
          rw [hprinted hc, ho hc, List.flatMap_singleton]
  | @catalog written p entries modelOut horigin hlocated hvalid hm =>
    rw [hs₁.tree] at hm
    obtain ⟨s₂, hrun₂, hs₂⟩ := (i.reads_located? i.arguments.toStdout _).run_ok hm
    rw [run_bind_ok hrun₂]
    rw [(hs₁.trans hs₂).tree] at hlocated hvalid has
    simp only [horigin]
    obtain ⟨s₃, hrun₃, ht, hprinted⟩ := runCatalog_of_attempts hlocated hvalid has
    exact ⟨s₃, hrun₃, ht, fun hc => by rw [hprinted hc, ← (hs₁.trans hs₂).output hc]⟩

/-- Whether a run that returns wrote all it was asked to write can be told from its exit code. With
code 2 it changed nothing; otherwise it attempted all jobs that its arguments ask for, in order, and
the code is 1 if the tree refused a write of any of them and 0 if not. -/
theorem exitCode_tells_writes (hsettings : i.settings = .shipped)
    (hnone : i.arguments.logFile = none) (h : i.run.run.run s = (.ok code, s')) :
    (code.number = 2 → s'.tree = s.tree) ∧
      (code.number ≠ 2 → ∃ jobs as, i.Asks s.tree jobs ∧ Attempts i jobs s.tree as s'.tree ∧
        (code.number = 1 ↔ ∃ a ∈ as, a.failed = true) ∧
        (code.number = 0 ↔ ∀ a ∈ as, a.failed = false)) := by
  have hlog : i.settings.document.catalogLog = .ok [] := by rw [hsettings]; rfl
  cases returned_run hlog hnone h with
  | badInput _ hs => exact ⟨fun _ => hs.tree.symm, fun h => absurd rfl h⟩
  | @attempted jobs as _ hasks has _ =>
    refine ⟨fun h => ?_, fun _ => ⟨jobs, as, hasks, has, ?_, ?_⟩⟩
    · exact absurd h (number_exitCodeOf_ne_two as)
    · exact number_exitCodeOf_eq_one as
    · exact number_exitCodeOf_eq_zero as

/-- The command on one input, with the shipped settings. -/
def onInput (o : Options) (written : Text) : Invocation where
  arguments := { o with origin := .controllers [written] }
  around := { working := [], home := "/home".toList }
  settings := .shipped
  stamp := []
  settingsPath := []

def oneDirectory : FileTree := FileTree.put {} [['d']] .directory

theorem stat_missing :
    oneDirectory.stat [] ⟨.relative, [['x']]⟩ = .error .missing := by
  cbv

theorem filesOf_missing (o : Options) (ignored : List Text) (suffix : Text) :
    Discovery.filesOf (onInput o ['x']).generator.around ignored suffix oneDirectory
      ⟨.relative, [['x']]⟩ = .ok [] := by
  have hstat : oneDirectory.stat (onInput o ['x']).generator.around.working
      ⟨.relative, [['x']]⟩ = .error .missing := stat_missing
  have hasked (question : Entry → Bool) :
      oneDirectory.asks (onInput o ['x']).generator.around.working ⟨.relative, [['x']]⟩ question =
        .ok false := by
    rw [FileTree.asks, hstat]
    rfl
  have hexpanded : Path.expandHome (onInput o ['x']).generator.around ⟨.relative, [['x']]⟩ =
      .ok ⟨.relative, [['x']]⟩ := rfl
  simp only [Discovery.filesOf, hexpanded, FileTree.isFile, FileTree.isDirectory, Except.mapError,
    Bind.bind, Except.bind, hasked]
  rfl

/-- An input that leads nowhere makes an empty model. -/
theorem modelOf_missing (o : Options) :
    (onInput o ['x']).generator.modelOf oneDirectory [⟨.relative, [['x']]⟩] = .ok {} := by
  rw [Generator.modelOf, Discovery.filesOfAll, List.mapM_cons, filesOf_missing]
  rfl

theorem textOf_missing (o : Options) :
    (onInput o ['x']).generator.textOf oneDirectory [⟨.relative, [['x']]⟩] =
      .ok (ShippedRouter.text (ShippedRouter.routerLines {})) := by
  rw [Generator.textOf, modelOf_missing]
  exact congrArg (Except.mapError Failure.render)
    (ShippedRouter.render_eq RoutingModel.intact_empty.resolved)

theorem records_empty : RoutingModel.records {} = .ok [] := by
  have hsorted : RoutingModel.sortedIndex {} = [] := List.mergeSort_nil
  rw [RoutingModel.records, RoutingModel.reducedIndex, hsorted]
  rfl

theorem writeDeep_oneDirectory (text : Text) :
    oneDirectory.writeDeep [] ⟨.absolute, [['d']]⟩ text =
      (oneDirectory, some ⟨.isDirectory, ⟨.absolute, [['d']]⟩⟩) := by
  cbv

/-- A directory in the place of the records does not keep the router file from being written, and
the exit code tells of it. -/
theorem exitCode_tells_directory_as_modelOut :
    let i := onInput { out := some ['o'], modelOut := some ['d'] } ['x']
    ∃ s', i.settings = .shipped ∧ i.arguments.logFile = none ∧
      i.run.run.run { tree := oneDirectory } = (.ok .writeFailed, s') ∧
      ∃ jobs as, i.Asks oneDirectory jobs ∧ Attempts i jobs oneDirectory as s'.tree ∧
        ∃ a ∈ as, a.failed = true := by
  intro i
  have hasks : i.Asks oneDirectory
      [⟨[], [⟨.relative, [['x']]⟩], some ⟨.absolute, [['o']]⟩, some ⟨.absolute, [['d']]⟩⟩] :=
    .controllers rfl (by decide) (by cbv) (.inl rfl) (by cbv) (by cbv)
  have hwritten : ∀ text, oneDirectory.writeDeep [] ⟨.absolute, [['o']]⟩ text =
      (oneDirectory.put [['o']] (.file (Text.encode text)), none) := by
    intro text
    cbv
  have hattempted : Job.Attempted
      ⟨[], [⟨.relative, [['x']]⟩], some ⟨.absolute, [['o']]⟩, some ⟨.absolute, [['d']]⟩⟩ i
      oneDirectory ⟨_, some ⟨.isDirectory, ⟨.absolute, [['d']]⟩⟩, none⟩ _ :=
    ⟨textOf_missing _, ⟨{}, [], oneDirectory, modelOf_missing _, records_empty,
      writeDeep_oneDirectory _, hwritten _⟩, by simp⟩
  obtain ⟨s', hrun, -⟩ := run_of_attempts (s := { tree := oneDirectory }) rfl rfl hasks
    (.cons hattempted (.nil _))
  obtain ⟨jobs, as, hasks, has, hfailed, -⟩ := (exitCode_tells_writes rfl rfl hrun).2 (by decide)
  exact ⟨s', rfl, rfl, hrun, jobs, as, hasks, has, hfailed.mp rfl⟩

end Invocation

end AnnotatedRoutes.CommandLine
