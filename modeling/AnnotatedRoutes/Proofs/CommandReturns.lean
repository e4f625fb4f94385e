import AnnotatedRoutes.Proofs.CatalogLoading
import AnnotatedRoutes.Proofs.JobReturns

namespace AnnotatedRoutes.CommandLine.Invocation

open Run

variable {i : Invocation} {s s' : Session} {t t₁ : FileTree} {logFile modelOut : Option Path}
  {written : List Text} {code : ExitCode}

/-- The first line that a run keeps. -/
def firstLine (i : Invocation) : Text :=
  "[RUN] start ".toList ++ i.stamp ++ " config=".toList ++ i.settingsPath

/-- The log file of a run and the tree in which it does its work: as it was without a log file, and
with the first line in the file that is asked for. -/
inductive StartsLog (i : Invocation) (t : FileTree) : Option Path → FileTree → Prop
  | without (hnone : i.arguments.logFile = none) : i.StartsLog t none t
  | taken {written : Text} {p : Path} {t₁ : FileTree} (hgiven : i.arguments.logFile = some written)
    (hlocated : i.locatedIn t written = .ok p)
    (htaken : t.appendDeep i.around.working p (i.firstLine ++ ['\n']) = (t₁, none)) :
    i.StartsLog t (some p) t₁

/-- What a run is asked for is refused for its input, or can be done: all paths that it is given can
be followed, and the jobs pass. -/
inductive Answers (i : Invocation) (t : FileTree) (modelOut : Option Path) : Prop
  | outMissing {written : List Text} (horigin : i.arguments.origin = .controllers written)
    (hne : written ≠ []) (hmissing : i.arguments.out = none ∧ i.arguments.toStdout = false)
  | controllers {written : List Text} {inputs : List Path} {out : Option Path}
    (horigin : i.arguments.origin = .controllers written) (hne : written ≠ [])
    (hgiven : i.arguments.out.isSome = true ∨ i.arguments.toStdout = true)
    (hout : i.locatedIn? t i.arguments.out = .ok out)
    (hinputs : written.mapM i.expanded = .ok inputs)
    (hjob : Job.Passes ⟨[], inputs, i.outOf out, modelOut⟩ i t)
  | catalog {written : Text} {file : Location}
    (horigin : i.arguments.origin = .catalog (some written))
    (hlocated : i.locatedIn t written = .ok (.ofLocation file))
    (hloads : Catalog.Loads t i.around file)
    (hjobs : ∀ entries, Catalog.load t i.around (.ofLocation file) = .ok (.ok entries) →
      JobsPass i t (entries.map (i.jobOf modelOut)))

/-- The log file takes a first line, and what is asked for is answered in the tree with that. -/
def Passes (i : Invocation) (t : FileTree) : Prop :=
  ∃ logFile t₁ modelOut, i.StartsLog t logFile t₁ ∧
    i.locatedIn? t₁ i.arguments.modelOut = .ok modelOut ∧ i.Answers t₁ modelOut

theorem exists_ofLocation_of_locatedIn {written : Text} {p : Path}
    (h : i.locatedIn t written = .ok p) : ∃ l, p = Path.ofLocation l := by
  obtain ⟨q, -, h⟩ := bind_eq_ok_iff.mp h
  exact ⟨_, FileTree.eq_ofLocation_of_canonical (mapError_eq_ok_iff.mp h)⟩

theorem locatedIn?_eq_some {given : Option Text} {written : Text} {p : Path}
    (hgiven : given = some written) (hlocated : i.locatedIn t written = .ok p) :
    i.locatedIn? t given = .ok (some p) := by
  rw [hgiven, locatedIn?, hlocated]
  rfl

theorem StartsLog.keepsLog (h : i.StartsLog t logFile t₁) : i.KeepsLog logFile t₁ := by
  cases h with
  | without => exact nofun
  | taken _ hlocated htaken =>
    rintro _ ⟨⟩
    exact ⟨exists_ofLocation_of_locatedIn hlocated, FileTree.holdsFile_of_appendDeep htaken⟩

/-- Without a log file in the settings it is the arguments that ask for one. -/
theorem reads_logFile? (hlog : i.settings.document.catalogLog = .ok []) (clean : Bool) :
    i.logFile.Reads clean fun t => i.locatedIn? t i.arguments.logFile := by
  cases hgiven : i.arguments.logFile with
  | none => exact reads_logFile hlog hgiven
  | some w =>
    unfold logFile
    rw [hgiven]
    exact Reads.bind (i.reads_located clean w) fun p => reads_pure (some p)

/-- What a run does once it has located the file for its records. -/
def work (i : Invocation) (logFile modelOut : Option Path) : Run ExitCode :=
  match i.arguments.origin with
  | .controllers [] => throw (.pathMissing .notGiven)
  | .controllers inputs => i.runInputs (i.log logFile) (i.logError logFile) modelOut inputs
  | .catalog none => throw (.pathMissing .withoutValue)
  | .catalog (some written) => i.runCatalog (i.log logFile) (i.logError logFile) modelOut written

/-- What a run does once it has begun its log file. -/
def afterStart (i : Invocation) (logFile : Option Path) : Run ExitCode := do
  let modelOut ← i.located? i.arguments.modelOut
  i.work logFile modelOut

theorem run_eq (i : Invocation) :
    i.run = (do
      let logFile ← i.logFile
      i.keep logFile i.firstLine
      i.afterStart logFile) := rfl

theorem startsLog_of_run (hlog : i.settings.document.catalogLog = .ok [])
    (h : i.run.run.run s = (.ok code, s')) :
    ∃ logFile s₁, i.StartsLog s.tree logFile s₁.tree ∧
      (i.afterStart logFile).run.run s₁ = (.ok code, s') := by
  rw [run_eq] at h
  obtain ⟨logFile, s₁, hlogFile, hs₁, h⟩ := (reads_logFile? hlog true).of_bind_eq_ok h
  obtain ⟨_, s₂, hkeep, h⟩ := Run.of_bind_eq_ok h
  refine ⟨logFile, s₂, ?_, h⟩
  cases hgiven : i.arguments.logFile with
  | none =>
    rw [hgiven] at hlogFile
    obtain rfl := Except.ok.inj hlogFile
    obtain rfl : s₁ = s₂ := congrArg Prod.snd hkeep
    exact hs₁.tree ▸ .without hgiven
  | some w =>
    rw [hgiven] at hlogFile
    obtain ⟨p, hlocated, rfl⟩ := exists_of_locatedIn? hlogFile
    rw [run_keep_some, ← hs₁.tree] at hkeep
    obtain ⟨hresult, rfl⟩ := Prod.mk.inj hkeep
    refine .taken hgiven hlocated (Prod.ext rfl ?_)
    split at hresult
    next hnone => exact hnone
    next => cases hresult

theorem run_of_startsLog (hlog : i.settings.document.catalogLog = .ok [])
    (h : i.StartsLog s.tree logFile t₁) :
    ∃ s₁ : Session, s₁.tree = t₁ ∧
      i.run.run.run s = (i.afterStart logFile).run.run s₁ := by
  rw [run_eq]
  cases h with
  | without hnone =>
    obtain ⟨s₁, hrun, hs₁⟩ := (reads_logFile hlog hnone : i.logFile.Reads true _).run_ok rfl
    exact ⟨s₁, hs₁.tree.symm, run_bind_ok hrun _⟩
  | @taken written p _ hgiven hlocated htaken =>
    obtain ⟨s₁, hrun, hs₁⟩ :=
      (reads_logFile? hlog true).run_ok (locatedIn?_eq_some hgiven hlocated)
    have hkeep := i.run_keep_some p i.firstLine s₁
    rw [← hs₁.tree, htaken] at hkeep
    exact ⟨{ s₁ with tree := t₁ }, rfl, by rw [run_bind_ok hrun, run_bind_ok hkeep]⟩

/-- A log file that takes no line is not passed over. -/
theorem run_of_refused_log (hlog : i.settings.document.catalogLog = .ok []) {written : Text}
    {p : Path} {e : FileError} (hgiven : i.arguments.logFile = some written)
    (hlocated : i.locatedIn s.tree written = .ok p)
    (hrefused : s.tree.appendDeep i.around.working p (i.firstLine ++ ['\n']) = (t₁, some e)) :
    ∃ s', i.run.run.run s = (.error (.path (.file e)), s') := by
  obtain ⟨s₁, hrun, hs₁⟩ := (reads_logFile? hlog true).run_ok (locatedIn?_eq_some hgiven hlocated)
  have hkeep := i.run_keep_some p i.firstLine s₁
  rw [← hs₁.tree, hrefused] at hkeep
  rw [run_eq, run_bind_ok hrun]
  exact ⟨_, run_bind_error hkeep _⟩

section Shipped

variable (hsettings : i.settings = .shipped)

include hsettings

theorem answers_of_runInputs (hkeeps : i.KeepsLog logFile s.tree)
    (horigin : i.arguments.origin = .controllers written) (hne : written ≠ [])
    (h : (i.runInputs (i.log logFile) (i.logError logFile) modelOut written).run.run s =
      (.ok code, s')) : i.Answers s.tree modelOut := by
  unfold runInputs at h
  split at h
  next hmissing => exact .outMissing horigin hne (by simpa using hmissing)
  next hgiven =>
    have hgiven : i.arguments.out.isSome = true ∨ i.arguments.toStdout = true := by
      cases h : i.arguments.out <;> simp_all
    obtain ⟨out, s₁, hout, hs₁, h⟩ := (i.reads_located? true _).of_bind_eq_ok h
    obtain ⟨inputs, s₂, hinputs, hs₂, h⟩ := (i.reads_expanded true written).of_bind_eq_ok h
    obtain ⟨b, s₃, hrun, -⟩ := Run.of_bind_eq_ok h
    refine .controllers horigin hne hgiven hout hinputs (Classical.byContradiction fun hfails => ?_)
    rw [(hs₁.trans hs₂).tree] at hfails hkeeps
    exact (Job.fails_run hsettings hfails fun u hu => steady_log (hkeeps.grows hu)).ne_ok hrun

theorem runInputs_of_passes (hkeeps : i.KeepsLog logFile s.tree) {inputs : List Path}
    {out : Option Path} (hgiven : i.arguments.out.isSome = true ∨ i.arguments.toStdout = true)
    (hout : i.locatedIn? s.tree i.arguments.out = .ok out)
    (hinputs : written.mapM i.expanded = .ok inputs)
    (hjob : Job.Passes ⟨[], inputs, i.outOf out, modelOut⟩ i s.tree) :
    ∃ code s', (i.runInputs (i.log logFile) (i.logError logFile) modelOut written).run.run s =
      (.ok code, s') := by
  have hneeded : ¬ (i.arguments.out.isNone && !i.arguments.toStdout) = true := by
    cases h : i.arguments.out <;> simp_all
  obtain ⟨s₁, hrun₁, hs₁⟩ := (i.reads_located? true _).run_ok hout
  obtain ⟨s₂, hrun₂, hs₂⟩ := (i.reads_expanded true written).run_ok (s := s₁) hinputs
  rw [(hs₁.trans hs₂).tree] at hjob hkeeps
  obtain ⟨b, s₃, hrun₃, -⟩ :=
    Job.takes_run hsettings hjob (fun u hu => steady_log (hkeeps.grows hu)) s₂ (.refl _)
  refine ⟨if b then .success else .writeFailed, s₃, ?_⟩
  rw [runInputs, if_neg hneeded, run_bind_ok hrun₁, run_bind_ok hrun₂, run_bind_ok hrun₃]
  rfl

theorem answers_of_runCatalog (hkeeps : i.KeepsLog logFile s.tree) {written : Text}
    (horigin : i.arguments.origin = .catalog (some written))
    (h : (i.runCatalog (i.log logFile) (i.logError logFile) modelOut written).run.run s =
      (.ok code, s')) : i.Answers s.tree modelOut := by
  have htree : Run.tree.Reads true .ok := reads_tree
  obtain ⟨p, s₁, hp, hs₁, h⟩ := (i.reads_located true _).of_bind_eq_ok h
  obtain ⟨t, s₂, ht, hs₂, h⟩ := htree.of_bind_eq_ok h
  have hlift : (Run.lift Failure.ofLoad (Catalog.load t i.around p)).Reads true
      fun _ => (Catalog.load t i.around p).mapError Failure.ofLoad := reads_lift _ _
  obtain ⟨loaded, s₃, hload, hs₃, h⟩ := hlift.of_bind_eq_ok h
  obtain rfl : s₁.tree = t := Except.ok.inj ht
  obtain ⟨file, rfl⟩ := exists_ofLocation_of_locatedIn hp
  have hload := mapError_eq_ok_iff.mp hload
  rw [← hs₁.tree] at hload
  refine .catalog horigin hp (Catalog.exists_load_iff.mp ⟨loaded, hload⟩) fun entries hentries => ?_
  obtain rfl := Except.ok.inj (hload.symm.trans hentries)
  obtain ⟨results, s₄, hrun, -⟩ := Run.of_bind_eq_ok h
  rw [(hs₁.trans (hs₂.trans hs₃)).tree] at hkeeps ⊢
  refine Classical.byContradiction fun hfails => ?_
  exact (fails_jobs hsettings hfails fun u hu => steady_log (hkeeps.grows hu)).ne_ok hrun

theorem runCatalog_of_passes (hkeeps : i.KeepsLog logFile s.tree) {written : Text}
    {file : Location} (hlocated : i.locatedIn s.tree written = .ok (.ofLocation file))
    (hloads : Catalog.Loads s.tree i.around file)
    (hjobs : ∀ entries, Catalog.load s.tree i.around (.ofLocation file) = .ok (.ok entries) →
      JobsPass i s.tree (entries.map (i.jobOf modelOut))) :
    ∃ code s', (i.runCatalog (i.log logFile) (i.logError logFile) modelOut written).run.run s =
      (.ok code, s') := by
  obtain ⟨loaded, hload⟩ := Catalog.exists_load_iff.mpr hloads
  obtain ⟨s₁, hrun₁, hs₁⟩ := (i.reads_located true _).run_ok hlocated
  have htree : Run.tree.run.run s₁ = (.ok s₁.tree, s₁) := rfl
  rw [hs₁.tree] at hjobs hkeeps hload
  have hloaded : (Run.lift Failure.ofLoad
      (Catalog.load s₁.tree i.around (.ofLocation file))).run.run s₁ = (.ok loaded, s₁) := by
    rw [hload]
    rfl
  rw [runCatalog, run_bind_ok hrun₁, run_bind_ok htree, run_bind_ok hloaded]
  cases loaded with
  | error refusal =>
    obtain ⟨_, s₂, hrun₂, -⟩ :=
      Takes.forM (steady_logError hkeeps) refusal.lines s₁ (.refl _)
    exact ⟨.badInput, s₂, run_bind_ok hrun₂ _⟩
  | ok entries =>
    obtain ⟨u, hu, htakes⟩ :=
      takes_jobs hsettings (hjobs entries hload) fun u hu => steady_log (hkeeps.grows hu)
    obtain ⟨results, s₂, hrun₂, hs₂, -⟩ := htakes s₁ (.refl _)
    dsimp only
    rw [run_bind_ok hrun₂]
    split
    · exact ⟨.success, s₂, rfl⟩
    · obtain ⟨_, s₃, hrun₃, -⟩ := steady_logError (hkeeps.grows hu) _ s₂ hs₂
      exact ⟨.writeFailed, s₃, run_bind_ok hrun₃ _⟩

theorem answers_of_work (hkeeps : i.KeepsLog logFile s.tree)
    (h : (i.work logFile modelOut).run.run s = (.ok code, s')) : i.Answers s.tree modelOut := by
  unfold work at h
  split at h
  next => cases congrArg Prod.fst h
  next written hne horigin => exact answers_of_runInputs hsettings hkeeps horigin hne h
  next => cases congrArg Prod.fst h
  next written horigin => exact answers_of_runCatalog hsettings hkeeps horigin h

theorem work_of_answers (hkeeps : i.KeepsLog logFile s.tree) (h : i.Answers s.tree modelOut) :
    ∃ code s', (i.work logFile modelOut).run.run s = (.ok code, s') := by
  unfold work
  cases h with
  | @outMissing written horigin hne hmissing =>
    obtain ⟨w, ws, rfl⟩ := List.exists_cons_of_ne_nil hne
    obtain ⟨_, s', hrun, -⟩ := steady_logError hkeeps
      "[ERROR] --out is required unless --stdout is given".toList s (.refl _)
    have hneeded : (i.arguments.out.isNone && !i.arguments.toStdout) = true := by simp [hmissing]
    refine ⟨.badInput, s', ?_⟩
    rw [horigin]
    dsimp only
    rw [runInputs, if_pos hneeded]
    exact run_bind_ok hrun _
  | @controllers written inputs out horigin hne hgiven hout hinputs hjob =>
    obtain ⟨w, ws, rfl⟩ := List.exists_cons_of_ne_nil hne
    rw [horigin]
    exact runInputs_of_passes hsettings hkeeps hgiven hout hinputs hjob
  | catalog horigin hlocated hloads hjobs =>
    rw [horigin]
    exact runCatalog_of_passes hsettings hkeeps hlocated hloads hjobs

/-- A run with the shipped settings ends with one of the exit codes, and not with a failure, exactly
if its log file takes a first line and what it is asked for is answered in the tree with that: the
paths that it is given can be followed, the catalog can be loaded, and the jobs pass. Then no log
line, no file that is read and no write that the tree refuses ends the run. -/
theorem run_returns_iff :
    (∃ code s', i.run.run.run s = (.ok code, s') ∧
      (code.number = 0 ∨ code.number = 1 ∨ code.number = 2)) ↔ i.Passes s.tree := by
  have hlog : i.settings.document.catalogLog = .ok [] := by rw [hsettings]; rfl
  constructor
  · rintro ⟨code, s', h, -⟩
    obtain ⟨logFile, s₁, hstarts, h⟩ := startsLog_of_run hlog h
    obtain ⟨modelOut, s₂, hmodelOut, hs₂, h⟩ := (i.reads_located? true _).of_bind_eq_ok h
    have hkeeps := hstarts.keepsLog
    rw [hs₂.tree] at hkeeps
    have hanswers := answers_of_work hsettings hkeeps h
    rw [← hs₂.tree] at hanswers
    exact ⟨logFile, s₁.tree, modelOut, hstarts, hmodelOut, hanswers⟩
  · rintro ⟨logFile, t₁, modelOut, hstarts, hmodelOut, hanswers⟩
    obtain ⟨s₁, rfl, hrun⟩ := run_of_startsLog hlog hstarts
    obtain ⟨s₂, hrun₂, hs₂⟩ := (i.reads_located? true _).run_ok hmodelOut
    have hkeeps := hstarts.keepsLog
    rw [hs₂.tree] at hkeeps hanswers
    obtain ⟨code, s', hwork⟩ := work_of_answers hsettings hkeeps hanswers
    refine ⟨code, s', ?_, ?_⟩
    · rw [hrun, afterStart, run_bind_ok hrun₂, hwork]
    · cases code with
      | success => exact .inl rfl
      | writeFailed => exact .inr (.inl rfl)
      | badInput => exact .inr (.inr rfl)

end Shipped

theorem appendDeep_oneDirectory (text : Text) :
    oneDirectory.appendDeep [] ⟨.absolute, [['l']]⟩ text =
      (oneDirectory.put [['l']] (.file (Text.encode text)), none) := by
  cbv

theorem stat_missing_beside (content : Text.Bytes) :
    FileTree.stat (oneDirectory.put [['l']] (.file content)) [] ⟨.relative, [['x']]⟩ =
      .error .missing := by
  cbv

theorem writeDeep_beside (content : Text.Bytes) :
    (FileTree.writeDeep (oneDirectory.put [['l']] (.file content)) []
      ⟨.absolute, [['d']]⟩ []).2 = some ⟨.isDirectory, ⟨.absolute, [['d']]⟩⟩ := by
  cbv

theorem canonical_beside (content : Text.Bytes) :
    FileTree.canonical (oneDirectory.put [['l']] (.file content))
      { working := [], home := "/home".toList } ⟨.relative, [['d']]⟩ =
        .ok ⟨.absolute, [['d']]⟩ := by
  cbv

/-- An input that leads nowhere and an output that is a directory do not keep a run with a log file
from ending with an exit code. -/
theorem run_returns_into_directory :
    let i := onInput { out := some ['d'], logFile := some ['l'] } ['x']
    i.settings = .shipped ∧ i.Passes oneDirectory ∧
      ∃ code s', i.run.run.run { tree := oneDirectory } = (.ok code, s') ∧
        (code.number = 0 ∨ code.number = 1 ∨ code.number = 2) := by
  intro i
  have hlogFile : i.locatedIn oneDirectory ['l'] = .ok ⟨.absolute, [['l']]⟩ := by cbv
  have hstarts := StartsLog.taken rfl hlogFile (appendDeep_oneDirectory (i.firstLine ++ ['\n']))
  generalize Text.encode (i.firstLine ++ ['\n']) = content at hstarts
  have hout : i.locatedIn? (oneDirectory.put [['l']] (.file content)) (some ['d']) =
      .ok (some ⟨.absolute, [['d']]⟩) :=
    congrArg (fun p => (p.mapError Failure.path).map some) (canonical_beside content)
  have hpasses : i.Passes oneDirectory := by
    refine ⟨_, _, none, hstarts, rfl, .controllers rfl (by decide) (.inl rfl) hout rfl
      ⟨?_, by simp [FileTree.writeAsked], ?_⟩⟩
    · intro input hinput
      obtain rfl := List.mem_singleton.mp hinput
      refine ⟨[], .nothing rfl (fun e he => ?_) ?_⟩
      · cases he.symm.trans (stat_missing_beside content)
      · intro hlong
        cases hlong.symm.trans (stat_missing_beside content)
    · intro e he
      obtain rfl := Option.some.inj (he.symm.trans (writeDeep_beside content))
      decide
  exact ⟨rfl, hpasses, (run_returns_iff rfl).mpr hpasses⟩

/-- A directory in the place of the log file ends a run with a failure. -/
theorem run_fails_with_directory_as_log :
    let i := onInput { toStdout := true, logFile := some ['d'] } ['x']
    i.settings = .shipped ∧ ∃ s', i.run.run.run { tree := oneDirectory } =
      (.error (.path (.file ⟨.isDirectory, ⟨.absolute, [['d']]⟩⟩)), s') := by
  intro i
  have hlocated : i.locatedIn oneDirectory ['d'] = .ok ⟨.absolute, [['d']]⟩ := by cbv
  have hrefused (text : Text) : oneDirectory.appendDeep [] ⟨.absolute, [['d']]⟩ text =
      (oneDirectory, some ⟨.isDirectory, ⟨.absolute, [['d']]⟩⟩) := by cbv
  exact ⟨rfl, run_of_refused_log rfl rfl hlocated (hrefused _)⟩

end AnnotatedRoutes.CommandLine.Invocation
