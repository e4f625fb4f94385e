import AnnotatedRoutes.Proofs.CommandRuns
import AnnotatedRoutes.Proofs.ModelReturns

namespace AnnotatedRoutes

open Run

namespace CommandLine

variable {i : Invocation} {t u : FileTree} {log : Log} {logFile : Option Path} {job : Job}
  {jobs : List Job} {m : RoutingModel}

theorem takes_printOutput (text : Text) : Takes t (printOutput text) t fun _ => True :=
  takes_modify fun _ => rfl

theorem takes_printError (text : Text) : Takes t (printError text) t fun _ => True :=
  takes_modify fun _ => rfl

/-- The log file, if there is one, has taken a line. -/
def Invocation.KeepsLog (i : Invocation) (logFile : Option Path) (t : FileTree) : Prop :=
  ∀ p ∈ logFile, (∃ l, p = Path.ofLocation l) ∧ t.HoldsFile i.around.working p

namespace Invocation

theorem KeepsLog.grows (h : i.KeepsLog logFile t) (hu : t.Grows u) : i.KeepsLog logFile u :=
  fun p hp => ⟨(h p hp).1, (h p hp).2.grows hu⟩

theorem run_keep_some (i : Invocation) (p : Path) (line : Text) (s : Session) :
    (i.keep (some p) line).run.run s =
      (match (s.tree.appendDeep i.around.working p (line ++ ['\n'])).2 with
        | none => .ok ()
        | some e => .error (.path (.file e)),
      { s with tree := (s.tree.appendDeep i.around.working p (line ++ ['\n'])).1 }) := by
  have htree : Run.tree.run.run s = (.ok s.tree, s) := rfl
  unfold keep
  dsimp only
  rw [run_bind_ok htree]
  exact run_proceed _ s

theorem takes_keep (h : i.KeepsLog logFile t) (line : Text) :
    Takes t (i.keep logFile line) t fun _ => True := by
  cases logFile with
  | none => exact takes_pure trivial
  | some p =>
    intro s hs
    obtain ⟨⟨l, rfl⟩, hfile⟩ := h p rfl
    obtain ⟨u, happend, hu⟩ :=
      (hfile.grows (.of_alike hs.symm)).exists_appendDeep (line ++ ['\n'])
    have hrun := i.run_keep_some (.ofLocation l) line s
    rw [happend] at hrun
    exact ⟨(), { s with tree := u }, hrun, hu.trans hs, trivial⟩

theorem steady_logError (h : i.KeepsLog logFile t) : (i.logError logFile).Steady t :=
  fun line => (takes_printError _).bind fun _ _ => takes_keep h line

theorem steady_log (h : i.KeepsLog logFile t) : (i.log logFile).Steady t := by
  intro line
  unfold log
  split
  · exact (takes_printError _).bind fun _ _ => takes_keep h line
  · exact (takes_printOutput _).bind fun _ _ => takes_keep h line

end Invocation

namespace Job

/-- The tree that a job leaves, up to what is in the files. -/
def leaves (job : Job) (working : Location) (t : FileTree) : FileTree :=
  ((t.writeAsked working job.modelOut []).1.writeAsked working job.out []).1

/-- The inputs of a job stand for files of the tree, or for none, and its outputs are not refused
for a null character. -/
structure Passes (job : Job) (i : Invocation) (t : FileTree) : Prop where
  inputs : ∀ input ∈ job.inputs, ∃ found, Discovery.StandsFor i.around
    i.settings.scan.ignoredDirectories i.settings.scan.fileSuffix t input found
  modelOut : ∀ e ∈ (t.writeAsked i.around.working job.modelOut []).2, e.fault ≠ .nullCharacter
  out : ∀ e ∈ ((t.writeAsked i.around.working job.modelOut []).1.writeAsked i.around.working
    job.out []).2, e.fault ≠ .nullCharacter

theorem grows_leaves (job : Job) (working : Location) (t : FileTree) :
    t.Grows (job.leaves working t) :=
  (FileTree.grows_writeAsked t working job.modelOut []).trans (FileTree.grows_writeAsked _ _ _ _)

theorem takes_logListing (hm : m.Intact) (hlog : log.Steady t) (verbose : Bool) :
    Takes t (if verbose then logListing log m else pure () : Run Unit) t fun _ => True := by
  cases verbose with
  | false => exact takes_pure trivial
  | true =>
    unfold logListing
    rw [RoutingModel.listing, RoutingModel.records_eq hm.resolved]
    exact Takes.forM hlog _

section Write

variable {working : Location}

theorem writeModel_eq {records : List Record} (hr : m.records = .ok records) {p : Path}
    (hp : job.modelOut = some p) :
    job.writeModel working log m = Run.orRefused (do
      let t ← Run.tree
      Run.proceed (t.writeDeep working p (Record.toJsonLines records))
      log ("[OK] wrote ".toList ++ p.toText ++ " routes=".toList ++ Text.ofNat records.length)
      return true) fun e => do
        log (writeRefused p e)
        return false := by
  unfold writeModel
  rw [hp]
  simp only [writeRecords, hr, Run.lift, bind_assoc, pure_bind]

theorem takes_writeModel (hm : m.Intact)
    (hwell : ∀ e ∈ (t.writeAsked working job.modelOut []).2, e.fault ≠ .nullCharacter)
    (hlog : log.Steady (t.writeAsked working job.modelOut []).1) :
    Takes t (job.writeModel working log m) (t.writeAsked working job.modelOut []).1
      fun _ => True := by
  cases hp : job.modelOut with
  | none =>
    unfold writeModel
    rw [hp]
    exact takes_pure trivial
  | some p =>
    rw [hp] at hwell hlog
    rw [writeModel_eq (RoutingModel.records_eq hm.resolved) hp]
    exact takes_write hwell rfl ((hlog _).bind fun _ _ => takes_pure trivial)
      fun e => (hlog _).bind fun _ _ => takes_pure trivial

theorem fails_writeModel (hm : m.Intact) {e : FileError}
    (he : e ∈ (t.writeAsked working job.modelOut []).2) (hnull : e.fault = .nullCharacter) :
    Fails t (job.writeModel working log m) := by
  cases hp : job.modelOut with
  | none =>
    rw [hp] at he
    cases he
  | some p =>
    rw [hp] at he
    rw [writeModel_eq (RoutingModel.records_eq hm.resolved) hp]
    exact fails_write he hnull

theorem takes_writeRouter {text : Text}
    (hwell : ∀ e ∈ (t.writeAsked working job.out []).2, e.fault ≠ .nullCharacter)
    (hlog : log.Steady (t.writeAsked working job.out []).1) :
    Takes t (job.writeRouter working log text) (t.writeAsked working job.out []).1
      fun _ => True := by
  unfold writeRouter
  cases hp : job.out with
  | none => exact (takes_printOutput text).bind fun _ _ => takes_pure trivial
  | some p =>
    rw [hp] at hwell hlog
    have hwrite : Takes t (writeLogged working log p text) (t.writeAsked working (some p) []).1
        fun _ => True :=
      takes_write hwell rfl (takes_pure trivial) fun e =>
        (hlog _).bind fun _ _ => takes_pure trivial
    refine hwrite.bind fun written _ => ?_
    cases written with
    | false => exact takes_pure trivial
    | true => exact (hlog _).bind fun _ _ => takes_pure trivial

theorem fails_writeRouter {text : Text} {e : FileError}
    (he : e ∈ (t.writeAsked working job.out []).2) (hnull : e.fault = .nullCharacter) :
    Fails t (job.writeRouter working log text) := by
  unfold writeRouter
  cases hp : job.out with
  | none =>
    rw [hp] at he
    cases he
  | some p =>
    rw [hp] at he
    have hwrite : Fails t (writeLogged working log p text) := fails_write he hnull
    exact hwrite.bind _

end Write

theorem steady_log (h : log.Steady t) : (job.log log).Steady t := fun _ => h _

section Shipped

variable (hsettings : i.settings = .shipped)

include hsettings

theorem render_of_intact (hm : m.Intact) : ∃ text, i.settings.templates.render m = .ok text := by
  rw [hsettings]
  exact ⟨_, ShippedRouter.render_eq hm.resolved⟩

theorem takes_finish (hm : m.Intact) (h : job.Passes i t)
    (hlog : ∀ u, t.Grows u → log.Steady u) :
    Takes t (job.finish i log m) (job.leaves i.around.working t) fun _ => True := by
  obtain ⟨text, htext⟩ := render_of_intact hsettings hm
  have hgrows := FileTree.grows_writeAsked t i.around.working job.modelOut []
  unfold finish
  refine (takes_writeModel hm h.modelOut (hlog _ hgrows)).bind fun _ _ => ?_
  refine (takes_lift htext).bind fun _ _ => ?_
  refine (takes_writeRouter h.out (hlog _ ?_)).bind fun _ _ => takes_pure trivial
  exact job.grows_leaves i.around.working t

theorem fails_finish (hm : m.Intact) (hlog : ∀ u, t.Grows u → log.Steady u)
    (h : ¬ ((∀ e ∈ (t.writeAsked i.around.working job.modelOut []).2, e.fault ≠ .nullCharacter) ∧
      ∀ e ∈ ((t.writeAsked i.around.working job.modelOut []).1.writeAsked i.around.working
        job.out []).2, e.fault ≠ .nullCharacter)) :
    Fails t (job.finish i log m) := by
  obtain ⟨text, htext⟩ := render_of_intact hsettings hm
  have hgrows := FileTree.grows_writeAsked t i.around.working job.modelOut []
  unfold finish
  by_cases hmodel :
      ∀ e ∈ (t.writeAsked i.around.working job.modelOut []).2, e.fault ≠ .nullCharacter
  · have hout := not_and.mp h hmodel
    simp only [not_forall, ne_eq, not_not] at hout
    obtain ⟨e, he, hnull⟩ := hout
    refine (takes_writeModel hm hmodel (hlog _ hgrows)).bind_fails fun _ _ => ?_
    exact (takes_lift htext).bind_fails fun _ _ => (fails_writeRouter he hnull).bind _
  · simp only [not_forall, ne_eq, not_not] at hmodel
    obtain ⟨e, he, hnull⟩ := hmodel
    exact (fails_writeModel hm he hnull).bind _

theorem takes_buildModel (verbose : Bool) (hlog : log.Steady t) {inputs files : List Path}
    (h : Discovery.filesOfAll i.around i.settings.scan.ignoredDirectories
      i.settings.scan.fileSuffix t inputs = .ok files) :
    Takes t ((Generator.ofSettings i.around i.settings verbose log).buildModel inputs) t
      RoutingModel.Intact := by
  refine Generator.takes_buildModel ?_ (Reflector.wellClosed_fresh _) hlog h
  change '*' ∉ i.settings.source.namespaceSeparator
  rw [hsettings]
  decide

theorem takes_run (h : job.Passes i t) (hlog : ∀ u, t.Grows u → log.Steady u) :
    Takes t (job.run i log) (job.leaves i.around.working t) fun _ => True := by
  have hlog : ∀ u, t.Grows u → (job.log log).Steady u := fun u hu => steady_log (hlog u hu)
  obtain ⟨files, hfiles⟩ := Discovery.exists_filesOfAll_iff.mpr h.inputs
  rw [run_eq]
  refine (takes_buildModel hsettings _ (hlog t (.refl t)) hfiles).bind fun m hm => ?_
  refine (takes_logListing hm (hlog t (.refl t)) _).bind fun _ _ => ?_
  exact takes_finish hsettings hm h hlog

theorem fails_run (h : ¬ job.Passes i t) (hlog : ∀ u, t.Grows u → log.Steady u) :
    Fails t (job.run i log) := by
  have hlog : ∀ u, t.Grows u → (job.log log).Steady u := fun u hu => steady_log (hlog u hu)
  rw [run_eq]
  cases hfiles : Discovery.filesOfAll i.around i.settings.scan.ignoredDirectories
      i.settings.scan.fileSuffix t job.inputs with
  | error e => exact (Generator.fails_buildModel (hlog t (.refl t)) hfiles).bind _
  | ok files =>
    refine (takes_buildModel hsettings _ (hlog t (.refl t)) hfiles).bind_fails fun m hm => ?_
    refine (takes_logListing hm (hlog t (.refl t)) _).bind_fails fun _ _ => ?_
    refine fails_finish hsettings hm hlog fun hwell => h ?_
    exact ⟨Discovery.exists_filesOfAll_iff.mp ⟨files, hfiles⟩, hwell.1, hwell.2⟩

end Shipped

end Job

/-- Every job passes in the tree that those before it left. -/
inductive JobsPass (i : Invocation) : FileTree → List Job → Prop
  | nil (t : FileTree) : JobsPass i t []
  | cons {t : FileTree} {job : Job} {jobs : List Job} (first : job.Passes i t)
    (rest : JobsPass i (job.leaves i.around.working t) jobs) : JobsPass i t (job :: jobs)

section Shipped

variable (hsettings : i.settings = .shipped)

include hsettings

theorem takes_jobs {ε : Type} {job : ε → Job} {entries : List ε}
    (h : JobsPass i t (entries.map job)) (hlog : ∀ u, t.Grows u → log.Steady u) :
    ∃ u, t.Grows u ∧ Takes t (entries.mapM fun entry => (job entry).run i log) u fun _ => True := by
  induction entries generalizing t with
  | nil => exact ⟨t, .refl t, takes_pure trivial⟩
  | cons entry entries ih =>
    cases h with
    | cons first rest =>
      have hgrows := (job entry).grows_leaves i.around.working t
      obtain ⟨u, hu, hrest⟩ := ih rest fun u hu => hlog u (hgrows.trans hu)
      refine ⟨u, hgrows.trans hu, ?_⟩
      rw [List.mapM_cons]
      refine (Job.takes_run hsettings first hlog).bind fun _ _ => ?_
      exact hrest.bind fun _ _ => takes_pure trivial

theorem fails_jobs {ε : Type} {job : ε → Job} {entries : List ε}
    (h : ¬ JobsPass i t (entries.map job)) (hlog : ∀ u, t.Grows u → log.Steady u) :
    Fails t (entries.mapM fun entry => (job entry).run i log) := by
  induction entries generalizing t with
  | nil => exact absurd (.nil t) h
  | cons entry entries ih =>
    rw [List.mapM_cons]
    by_cases hfirst : (job entry).Passes i t
    · have hgrows := (job entry).grows_leaves i.around.working t
      refine (Job.takes_run hsettings hfirst hlog).bind_fails fun _ _ => ?_
      refine (ih (fun hrest => h (.cons hfirst hrest)) fun u hu => hlog u (hgrows.trans hu)).bind _
    · exact (Job.fails_run hsettings hfirst hlog).bind _

end Shipped

end CommandLine

end AnnotatedRoutes
