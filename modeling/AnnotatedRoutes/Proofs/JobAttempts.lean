import AnnotatedRoutes.CommandLine.Run
import AnnotatedRoutes.Proofs.BuilderCalls
import AnnotatedRoutes.Proofs.ModelBuilding

namespace AnnotatedRoutes

open Run

variable {clean : Bool}

namespace FileTree

/-- Writes a file if it is asked for. -/
def writeAsked (t : FileTree) (working : Location) (p : Option Path) (text : Text) : Progress :=
  match p with
  | none => (t, none)
  | some p => t.writeDeep working p text

end FileTree

theorem changes_writeLogged {log : Log} (hq : log.Quiet clean) (working : Location) (p : Path)
    (text : Text) :
    (writeLogged working log p text).Changes clean fun t =>
      ((t.writeDeep working p text).1, resultOf (t.writeDeep working p text).2) :=
  changes_orRefused (changes_proceed (fun t => t.writeDeep working p text) (reads_pure true))
    fun _ => Reads.after (hq _) (reads_pure false)

namespace CommandLine

/-- What came of a job: the text of its router file, and the refusals of its writes. -/
structure Attempt where
  text : Text
  modelRefusal : Option FileError
  routerRefusal : Option FileError

/-- Whether the tree refused a write. -/
def Attempt.failed (a : Attempt) : Bool := a.modelRefusal.isSome || a.routerRefusal.isSome

/-- How models and router files are made for an invocation; the log makes no difference. -/
def Invocation.generator (i : Invocation) : Generator :=
  Generator.ofSettings i.around i.settings false Log.nowhere

/-- A job is attempted in a tree: its router file is made from its inputs, then the records and the
router file are written as far as they are asked for, the one whatever came of the other. -/
structure Job.Attempted (job : Job) (i : Invocation) (t : FileTree) (a : Attempt) (t' : FileTree) :
    Prop where
  made : i.generator.textOf t job.inputs = .ok a.text
  written : ∃ m records t₁, i.generator.modelOf t job.inputs = .ok m ∧ m.records = .ok records ∧
    t.writeAsked i.around.working job.modelOut (Record.toJsonLines records) =
      (t₁, a.modelRefusal) ∧
    t₁.writeAsked i.around.working job.out a.text = (t', a.routerRefusal)
  /-- A malformed path would have ended the run. -/
  wellFormed : ∀ e, e ∈ a.modelRefusal ∨ e ∈ a.routerRefusal → e.fault ≠ .nullCharacter

namespace Job

variable {job : Job} {i : Invocation} {log : Log} {s s' : Session}

/-- What a job prints on the standard output, log lines aside. -/
def printed (job : Job) (text : Text) : Text := if job.out = none then text else []

theorem exists_records {g : Generator} (hq : g.log.Quiet clean) {t : FileTree} {inputs : List Path}
    {m : RoutingModel} (h : g.modelOf t inputs = .ok m) :
    ∃ records, m.records = .ok records := by
  obtain ⟨s', hrun, -⟩ := Generator.reads_buildModel hq inputs { tree := t }
  simp only [h] at hrun
  obtain ⟨_, hr⟩ := Generator.reached_buildModel hrun
  exact ⟨_, RoutingModel.records_eq (RoutingModel.Intact.of_reached hr).resolved⟩

theorem reads_logListing (hq : log.Quiet clean) {m : RoutingModel} {records : List Record}
    (hr : m.records = .ok records) : (logListing log m).Reads clean fun _ => .ok () := by
  have hl : m.listing Record.listingLimit =
      .ok (Text.join ['\n'] (Record.listing records Record.listingLimit)) := by
    rw [RoutingModel.listing, hr]
    rfl
  unfold logListing
  rw [hl]
  exact Reads.forM hq _

theorem changes_writeModel (hq : log.Quiet clean) (working : Location) {m : RoutingModel}
    {records : List Record} (hr : m.records = .ok records) :
    (job.writeModel working log m).Changes clean fun t =>
      ((t.writeAsked working job.modelOut (Record.toJsonLines records)).1,
        resultOf (t.writeAsked working job.modelOut (Record.toJsonLines records)).2) := by
  unfold writeModel
  cases job.modelOut with
  | none => exact reads_pure true
  | some p =>
    have hwrite := changes_proceed (fun t => t.writeDeep working p (Record.toJsonLines records))
      (k := fun _ => do
        log ("[OK] wrote ".toList ++ p.toText ++ " routes=".toList ++ Text.ofNat records.length)
        return true)
      (Reads.after (hq _) (reads_pure true))
    refine changes_orRefused (f := fun t => t.writeDeep working p (Record.toJsonLines records)) ?_
      fun e => Reads.after (hq _) (reads_pure false)
    simpa only [writeRecords, hr, Run.lift, bind_assoc, pure_bind] using hwrite

/-- The router file is written or printed. -/
theorem run_writeRouter (job : Job) (hq : log.Quiet clean) (working : Location) (text : Text)
    (s : Session) :
    ∃ s', (job.writeRouter working log text).run.run s =
        (resultOf (s.tree.writeAsked working job.out text).2, s') ∧
      Session.Matches clean
        { s with
          tree := (s.tree.writeAsked working job.out text).1
          output := s.output ++ job.printed text } s' := by
  unfold writeRouter printed
  cases job.out with
  | none => exact ⟨_, rfl, .refl clean _⟩
  | some p =>
    have hlogged := (changes_writeLogged hq working p text).logged (k := fun written => do
      if written then log ("[OK] wrote ".toList ++ p.toText)
      return written) fun written => by
        cases written with
        | false => exact reads_pure false
        | true => exact Reads.after (hq _) (reads_pure true)
    obtain ⟨s', hrun, hs⟩ := hlogged s
    exact ⟨s', hrun, by simpa [FileTree.writeAsked] using hs⟩

/-- A job behind the making of its model. -/
def finish (job : Job) (i : Invocation) (log : Log) (m : RoutingModel) : Run Bool := do
  let modelWritten ← job.writeModel i.around.working log m
  let text ← Run.lift .render (i.settings.templates.render m)
  let routerWritten ← job.writeRouter i.around.working log text
  return modelWritten && routerWritten

theorem run_eq (job : Job) (i : Invocation) (log : Log) :
    job.run i log =
      (Generator.ofSettings i.around i.settings i.arguments.verbose (job.log log)).buildModel
        job.inputs >>= fun m =>
          (if i.arguments.verbose then logListing (job.log log) m else pure ()) >>= fun _ =>
            job.finish i (job.log log) m := by
  refine bind_congr fun m => ?_
  dsimp only
  split
  · rfl
  · exact (pure_bind () fun _ => job.finish i (job.log log) m).symm

theorem reads_listing (hq : log.Quiet clean) {m : RoutingModel} {records : List Record}
    (hr : m.records = .ok records) (verbose : Bool) :
    (if verbose then logListing log m else pure () : Run Unit).Reads clean fun _ => .ok () := by
  cases verbose with
  | false => exact reads_pure ()
  | true => exact reads_logListing hq hr

/-- A job that can be attempted returns. -/
theorem run_of_attempted (hq : log.Quiet clean) {a : Attempt} {t' : FileTree}
    (ha : job.Attempted i s.tree a t') :
    ∃ s', (job.run i log).run.run s = (.ok !a.failed, s') ∧ s'.tree = t' ∧
      (clean = true → s'.output = s.output ++ job.printed a.text) := by
  obtain ⟨hmade, ⟨m, records, t₁, hm, hr, hmodel, hrouter⟩, hwell⟩ := ha
  have hq : (job.log log).Quiet clean := fun _ => hq _
  have htext : (i.settings.templates.render m).mapError Failure.render = .ok a.text := by
    have hmade : (i.generator.modelOf s.tree job.inputs >>= fun m =>
        (i.settings.templates.render m).mapError Failure.render) = .ok a.text := hmade
    rwa [hm] at hmade
  have hm : (Generator.ofSettings i.around i.settings i.arguments.verbose (job.log log)).modelOf
      s.tree job.inputs = .ok m := hm
  obtain ⟨s₁, hrun₁, hs₁⟩ := (Generator.reads_buildModel hq job.inputs).run_ok hm
  obtain ⟨s₂, hrun₂, hs₂⟩ := (reads_listing hq hr i.arguments.verbose).run_ok (s := s₁) rfl
  have hs := hs₁.trans hs₂
  rw [hs.tree] at hmodel
  have hmodelWritten := resultOf_eq_ok fun e he => hwell e (Or.inl he)
  obtain ⟨s₃, hrun₃, hs₃⟩ := (changes_writeModel hq i.around.working hr).run_ok (s := s₂)
    (by rw [hmodel]; exact hmodelWritten)
  have hrender : (Run.lift .render (i.settings.templates.render m)).Reads clean fun _ =>
      (i.settings.templates.render m).mapError .render := reads_lift _ _
  obtain ⟨s₄, hrun₄, hs₄⟩ := hrender.run_ok (s := s₃) htext
  obtain ⟨s₅, hrun₅, hs₅⟩ := job.run_writeRouter hq i.around.working a.text s₄
  have ht : s₄.tree = t₁ := by rw [← hs₄.tree, ← hs₃.tree, hmodel]
  rw [ht, hrouter, resultOf_eq_ok fun e he => hwell e (Or.inr he)] at hrun₅
  rw [ht, hrouter] at hs₅
  refine ⟨s₅, ?_, hs₅.tree.symm, fun hc => ?_⟩
  · rw [run_eq, run_bind_ok hrun₁, run_bind_ok hrun₂, finish, run_bind_ok hrun₃, run_bind_ok hrun₄,
      run_bind_ok hrun₅, Attempt.failed]
    simp only [Bool.not_or, Option.not_isSome]
    rfl
  · rw [← hs₅.output hc, ← hs₄.output hc, ← hs₃.output hc, ← hs.output hc]

/-- A job that returns has been attempted, and tells whether a write was refused. -/
theorem attempted_of_run (hq : log.Quiet clean) {b : Bool}
    (h : (job.run i log).run.run s = (.ok b, s')) :
    ∃ a, job.Attempted i s.tree a s'.tree ∧ b = !a.failed ∧
      (clean = true → s'.output = s.output ++ job.printed a.text) := by
  have hq' : (job.log log).Quiet clean := fun _ => hq _
  have hreturned := h
  rw [run_eq] at h
  obtain ⟨m, s₁, hm, hs₁, h⟩ := (Generator.reads_buildModel hq' job.inputs).of_bind_eq_ok h
  obtain ⟨records, hr⟩ := exists_records hq' hm
  obtain ⟨_, s₂, -, hs₂, h⟩ := (reads_listing hq' hr i.arguments.verbose).of_bind_eq_ok h
  obtain ⟨modelWritten, s₃, hmodel, hs₃, h⟩ :=
    (changes_writeModel hq' i.around.working hr).of_bind_eq_ok h
  have hrender : (Run.lift .render (i.settings.templates.render m)).Reads clean fun _ =>
      (i.settings.templates.render m).mapError .render := reads_lift _ _
  obtain ⟨text, s₄, htext, hs₄, h⟩ := hrender.of_bind_eq_ok h
  obtain ⟨routerWritten, s₅, hrun₅, -⟩ := Run.of_bind_eq_ok h
  obtain ⟨_, hrouter, -⟩ := job.run_writeRouter hq' i.around.working text s₄
  rw [hrun₅] at hrouter
  have hrouter := (of_resultOf_eq_ok (congrArg Prod.fst hrouter).symm).2
  have hmodel := (of_resultOf_eq_ok hmodel).2
  have hs := hs₁.trans hs₂
  rw [← hs₄.tree, ← hs₃.tree, ← hs.tree] at hrouter
  rw [← hs.tree] at hmodel
  -- a job that was attempted in this way returns just so
  let first := s.tree.writeAsked i.around.working job.modelOut (Record.toJsonLines records)
  let second := first.1.writeAsked i.around.working job.out text
  have hm : i.generator.modelOf s.tree job.inputs = .ok m := hm
  have hmade : i.generator.textOf s.tree job.inputs = .ok text := by
    rw [Generator.textOf, hm]
    exact htext
  have ha : job.Attempted i s.tree ⟨text, first.2, second.2⟩ second.1 :=
    ⟨hmade, ⟨m, records, first.1, hm, hr, rfl, rfl⟩, fun e he => he.elim (hmodel e) (hrouter e)⟩
  obtain ⟨s'', hrun, ht, ho⟩ := run_of_attempted hq ha
  rw [hreturned] at hrun
  obtain ⟨hb, rfl⟩ := Prod.mk.inj hrun
  exact ⟨_, ht ▸ ha, Except.ok.inj hb, ho⟩

end Job

/-- Jobs are attempted one after another, each in the tree that the one before it left. -/
inductive Attempts (i : Invocation) : List Job → FileTree → List Attempt → FileTree → Prop
  | nil (t : FileTree) : Attempts i [] t [] t
  | cons {job : Job} {jobs : List Job} {a : Attempt} {as : List Attempt} {t t₁ t' : FileTree}
    (first : job.Attempted i t a t₁) (rest : Attempts i jobs t₁ as t') :
    Attempts i (job :: jobs) t (a :: as) t'

theorem attempts_of_mapM {ε : Type} {i : Invocation} {log : Log} (hq : log.Quiet clean)
    {job : ε → Job} {entries : List ε} {results : List Bool} {s s' : Session}
    (h : (entries.mapM fun entry => (job entry).run i log).run.run s = (.ok results, s')) :
    ∃ as, Attempts i (entries.map job) s.tree as s'.tree ∧ results = as.map (!·.failed) ∧
      (clean = true → (∀ entry, (job entry).out = none) →
        s'.output = s.output ++ as.flatMap (·.text)) := by
  induction entries generalizing s results with
  | nil =>
    obtain ⟨rfl, rfl⟩ := of_pure_eq h
    exact ⟨[], .nil _, rfl, by simp⟩
  | cons entry entries ih =>
    rw [List.mapM_cons] at h
    obtain ⟨b, s₁, hfirst, h⟩ := Run.of_bind_eq_ok h
    obtain ⟨bs, s₂, hrest, h⟩ := Run.of_bind_eq_ok h
    obtain ⟨rfl, rfl⟩ := of_pure_eq h
    obtain ⟨a, ha, rfl, ho⟩ := Job.attempted_of_run hq hfirst
    obtain ⟨as, has, rfl, hos⟩ := ih hrest
    refine ⟨a :: as, .cons ha has, rfl, fun hc hout => ?_⟩
    rw [hos hc hout, ho hc, Job.printed, if_pos (hout entry), List.flatMap_cons, List.append_assoc]

/-- Jobs that can be attempted one after another return. -/
theorem mapM_of_attempts {ε : Type} {i : Invocation} {log : Log} (hq : log.Quiet clean)
    {job : ε → Job} {entries : List ε} {as : List Attempt} {s : Session} {t' : FileTree}
    (h : Attempts i (entries.map job) s.tree as t') :
    ∃ s', (entries.mapM fun entry => (job entry).run i log).run.run s =
        (.ok (as.map (!·.failed)), s') ∧ s'.tree = t' ∧
      (clean = true → (∀ entry, (job entry).out = none) →
        s'.output = s.output ++ as.flatMap (·.text)) := by
  induction entries generalizing s as with
  | nil =>
    cases h with
    | nil => exact ⟨s, rfl, rfl, by simp⟩
  | cons entry entries ih =>
    cases h with
    | cons first rest =>
      obtain ⟨s₁, hfirst, rfl, ho⟩ := Job.run_of_attempted hq first
      obtain ⟨s₂, hrest, ht, hos⟩ := ih rest
      refine ⟨s₂, ?_, ht, fun hc hout => ?_⟩
      · rw [List.mapM_cons, run_bind_ok hfirst, run_bind_ok hrest]
        rfl
      · rw [hos hc hout, ho hc, Job.printed, if_pos (hout entry), List.flatMap_cons,
          List.append_assoc]

end CommandLine

end AnnotatedRoutes
