import AnnotatedRoutes.Generation
import AnnotatedRoutes.Proofs.RunEffects

namespace AnnotatedRoutes

open Run

/-- The log only writes log lines. -/
def Log.Quiet (clean : Bool) (log : Log) : Prop := ∀ line, (log line).Reads clean fun _ => .ok ()

theorem Log.quiet_nowhere (clean : Bool) : nowhere.Quiet clean := fun _ => reads_pure ()

theorem Log.Quiet.onlyIf {clean : Bool} {log : Log} (h : log.Quiet clean) (wanted : Bool) :
    (Log.onlyIf wanted log).Quiet clean := by
  cases wanted with
  | false => exact Log.quiet_nowhere clean
  | true => exact h

namespace Discovery

variable (around : Surroundings) (ignored : List Text) (suffix : Text)

/-- The files that one input stands for in a tree. -/
def filesOf (t : FileTree) (input : Path) : Except Failure (List Path) := do
  let p ← (input.expandHome around).mapError .path
  if ← (t.isFile around.working p).mapError fun e => .path (.file e) then
    return [p]
  else if ← (t.isDirectory around.working p).mapError fun e => .path (.file e) then
    (controllerFiles t around.working ignored suffix p).mapError fun e => .path (.file e)
  else return []

/-- The files that some inputs stand for in a tree, each of them once. -/
def filesOfAll (t : FileTree) (inputs : List Path) : Except Failure (List Path) := do
  let files ← inputs.mapM (filesOf around ignored suffix t)
  let located ← files.flatten.mapM fun p => do
    return (← (t.canonical around p).mapError .path, p)
  return (firstOfEach Prod.fst located).map Prod.snd

variable {around ignored suffix} {clean : Bool} {log : Log}

theorem reads_expandInput (hq : log.Quiet clean) (input : Path) :
    (expandInput around ignored suffix log input).Reads clean
      fun t => filesOf around ignored suffix t input := by
  unfold expandInput filesOf
  refine Reads.bind (reads_lift _ _) fun p => Reads.withTree fun t => ?_
  refine Reads.bind (reads_lift _ _) fun isFile => Reads.ite (reads_pure _) ?_
  refine Reads.bind (reads_lift _ _) fun isDirectory => Reads.ite ?_ ?_
  · exact Reads.logged (reads_lift _ _) fun _ => hq _
  · exact Reads.after (hq _) (reads_pure _)

theorem reads_expandInputs (hq : log.Quiet clean) (inputs : List Path) :
    (expandInputs around ignored suffix log inputs).Reads clean
      fun t => filesOfAll around ignored suffix t inputs := by
  unfold expandInputs filesOfAll
  refine Reads.bind (Reads.mapM (reads_expandInput hq) _) fun files => Reads.withTree fun t => ?_
  refine Reads.bind (Reads.mapM (fun p => ?_) _) fun located => reads_pure _
  exact Reads.bind (reads_lift _ _) fun there => reads_pure _

theorem leaves_expandInput (input : Path) :
    (expandInput around ignored suffix .nowhere input).Leaves := by
  unfold expandInput
  refine (leaves_lift _ _).bind fun p => leaves_tree.bind fun t =>
    (leaves_lift _ _).bind fun isFile => ?_
  split
  · exact leaves_pure _
  · refine (leaves_lift _ _).bind fun isDirectory => ?_
    split
    · exact (leaves_lift _ _).bind fun files => leaves_pure _
    · exact leaves_pure _

theorem leaves_expandInputs (inputs : List Path) :
    (expandInputs around ignored suffix .nowhere inputs).Leaves := by
  unfold expandInputs
  refine (Leaves.mapM leaves_expandInput inputs).bind fun files =>
    leaves_tree.bind fun t => (Leaves.mapM (fun p => ?_) _).bind fun located => leaves_pure _
  exact (leaves_lift _ _).bind fun there => leaves_pure _

/-- Without a log nothing is left of an expansion but its result. -/
theorem run_expandInputs_nowhere (inputs : List Path) (s : Session) :
    (expandInputs around ignored suffix .nowhere inputs).run.run s =
      (filesOfAll around ignored suffix s.tree inputs, s) := by
  have hreads : (expandInputs around ignored suffix .nowhere inputs).Reads true _ :=
    reads_expandInputs (Log.quiet_nowhere true) inputs
  obtain ⟨s', hrun, -⟩ := hreads s
  obtain rfl : s' = s := (congrArg Prod.snd hrun).symm.trans (leaves_expandInputs inputs s)
  exact hrun

end Discovery

namespace Generator

/-- What a builder and the routing names become with a file of a tree. -/
def added (working : Location) (separator : Text) (t : FileTree) (b : Builder) (p : Path) :
    Except Failure (Builder × Option Text) :=
  match t.readText working p with
  | .error e => if e.fault = .nullCharacter then .error (.path (.file e)) else .ok (b, none)
  | .ok source => do
    let step ← (b.addSource separator p.toText source).mapError .unanswered
    return (step.builder, step.routingName)

def addedAll (working : Location) (separator : Text) (t : FileTree) (b : Builder) :
    List Path → Except Failure (Builder × List Text)
  | [] => .ok (b, [])
  | p :: paths => do
    let (b, name) ← added working separator t b p
    let (b, names) ← addedAll working separator t b paths
    return (b, name.toList ++ names)

/-- The model that some inputs stand for in a tree. -/
def modelOf (g : Generator) (t : FileTree) (inputs : List Path) : Except Failure RoutingModel := do
  let files ← Discovery.filesOfAll g.around g.settings.scan.ignoredDirectories g.suffix t inputs
  let (b, _) ← addedAll g.around.working g.settings.source.namespaceSeparator t
    { reflector := g.reflector } files
  return b.model

/-- The router file that some inputs stand for in a tree. -/
def textOf (g : Generator) (t : FileTree) (inputs : List Path) : Except Failure Text := do
  let m ← g.modelOf t inputs
  (g.settings.templates.render m).mapError .render

variable {g : Generator} {clean : Bool}

theorem reads_addFile (hq : g.log.Quiet clean) (b : Builder) (p : Path) :
    (g.addFile b p).Reads clean fun t =>
      added g.around.working g.settings.source.namespaceSeparator t b p := by
  unfold addFile added
  refine Reads.withTree fun t => ?_
  cases t.readText g.around.working p with
  | error e =>
    dsimp only
    split
    · exact reads_throw _
    · exact Reads.after (hq _) (reads_pure _)
  | ok source =>
    refine Reads.bind (reads_lift _ _) fun step => ?_
    exact Reads.after (Reads.forM (fun _ => hq.onlyIf g.verbose _) _) (reads_pure _)

theorem reads_addFiles (hq : g.log.Quiet clean) (b : Builder) (paths : List Path) :
    (g.addFiles b paths).Reads clean fun t =>
      addedAll g.around.working g.settings.source.namespaceSeparator t b paths := by
  induction paths generalizing b with
  | nil => exact reads_pure _
  | cons p paths ih =>
    unfold addFiles addedAll
    refine Reads.bind (reads_addFile hq b p) fun first => ?_
    exact Reads.bind (ih first.1) fun rest => reads_pure _

theorem reads_buildModel (hq : g.log.Quiet clean) (inputs : List Path) :
    (g.buildModel inputs).Reads clean fun t => g.modelOf t inputs := by
  unfold buildModel modelOf
  refine Reads.bind (Discovery.reads_expandInputs (hq.onlyIf g.verbose) inputs) fun files => ?_
  refine Reads.bind (reads_addFiles hq _ files) fun result => ?_
  exact Reads.after (hq _) (reads_pure _)

theorem reads_render (hq : g.log.Quiet clean) (inputs : List Path) :
    (g.render inputs).Reads clean fun t => g.textOf t inputs :=
  Reads.bind (reads_buildModel hq inputs) fun _ => reads_lift _ _

end Generator

end AnnotatedRoutes
