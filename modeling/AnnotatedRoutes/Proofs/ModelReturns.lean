import AnnotatedRoutes.Proofs.InputFiles
import AnnotatedRoutes.Proofs.ScannedComments
import AnnotatedRoutes.Proofs.SureRuns

namespace AnnotatedRoutes

open Run

variable {t u : FileTree} {log : Log}

namespace FileTree

theorem canonical_of_alike (h : t.Alike u) {around : Surroundings} {p : Path} {e : Entry}
    (hp : t.stat around.working p = .ok e) : u.canonical around p = t.canonical around p := by
  unfold FileTree.stat at hp
  obtain ⟨l, hl, hp⟩ := bind_eq_ok_iff.mp hp
  split at hp
  next e' he =>
    obtain ⟨e'', he', -⟩ := exists_of_shape? ((h l).symm.trans (shape?_of_entry?_eq he))
    rw [canonical_of_find hl he, canonical_of_find ((h.find_eq _ _ _).symm.trans hl) he']
  next => cases hp

end FileTree

namespace Discovery

variable {around : Surroundings} {ignored : List Text} {suffix : Text} {inputs : List Path}

theorem goes_expandInput (hlog : log.Steady t) (input : Path) :
    Goes t (expandInput around ignored suffix log input)
      (filesOf around ignored suffix t input) := by
  unfold expandInput filesOf
  refine (goes_lift _ _).bind fun p _ => .withTree fun u hu => ?_
  rw [hu.isFile_eq, hu.isDirectory_eq, controllerFiles_of_alike hu]
  refine (goes_lift _ _).bind fun isFile _ => .ite (fun _ => goes_pure _) fun _ => ?_
  refine (goes_lift _ _).bind fun isDirectory _ => .ite (fun _ => ?_) fun _ => ?_
  · exact .logged (goes_lift _ _) fun _ => hlog _
  · exact .after (hlog _) (goes_pure _)

theorem goes_expandInputs (hlog : log.Steady t) (inputs : List Path) :
    Goes t (expandInputs around ignored suffix log inputs)
      (filesOfAll around ignored suffix t inputs) := by
  unfold expandInputs filesOfAll
  refine (Goes.mapM fun input _ => goes_expandInput hlog input).bind fun founds hfounds => ?_
  refine .withTree fun u hu => ?_
  refine (Goes.mapM fun p hp => ?_).bind fun located _ => goes_pure _
  have hstands : List.Forall₂ (StandsFor around ignored suffix t) inputs founds :=
    (mapM_eq_ok_iff.mp hfounds).imp fun _ _ => filesOf_eq_ok_iff.mp
  obtain ⟨found, hfound, hp⟩ := List.mem_flatten.mp hp
  obtain ⟨input, -, hinput⟩ := exists_of_forall₂_mem hstands hfound
  obtain ⟨content, hstat⟩ := hinput.stat hp
  rw [FileTree.canonical_of_alike hu.symm hstat]
  exact (goes_lift _ _).bind fun q _ => goes_pure _

end Discovery

namespace Generator

variable {g : Generator} {b : Builder} {p : Path} {paths inputs files : List Path}

/-- A file that is there is read, or passed over. -/
theorem takes_addFile (hseparator : '*' ∉ g.settings.source.namespaceSeparator)
    (hlog : g.log.Steady t) (hb : b.reflector.WellClosed)
    (hp : ∃ content, t.stat g.around.working p = .ok (.file content)) :
    Takes t (g.addFile b p) t fun result => result.1.reflector.WellClosed := by
  unfold addFile
  refine takes_tree.bind fun u hu => ?_
  have hread : ∃ source, u.readText g.around.working p = .ok source := by
    obtain ⟨content, hstat⟩ := hp
    have hshape := hu.stat_eq g.around.working p
    rw [hstat] at hshape
    cases hu : u.stat g.around.working p with
    | error fault => rw [hu] at hshape; cases hshape
    | ok e =>
      rw [hu] at hshape
      cases e with
      | file content' => exact ⟨_, by rw [FileTree.readText, FileTree.read, hu]; rfl⟩
      | directory | link => cases hshape
  obtain ⟨source, hsource⟩ := hread
  rw [hsource]
  obtain ⟨step, _, hstep, hclosed, -⟩ := Builder.exists_addSource hseparator hb p.toText source
  refine (takes_lift hstep).bind ?_
  rintro _ rfl
  exact (Takes.forM (fun _ => hlog.onlyIf g.verbose _) _).bind fun _ _ => takes_pure hclosed

theorem takes_addFiles (hseparator : '*' ∉ g.settings.source.namespaceSeparator)
    (hlog : g.log.Steady t) (hb : b.reflector.WellClosed)
    (hpaths : ∀ p ∈ paths, ∃ content, t.stat g.around.working p = .ok (.file content)) :
    Takes t (g.addFiles b paths) t fun _ => True := by
  induction paths generalizing b with
  | nil => exact takes_pure trivial
  | cons p paths ih =>
    obtain ⟨hp, hpaths⟩ := List.forall_mem_cons.mp hpaths
    unfold addFiles
    refine (takes_addFile hseparator hlog hb hp).bind fun result hresult => ?_
    exact (ih hresult hpaths).bind fun _ _ => takes_pure trivial

/-- The model of files that can be found is made, and can be written out. -/
theorem takes_buildModel (hseparator : '*' ∉ g.settings.source.namespaceSeparator)
    (hclosed : g.reflector.WellClosed) (hlog : g.log.Steady t)
    (hfiles : Discovery.filesOfAll g.around g.settings.scan.ignoredDirectories g.suffix t inputs =
      .ok files) :
    Takes t (g.buildModel inputs) t RoutingModel.Intact := by
  have hexpand : Goes t (Discovery.expandInputs g.around g.settings.scan.ignoredDirectories g.suffix
      g.details inputs) _ := Discovery.goes_expandInputs (hlog.onlyIf g.verbose) inputs
  rw [hfiles] at hexpand
  have hreturns : Takes t (g.buildModel inputs) t fun _ => True := by
    unfold buildModel
    refine Takes.bind hexpand ?_
    rintro _ rfl
    refine (takes_addFiles hseparator hlog hclosed fun p hp =>
      Discovery.stat_of_mem_filesOfAll hfiles hp).bind fun result _ => ?_
    exact (hlog _).bind fun _ _ => takes_pure trivial
  intro s hs
  obtain ⟨m, s', hrun, hs', -⟩ := hreturns s hs
  obtain ⟨_, hreached⟩ := reached_buildModel hrun
  exact ⟨m, s', hrun, hs', .of_reached hreached⟩

theorem fails_buildModel (hlog : g.log.Steady t) {e : Failure}
    (hfiles : Discovery.filesOfAll g.around g.settings.scan.ignoredDirectories g.suffix t inputs =
      .error e) :
    Fails t (g.buildModel inputs) := by
  have hexpand : Goes t (Discovery.expandInputs g.around g.settings.scan.ignoredDirectories g.suffix
      g.details inputs) _ := Discovery.goes_expandInputs (hlog.onlyIf g.verbose) inputs
  rw [hfiles] at hexpand
  exact Fails.bind hexpand _

end Generator

end AnnotatedRoutes
