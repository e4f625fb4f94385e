import AnnotatedRoutes.Proofs.DirectoryListing
import AnnotatedRoutes.Proofs.ModelBuilding
import AnnotatedRoutes.Proofs.OutputOrder
import AnnotatedRoutes.Proofs.StableOrder

namespace AnnotatedRoutes

open Run

section FirstOfEach

variable {α κ : Type} [DecidableEq κ]

/-- An element that is taken is the first one with its key. -/
theorem exists_first_of_mem_firstOfEach {key : α → κ} {as : List α} {a : α}
    (h : a ∈ firstOfEach key as) :
    ∃ before after, as = before ++ a :: after ∧ key a ∉ before.map key := by
  induction as with
  | nil => cases h
  | cons c as ih =>
    rcases List.mem_cons.mp h with rfl | h
    · exact ⟨[], as, rfl, List.not_mem_nil⟩
    · obtain ⟨h, hne⟩ := List.mem_filter.mp h
      obtain ⟨before, after, rfl, hfirst⟩ := ih h
      refine ⟨c :: before, after, rfl, ?_⟩
      rw [List.map_cons, List.mem_cons, not_or]
      exact ⟨of_decide_eq_true hne, hfirst⟩

theorem firstOfEach_map {β : Type} (key : α → κ) (f : β → α) (bs : List β) :
    firstOfEach key (bs.map f) = (firstOfEach (fun b => key (f b)) bs).map f := by
  induction bs with
  | nil => rfl
  | cons b bs ih =>
    rw [List.map_cons, firstOfEach, ih, firstOfEach, List.map_cons, List.filter_map]
    rfl

end FirstOfEach

namespace FileTree

/-- The canonical path, of a path that has one. -/
def resolved (t : FileTree) (around : Surroundings) (p : Path) : Path :=
  match t.canonical around p with
  | .ok q => q
  | .error _ => p

theorem canonical_eq_resolved {t : FileTree} {around : Surroundings} {p : Path} {e : Entry}
    (h : t.stat around.working p = .ok e) : t.canonical around p = .ok (t.resolved around p) := by
  unfold stat at h
  obtain ⟨l, hl, h⟩ := bind_eq_ok_iff.mp h
  split at h
  next he =>
    rw [resolved, canonical_of_find hl he]
  next => cases h

end FileTree

namespace Discovery

variable {around : Surroundings} {ignored : List Text} {suffix : Text} {t : FileTree}
  {input : Path} {files : List Path}

/-- What an input stands for in a tree: the file that it leads to, the controller files below the
directory that it leads to, or nothing. -/
inductive StandsFor (around : Surroundings) (ignored : List Text) (suffix : Text) (t : FileTree)
    (input : Path) : List Path → Prop
  | file {p : Path} {content : Text.Bytes} (hp : input.expandHome around = .ok p)
    (h : t.stat around.working p = .ok (.file content)) :
    StandsFor around ignored suffix t input [p]
  | directory {p : Path} {files : List Path} (hp : input.expandHome around = .ok p)
    (h : t.stat around.working p = .ok .directory)
    (hfiles : controllerFiles t around.working ignored suffix p = .ok files) :
    StandsFor around ignored suffix t input files
  | nothing {p : Path} (hp : input.expandHome around = .ok p)
    (h : ∀ e, t.stat around.working p = .ok e → e.isFile = false ∧ e.isDirectory = false)
    (hshort : t.stat around.working p ≠ .error .nameTooLong) :
    StandsFor around ignored suffix t input []

/-- What an input stands for, told by what its path leads to. -/
theorem filesOf_eq {p : Path} (hp : input.expandHome around = .ok p) :
    filesOf around ignored suffix t input =
      match t.stat around.working p with
      | .ok (.file _) => .ok [p]
      | .ok .directory =>
        (controllerFiles t around.working ignored suffix p).mapError fun e => .path (.file e)
      | .ok (.link _) => .ok []
      | .error .nameTooLong => .error (.path (.file ⟨.nameTooLong, p⟩))
      | .error _ => .ok [] := by
  unfold filesOf FileTree.isFile FileTree.isDirectory FileTree.asks
  rw [hp]
  cases hstat : t.stat around.working p with
  | ok e =>
    simp only [Except.mapError, Bind.bind, Except.bind]
    rw [hstat]
    cases e <;> rfl
  | error fault =>
    simp only [Except.mapError, Bind.bind, Except.bind]
    rw [hstat]
    rcases FileTree.fault_of_stat hstat with rfl | habsent
    · rfl
    · cases fault <;> first | rfl | cases habsent

theorem filesOf_eq_ok_iff :
    filesOf around ignored suffix t input = .ok files ↔
      StandsFor around ignored suffix t input files := by
  constructor
  · intro h
    cases hp : input.expandHome around with
    | error fault =>
      unfold filesOf at h
      rw [hp] at h
      cases h
    | ok p =>
      rw [filesOf_eq hp] at h
      split at h
      next content hstat =>
        obtain rfl := Except.ok.inj h
        exact .file hp hstat
      next hstat => exact .directory hp hstat (mapError_eq_ok_iff.mp h)
      next target hstat =>
        obtain rfl := Except.ok.inj h
        refine .nothing hp (fun e he => ?_) (by simp [hstat])
        obtain rfl := Except.ok.inj (hstat.symm.trans he)
        exact ⟨rfl, rfl⟩
      next => cases h
      next fault hshort hstat =>
        obtain rfl := Except.ok.inj h
        exact .nothing hp (by simp [hstat]) fun hlong =>
          hshort (Except.error.inj (hstat.symm.trans hlong))
  · intro h
    cases h with
    | file hp hstat => rw [filesOf_eq hp, hstat]
    | directory hp hstat hfiles => rw [filesOf_eq hp, hstat, hfiles]; rfl
    | nothing hp h hshort =>
      rw [filesOf_eq hp]
      split
      next hstat => cases (h _ hstat).1
      next hstat => cases (h _ hstat).2
      next => rfl
      next hstat => exact absurd hstat hshort
      next => rfl

/-- Every path in a listing leads to a file. -/
theorem stat_of_mem_controllerFiles {working : Location} {root p : Path}
    (h : controllerFiles t working ignored suffix root = .ok files) (hp : p ∈ files) :
    ∃ content, t.stat working p = .ok (.file content) := by
  unfold controllerFiles at h
  split at h
  next => cases h
  next =>
    obtain rfl := Except.ok.inj h
    cases hp
  next d hroot =>
    split at h
    next hd =>
      rw [← controllerFiles_eq hroot hd] at h
      rw [eq_of_controllerFiles hroot hd h] at hp
      obtain ⟨names, hnames, rfl⟩ := List.mem_map.mp hp
      exact stat_of_lists (List.mem_filter.mp hnames).2
    next =>
      obtain rfl := Except.ok.inj h
      cases hp

theorem StandsFor.stat (h : StandsFor around ignored suffix t input files) {p : Path}
    (hp : p ∈ files) : ∃ content, t.stat around.working p = .ok (.file content) := by
  cases h with
  | file _ hstat =>
    obtain rfl := List.mem_singleton.mp hp
    exact ⟨_, hstat⟩
  | directory _ _ hfiles => exact stat_of_mem_controllerFiles hfiles hp
  | nothing => cases hp

theorem canonical_of_standsFor {inputs : List Path} {founds : List (List Path)}
    (h : List.Forall₂ (StandsFor around ignored suffix t) inputs founds) {p : Path}
    (hp : p ∈ founds.flatten) : t.canonical around p = .ok (t.resolved around p) := by
  obtain ⟨found, hfound, hp⟩ := List.mem_flatten.mp hp
  obtain ⟨input, -, hstands⟩ := exists_of_forall₂_mem h hfound
  obtain ⟨content, hstat⟩ := hstands.stat hp
  exact FileTree.canonical_eq_resolved hstat

/-- The files that some inputs stand for are taken once each, as they are found first. -/
theorem filesOfAll_eq_ok_iff {inputs : List Path} :
    filesOfAll around ignored suffix t inputs = .ok files ↔
      ∃ founds, List.Forall₂ (StandsFor around ignored suffix t) inputs founds ∧
        files = firstOfEach (t.resolved around) founds.flatten := by
  have hstands {founds : List (List Path)} : inputs.mapM (filesOf around ignored suffix t) =
      .ok founds ↔ List.Forall₂ (StandsFor around ignored suffix t) inputs founds := by
    simp only [mapM_eq_ok_iff, filesOf_eq_ok_iff]
  have hlocated {founds : List (List Path)}
      (h : List.Forall₂ (StandsFor around ignored suffix t) inputs founds) :
      (founds.flatten.mapM fun p => do
        return (← (t.canonical around p).mapError Failure.path, p)) =
        .ok (founds.flatten.map fun p => (t.resolved around p, p)) := by
    refine mapM_eq_ok_map fun p hp => ?_
    rw [canonical_of_standsFor h hp]
    rfl
  have htaken (found : List Path) :
      (firstOfEach Prod.fst (found.map fun p => (t.resolved around p, p))).map Prod.snd =
        firstOfEach (t.resolved around) found := by
    rw [firstOfEach_map, List.map_map]
    exact List.map_id _
  unfold filesOfAll
  simp only [bind_eq_ok_iff, hstands]
  constructor
  · rintro ⟨founds, h, located, hmapM, hfiles⟩
    obtain rfl := Except.ok.inj ((hlocated h).symm.trans hmapM)
    exact ⟨founds, h, (Except.ok.inj hfiles).symm.trans (htaken _)⟩
  · rintro ⟨founds, h, rfl⟩
    exact ⟨founds, h, _, hlocated h, congrArg Except.ok (htaken _)⟩

theorem stat_of_mem_filesOfAll {inputs : List Path} {p : Path}
    (h : filesOfAll around ignored suffix t inputs = .ok files) (hp : p ∈ files) :
    ∃ content, t.stat around.working p = .ok (.file content) := by
  obtain ⟨founds, hfounds, rfl⟩ := filesOfAll_eq_ok_iff.mp h
  obtain ⟨found, hfound, hp⟩ := List.mem_flatten.mp ((firstOfEach_sublist _ _).subset hp)
  obtain ⟨input, -, hinput⟩ := exists_of_forall₂_mem hfounds hfound
  exact hinput.stat hp

theorem exists_filesOfAll_iff {inputs : List Path} :
    (∃ files, filesOfAll around ignored suffix t inputs = .ok files) ↔
      ∀ input ∈ inputs, ∃ found, StandsFor around ignored suffix t input found := by
  simp only [filesOfAll_eq_ok_iff, ← exists_forall₂_iff]
  constructor
  · rintro ⟨_, founds, h, -⟩
    exact ⟨founds, h⟩
  · rintro ⟨founds, h⟩
    exact ⟨_, founds, h, rfl⟩

variable {clean : Bool} {log : Log}

theorem run_expandInputs_iff (hq : log.Quiet clean) {s : Session} {inputs : List Path} :
    (∃ s', (expandInputs around ignored suffix log inputs).run.run s = (.ok files, s')) ↔
      filesOfAll around ignored suffix s.tree inputs = .ok files := by
  have hreads : (expandInputs around ignored suffix log inputs).Reads clean _ :=
    reads_expandInputs hq inputs
  constructor
  · rintro ⟨s', hrun⟩
    exact (hreads.of_eq_ok hrun).1
  · intro h
    obtain ⟨s', hrun, -⟩ := hreads.run_ok h
    exact ⟨s', hrun⟩

/-- Files are taken once for each canonical path, as they come first. -/
structure TakenOnce (t : FileTree) (around : Surroundings) (found files : List Path) : Prop where
  resolves : ∀ p ∈ found, t.canonical around p = .ok (t.resolved around p)
  distinct : (files.map (t.resolved around)).Nodup
  same : ∀ q, q ∈ files.map (t.resolved around) ↔ q ∈ found.map (t.resolved around)
  inOrder : files.Sublist found
  first : ∀ p ∈ files, ∃ before after, found = before ++ p :: after ∧
    t.resolved around p ∉ before.map (t.resolved around)

theorem takenOnce_firstOfEach {found : List Path}
    (h : ∀ p ∈ found, t.canonical around p = .ok (t.resolved around p)) :
    TakenOnce t around found (firstOfEach (t.resolved around) found) where
  resolves := h
  distinct := nodup_map_firstOfEach _ _
  same _ := mem_map_firstOfEach
  inOrder := firstOfEach_sublist _ _
  first _ hp := exists_first_of_mem_firstOfEach hp

/-- The files that inputs stand for are taken once each, and further inputs add those that are not
there yet. Inputs are expanded unless one of them stands for nothing in the tree, not even for no
files. -/
theorem expandInputs_takes_once (hq : log.Quiet clean) (s : Session) (inputs : List Path) :
    ((∃ files s', (expandInputs around ignored suffix log inputs).run.run s = (.ok files, s')) ↔
      ∀ input ∈ inputs, ∃ found, StandsFor around ignored suffix s.tree input found) ∧
    (∀ files s', (expandInputs around ignored suffix log inputs).run.run s = (.ok files, s') →
      ∃ founds, List.Forall₂ (StandsFor around ignored suffix s.tree) inputs founds ∧
        TakenOnce s.tree around founds.flatten files) ∧
    ∀ more files files' s₁ s₂,
      (expandInputs around ignored suffix log inputs).run.run s = (.ok files, s₁) →
      (expandInputs around ignored suffix log more).run.run s = (.ok files', s₂) →
      ∃ s', (expandInputs around ignored suffix log (inputs ++ more)).run.run s =
        (.ok (files ++ files'.filter fun p =>
          s.tree.resolved around p ∉ files.map (s.tree.resolved around)), s') := by
  refine ⟨?_, fun files s' h => ?_, fun more files files' s₁ s₂ h h' => ?_⟩
  · simp only [run_expandInputs_iff hq, exists_filesOfAll_iff]
  · obtain ⟨founds, hfounds, rfl⟩ :=
      filesOfAll_eq_ok_iff.mp ((run_expandInputs_iff hq).mp ⟨s', h⟩)
    exact ⟨founds, hfounds, takenOnce_firstOfEach fun p hp => canonical_of_standsFor hfounds hp⟩
  · obtain ⟨founds, hfounds, rfl⟩ :=
      filesOfAll_eq_ok_iff.mp ((run_expandInputs_iff hq).mp ⟨s₁, h⟩)
    obtain ⟨founds', hfounds', rfl⟩ :=
      filesOfAll_eq_ok_iff.mp ((run_expandInputs_iff hq).mp ⟨s₂, h'⟩)
    refine (run_expandInputs_iff hq).mpr (filesOfAll_eq_ok_iff.mpr
      ⟨founds ++ founds', List.rel_append hfounds hfounds', ?_⟩)
    rw [List.flatten_append, firstOfEach_append]
    simp only [mem_map_firstOfEach]

/-- The files that inputs stand for in a tree by the shipped settings. -/
def expandedIn (t : FileTree) (inputs : List Path) : Except Failure (List Path) × Session :=
  (expandInputs { working := [], home := "/home".toList } Settings.shippedDirectories
    "Controller.php".toList Log.nowhere inputs).run.run { tree := t }

theorem stat_sources_file :
    sources.stat [] ⟨.relative, [['a'], ['s'], "AController.php".toList]⟩ = .ok (.file []) := by
  cbv

/-- A directory and a file below it that is also listed as the target of a link: the two paths lead
to one file, and that of the link comes first. -/
theorem expandInputs_takes_sources_once :
    Log.nowhere.Quiet true ∧
      expandedIn sources [⟨.relative, [['a']]⟩] =
        (.ok [⟨.relative, [['a'], "LController.php".toList]⟩], { tree := sources }) ∧
      expandedIn sources [⟨.relative, [['a'], ['s'], "AController.php".toList]⟩] =
        (.ok [⟨.relative, [['a'], ['s'], "AController.php".toList]⟩], { tree := sources }) ∧
      (∃ founds, TakenOnce sources { working := [], home := "/home".toList } founds
        [⟨.relative, [['a'], "LController.php".toList]⟩]) ∧
      ∃ files s', expandedIn sources
        [⟨.relative, [['a']]⟩, ⟨.relative, [['a'], ['s'], "AController.php".toList]⟩] =
          (.ok (⟨.relative, [['a'], "LController.php".toList]⟩ :: files), s') := by
  have hq : Log.nowhere.Quiet true := Log.quiet_nowhere true
  have hdirectory : expandedIn sources [⟨.relative, [['a']]⟩] =
      (.ok [⟨.relative, [['a'], "LController.php".toList]⟩], { tree := sources }) := by
    have hstat : sources.stat [] ⟨.relative, [['a']]⟩ = .ok .directory := by cbv
    rw [expandedIn, run_expandInputs_nowhere, filesOfAll_eq_ok_iff.mpr
      ⟨_, .cons (.directory rfl hstat controllerFiles_sources) .nil, rfl⟩]
    cbv
  have hfile : expandedIn sources [⟨.relative, [['a'], ['s'], "AController.php".toList]⟩] =
      (.ok [⟨.relative, [['a'], ['s'], "AController.php".toList]⟩], { tree := sources }) := by
    rw [expandedIn, run_expandInputs_nowhere, filesOfAll_eq_ok_iff.mpr
      ⟨_, .cons (.file rfl stat_sources_file) .nil, rfl⟩]
    rfl
  obtain ⟨-, htaken, happend⟩ := expandInputs_takes_once hq { tree := sources }
    [⟨.relative, [['a']]⟩]
  obtain ⟨founds, -, hfounds⟩ := htaken _ _ hdirectory
  exact ⟨hq, hdirectory, hfile, ⟨_, hfounds⟩, _, happend _ _ _ _ _ hdirectory hfile⟩

set_option maxRecDepth 4000 in
/-- An input that is no file and no directory, because no file can have its name, is not skipped: it
keeps the file after it from being found. -/
theorem nothing_expanded_beside_overlong_input :
    sources.stat [] ⟨.relative, [['a'], ['s'], "AController.php".toList]⟩ = .ok (.file []) ∧
      sources.stat [] ⟨.relative, [List.replicate 256 'a']⟩ = .error .nameTooLong ∧
      expandedIn sources [⟨.relative, [List.replicate 256 'a']⟩,
        ⟨.relative, [['a'], ['s'], "AController.php".toList]⟩] =
          (.error (.path (.file ⟨.nameTooLong, ⟨.relative, [List.replicate 256 'a']⟩⟩)),
            { tree := sources }) := by
  have hstat : sources.stat [] ⟨.relative, [List.replicate 256 'a']⟩ = .error .nameTooLong := by
    cbv
  refine ⟨stat_sources_file, hstat, ?_⟩
  rw [expandedIn, run_expandInputs_nowhere, filesOfAll, List.mapM_cons, filesOf_eq rfl, hstat]
  rfl

end Discovery

end AnnotatedRoutes
