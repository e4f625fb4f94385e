import AnnotatedRoutes.Proofs.CatalogEntries
import AnnotatedRoutes.Proofs.DirectoryWalk
import AnnotatedRoutes.Settings.Shipped
import Mathlib.Data.List.Permutation

namespace AnnotatedRoutes

namespace Discovery

variable {t u : FileTree} {working d : Location} {root p : Path} {ignored : List Text}
  {suffix : Text} {names : List Text} {e : Entry}

theorem pathBelow_injective (root : Path) : Function.Injective (pathBelow root) := by
  intro names names' h
  exact List.append_cancel_left (congrArg Path.names h)

/-- A path is a controller's if it leads to a file with such a name; only one that is too long keeps
this from being told. -/
theorem controllerAt?_eq (t : FileTree) (working : Location) (suffix : Text) (root : Path)
    (names : List Text) :
    controllerAt? t working suffix root names =
      match t.stat working (pathBelow root names) with
      | .ok e =>
        .ok (if e.isFile && isControllerName suffix (pathBelow root names) then
          some (pathBelow root names) else none)
      | .error .nameTooLong => .error ⟨.nameTooLong, pathBelow root names⟩
      | .error _ => .ok none := by
  unfold controllerAt? FileTree.isFile FileTree.asks
  dsimp only
  cases hstat : t.stat working (pathBelow root names) with
  | ok e => cases e <;> rfl
  | error fault =>
    rcases FileTree.fault_of_stat hstat with rfl | habsent
    · rfl
    · cases fault <;> first | rfl | cases habsent

/-- Whether a file that a walk comes to is listed, if its path can be asked about. -/
def lists (t : FileTree) (working : Location) (suffix : Text) (root : Path)
    (names : List Text) : Bool :=
  isControllerName suffix (pathBelow root names) &&
    match t.stat working (pathBelow root names) with
    | .ok e => e.isFile
    | .error _ => false

theorem stat_of_lists (h : lists t working suffix root names = true) :
    ∃ content, t.stat working (pathBelow root names) = .ok (.file content) := by
  rw [lists, Bool.and_eq_true] at h
  cases hstat : t.stat working (pathBelow root names) with
  | error fault => simp [hstat] at h
  | ok e =>
    cases e with
    | file content => exact ⟨content, rfl⟩
    | directory | link => simp [hstat, Entry.isFile] at h

theorem controllerAt?_eq_ok {result : Option Path}
    (h : controllerAt? t working suffix root names = .ok result) :
    result = if lists t working suffix root names = true then some (pathBelow root names)
      else none := by
  rw [controllerAt?_eq] at h
  unfold lists
  split at h
  next e hstat => rw [← Except.ok.inj h, hstat, Bool.and_comm]
  next => cases h
  next hstat => rw [← Except.ok.inj h, hstat, Bool.and_false, if_neg Bool.false_ne_true]

theorem exists_controllerAt?_iff :
    (∃ result, controllerAt? t working suffix root names = .ok result) ↔
      t.stat working (pathBelow root names) ≠ .error .nameTooLong := by
  rw [controllerAt?_eq]
  split
  next e hstat => exact iff_of_true ⟨_, rfl⟩ (by simp [hstat])
  next hstat => exact iff_of_false nofun fun h => h hstat
  next fault hlong hstat =>
    refine iff_of_true ⟨_, rfl⟩ fun h => ?_
    exact hlong (Except.error.inj (hstat.symm.trans h))

/-- The listing: the paths of the files that a walk comes to and that are listed. -/
theorem filterMap_of_mapM {as : List (List Text)} {results : List (Option Path)}
    (h : as.mapM (controllerAt? t working suffix root) = .ok results) :
    results.filterMap id = (as.filter (lists t working suffix root)).map (pathBelow root) := by
  have hall := mapM_eq_ok_iff.mp h
  clear h
  induction hall with
  | nil => rfl
  | @cons names result as results hresult _ ih =>
    rw [controllerAt?_eq_ok hresult, List.filter_cons, List.filterMap_cons, ih]
    cases lists t working suffix root names <;> rfl

theorem stat_of_countsAsDirectory (hne : e ≠ .directory)
    (h : countsAsDirectory t working p e = true) : t.stat working p = .ok .directory := by
  cases e with
  | directory => exact absurd rfl hne
  | file => cases h
  | link target =>
    rw [countsAsDirectory, leadsToDirectory, FileTree.isDirectory, FileTree.asks] at h
    cases hstat : t.stat working p with
    | error fault =>
      rw [hstat] at h
      cases hfault : fault.tellsAbsence <;> simp [hfault] at h
    | ok e => cases e <;> simp [hstat, Entry.isDirectory] at h ⊢

section Root

variable (hroot : t.find .target working root = .ok d) (hd : t.entry? d = some .directory)

include hroot hd

theorem controllerFiles_eq : controllerFiles t working ignored suffix root =
    ((walk t working ignored root d []).mapM (controllerAt? t working suffix root)).map
      (·.filterMap id) := by
  unfold controllerFiles
  rw [hroot]
  exact if_pos hd

theorem exists_controllerFiles_iff :
    (∃ files, controllerFiles t working ignored suffix root = .ok files) ↔
      ∀ names e, t.Reaches ignored d names e → opens root names.dropLast = true →
        t.stat working (pathBelow root names) ≠ .error .nameTooLong := by
  have hmapM : (∃ files, controllerFiles t working ignored suffix root = .ok files) ↔
      ∃ results, (walk t working ignored root d []).mapM (controllerAt? t working suffix root) =
        .ok results := by
    rw [controllerFiles_eq hroot hd]
    cases (walk t working ignored root d []).mapM (controllerAt? t working suffix root) with
    | error e => exact iff_of_false nofun nofun
    | ok results => exact iff_of_true ⟨_, rfl⟩ ⟨_, rfl⟩
  rw [hmapM, exists_mapM_iff]
  simp only [exists_controllerAt?_iff]
  constructor
  · intro h names e he hopens
    cases hdirectory : countsAsDirectory t working (pathBelow root names) e with
    | true =>
      rw [stat_of_countsAsDirectory he.entry?.2 hdirectory]
      exact nofun
    | false => exact h names (mem_walk_iff.mpr ⟨names, e, rfl, he, hopens, hdirectory⟩)
  · intro h names hnames
    obtain ⟨_, e, rfl, he, hopens, -⟩ := mem_walk_iff.mp hnames
    exact h names e he hopens

theorem eq_of_controllerFiles {files : List Path}
    (h : controllerFiles t working ignored suffix root = .ok files) :
    files = ((walk t working ignored root d []).filter (lists t working suffix root)).map
      (pathBelow root) := by
  rw [controllerFiles_eq hroot hd] at h
  cases hresults : (walk t working ignored root d []).mapM
      (controllerAt? t working suffix root) with
  | error e =>
    rw [hresults] at h
    cases h
  | ok results =>
    rw [hresults] at h
    rw [← Except.ok.inj h]
    exact filterMap_of_mapM hresults

end Root

theorem controllerFiles_of_alike (h : t.Alike u) :
    controllerFiles t working ignored suffix root =
      controllerFiles u working ignored suffix root := by
  have hat : controllerAt? t working suffix root = controllerAt? u working suffix root := by
    funext names
    unfold controllerAt?
    dsimp only
    rw [h.isFile_eq]
  unfold controllerFiles
  rw [h.find_eq, hat]
  split
  · rfl
  · rfl
  next d _ =>
    rw [walk_eq_of_alike h]
    exact if_congr h.directory_iff rfl rfl

/-- Whether an entry that a path names is a file, or a link that leads to one. -/
def IsOrLeadsToFile (t : FileTree) (working : Location) (p : Path) : Entry → Prop
  | .file _ => True
  | .link _ => ∃ content, t.stat working p = .ok (.file content)
  | .directory => False

theorem lists_iff_of_reaches (ht : t.WellFormed) (hroot : t.find .target working root = .ok d)
    (hd : t.entry? d = some .directory) (he : t.Reaches ignored d names e)
    (hshort : t.stat working (pathBelow root names) ≠ .error .nameTooLong) :
    lists t working suffix root names = true ↔
      isControllerName suffix (pathBelow root names) = true ∧
        IsOrLeadsToFile t working (pathBelow root names) e := by
  rw [lists, Bool.and_eq_true]
  refine and_congr_right fun _ => ?_
  cases e with
  | directory => exact absurd rfl he.entry?.2
  | file content =>
    have hstat : t.stat working (pathBelow root names) = .ok (.file content) :=
      FileTree.stat_of_reaches_file ht hroot hd he hshort
    rw [hstat]
    exact iff_of_true rfl trivial
  | link target =>
    rw [IsOrLeadsToFile]
    cases t.stat working (pathBelow root names) with
    | error fault => simp
    | ok e => cases e <;> simp [Entry.isFile]

/-- The controller files below a directory: each of them once, in order, and whatever the order of
the entries is. Nothing is listed at all if the path of an entry in a directory that can be opened
is refused for its length. -/
theorem controllerFiles_lists (ht : t.WellFormed) (hroot : t.find .target working root = .ok d)
    (hd : t.entry? d = some .directory) :
    ((∃ files, controllerFiles t working ignored suffix root = .ok files) ↔
      ∀ names e, t.Reaches ignored d names e → opens root names.dropLast = true →
        t.stat working (pathBelow root names) ≠ .error .nameTooLong) ∧
    (∀ files, controllerFiles t working ignored suffix root = .ok files →
      ∃ listed : List (List Text), files = listed.map (pathBelow root) ∧ files.Nodup ∧
        listed.Pairwise Precedes ∧
        ∀ names, names ∈ listed ↔ ∃ e, t.Reaches ignored d names e ∧
          opens root names.dropLast = true ∧
          isControllerName suffix (pathBelow root names) = true ∧
          IsOrLeadsToFile t working (pathBelow root names) e) ∧
    ∀ u : FileTree, u.entries.entries.Perm t.entries.entries →
      controllerFiles u working ignored suffix root =
        controllerFiles t working ignored suffix root := by
  have hreturns : (∃ files, controllerFiles t working ignored suffix root = .ok files) ↔ _ :=
    exists_controllerFiles_iff hroot hd
  refine ⟨hreturns, fun files h => ?_, fun u hperm => ?_⟩
  · have hshort := hreturns.mp ⟨files, h⟩
    have horder : ((walk t working ignored root d []).filter
        (lists t working suffix root)).Pairwise Precedes :=
      (pairwise_walk t working ignored root d []).sublist List.filter_sublist
    refine ⟨_, eq_of_controllerFiles hroot hd h, ?_, horder, fun names => ?_⟩
    · rw [eq_of_controllerFiles hroot hd h]
      exact List.Nodup.map (pathBelow_injective root) (horder.imp Precedes.ne)
    · rw [List.mem_filter, mem_walk_iff]
      constructor
      · rintro ⟨⟨_, e, rfl, he, hopens, -⟩, hlists⟩
        exact ⟨e, he, hopens,
          (lists_iff_of_reaches ht hroot hd he (hshort _ e he hopens)).mp hlists⟩
      · rintro ⟨e, he, hopens, hlisted⟩
        have hlists := (lists_iff_of_reaches ht hroot hd he (hshort names e he hopens)).mpr hlisted
        obtain ⟨content, hstat⟩ := stat_of_lists hlists
        refine ⟨⟨names, e, rfl, he, hopens, eq_false_of_ne_true fun hdirectory => ?_⟩, hlists⟩
        cases hstat.symm.trans (stat_of_countsAsDirectory he.entry?.2 hdirectory)
  · exact controllerFiles_of_alike (FileTree.Alike.of_perm hperm)

/-- A directory with a link to a controller file, two subdirectories, and a file in each of
these. -/
def sources : FileTree where
  entries := .ofList [([['a']], .directory),
    ([['a'], "LController.php".toList], .link "s/AController.php".toList),
    ([['a'], ['s']], .directory), ([['a'], ['s'], "AController.php".toList], .file []),
    ([['a'], "Vendor".toList], .directory),
    ([['a'], "Vendor".toList, "VController.php".toList], .file [])]

theorem walk_sources :
    walk sources [] Settings.shippedDirectories ⟨.relative, [['a']]⟩ [['a']] [] =
      [["LController.php".toList], [['s'], "AController.php".toList]] := by
  let root : Path := ⟨.relative, [['a']]⟩
  have hlink : leadsToDirectory sources [] (pathBelow root ["LController.php".toList]) = false := by
    cbv
  have hnames : namesIn sources [['a']] =
      [("LController.php".toList, .link "s/AController.php".toList), (['s'], .directory),
        ("Vendor".toList, .directory)] := by decide
  have hfiles : fileNames sources [] root [['a']] [] = ["LController.php".toList] := by
    simp only [fileNames, hnames, List.filter, countsAsDirectory, hlink, Bool.not_false,
      Bool.not_true, List.nil_append]
    exact List.mergeSort_of_pairwise (by decide)
  have hsubdirectories : subdirectories sources Settings.shippedDirectories [['a']] = [['s']] := by
    decide +kernel
  have hfiles' : fileNames sources [] root [['a'], ['s']] [['s']] = ["AController.php".toList] := by
    decide +kernel
  have hsubdirectories' :
      subdirectories sources Settings.shippedDirectories [['a'], ['s']] = [] := by
    decide +kernel
  have hbelow : walk sources [] Settings.shippedDirectories root [['a'], ['s']] [['s']] =
      [[['s'], "AController.php".toList]] := by
    rw [walk_eq, if_pos (by decide), hfiles', hsubdirectories']
    rfl
  rw [walk_eq, if_pos (by decide), hfiles, hsubdirectories, List.flatMap_singleton]
  exact congrArg (["LController.php".toList] :: ·) hbelow

theorem find_sources : sources.find .target [] ⟨.relative, [['a']]⟩ = .ok [['a']] := by cbv

theorem controllerFiles_sources :
    controllerFiles sources [] Settings.shippedDirectories "Controller.php".toList
      ⟨.relative, [['a']]⟩ =
      .ok [pathBelow ⟨.relative, [['a']]⟩ ["LController.php".toList],
        pathBelow ⟨.relative, [['a']]⟩ [['s'], "AController.php".toList]] := by
  have hd : sources.entry? [['a']] = some .directory := by decide
  rw [controllerFiles_eq find_sources hd, walk_sources]
  cbv

/-- The link comes before what is in the subdirectory, and one subdirectory is passed over. -/
theorem controllerFiles_lists_sources :
    let root : Path := ⟨.relative, [['a']]⟩
    let files := [pathBelow root ["LController.php".toList],
      pathBelow root [['s'], "AController.php".toList]]
    sources.WellFormed ∧ sources.find .target [] root = .ok [['a']] ∧
      sources.entry? [['a']] = some .directory ∧
      controllerFiles sources [] Settings.shippedDirectories "Controller.php".toList root =
        .ok files ∧
      ∃ listed : List (List Text), files = listed.map (pathBelow root) ∧
        listed.Pairwise Precedes := by
  intro root files
  have ht : sources.WellFormed := by decide
  have hd : sources.entry? [['a']] = some .directory := by decide
  obtain ⟨listed, hlisted, -, horder, -⟩ :=
    (controllerFiles_lists ht find_sources hd).2.1 files controllerFiles_sources
  exact ⟨ht, find_sources, hd, controllerFiles_sources, listed, hlisted, horder⟩

/-- A controller file, and a link whose target no file can have as its name. -/
def besideOverlongLink : FileTree where
  entries := .ofList [([['a']], .directory), ([['a'], "AController.php".toList], .file []),
    ([['a'], "odd".toList], .link (List.replicate 256 'a'))]

set_option maxRecDepth 4000 in
theorem walk_besideOverlongLink :
    walk besideOverlongLink [] Settings.shippedDirectories ⟨.relative, [['a']]⟩ [['a']] [] =
      [["AController.php".toList], ["odd".toList]] := by
  let root : Path := ⟨.relative, [['a']]⟩
  have hlink : leadsToDirectory besideOverlongLink [] (pathBelow root ["odd".toList]) = false := by
    cbv
  have hnames : namesIn besideOverlongLink [['a']] = [("AController.php".toList, .file []),
      ("odd".toList, .link (List.replicate 256 'a'))] := by rfl
  have hfiles : fileNames besideOverlongLink [] root [['a']] [] =
      ["AController.php".toList, "odd".toList] := by
    simp only [fileNames, hnames, List.filter, countsAsDirectory, hlink, Bool.not_false,
      List.nil_append]
    exact List.mergeSort_of_pairwise (by decide)
  have hsubdirectories : subdirectories besideOverlongLink Settings.shippedDirectories [['a']] =
      [] := by decide +kernel
  rw [walk_eq, if_pos (by decide), hfiles, hsubdirectories]
  rfl

set_option maxRecDepth 4000 in
/-- A link with an overlong target keeps the controller file beside it from being listed, although
the name of the link is not that of a controller. -/
theorem nothing_listed_beside_overlong_link :
    let root : Path := ⟨.relative, [['a']]⟩
    let suffix := "Controller.php".toList
    besideOverlongLink.WellFormed ∧ besideOverlongLink.find .target [] root = .ok [['a']] ∧
      besideOverlongLink.entry? [['a']] = some .directory ∧
      besideOverlongLink.Reaches Settings.shippedDirectories [['a']] ["AController.php".toList]
        (.file []) ∧
      isControllerName suffix (pathBelow root ["AController.php".toList]) = true ∧
      isControllerName suffix (pathBelow root ["odd".toList]) = false ∧
      controllerFiles besideOverlongLink [] Settings.shippedDirectories suffix root =
        .error ⟨.nameTooLong, pathBelow root ["odd".toList]⟩ := by
  have hroot : besideOverlongLink.find .target [] ⟨.relative, [['a']]⟩ = .ok [['a']] := by cbv
  have hd : besideOverlongLink.entry? [['a']] = some .directory := by decide
  have hfile : besideOverlongLink.stat []
      (pathBelow ⟨.relative, [['a']]⟩ ["AController.php".toList]) = .ok (.file []) := by cbv
  have hlink : besideOverlongLink.stat [] (pathBelow ⟨.relative, [['a']]⟩ ["odd".toList]) =
      .error .nameTooLong := by cbv
  refine ⟨by decide, hroot, hd, .here (by decide) (by decide), by decide, by decide, ?_⟩
  rw [controllerFiles_eq hroot hd, walk_besideOverlongLink]
  simp only [List.mapM_cons, controllerAt?_eq, hfile, hlink]
  rfl

end Discovery

end AnnotatedRoutes
