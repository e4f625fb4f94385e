import AnnotatedRoutes.Session

namespace AnnotatedRoutes

namespace Discovery

/-- The name of an entry in a directory that it stands in. -/
def nameIn? (l : Location) (entry : Location × Entry) : Option (Text × Entry) :=
  match Path.namesBelow? l entry.1 with
  | some [name] => some (name, entry.2)
  | _ => none

/-- The names of what stands in a directory, with the entries. -/
def namesIn (t : FileTree) (l : Location) : List (Text × Entry) :=
  t.entries.entries.filterMap (nameIn? l)

/-- The subdirectories that a walk goes on to, in order: no links, and no names to pass over. -/
def subdirectories (t : FileTree) (ignored : List Text) (l : Location) : List Text :=
  (((namesIn t l).filter fun entry =>
    entry.2 = .directory && !ignored.contains (Text.lower entry.1)).map Prod.fst).mergeSort Text.le

/-- Whether a path leads to a directory; one that leads nowhere does not. -/
def leadsToDirectory (t : FileTree) (working : Location) (p : Path) : Bool :=
  match t.isDirectory working p with
  | .ok answer => answer
  | .error _ => false

/-- Whether the name of a file is that of a controller. -/
def isControllerName (suffix : Text) (p : Path) : Bool := Text.endsWith p.name suffix

/-- The path of an entry below a directory. -/
def pathBelow (root : Path) (names : List Text) : Path := root.join ⟨.relative, names⟩

/-- The text by which a directory below another one is opened. -/
def openedText (root : Path) (names : List Text) : Text :=
  if root = Path.here then "./".toList ++ Text.join ['/'] names
  else (pathBelow root names).toText

/-- Whether the directory that `names` lead to can be opened; one whose text is too long is passed
over. -/
def opens (root : Path) (names : List Text) : Bool :=
  FileTree.byteLength (openedText root names) ≤ FileTree.pathLimit

/-- Whether an entry counts as a directory where it is listed: links to directories do. -/
def countsAsDirectory (t : FileTree) (working : Location) (p : Path) : Entry → Bool
  | .directory => true
  | .file _ => false
  | .link _ => leadsToDirectory t working p

/-- The names of the files in the directory that `names` lead to, in order. -/
def fileNames (t : FileTree) (working : Location) (root : Path) (l : Location)
    (names : List Text) : List Text :=
  (((namesIn t l).filter fun entry =>
    !countsAsDirectory t working (pathBelow root (names ++ [entry.1])) entry.2).map
      Prod.fst).mergeSort Text.le

/-- The number of names that lead to the deepest entry. -/
def depth (t : FileTree) : Nat :=
  t.entries.entries.foldr (fun entry deepest => max entry.1.length deepest) 0

theorem nameIn?_eq_some_iff {l : Location} {entry : Location × Entry} {x : Text × Entry} :
    nameIn? l entry = some x ↔ entry = (l ++ [x.1], x.2) := by
  obtain ⟨l', e⟩ := entry
  unfold nameIn?
  constructor
  · intro h
    split at h
    next name hbelow =>
      cases h
      exact congrArg (·, e) (Path.namesBelow?_eq_some_iff.mp hbelow)
    next => cases h
  · rintro ⟨⟩
    rw [Path.namesBelow?_eq_some_iff.mpr rfl]

theorem mem_namesIn_iff {t : FileTree} {l : Location} {name : Text} {e : Entry} :
    (name, e) ∈ namesIn t l ↔ (l ++ [name], e) ∈ t.entries.entries := by
  rw [namesIn, List.mem_filterMap]
  simp only [nameIn?_eq_some_iff, exists_eq_right]

theorem length_le_depth {t : FileTree} {entry : Location × Entry}
    (h : entry ∈ t.entries.entries) : entry.1.length ≤ depth t := by
  unfold depth
  generalize t.entries.entries = entries at h
  induction entries with
  | nil => cases h
  | cons first rest ih =>
    rw [List.foldr_cons]
    rcases List.mem_cons.mp h with rfl | h
    · exact Nat.le_max_left _ _
    · exact Nat.le_trans (ih h) (Nat.le_max_right _ _)

theorem length_lt_depth {t : FileTree} {ignored : List Text} {l : Location} {name : Text}
    (h : name ∈ subdirectories t ignored l) : l.length < depth t := by
  obtain ⟨⟨name', e⟩, hmem, rfl⟩ := List.mem_map.mp (List.mem_mergeSort.mp h)
  have hlength := length_le_depth (mem_namesIn_iff.mp (List.mem_filter.mp hmem).1)
  rw [List.length_append, List.length_singleton] at hlength
  exact hlength

/-- The names that lead to the files below a directory: first those in it, then those that each of
its subdirectories has below it. -/
def walk (t : FileTree) (working : Location) (ignored : List Text) (root : Path) (l : Location)
    (names : List Text) : List (List Text) :=
  if opens root names then
    (fileNames t working root l names).map (fun name => names ++ [name]) ++
      (subdirectories t ignored l).attach.flatMap fun ⟨name, _⟩ =>
        walk t working ignored root (l ++ [name]) (names ++ [name])
  else []
termination_by depth t - l.length
decreasing_by
  next hname =>
    have hlength := length_lt_depth hname
    rw [List.length_append, List.length_singleton]
    omega

theorem walk_eq (t : FileTree) (working : Location) (ignored : List Text) (root : Path)
    (l : Location) (names : List Text) : walk t working ignored root l names =
      if opens root names then
        (fileNames t working root l names).map (fun name => names ++ [name]) ++
          (subdirectories t ignored l).flatMap fun name =>
            walk t working ignored root (l ++ [name]) (names ++ [name])
      else [] := by
  rw [walk]
  simp only [List.flatMap_subtype, List.unattach_attach]

/-- The path of a file that a walk comes to, if the file is a controller's. -/
def controllerAt? (t : FileTree) (working : Location) (suffix : Text) (root : Path)
    (names : List Text) : Except FileError (Option Path) := do
  let p := pathBelow root names
  let isFile ← t.isFile working p
  return if isFile && isControllerName suffix p then some p else none

/-- The controller files below a directory. Links to directories are not followed, and a path that
leads to no directory has no files below it. -/
def controllerFiles (t : FileTree) (working : Location) (ignored : List Text) (suffix : Text)
    (root : Path) : Except FileError (List Path) :=
  match t.find .target working root with
  | .error .nullCharacter => .error ⟨.nullCharacter, root⟩
  | .error _ => .ok []
  | .ok directory =>
    if t.entry? directory = some .directory then
      ((walk t working ignored root directory []).mapM
        (controllerAt? t working suffix root)).map (·.filterMap id)
    else .ok []

/-- The files that one input stands for. -/
def expandInput (around : Surroundings) (ignored : List Text) (suffix : Text) (log : Log)
    (input : Path) : Run (List Path) := do
  let p ← Run.liftPath (input.expandHome around)
  let t ← Run.tree
  if ← Run.liftFile (t.isFile around.working p) then
    return [p]
  else if ← Run.liftFile (t.isDirectory around.working p) then
    let found ← Run.liftFile (controllerFiles t around.working ignored suffix p)
    log ("[SCAN] ".toList ++ p.toText ++ " controllers=".toList ++ Text.ofNat found.length)
    return found
  else
    log ("[SKIP] ".toList ++ p.toText ++ " not a file or directory".toList)
    return []

/-- The files that some inputs stand for, each of them once: files are taken as they are given,
directories stand for the controller files below them, and other inputs for nothing. -/
def expandInputs (around : Surroundings) (ignored : List Text) (suffix : Text) (log : Log)
    (inputs : List Path) : Run (List Path) := do
  let files ← inputs.mapM (expandInput around ignored suffix log)
  let t ← Run.tree
  let located ← files.flatten.mapM fun p => do
    return (← Run.liftPath (t.canonical around p), p)
  return (firstOfEach Prod.fst located).map Prod.snd

end Discovery

end AnnotatedRoutes
