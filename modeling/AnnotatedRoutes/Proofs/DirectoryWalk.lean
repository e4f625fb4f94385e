import AnnotatedRoutes.Discovery
import AnnotatedRoutes.Proofs.BelowDirectory
import AnnotatedRoutes.Proofs.ListingOrder

namespace AnnotatedRoutes

namespace Discovery

variable {t u : FileTree} {working l d : Location} {root p : Path} {ignored : List Text}
  {name : Text} {names : List Text} {e : Entry}

theorem mem_namesIn_iff_eq_some : (name, e) ∈ namesIn t l ↔ t.entry? (l ++ [name]) = some e := by
  rw [mem_namesIn_iff, FileTree.entry?, if_neg (by simp), Keyed.get?_eq_some_iff]

theorem nodup_names_namesIn (t : FileTree) (l : Location) :
    ((namesIn t l).map Prod.fst).Nodup := by
  rw [namesIn, List.Nodup, List.pairwise_map, List.pairwise_filterMap]
  refine (List.pairwise_map.mp t.entries.distinct).imp fun {a b} hab x hx y hy hxy => hab ?_
  rw [nameIn?_eq_some_iff.mp hx, nameIn?_eq_some_iff.mp hy, hxy]

/-- Names with some of the entries in a directory, in order. -/
theorem pairwise_lt_names (t : FileTree) (l : Location) (keep : Text × Entry → Bool) :
    ((((namesIn t l).filter keep).map Prod.fst).mergeSort Text.le).Pairwise (· < ·) :=
  Text.pairwise_lt_mergeSort
    ((nodup_names_namesIn t l).sublist (List.filter_sublist.map Prod.fst))

theorem mem_subdirectories_iff : name ∈ subdirectories t ignored l ↔
    t.entry? (l ++ [name]) = some .directory ∧ Text.lower name ∉ ignored := by
  rw [subdirectories, List.mem_mergeSort, List.mem_map]
  simp only [List.mem_filter, Bool.and_eq_true, decide_eq_true_eq, Bool.not_eq_true',
    List.contains_eq_mem, decide_eq_false_iff_not]
  constructor
  · rintro ⟨⟨name, e⟩, ⟨hmem, rfl, hkept⟩, rfl⟩
    exact ⟨mem_namesIn_iff_eq_some.mp hmem, hkept⟩
  · rintro ⟨hd, hkept⟩
    exact ⟨(name, .directory), ⟨mem_namesIn_iff_eq_some.mpr hd, rfl, hkept⟩, rfl⟩

theorem mem_fileNames_iff : name ∈ fileNames t working root l names ↔
    ∃ e, t.entry? (l ++ [name]) = some e ∧
      countsAsDirectory t working (pathBelow root (names ++ [name])) e = false := by
  rw [fileNames, List.mem_mergeSort, List.mem_map]
  simp only [List.mem_filter, Bool.not_eq_true']
  constructor
  · rintro ⟨⟨name, e⟩, ⟨hmem, hfile⟩, rfl⟩
    exact ⟨e, mem_namesIn_iff_eq_some.mp hmem, hfile⟩
  · rintro ⟨e, he, hfile⟩
    exact ⟨(name, e), ⟨mem_namesIn_iff_eq_some.mpr he, hfile⟩, rfl⟩

/-- A directory can be opened only if those above it can. -/
theorem opens_of_append {names' : List Text} (h : opens root (names ++ names') = true) :
    opens root names = true := by
  unfold opens at h ⊢
  rw [decide_eq_true_eq] at h ⊢
  refine Nat.le_trans (FileTree.byteLength_le_of_prefix ?_) h
  unfold openedText
  split
  next => exact (List.prefix_append_right_inj _).mpr (Text.join_prefix_append _ _ _)
  next hroot =>
    have htext (names : List Text) : (pathBelow root names).toText =
        Path.PathRoot.text root.root ++ Text.join ['/'] (root.names ++ names) := by
      refine if_neg fun h => hroot ?_
      obtain ⟨hkind, hnames⟩ := Path.mk.inj h
      obtain ⟨hnames, -⟩ := List.append_eq_nil_iff.mp hnames
      cases root
      cases hkind
      cases hnames
      rfl
    rw [htext, htext, ← List.append_assoc]
    exact (List.prefix_append_right_inj _).mpr (Text.join_prefix_append _ _ _)

/-- What a walk comes to. -/
theorem mem_walk_iff {found : List Text} : found ∈ walk t working ignored root l names ↔
    ∃ below e, found = names ++ below ∧ t.Reaches ignored l below e ∧
      opens root found.dropLast = true ∧
      countsAsDirectory t working (pathBelow root found) e = false := by
  induction l, names using walk.induct t ignored root with
  | case1 l names hopens ih =>
    rw [walk_eq, if_pos hopens, List.mem_append, List.mem_map, List.mem_flatMap]
    constructor
    · rintro (⟨name, hname, rfl⟩ | ⟨name, hname, hfound⟩)
      · obtain ⟨e, he, hfile⟩ := mem_fileNames_iff.mp hname
        have hne : e ≠ .directory := by
          rintro rfl
          cases hfile
        exact ⟨[name], e, rfl, .here he hne, by rwa [List.dropLast_concat], hfile⟩
      · obtain ⟨hd, hkept⟩ := mem_subdirectories_iff.mp hname
        obtain ⟨below, e, rfl, hreaches, hlisted⟩ := (ih name hname).mp hfound
        exact ⟨name :: below, e, by simp, .through hd hkept hreaches, hlisted⟩
    · rintro ⟨below, e, rfl, hreaches, hlisted⟩
      cases hreaches with
      | @here _ name _ he hne =>
        exact .inl ⟨name, mem_fileNames_iff.mpr ⟨e, he, hlisted.2⟩, rfl⟩
      | @through _ name below _ hd hkept hreaches =>
        have hname := mem_subdirectories_iff.mpr ⟨hd, hkept⟩
        exact .inr ⟨name, hname, (ih name hname).mpr ⟨below, e, by simp, hreaches, hlisted⟩⟩
  | case2 l names hclosed =>
    rw [walk_eq, if_neg hclosed]
    refine iff_of_false List.not_mem_nil ?_
    rintro ⟨below, e, rfl, hreaches, hopens, -⟩
    rw [List.dropLast_append_of_ne_nil hreaches.ne_nil] at hopens
    exact hclosed (opens_of_append hopens)

/-- A walk comes to the files in order. -/
theorem pairwise_walk (t : FileTree) (working : Location) (ignored : List Text) (root : Path)
    (l : Location) (names : List Text) :
    (walk t working ignored root l names).Pairwise Precedes := by
  induction l, names using walk.induct t ignored root with
  | case1 l names hopens ih =>
    have hbelow {found : List Text} {name : Text}
        (h : found ∈ walk t working ignored root (l ++ [name]) (names ++ [name])) :
        ∃ below, below ≠ [] ∧ found = names ++ name :: below := by
      obtain ⟨below, e, rfl, hreaches, -⟩ := mem_walk_iff.mp h
      exact ⟨below, hreaches.ne_nil, by simp⟩
    rw [walk_eq, if_pos hopens, List.pairwise_append, List.pairwise_map, List.pairwise_flatMap]
    refine ⟨?files, ⟨ih, ?subdirectories⟩, ?between⟩
    case files =>
      exact (pairwise_lt_names t l _).imp fun hlt => (Precedes.file hlt).append_left names
    case subdirectories =>
      refine (pairwise_lt_names t l _).imp fun hlt found hfound found' hfound' => ?_
      obtain ⟨below, hne, rfl⟩ := hbelow hfound
      obtain ⟨below', hne', rfl⟩ := hbelow hfound'
      exact (Precedes.directory hlt hne hne').append_left names
    case between =>
      intro found hfound found' hfound'
      obtain ⟨name, -, rfl⟩ := List.mem_map.mp hfound
      obtain ⟨name', -, hfound'⟩ := List.mem_flatMap.mp hfound'
      obtain ⟨below, hne, rfl⟩ := hbelow hfound'
      exact (Precedes.fileFirst name name' hne).append_left names
  | case2 l names hclosed =>
    rw [walk_eq, if_neg hclosed]
    exact .nil

/-- A walk is determined by what it comes to. -/
theorem walk_unique {found : List (List Text)} (horder : found.Pairwise Precedes)
    (hmem : ∀ names', names' ∈ found ↔ names' ∈ walk t working ignored root l names) :
    found = walk t working ignored root l names := by
  have hnodup {found : List (List Text)} (h : found.Pairwise Precedes) : found.Nodup :=
    h.imp Precedes.ne
  have hwalk := pairwise_walk t working ignored root l names
  refine List.Perm.eq_of_pairwise ?_ horder hwalk
    ((List.perm_ext_iff_of_nodup (hnodup horder) (hnodup hwalk)).mpr hmem)
  exact fun _ _ _ _ h h' => absurd h' h.asymm

theorem countsAsDirectory_eq (h : t.Alike u) {e e' : Entry} (hshape : e.shape = e'.shape) :
    countsAsDirectory t working p e = countsAsDirectory u working p e' := by
  have hleads : leadsToDirectory t working p = leadsToDirectory u working p := by
    rw [leadsToDirectory, leadsToDirectory, h.isDirectory_eq]
  cases e with
  | directory =>
    obtain rfl := Entry.shape_eq_directory.mp hshape.symm
    rfl
  | link target =>
    obtain rfl := Entry.shape_eq_link.mp hshape.symm
    exact hleads
  | file =>
    cases e' with
    | file => rfl
    | directory | link => cases hshape

theorem reaches_of_alike (h : t.Alike u) (hreaches : t.Reaches ignored l names e) :
    ∃ e', u.Reaches ignored l names e' ∧ e.shape = e'.shape := by
  induction hreaches with
  | @here l name e he hne =>
    obtain ⟨e', he', hshape⟩ :=
      FileTree.exists_of_shape? ((h _).symm.trans (FileTree.shape?_of_entry?_eq he))
    refine ⟨e', .here he' ?_, hshape.symm⟩
    rintro rfl
    exact hne (Entry.shape_eq_directory.mp hshape.symm)
  | through hd hkept _ ih =>
    obtain ⟨e', hreaches, hshape⟩ := ih
    exact ⟨e', .through (h.directory_iff.mp hd) hkept hreaches, hshape⟩

/-- What a walk comes to depends on the shape of the tree only. -/
theorem walk_eq_of_alike (h : t.Alike u) :
    walk t working ignored root l names = walk u working ignored root l names := by
  have hsub {t u : FileTree} (h : t.Alike u) (found : List Text) :
      found ∈ walk t working ignored root l names →
        found ∈ walk u working ignored root l names := by
    rw [mem_walk_iff, mem_walk_iff]
    rintro ⟨below, e, hfound, hreaches, hopens, hfile⟩
    obtain ⟨e', hreaches', hshape⟩ := reaches_of_alike h hreaches
    exact ⟨below, e', hfound, hreaches', hopens, countsAsDirectory_eq h hshape ▸ hfile⟩
  exact walk_unique (pairwise_walk t working ignored root l names)
    fun found => ⟨hsub h found, hsub h.symm found⟩

/-- The names from a directory to an entry below it that is no directory, if no directory on the
way is passed over. -/
def candidate? (ignored : List Text) (d : Location) (entry : Location × Entry) :
    Option (List Text) :=
  match Path.namesBelow? d entry.1 with
  | none => none
  | some names =>
    if entry.2 = .directory || names = [] ||
        names.dropLast.any fun name => ignored.contains (Text.lower name) then none
    else some names

/-- What stands below a directory and is no directory, in order. -/
def candidates (t : FileTree) (ignored : List Text) (d : Location) : List (List Text) :=
  (t.entries.entries.filterMap (candidate? ignored d)).mergeSort before

theorem candidate?_eq_some_iff {entry : Location × Entry} :
    candidate? ignored d entry = some names ↔ entry.1 = d ++ names ∧ entry.2 ≠ .directory ∧
      names ≠ [] ∧ ∀ name ∈ names.dropLast, Text.lower name ∉ ignored := by
  unfold candidate?
  split
  next hnone =>
    refine iff_of_false (by simp) fun h => ?_
    cases hnone.symm.trans (Path.namesBelow?_eq_some_iff.mpr h.1)
  next names' hsome =>
    rw [← Path.namesBelow?_eq_some_iff, hsome]
    split
    next h =>
      refine iff_of_false (by simp) ?_
      rintro ⟨⟨⟩, hne, hnames, hkept⟩
      simp only [hne, hnames, decide_false, Bool.false_or, List.any_eq_true,
        List.contains_iff_mem] at h
      obtain ⟨name, hname, hignored⟩ := h
      exact hkept name hname hignored
    next h =>
      simp only [Bool.or_eq_true, decide_eq_true_eq, List.any_eq_true, not_or, not_exists, not_and,
        List.contains_iff_mem] at h
      constructor
      · rintro ⟨⟩
        exact ⟨rfl, h.1.1, h.1.2, h.2⟩
      · exact fun h' => h'.1

/-- In a well-formed tree the candidates are the entries that directories lead to. -/
theorem mem_candidates_iff (ht : t.WellFormed) :
    names ∈ candidates t ignored d ↔ ∃ e, t.Reaches ignored d names e := by
  rw [candidates, List.mem_mergeSort, List.mem_filterMap]
  simp only [candidate?_eq_some_iff, FileTree.reaches_iff ht]
  constructor
  · rintro ⟨⟨_, e⟩, hmem, rfl, hne, hnames, hkept⟩
    have hl : d ++ names ≠ [] := by simp [hnames]
    have he : t.entry? (d ++ names) = some e := by
      rw [FileTree.entry?, if_neg hl, Keyed.get?_eq_some_iff.mpr hmem]
    exact ⟨e, hnames, he, hne, hkept⟩
  · rintro ⟨e, hnames, he, hne, hkept⟩
    exact ⟨(d ++ names, e), FileTree.mem_entries_of_entry he hne, rfl, hne, hnames, hkept⟩

theorem nodup_candidates (t : FileTree) (ignored : List Text) (d : Location) :
    (candidates t ignored d).Nodup := by
  rw [candidates, (List.mergeSort_perm _ _).nodup_iff, List.Nodup, List.pairwise_filterMap]
  refine (List.pairwise_map.mp t.entries.distinct).imp fun {a b} hab as ha bs hb has => hab ?_
  obtain rfl := has
  exact (candidate?_eq_some_iff.mp ha).1.trans (candidate?_eq_some_iff.mp hb).1.symm

theorem pairwise_candidates (ht : t.WellFormed) :
    (candidates t ignored d).Pairwise Precedes := by
  have hbefore : (candidates t ignored d).Pairwise fun as bs => before as bs = true := by
    apply List.pairwise_mergeSort
    · intro as bs cs h h'
      exact before_trans h h'
    · exact before_total
  refine (hbefore.and (nodup_candidates t ignored d)).imp_of_mem fun {as bs} has hbs h => ?_
  have hne {names : List Text} (h : names ∈ candidates t ignored d) : names ≠ [] := by
    obtain ⟨e, hreaches⟩ := (mem_candidates_iff ht).mp h
    exact hreaches.ne_nil
  exact ((before_iff (hne has) (hne hbs)).mp h.1).resolve_left h.2

/-- Whether a walk from a directory comes to an entry below it that is no directory. -/
def isWalked (t : FileTree) (working : Location) (root : Path) (d : Location)
    (names : List Text) : Bool :=
  opens root names.dropLast && (t.entry? (d ++ names)).any fun e =>
    !countsAsDirectory t working (pathBelow root names) e

/-- The walk lists the entries below a directory as one filter and one sort do. -/
theorem walk_eq_filter_candidates (ht : t.WellFormed) :
    walk t working ignored root d [] =
      (candidates t ignored d).filter (isWalked t working root d) := by
  refine (walk_unique ((pairwise_candidates ht).sublist List.filter_sublist) fun names => ?_).symm
  rw [List.mem_filter, mem_candidates_iff ht, mem_walk_iff, isWalked, Bool.and_eq_true,
    Option.any_eq_true]
  constructor
  · rintro ⟨⟨e, hreaches⟩, hopens, e', he', hfile⟩
    obtain rfl := Option.some.inj (hreaches.entry?.1.symm.trans he')
    exact ⟨names, e, rfl, hreaches, hopens, by simpa using hfile⟩
  · rintro ⟨below, e, rfl, hreaches, hopens, hfile⟩
    exact ⟨⟨e, hreaches⟩, hopens, e, hreaches.entry?.1, by simpa using hfile⟩

end Discovery

end AnnotatedRoutes
