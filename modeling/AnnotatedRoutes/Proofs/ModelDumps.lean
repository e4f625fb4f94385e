import AnnotatedRoutes.Proofs.CatalogValidation
import AnnotatedRoutes.Proofs.CommandRuns

namespace AnnotatedRoutes

namespace Path

/-- What follows the last slash. -/
def lastPiece (t : Text) : Text := (Text.splitAt '/' t).getLast (Text.splitAt_ne_nil '/' t)

/-- What stands before the last slash leads from a directory to that directory. -/
def StaysIn (directory : Location) (t : Text) : Prop :=
  FileTree.lexical (FileTree.startOf directory t) (Text.splitAt '/' t).dropLast = directory

theorem unslashed_lastPiece (t : Text) : '/' ∉ lastPiece t :=
  (Text.of_mem_splitAt (List.getLast_mem _)).1

theorem splitAt_of_unslashed {t : Text} (h : '/' ∉ t) : Text.splitAt '/' t = [t] := by
  simpa [Text.splitAt] using Text.splitAt_append_of_not_mem h []

theorem lastPiece_of_unslashed {t : Text} (h : '/' ∉ t) : lastPiece t = t := by
  simp only [lastPiece, splitAt_of_unslashed h, List.getLast_singleton]

theorem staysIn_of_unslashed {t : Text} (h : '/' ∉ t) (directory : Location) :
    StaysIn directory t := by
  have hroot : rootOf t = .relative := by
    unfold rootOf
    split <;> simp_all
  rw [StaysIn, splitAt_of_unslashed h, FileTree.startOf, if_pos hroot]
  rfl

theorem rootOf_append_dot (s m : Text) : rootOf (s ++ '.' :: m) = rootOf s := by
  match s with
  | [] => rfl
  | [c] => by_cases hc : c = '/' <;> simp [rootOf, hc]
  | [c, d] => by_cases hc : c = '/' <;> by_cases hd : d = '/' <;> simp [rootOf, hc, hd]
  | c :: d :: e :: s =>
    by_cases hc : c = '/' <;> by_cases hd : d = '/' <;> by_cases he : e = '/' <;>
      simp [rootOf, hc, hd, he]

/-- A name stays a name with a dot and anything without slashes in front. -/
theorem IsName.append_dot {m : Text} (hm : IsName m) {u : Text} (hu : '/' ∉ u) :
    IsName (u ++ '.' :: m) where
  ne_nil := by simp
  ne_dot := by
    cases u <;> simp [dot, hm.ne_nil]
  ne_dots := by
    match u with
    | [] => simpa [dots, dot] using hm.ne_dot
    | [c] => simp [dots, hm.ne_nil]
    | c :: d :: u => simp [dots]
  unslashed := by simp [hu, hm.unslashed]

theorem isName_name {l : Location} (hl : ∀ name ∈ l, IsName name) (hne : l ≠ []) :
    IsName (ofLocation l).name := by
  have hlast : (ofLocation l).name = l.getLast hne := by
    rw [Path.name, ofLocation, List.getLast?_eq_some_getLast hne, Option.getD_some]
  exact hlast ▸ hl _ (List.getLast_mem hne)

/-- A dot makes a name of a text without slashes, unless the text is empty or a dot itself. -/
theorem isName_append_dot {u : Text} (hu : '/' ∉ u) (hnil : u ≠ []) (hdot : u ≠ dot) :
    IsName (u ++ ['.']) where
  ne_nil := by simp
  ne_dot := by simpa [dot] using hnil
  ne_dots := by
    intro h
    have hdots : dots = dot ++ ['.'] := rfl
    exact hdot (List.append_cancel_right (h.trans hdots))
  unslashed := by simp [hu]

end Path

namespace Catalog

/-- The jobs of a catalog file are those of a validation without faults. -/
theorem validate_of_load {t : FileTree} {around : Surroundings} {p : Path}
    {entries : List RouterJob} (h : load t around p = .ok (.ok entries)) :
    ∃ root routers progress, validate t around (.ofLocation root) routers = .ok progress ∧
      progress.faults = [] ∧ progress.jobs = entries := by
  obtain ⟨there, -, h⟩ := bind_eq_ok_iff.mp h
  split at h
  · cases h
  split at h
  · cases h
  split at h
  · cases h
  split at h
  · cases h
  obtain ⟨root, hroot, h⟩ := bind_eq_ok_iff.mp h
  split at h
  · cases h
  next items _ =>
    obtain ⟨progress, hvalidate, hjobs⟩ := bind_eq_ok_iff.mp h
    split at hjobs
    next hclean =>
      obtain ⟨written, -, hroot⟩ := bind_eq_ok_iff.mp hroot
      obtain ⟨expanded, -, hroot⟩ := bind_eq_ok_iff.mp (mapError_eq_ok_iff.mp hroot)
      obtain rfl := FileTree.eq_ofLocation_of_canonical hroot
      exact ⟨_, items, progress, mapError_eq_ok_iff.mp hvalidate, List.isEmpty_iff.mp hclean,
        Except.ok.inj (Except.ok.inj hjobs)⟩
    · cases hjobs

end Catalog

namespace CommandLine

open FileTree (locationOf lexical)

/-- The records of the jobs go to files that lie directly in the directory of a path, each at a
location of its own. -/
structure RecordsApart (working : Location) (modelOut : Path) (jobs : List Job) : Prop where
  inDirectory : ∀ job ∈ jobs, ∃ p name, job.modelOut = some p ∧
    locationOf working p = locationOf working modelOut.parent ++ [name]
  distinct : jobs.Pairwise fun a b => ∀ p q, a.modelOut = some p → b.modelOut = some q →
    locationOf working p ≠ locationOf working q

namespace Invocation

open AnnotatedRoutes.Path (IsName lastPiece StaysIn)

/-- The name of the job leads to a directory, where the rest of its name and the name that is asked
for make the name of the file. -/
theorem locationOf_modelOutOf (working : Location) {l : Location} (hl : ∀ name ∈ l, IsName name)
    {entry : RouterJob} (hname : IsName (lastPiece entry.name ++ '.' :: (Path.ofLocation l).name)) :
    locationOf working (modelOutOf (.ofLocation l) entry) =
      lexical (FileTree.startOf l.dropLast entry.name) (Text.splitAt '/' entry.name).dropLast ++
        [lastPiece entry.name ++ '.' :: (Path.ofLocation l).name] := by
  obtain ⟨m, hm⟩ : ∃ m, (Path.ofLocation l).name = m := ⟨_, rfl⟩
  rw [hm] at hname ⊢
  have hunslashed : '/' ∉ '.' :: m :=
    fun h => hname.unslashed (List.mem_append_right _ h)
  have hdirectory : ∀ name ∈ l.dropLast, IsName name :=
    fun name h => hl name (List.dropLast_subset l h)
  have hchild : modelOutOf (.ofLocation l) entry =
      (Path.ofLocation l.dropLast).child (entry.name ++ '.' :: m) := hm ▸ rfl
  have hstart : FileTree.startOf l.dropLast (entry.name ++ '.' :: m) =
      FileTree.startOf l.dropLast entry.name := by
    rw [FileTree.startOf, FileTree.startOf, Path.rootOf_append_dot]
  rw [hchild, FileTree.locationOf_child hdirectory, hstart,
    Text.splitAt_append_of_not_mem hunslashed, FileTree.lexical_append]
  exact FileTree.lexical_of_isName (by simpa [lastPiece] using hname) _

theorem recordsApart_iff (i : Invocation) (working : Location) {l : Location}
    (hl : ∀ name ∈ l, IsName name) {entries : List RouterJob}
    (hnames : ∀ entry ∈ entries,
      IsName (lastPiece entry.name ++ '.' :: (Path.ofLocation l).name)) :
    RecordsApart working (.ofLocation l) (entries.map (i.jobOf (some (.ofLocation l)))) ↔
      (∀ entry ∈ entries, StaysIn l.dropLast entry.name) ∧
        (entries.map fun entry => lastPiece entry.name).Nodup := by
  have hparent : locationOf working (Path.ofLocation l).parent = l.dropLast :=
    FileTree.lexical_of_isName (fun name h => hl name (List.dropLast_subset l h)) []
  have hlocation := fun entry h => locationOf_modelOutOf working hl (hnames entry h)
  constructor
  · rintro ⟨hin, hdistinct⟩
    have hstays : ∀ entry ∈ entries, StaysIn l.dropLast entry.name := by
      intro entry h
      obtain ⟨p, name, hp, hp'⟩ := hin _ (List.mem_map_of_mem h)
      obtain rfl : modelOutOf (.ofLocation l) entry = p := Option.some.inj hp
      rw [hparent, hlocation entry h] at hp'
      exact (List.append_inj' hp' rfl).1
    refine ⟨hstays, List.pairwise_map.mpr ?_⟩
    refine (List.pairwise_map.mp hdistinct).imp_of_mem fun {a b} ha hb hne heq => ?_
    refine hne _ _ rfl rfl ?_
    rw [hlocation a ha, hlocation b hb, hstays a ha, hstays b hb, heq]
  · rintro ⟨hstays, hnodup⟩
    constructor
    case inDirectory =>
      intro job hjob
      obtain ⟨entry, h, rfl⟩ := List.mem_map.mp hjob
      exact ⟨_, _, rfl, by rw [hparent, hlocation entry h, hstays entry h]⟩
    case distinct =>
      refine List.pairwise_map.mpr ((List.pairwise_map.mp hnodup).imp_of_mem ?_)
      rintro a b ha hb hne _ _ ⟨⟩ ⟨⟩ heq
      rw [hlocation a ha, hlocation b hb, hstays a ha, hstays b hb] at heq
      have hfiles := List.singleton_inj.mp (List.append_cancel_left heq)
      exact hne (List.append_cancel_right hfiles)

/-- Distinct names without slashes make files of their own. If the root directory stands in place of
a file, no name follows the dot, and a name that is a dot itself would lead upwards. -/
theorem recordsApart_of_unslashed (i : Invocation) (working : Location) {l : Location}
    (hl : ∀ name ∈ l, IsName name) {entries : List RouterJob}
    (hfilled : ∀ entry ∈ entries, entry.name ≠ []) (hnodup : (entries.map (·.name)).Nodup)
    (hunslashed : ∀ entry ∈ entries, '/' ∉ entry.name ∧ (l = [] → entry.name ≠ Path.dot)) :
    RecordsApart working (.ofLocation l) (entries.map (i.jobOf (some (.ofLocation l)))) := by
  have hlast : ∀ entry ∈ entries, lastPiece entry.name = entry.name :=
    fun entry h => Path.lastPiece_of_unslashed (hunslashed entry h).1
  have hfiles : ∀ entry ∈ entries,
      IsName (lastPiece entry.name ++ '.' :: (Path.ofLocation l).name) := by
    intro entry h
    obtain ⟨hslash, hdot⟩ := hunslashed entry h
    rw [hlast entry h]
    by_cases hnil : l = []
    · subst hnil
      exact Path.isName_append_dot hslash (hfilled entry h) (hdot rfl)
    · exact (Path.isName_name hl hnil).append_dot hslash
  refine (recordsApart_iff i working hl hfiles).mpr ⟨fun entry h => ?_, ?_⟩
  · exact Path.staysIn_of_unslashed (hunslashed entry h).1 _
  · rw [List.map_congr_left hlast]
    exact hnodup

/-- A canonical path that a text stands for is that of a location of names. -/
theorem location_of_locatedIn {i : Invocation} {t : FileTree} {written : Text} {p : Path}
    (hworking : ∀ name ∈ i.around.working, IsName name) (h : i.locatedIn t written = .ok p) :
    ∃ l, p = Path.ofLocation l ∧ ∀ name ∈ l, IsName name := by
  obtain ⟨expanded, hexpanded, h⟩ := bind_eq_ok_iff.mp h
  have havoids := (Path.avoids_slash_ofText written).expandHome (mapError_eq_ok_iff.mp hexpanded)
  exact FileTree.location_of_canonical (mapError_eq_ok_iff.mp h) havoids hworking

/-- A run over a catalog in whose names there are no slashes keeps all its records, in the directory
that is asked for. -/
theorem recordsApart_of_asks {i : Invocation} {t : FileTree} {jobs : List Job}
    {catalog : Option Text} {written : Text} {modelOut : Path}
    (hworking : ∀ name ∈ i.around.working, IsName name)
    (horigin : i.arguments.origin = .catalog catalog)
    (hwritten : i.arguments.modelOut = some written)
    (hmodelOut : i.locatedIn t written = .ok modelOut) (hasks : i.Asks t jobs)
    (hnames : ∀ job ∈ jobs, '/' ∉ job.name ∧ (modelOut.names = [] → job.name ≠ Path.dot)) :
    RecordsApart i.around.working modelOut jobs := by
  obtain ⟨l, rfl, hl⟩ := location_of_locatedIn hworking hmodelOut
  cases hasks with
  | controllers hother => cases hother.symm.trans horigin
  | @catalog _ _ entries located _ _ hload hlocated =>
    rw [hwritten, locatedIn?, hmodelOut] at hlocated
    obtain rfl : some (Path.ofLocation l) = located := Except.ok.inj hlocated
    obtain ⟨root, routers, progress, hvalidate, hclean, rfl⟩ := Catalog.validate_of_load hload
    have hvalid := Catalog.valid_of_validate hvalidate hclean
    exact recordsApart_of_unslashed i _ hl hvalid.name_ne_nil hvalid.names
      fun entry h => hnames _ (List.mem_map_of_mem h)

/-- In a run over a valid catalog the records of the jobs go to files of their own in the directory
that is asked for, exactly if every name leads back to that directory up to its last slash, and no
two names have the same text behind it. Names without slashes are enough for that. -/
theorem recordsApart_jobs_iff (i : Invocation) {t : FileTree} {root : Location}
    {routers : List Value} {progress : Catalog.Progress} {written : Text} {modelOut : Path}
    (hworking : ∀ name ∈ i.around.working, IsName name)
    (hvalidate : Catalog.validate t i.around (.ofLocation root) routers = .ok progress)
    (hclean : progress.faults = []) (hmodelOut : i.locatedIn t written = .ok modelOut) :
    (modelOut.names ≠ [] →
      (RecordsApart i.around.working modelOut (progress.jobs.map (i.jobOf (some modelOut))) ↔
        (∀ entry ∈ progress.jobs, StaysIn modelOut.parent.names entry.name) ∧
          (progress.jobs.map fun entry => lastPiece entry.name).Nodup)) ∧
      ((∀ entry ∈ progress.jobs,
          '/' ∉ entry.name ∧ (modelOut.names = [] → entry.name ≠ Path.dot)) →
        RecordsApart i.around.working modelOut (progress.jobs.map (i.jobOf (some modelOut)))) := by
  obtain ⟨l, rfl, hl⟩ := location_of_locatedIn hworking hmodelOut
  have hvalid := Catalog.valid_of_validate hvalidate hclean
  constructor
  · intro hne
    exact recordsApart_iff i _ hl fun entry _ =>
      (Path.isName_name hl hne).append_dot (Path.unslashed_lastPiece _)
  · exact recordsApart_of_unslashed i _ hl hvalid.name_ne_nil hvalid.names

def topSurroundings : Surroundings := { working := [], home := "/home".toList }

/-- A run over a catalog in the directory `/r` with records in `/m`. -/
def onCatalog : Invocation where
  arguments := { origin := .catalog (some "/r/c".toList), modelOut := some "/m/d".toList }
  around := topSurroundings
  settings := .shipped
  stamp := []
  settingsPath := []

theorem around_onCatalog : onCatalog.around = topSurroundings := rfl

/-- The entry of a router with an input. -/
def entryNamed (name out : Text) : Value :=
  let text (written : Text) : Value := .scalar (.text written)
  .mapping [(.text "name".toList, text name), (.text "controllers".toList, text ['x']),
    (.text "out".toList, text out)]

def catalogRoot : FileTree := FileTree.put {} [['r']] .directory

def jobNamed (name out : Text) : RouterJob :=
  ⟨name, [.ofLocation [['r'], ['x']]], .ofLocation [['r'], out]⟩

theorem entryOf_entryNamed {name out : Text} (hname : name ≠ []) (hout : out ≠ [])
    (hplace : catalogRoot.canonical topSurroundings ((Path.ofLocation [['r']]).child out) =
      .ok (.ofLocation [['r'], out])) :
    Catalog.EntryOf catalogRoot topSurroundings [['r']] (entryNamed name out)
      (jobNamed name out) := by
  have hinput : catalogRoot.canonical topSurroundings ((Path.ofLocation [['r']]).child ['x']) =
      .ok (.ofLocation [['r'], ['x']]) := by cbv
  exact ⟨⟨name, [['x']], out⟩, .mapping rfl hname rfl (.one ['x']) rfl hout,
    ⟨rfl, .cons hinput .nil, hplace⟩⟩

theorem beneath_jobNamed (name out : Text) : (jobNamed name out).Beneath [['r']] where
  inputs := List.forall_mem_singleton.mpr ⟨[['x']], rfl⟩
  out := ⟨[out], rfl⟩

/-- Two names that differ are taken for a catalog. -/
theorem exists_validate_pair (name other : Text) (hname : name ≠ []) (hother : other ≠ [])
    (hne : name ≠ other) :
    ∃ progress, Catalog.validate catalogRoot onCatalog.around (.ofLocation [['r']])
        [entryNamed name ['o'], entryNamed other ['p']] = .ok progress ∧ progress.faults = [] ∧
      progress.jobs = [jobNamed name ['o'], jobNamed other ['p']] := by
  rw [around_onCatalog]
  refine Catalog.validate_of_valid (by cbv) ?_
  constructor
  case entries =>
    exact .cons (entryOf_entryNamed hname (by decide) (by cbv))
      (.cons (entryOf_entryNamed hother (by decide) (by cbv)) .nil)
  case beneath =>
    exact List.forall_mem_cons.mpr
      ⟨beneath_jobNamed _ _, List.forall_mem_singleton.mpr (beneath_jobNamed _ _)⟩
  case names => simpa [jobNamed] using hne
  case outs => simp [jobNamed, Path.ofLocation]

theorem locatedIn_onCatalog :
    onCatalog.locatedIn catalogRoot "/m/d".toList = .ok (.ofLocation [['m'], ['d']]) := by
  rw [locatedIn, expanded, around_onCatalog]
  cbv

/-- A name may leave the directory and come back to it. -/
theorem recordsApart_jobs_of_return :
    ∃ progress, Catalog.validate catalogRoot onCatalog.around (.ofLocation [['r']])
        [entryNamed ['a'] ['o'], entryNamed "s/../b".toList ['p']] = .ok progress ∧
      progress.faults = [] ∧
      onCatalog.locatedIn catalogRoot "/m/d".toList = .ok (.ofLocation [['m'], ['d']]) ∧
      RecordsApart onCatalog.around.working (.ofLocation [['m'], ['d']])
        (progress.jobs.map (onCatalog.jobOf (some (.ofLocation [['m'], ['d']])))) := by
  obtain ⟨progress, hvalidate, hclean, hjobs⟩ :=
    exists_validate_pair ['a'] "s/../b".toList (by decide) (by decide) (by decide)
  have hworking : ∀ name ∈ onCatalog.around.working, IsName name := List.forall_mem_nil _
  have hfile : (Path.ofLocation [['m'], ['d']]).names ≠ [] := List.cons_ne_nil _ _
  have happly := recordsApart_jobs_iff onCatalog hworking hvalidate hclean locatedIn_onCatalog
  refine ⟨progress, hvalidate, hclean, locatedIn_onCatalog, (happly.1 hfile).mpr ?_⟩
  rw [hjobs]
  exact ⟨List.forall_mem_cons.mpr ⟨by cbv, List.forall_mem_singleton.mpr (by cbv)⟩, by decide⟩

/-- The names `a` and `./a` pass for two, but their records go to one file. -/
theorem not_recordsApart_dotted :
    ∃ progress, Catalog.validate catalogRoot onCatalog.around (.ofLocation [['r']])
        [entryNamed ['a'] ['o'], entryNamed "./a".toList ['p']] = .ok progress ∧
      progress.faults = [] ∧
      onCatalog.locatedIn catalogRoot "/m/d".toList = .ok (.ofLocation [['m'], ['d']]) ∧
      ¬ RecordsApart onCatalog.around.working (.ofLocation [['m'], ['d']])
        (progress.jobs.map (onCatalog.jobOf (some (.ofLocation [['m'], ['d']])))) := by
  obtain ⟨progress, hvalidate, hclean, hjobs⟩ :=
    exists_validate_pair ['a'] "./a".toList (by decide) (by decide) (by decide)
  refine ⟨progress, hvalidate, hclean, locatedIn_onCatalog, fun h => ?_⟩
  rw [hjobs, around_onCatalog] at h
  have hfirst := (List.pairwise_cons.mp h.distinct).1 _ List.mem_cons_self
  exact hfirst _ _ rfl rfl (by cbv)

end Invocation

end CommandLine

end AnnotatedRoutes
