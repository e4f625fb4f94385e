import AnnotatedRoutes.Proofs.LinkResolution

namespace AnnotatedRoutes

/-- An entry without the content of a file. -/
def Entry.shape : Entry → Entry
  | .file _ => .file []
  | e => e

@[simp] theorem Entry.shape_eq_directory {e : Entry} : e.shape = .directory ↔ e = .directory := by
  cases e <;> simp [shape]

@[simp] theorem Entry.shape_eq_link {e : Entry} {target : Text} :
    e.shape = .link target ↔ e = .link target := by
  cases e <;> simp [shape]

@[simp] theorem Entry.isFile_shape (e : Entry) : e.shape.isFile = e.isFile := by
  cases e <;> rfl

@[simp] theorem Entry.isDirectory_shape (e : Entry) : e.shape.isDirectory = e.isDirectory := by
  cases e <;> rfl

namespace FileTree

def shape? (t : FileTree) (l : Location) : Option Entry := (t.entry? l).map Entry.shape

/-- Trees with the same directories and links, and files in the same places. -/
def Alike (t u : FileTree) : Prop := ∀ l, t.shape? l = u.shape? l

/-- Directories and links stay, and files stay files. -/
def Grows (t u : FileTree) : Prop := ∀ l e, t.shape? l = some e → u.shape? l = some e

variable {t u v : FileTree} {working here l : Location} {p : Path}

theorem find_eq_ok_iff {purpose : Purpose} : t.find purpose working p = .ok l ↔
    ¬ p.names.any (·.contains '\x00') = true ∧ ¬ pathLimit < byteLength p.toText ∧
      t.walk purpose linkLimit (if p.root = .relative then working else []) p.names = .ok l := by
  unfold find
  split
  next hnull => exact iff_of_false nofun fun h => h.1 hnull
  next hnull =>
    split
    next hlong => exact iff_of_false nofun fun h => h.2.1 hlong
    next hlong => exact ⟨fun h => ⟨hnull, hlong, h⟩, fun h => h.2.2⟩

section Shape

@[simp] theorem shape?_eq_directory :
    t.shape? l = some .directory ↔ t.entry? l = some .directory := by
  simp [shape?]

@[simp] theorem shape?_eq_link {target : Text} :
    t.shape? l = some (.link target) ↔ t.entry? l = some (.link target) := by
  simp [shape?]

@[simp] theorem shape?_eq_none : t.shape? l = none ↔ t.entry? l = none := by
  simp [shape?]

theorem shape?_of_entry?_eq {e : Entry} (h : t.entry? l = some e) : t.shape? l = some e.shape := by
  rw [shape?, h]
  rfl

theorem exists_of_shape? {e : Entry} (h : t.shape? l = some e) :
    ∃ e', t.entry? l = some e' ∧ e'.shape = e := Option.map_eq_some_iff.mp h

theorem shape?_put (t : FileTree) (hl : l ≠ []) (e : Entry) (l' : Location) :
    shape? (t.put l e) l' = if l' = l then some e.shape else t.shape? l' := by
  rw [shape?, FileTree.entry_put t hl]
  split <;> rfl

end Shape

namespace Alike

theorem refl (t : FileTree) : t.Alike t := fun _ => rfl

theorem symm (h : t.Alike u) : u.Alike t := fun l => (h l).symm

theorem trans (h : t.Alike u) (h' : u.Alike v) : t.Alike v := fun l => (h l).trans (h' l)

theorem of_perm (h : t.entries.entries.Perm u.entries.entries) : t.Alike u := by
  intro l
  rw [shape?, shape?, FileTree.entry?, FileTree.entry?, Keyed.get?_eq_of_perm h]

theorem directory_iff (h : t.Alike u) :
    t.entry? l = some .directory ↔ u.entry? l = some .directory := by
  rw [← shape?_eq_directory, h l, shape?_eq_directory]

theorem link_iff (h : t.Alike u) {target : Text} :
    t.entry? l = some (.link target) ↔ u.entry? l = some (.link target) := by
  rw [← shape?_eq_link, h l, shape?_eq_link]

theorem none_iff (h : t.Alike u) : t.entry? l = none ↔ u.entry? l = none := by
  rw [← shape?_eq_none, h l, shape?_eq_none]

theorem walk_eq (h : t.Alike u) (purpose : Purpose) (links : Nat) (here : Location)
    (names : List Text) : t.walk purpose links here names = u.walk purpose links here names := by
  have hsame {l : Location} (hd : ¬ t.entry? l ≠ some .directory) :
      ¬ u.entry? l ≠ some .directory := by rwa [ne_eq, ← h.directory_iff]
  fun_induction walk t purpose links here names with
  | case1 => rw [walk]
  | case2 links here name rest hd => rw [walk, if_pos (mt h.directory_iff.mpr hd)]
  | case3 links here name rest hd hn ih => rw [walk, if_neg (hsame hd), if_pos hn, ih]
  | case4 links here rest hd hn ih => rw [walk, if_neg (hsame hd), if_neg hn, if_pos rfl, ih]
  | case5 links here name rest hd hn hdots hslash =>
    rw [walk, if_neg (hsame hd), if_neg hn, if_neg hdots, if_pos hslash]
  | case6 links here name rest hd hn hdots hslash hlong =>
    rw [walk, if_neg (hsame hd), if_neg hn, if_neg hdots, if_neg hslash, if_pos hlong]
  | case7 links here name hd hn hdots hlong next hnone hslash =>
    rw [walk_cons (hsame hd) hn hdots hslash hlong, h.none_iff.mp hnone]
    rfl
  | case8 links here name rest hd hn hdots hslash hlong next hnone hrest =>
    rw [walk_cons (hsame hd) hn hdots hslash hlong, h.none_iff.mp hnone]
    exact (if_neg hrest).symm
  | case9 links here name rest hd hn hdots hslash hlong next target hlink hlast =>
    rw [walk_cons (hsame hd) hn hdots hslash hlong, h.link_iff.mp hlink]
    exact (if_pos hlast).symm
  | case10 here name rest hd hn hdots hslash hlong next target hlink hlast =>
    rw [walk_cons (hsame hd) hn hdots hslash hlong, h.link_iff.mp hlink]
    exact (if_neg hlast).symm
  | case11 here name rest hd hn hdots hslash hlong next target hlink hlast links ih =>
    rw [walk_cons (hsame hd) hn hdots hslash hlong, h.link_iff.mp hlink, ih]
    exact (if_neg hlast).symm
  | case12 links here name rest hd hn hdots hslash hlong next e hplace he ih =>
    obtain ⟨e', he', hshape⟩ := exists_of_shape? ((h _).symm.trans (shape?_of_entry?_eq he))
    rw [walk_cons (hsame hd) hn hdots hslash hlong, he', ih]
    cases e' with
    | link target => exact absurd (Entry.shape_eq_link.mp hshape.symm) (hplace target)
    | directory | file => rfl

theorem find_eq (h : t.Alike u) (purpose : Purpose) (working : Location) (p : Path) :
    t.find purpose working p = u.find purpose working p := by
  rw [find, find]
  dsimp only
  rw [h.walk_eq]

theorem stat_eq (h : t.Alike u) (working : Location) (p : Path) :
    (t.stat working p).map Entry.shape = (u.stat working p).map Entry.shape := by
  rw [stat, stat, h.find_eq]
  cases u.find .target working p with
  | error fault => rfl
  | ok l =>
    have hl := h l
    rw [shape?, shape?] at hl
    simp only [Bind.bind, Except.bind]
    cases ht : t.entry? l <;> cases hu : u.entry? l <;> rw [ht, hu] at hl
    case ok.none.some | ok.some.none => cases hl
    case ok.some.some => exact congrArg Except.ok (Option.some.inj hl)

/-- Questions about the kind of an entry have the same answer. -/
theorem asks_eq (h : t.Alike u) {question : Entry → Bool}
    (hq : ∀ e : Entry, question e.shape = question e) (working : Location) (p : Path) :
    t.asks working p question = u.asks working p question := by
  have hstat := h.stat_eq working p
  rw [asks, asks]
  cases ht : t.stat working p <;> cases hu : u.stat working p <;> rw [ht, hu] at hstat
  case error.error => rw [Except.error.inj hstat]
  case error.ok | ok.error => cases hstat
  case ok.ok e e' =>
    have hshape : e.shape = e'.shape := Except.ok.inj hstat
    dsimp only
    rw [← hq e, hshape, hq e']

theorem isFile_eq (h : t.Alike u) : t.isFile working p = u.isFile working p :=
  h.asks_eq Entry.isFile_shape working p

theorem isDirectory_eq (h : t.Alike u) : t.isDirectory working p = u.isDirectory working p :=
  h.asks_eq Entry.isDirectory_shape working p

end Alike

namespace Grows

theorem refl (t : FileTree) : t.Grows t := fun _ _ => id

theorem trans (h : t.Grows u) (h' : u.Grows v) : t.Grows v := fun l e he => h' l e (h l e he)

theorem of_alike (h : t.Alike u) : t.Grows u := fun l _ he => (h l).symm.trans he

theorem walk_eq_ok (h : t.Grows u) {purpose : Purpose} {links : Nat} {names : List Text} {e : Entry}
    (hw : t.walk purpose links here names = .ok l) (he : t.entry? l = some e) :
    u.walk purpose links here names = .ok l := by
  have hsame {l : Location} (hd : ¬ t.entry? l ≠ some .directory) :
      ¬ u.entry? l ≠ some .directory :=
    not_not.mpr (shape?_eq_directory.mp (h _ _ (shape?_eq_directory.mpr (not_not.mp hd))))
  have hsameLink {l : Location} {target : Text} (hl : t.entry? l = some (.link target)) :
      u.entry? l = some (.link target) := shape?_eq_link.mp (h _ _ (shape?_eq_link.mpr hl))
  fun_induction walk t purpose links here names with
  | case1 =>
    rw [walk]
    exact hw
  | case2 | case5 | case6 | case8 | case10 => cases hw
  | case3 links here name rest hd hn ih =>
    rw [walk, if_neg (hsame hd), if_pos hn]
    exact ih hw
  | case4 links here rest hd hn ih =>
    rw [walk, if_neg (hsame hd), if_neg hn, if_pos rfl]
    exact ih hw
  | case7 links here name hd hn hdots hlong next hnone hslash =>
    obtain rfl : here ++ [name] = l := Except.ok.inj hw
    cases hnone.symm.trans he
  | case9 links here name rest hd hn hdots hslash hlong next target hlink hlast =>
    rw [walk_cons (hsame hd) hn hdots hslash hlong, hsameLink hlink]
    exact (if_pos hlast).trans hw
  | case11 here name rest hd hn hdots hslash hlong next target hlink hlast links ih =>
    rw [walk_cons (hsame hd) hn hdots hslash hlong, hsameLink hlink]
    exact (if_neg hlast).trans (ih hw)
  | case12 links here name rest hd hn hdots hslash hlong next e' hplace he' ih =>
    obtain ⟨e'', he'', hshape⟩ := exists_of_shape? (h _ _ (shape?_of_entry?_eq he'))
    rw [walk_cons (hsame hd) hn hdots hslash hlong, he'']
    cases e'' with
    | link target => exact absurd (Entry.shape_eq_link.mp hshape.symm) (hplace target)
    | directory | file => exact ih hw

theorem find_eq_ok (h : t.Grows u) {purpose : Purpose} {e : Entry}
    (hf : t.find purpose working p = .ok l) (he : t.entry? l = some e) :
    u.find purpose working p = .ok l := by
  obtain ⟨hnull, hlong, hw⟩ := find_eq_ok_iff.mp hf
  exact find_eq_ok_iff.mpr ⟨hnull, hlong, h.walk_eq_ok hw he⟩

end Grows

end FileTree

end AnnotatedRoutes
