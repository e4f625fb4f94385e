import AnnotatedRoutes.Proofs.TreeShape
import AnnotatedRoutes.Text.Lowercase

namespace AnnotatedRoutes

namespace FileTree

/-- A name that the system can give an entry. -/
structure IsEntryName (name : Text) : Prop extends Path.IsName name where
  null_not_mem : '\x00' ∉ name
  byteLength_le : byteLength name ≤ nameLimit

/-- Every entry is in a directory and has a name that entries can have. -/
structure WellFormed (t : FileTree) : Prop where
  parent : ∀ entry ∈ t.entries.entries, t.entry? entry.1.dropLast = some .directory
  names : ∀ entry ∈ t.entries.entries, ∀ name ∈ entry.1, IsEntryName name

instance (name : Text) : Decidable (IsEntryName name) :=
  decidable_of_iff ((name ≠ [] ∧ name ≠ Path.dot ∧ name ≠ Path.dots ∧ '/' ∉ name) ∧
    '\x00' ∉ name ∧ byteLength name ≤ nameLimit)
    ⟨fun ⟨⟨h₁, h₂, h₃, h₄⟩, h₅, h₆⟩ => ⟨⟨h₁, h₂, h₃, h₄⟩, h₅, h₆⟩,
      fun h => ⟨⟨h.ne_nil, h.ne_dot, h.ne_dots, h.unslashed⟩, h.null_not_mem, h.byteLength_le⟩⟩

instance (t : FileTree) : Decidable t.WellFormed :=
  decidable_of_iff ((∀ entry ∈ t.entries.entries, t.entry? entry.1.dropLast = some .directory) ∧
    ∀ entry ∈ t.entries.entries, ∀ name ∈ entry.1, IsEntryName name)
    ⟨fun h => ⟨h.1, h.2⟩, fun h => ⟨h.parent, h.names⟩⟩

/-- An entry other than a directory, at so many names below a location, with directories on the way
that are not passed over. -/
inductive Reaches (t : FileTree) (ignored : List Text) : Location → List Text → Entry → Prop
  | here {l : Location} {name : Text} {e : Entry} (he : t.entry? (l ++ [name]) = some e)
    (hne : e ≠ .directory) : Reaches t ignored l [name] e
  | through {l : Location} {name : Text} {names : List Text} {e : Entry}
    (hd : t.entry? (l ++ [name]) = some .directory) (hkept : Text.lower name ∉ ignored)
    (h : Reaches t ignored (l ++ [name]) names e) : Reaches t ignored l (name :: names) e

variable {t u : FileTree} {working l d : Location} {p : Path} {ignored : List Text}
  {names : List Text} {e : Entry}

namespace WellFormed

/-- Directories lead to every entry. -/
theorem directory_of_append (ht : t.WellFormed) (h : t.entry? (l ++ names) = some e)
    (hn : names ≠ []) : t.entry? l = some .directory := by
  induction names using List.reverseRecOn generalizing e with
  | nil => exact absurd rfl hn
  | append_singleton names name ih =>
    have hl : l ++ (names ++ [name]) ≠ [] := by simp
    rw [FileTree.entry?, if_neg hl] at h
    have hparent := ht.parent _ (Keyed.get?_eq_some_iff.mp h)
    rw [← List.append_assoc, List.dropLast_concat] at hparent
    by_cases hnames : names = []
    · rwa [hnames, List.append_nil] at hparent
    · exact ih hparent hnames

theorem isEntryName (ht : t.WellFormed) (h : t.entry? l = some e) {name : Text} (hn : name ∈ l) :
    IsEntryName name := by
  have hl : l ≠ [] := List.ne_nil_of_mem hn
  rw [FileTree.entry?, if_neg hl] at h
  exact ht.names _ (Keyed.get?_eq_some_iff.mp h) name hn

end WellFormed

theorem Reaches.ne_nil (h : t.Reaches ignored l names e) : names ≠ [] := by
  cases h <;> simp

theorem Reaches.entry? (h : t.Reaches ignored l names e) :
    t.entry? (l ++ names) = some e ∧ e ≠ .directory := by
  induction h with
  | here he hne => exact ⟨he, hne⟩
  | through _ _ _ ih => simpa using ih

/-- In a well-formed tree only the names of the directories on the way matter. -/
theorem reaches_iff (ht : t.WellFormed) : t.Reaches ignored l names e ↔
    names ≠ [] ∧ t.entry? (l ++ names) = some e ∧ e ≠ .directory ∧
      ∀ name ∈ names.dropLast, Text.lower name ∉ ignored := by
  induction names generalizing l with
  | nil => exact iff_of_false (fun h => h.ne_nil rfl) (fun h => h.1 rfl)
  | cons name names ih =>
    constructor
    · intro h
      refine ⟨h.ne_nil, h.entry?.1, h.entry?.2, ?_⟩
      cases h with
      | here => simp
      | through _ hkept h =>
        obtain ⟨hne, -, -, hnames⟩ := ih.mp h
        rw [List.dropLast_cons_of_ne_nil hne]
        exact List.forall_mem_cons.mpr ⟨hkept, hnames⟩
    · rintro ⟨-, he, hne, hkept⟩
      by_cases hnames : names = []
      · subst hnames
        exact .here he hne
      · rw [List.dropLast_cons_of_ne_nil hnames] at hkept
        obtain ⟨hname, hrest⟩ := List.forall_mem_cons.mp hkept
        have he' : t.entry? ((l ++ [name]) ++ names) = some e := by simpa using he
        exact .through (ht.directory_of_append he' hnames) hname (ih.mpr ⟨hnames, he', hne, hrest⟩)

/-- Names go on from the directory that the names before them lead to. -/
theorem exists_walk_append {links : Nat} {here : Location} {before : List Text}
    (h : t.walk .target links here before = .ok d) (hd : t.entry? d = some e) :
    ∃ k, ∀ names, t.walk .target links here (before ++ names) = t.walk .target k d names := by
  fun_induction walk t .target links here before with
  | case1 links here =>
    obtain rfl := Except.ok.inj h
    exact ⟨links, fun _ => rfl⟩
  | case2 | case5 | case6 | case8 | case10 => cases h
  | case3 links here name rest hdir hn ih =>
    obtain ⟨k, hk⟩ := ih h
    refine ⟨k, fun names => ?_⟩
    rw [List.cons_append, walk, if_neg hdir, if_pos hn, hk]
  | case4 links here rest hdir hn ih =>
    obtain ⟨k, hk⟩ := ih h
    refine ⟨k, fun names => ?_⟩
    rw [List.cons_append, walk, if_neg hdir, if_neg hn, if_pos rfl, hk]
  | case7 links here name hdir hn hdots hlong next hnone hslash =>
    obtain rfl : here ++ [name] = d := Except.ok.inj h
    cases hnone.symm.trans hd
  | case9 links here name rest hdir hn hdots hslash hlong next target hlink hlast => simp at hlast
  | case11 here name rest hdir hn hdots hslash hlong next target hlink hlast links ih =>
    obtain ⟨k, hk⟩ := ih h
    have hlink : t.entry? (here ++ [name]) = some (.link target) := hlink
    refine ⟨k, fun names => ?_⟩
    rw [List.cons_append, walk_target_cons (not_not.mp hdir) hn hdots hlong, hlink, ← hk,
      List.append_assoc]
  | case12 links here name rest hdir hn hdots hslash hlong next e' hplace hnext ih =>
    obtain ⟨k, hk⟩ := ih h
    have hnext : t.entry? (here ++ [name]) = some e' := hnext
    refine ⟨k, fun names => ?_⟩
    rw [List.cons_append, walk_target_cons (not_not.mp hdir) hn hdots hlong, hnext, ← hk]
    cases e' with
    | link target => exact absurd rfl (hplace target)
    | directory | file => rfl

theorem walk_of_reaches_file (ht : t.WellFormed) {content : Text.Bytes}
    (h : t.Reaches ignored d names (.file content)) (hd : t.entry? d = some .directory)
    (links : Nat) : t.walk .target links d names = .ok (d ++ names) := by
  have hname {l : Location} {name : Text} {e : Entry} (he : t.entry? (l ++ [name]) = some e) :=
    ht.isEntryName he (List.mem_append_right l (List.mem_singleton_self name))
  have hstep {l : Location} {name : Text} (names : List Text) (hl : t.entry? l = some .directory)
      (he : IsEntryName name) := walk_target_cons hl (by simpa using ⟨he.ne_nil, he.ne_dot⟩)
        he.ne_dots (Nat.not_lt.mpr he.byteLength_le) links names
  generalize he : Entry.file content = e at h
  induction h with
  | here hentry hne =>
    subst he
    rw [hstep _ hd (hname hentry), hentry]
    simp [walk]
  | through hnext _ _ ih =>
    rw [hstep _ hd (hname hnext), hnext]
    simpa using ih hnext he

/-- A look-up that is refused because of what there is, or because a name is too long. -/
theorem fault_of_walk {links : Nat} {here : Location} {fault : FileFault}
    (h : t.walk .target links here names = .error fault) :
    fault = .nameTooLong ∨ fault.tellsAbsence = true := by
  fun_induction walk t .target links here names with
  | case1 | case7 => cases h
  | case2 | case8 | case10 =>
    obtain rfl := Except.error.inj h
    exact .inr rfl
  | case3 _ _ _ _ _ _ ih | case4 _ _ _ _ _ ih => exact ih h
  | case5 _ _ _ _ _ _ _ hslash => simp at hslash
  | case6 =>
    obtain rfl := Except.error.inj h
    exact .inl rfl
  | case9 => cases h
  | case11 => rename_i ih; exact ih h
  | case12 => rename_i ih; exact ih h

theorem fault_of_stat {fault : FileFault} (h : t.stat working p = .error fault) :
    fault = .nameTooLong ∨ fault.tellsAbsence = true := by
  unfold stat at h
  cases hf : t.find .target working p with
  | error fault' =>
    rw [hf] at h
    obtain rfl : fault' = fault := Except.error.inj h
    unfold find at hf
    split at hf
    next =>
      obtain rfl := Except.error.inj hf
      exact .inr rfl
    next =>
      split at hf
      next =>
        obtain rfl := Except.error.inj hf
        exact .inl rfl
      next => exact fault_of_walk hf
  | ok l =>
    simp only [hf, Bind.bind, Except.bind] at h
    split at h
    next => cases h
    next =>
      obtain rfl := Except.error.inj h
      exact .inr rfl

/-- A file below a directory is what the path to it leads to, as long as this is not too long. -/
theorem stat_of_reaches_file (ht : t.WellFormed) {root : Path} {content : Text.Bytes}
    (hroot : t.find .target working root = .ok d) (hd : t.entry? d = some .directory)
    (h : t.Reaches ignored d names (.file content))
    (hshort : t.stat working (root.join ⟨.relative, names⟩) ≠ .error .nameTooLong) :
    t.stat working (root.join ⟨.relative, names⟩) = .ok (.file content) := by
  obtain ⟨hentry, -⟩ := h.entry?
  have hnames : ¬ (root.join ⟨.relative, names⟩).names.any (·.contains '\x00') = true := by
    rw [Path.join, List.any_append, Bool.or_eq_true]
    rintro (hnull | hnull)
    · rw [find, if_pos hnull] at hroot
      cases hroot
    · obtain ⟨name, hname, hcontains⟩ := List.any_eq_true.mp hnull
      exact (ht.isEntryName hentry (List.mem_append_right d hname)).null_not_mem
        (List.contains_iff_mem.mp hcontains)
  have hfind : t.find .target working (root.join ⟨.relative, names⟩) = .ok (d ++ names) := by
    by_cases hlong : pathLimit < byteLength (root.join ⟨.relative, names⟩).toText
    · refine absurd ?_ hshort
      rw [stat, find, if_neg hnames, if_pos hlong]
      rfl
    · obtain ⟨k, hk⟩ := exists_walk_append (find_eq_ok_iff.mp hroot).2.2 hd
      exact find_eq_ok_iff.mpr ⟨hnames, hlong, (hk names).trans (walk_of_reaches_file ht h hd k)⟩
  simp only [stat, hfind, Bind.bind, Except.bind, hentry]
  rfl

end FileTree

end AnnotatedRoutes
