import AnnotatedRoutes.Proofs.TreeGrowth

namespace AnnotatedRoutes

namespace FileTree

variable {t u : FileTree} {working l : Location} {p : Path}

section Walks

variable {links : Nat} {here : Location} {names : List Text}

/-- Names with a slash at the end lead to a directory. -/
theorem directory_of_walk_slash (h : t.walk .target links here names = .ok l)
    (hslash : names.getLast? = some []) : t.entry? l = some .directory := by
  have hrest {name : Text} {rest : List Text} (hn : name ≠ [])
      (hslash : (name :: rest).getLast? = some []) : rest ≠ [] ∧ rest.getLast? = some [] := by
    have hrest : rest ≠ [] := by
      rintro rfl
      exact hn (Option.some.inj hslash)
    exact ⟨hrest, by rwa [List.getLast?_cons_of_ne_nil hrest] at hslash⟩
  have hname {name : Text} (hn : ¬ (name = [] || name = Path.dot) = true) : name ≠ [] := by
    rintro rfl
    exact hn rfl
  fun_induction walk t .target links here names with
  | case1 => cases hslash
  | case2 | case5 | case6 | case8 | case10 => cases h
  | case3 links here name rest hd hn ih =>
    by_cases hrest : rest = []
    · subst hrest
      rw [walk] at h
      obtain rfl := Except.ok.inj h
      exact not_not.mp hd
    · rw [List.getLast?_cons_of_ne_nil hrest] at hslash
      exact ih h hslash
  | case4 links here rest hd hn ih => exact ih h (hrest (hname hn) hslash).2
  | case7 links here name hd hn => exact absurd rfl (hrest (hname hn) hslash).1
  | case9 links here name rest hd hn hdots hslash' hlong next target hlink hlast => simp at hlast
  | case11 here name rest hd hn hdots hslash' hlong next target hlink hlast links ih =>
    obtain ⟨hne, hslash⟩ := hrest (hname hn) hslash
    exact ih h (by rwa [List.getLast?_append_of_ne_nil _ hne])
  | case12 links here name rest hd hn hdots hslash' hlong next e hplace he ih =>
    exact ih h (hrest (hname hn) hslash).2

/-- The way to a file is the way to make it. -/
theorem walk_making_of_target {content : Text.Bytes} (h : t.walk .target links here names = .ok l)
    (hl : t.entry? l = some (.file content)) : t.walk .making links here names = .ok l := by
  have hunslashed {links : Nat} {here : Location} {names rest : List Text}
      (h : t.walk .target links here (names ++ rest) = .ok l) : endsInSlash rest = false := by
    rw [Bool.eq_false_iff]
    intro hslash
    have hslash : rest ≠ [] ∧ ∀ name ∈ rest, name = [] := by simpa [endsInSlash] using hslash
    have hlast : (names ++ rest).getLast? = some [] := by
      rw [List.getLast?_append_of_ne_nil _ hslash.1, List.getLast?_eq_some_getLast hslash.1,
        hslash.2 _ (List.getLast_mem hslash.1)]
    cases hl.symm.trans (directory_of_walk_slash h hlast)
  fun_induction walk t .target links here names with
  | case1 =>
    rw [walk]
    exact h
  | case2 | case5 | case6 | case8 | case10 => cases h
  | case3 links here name rest hd hn ih =>
    rw [walk, if_neg hd, if_pos hn]
    exact ih h
  | case4 links here rest hd hn ih =>
    rw [walk, if_neg hd, if_neg hn, if_pos rfl]
    exact ih h
  | case7 links here name hd hn hdots hlong next hnone hslash =>
    obtain rfl : here ++ [name] = l := Except.ok.inj h
    cases hnone.symm.trans hl
  | case9 links here name rest hd hn hdots hslash hlong next target hlink hlast => simp at hlast
  | case11 here name rest hd hn hdots hslash hlong next target hlink hlast links ih =>
    have hlink : t.entry? (here ++ [name]) = some (.link target) := hlink
    rw [walk_cons hd hn hdots (by simp [hunslashed h]) hlong, hlink]
    simpa using ih h
  | case12 links here name rest hd hn hdots hslash hlong next e hplace he ih =>
    have he : t.entry? (here ++ [name]) = some e := he
    have hrest : endsInSlash rest = false := @hunslashed links _ [] rest h
    rw [walk_cons hd hn hdots (by simp [hrest]) hlong, he]
    cases e with
    | link target => exact absurd rfl (hplace target)
    | directory | file => exact ih h

/-- What leads to an entry is an entry itself. -/
theorem exists_walk_entry {e : Entry} (h : t.walk .target links here names = .ok l)
    (hl : t.entry? l = some e) :
    ∃ l' e', t.walk .entry links here names = .ok l' ∧ t.entry? l' = some e' := by
  fun_induction walk t .target links here names with
  | case1 links here =>
    obtain rfl := Except.ok.inj h
    exact ⟨here, e, by rw [walk], hl⟩
  | case2 | case5 | case6 | case8 | case10 => cases h
  | case3 links here name rest hd hn ih =>
    rw [walk, if_neg hd, if_pos hn]
    exact ih h
  | case4 links here rest hd hn ih =>
    rw [walk, if_neg hd, if_neg hn, if_pos rfl]
    exact ih h
  | case7 links here name hd hn hdots hlong next hnone hslash =>
    obtain rfl : here ++ [name] = l := Except.ok.inj h
    cases hnone.symm.trans hl
  | case9 links here name rest hd hn hdots hslash hlong next target hlink hlast => simp at hlast
  | case11 here name rest hd hn hdots hslash hlong next target hlink hlast links ih =>
    have hlink : t.entry? (here ++ [name]) = some (.link target) := hlink
    rw [walk_cons hd hn hdots (by simp) hlong, hlink]
    by_cases hrest : rest = []
    · exact ⟨here ++ [name], .link target, if_pos (by simp [hrest]), hlink⟩
    · obtain ⟨l', e', hl', he'⟩ := ih h
      exact ⟨l', e', (if_neg (by simp [hrest])).trans hl', he'⟩
  | case12 links here name rest hd hn hdots hslash hlong next e' hplace he' ih =>
    have he' : t.entry? (here ++ [name]) = some e' := he'
    rw [walk_cons hd hn hdots (by simp) hlong, he']
    cases e' with
    | link target => exact absurd rfl (hplace target)
    | directory | file => exact ih h

/-- Names that go on lead through a directory. -/
theorem exists_walk_before {before after : List Text}
    (h : t.walk .target links here (before ++ after) = .ok l) (hafter : after ≠ []) :
    ∃ d, t.walk .target links here before = .ok d ∧ t.entry? d = some .directory := by
  fun_induction walk t .target links here before with
  | case1 links here =>
    obtain ⟨name, rest, rfl⟩ := List.exists_cons_of_ne_nil hafter
    rw [List.nil_append, walk] at h
    split at h
    next => cases h
    next hd => exact ⟨here, rfl, not_not.mp hd⟩
  | case2 links here name rest hd =>
    rw [List.cons_append, walk, if_pos hd] at h
    cases h
  | case3 links here name rest hd hn ih =>
    rw [List.cons_append, walk, if_neg hd, if_pos hn] at h
    exact ih h
  | case4 links here rest hd hn ih =>
    rw [List.cons_append, walk, if_neg hd, if_neg hn, if_pos rfl] at h
    exact ih h
  | case5 links here name rest hd hn hdots hslash => simp at hslash
  | case6 links here name rest hd hn hdots hslash hlong =>
    rw [List.cons_append, walk, if_neg hd, if_neg hn, if_neg hdots, if_neg (by simp),
      if_pos hlong] at h
    cases h
  | case7 links here name hd hn hdots hlong next hnone hslash =>
    have hnone : t.entry? (here ++ [name]) = none := hnone
    rw [List.cons_append, walk_target_cons (not_not.mp hd) hn hdots hlong, hnone] at h
    cases (if_neg hafter).symm.trans h
  | case8 links here name rest hd hn hdots hslash hlong next hnone hrest =>
    have hnone : t.entry? (here ++ [name]) = none := hnone
    rw [List.cons_append, walk_target_cons (not_not.mp hd) hn hdots hlong, hnone] at h
    cases (if_neg (by simp [hafter])).symm.trans h
  | case9 links here name rest hd hn hdots hslash hlong next target hlink hlast => simp at hlast
  | case10 here name rest hd hn hdots hslash hlong next target hlink hlast =>
    have hlink : t.entry? (here ++ [name]) = some (.link target) := hlink
    rw [List.cons_append, walk_target_cons (not_not.mp hd) hn hdots hlong, hlink] at h
    cases h
  | case11 here name rest hd hn hdots hslash hlong next target hlink hlast links ih =>
    have hlink : t.entry? (here ++ [name]) = some (.link target) := hlink
    rw [List.cons_append, walk_target_cons (not_not.mp hd) hn hdots hlong, hlink] at h
    exact ih (by rwa [List.append_assoc])
  | case12 links here name rest hd hn hdots hslash hlong next e hplace he ih =>
    have he : t.entry? (here ++ [name]) = some e := he
    rw [List.cons_append, walk_target_cons (not_not.mp hd) hn hdots hlong, he] at h
    cases e with
    | link target => exact absurd rfl (hplace target)
    | directory | file => exact ih h

end Walks

/-- The path leads to a file. -/
def HoldsFile (t : FileTree) (working : Location) (p : Path) : Prop :=
  ∃ l content, t.find .target working p = .ok l ∧ t.entry? l = some (.file content)

theorem HoldsFile.grows (h : t.HoldsFile working p) (hu : t.Grows u) : u.HoldsFile working p := by
  obtain ⟨l, content, hl, he⟩ := h
  obtain ⟨e, he', hshape⟩ := exists_of_shape? (hu _ _ (shape?_of_entry?_eq he))
  cases e with
  | file content' => exact ⟨l, content', hu.find_eq_ok hl he, he'⟩
  | directory | link => cases hshape

theorem holdsFile_of_appendDeep {text : Text}
    (h : t.appendDeep working p text = (u, none)) : u.HoldsFile working p := by
  rcases inDirectoryOf_change t working p fun content => content ++ Text.encode text with
    ⟨t₁, e, -, hrefused⟩ | ⟨t₁, l, content, -, hl, htakes, hdone⟩
  · cases congrArg Prod.snd (hrefused.symm.trans h)
  · obtain ⟨rfl, -⟩ := Prod.mk.inj (h.symm.trans hdone)
    have hnew : FileTree.entry? (t₁.put l (.file (content ++ Text.encode text))) l =
        some (.file (content ++ Text.encode text)) := by
      rw [FileTree.entry_put t₁ htakes.ne_nil, if_pos rfl]
    exact ⟨l, _, find_put htakes _ hl, hnew⟩

theorem byteLength_parent_ofLocation (l : Location) :
    byteLength (Path.ofLocation l).parent.toText ≤ byteLength (Path.ofLocation l).toText := by
  have htext (l : Location) : (Path.ofLocation l).toText = '/' :: Text.join ['/'] l :=
    if_neg (by simp [Path.ofLocation, Path.here])
  have hparent : (Path.ofLocation l).parent = Path.ofLocation l.dropLast := rfl
  obtain ⟨rest, hrest⟩ := List.dropLast_prefix l
  rw [hparent, htext, htext]
  refine byteLength_le_of_prefix ((List.prefix_cons_inj _).mpr ?_)
  have hjoin := Text.join_prefix_append ['/'] l.dropLast rest
  rwa [hrest] at hjoin

/-- The directory of a file is there. -/
theorem HoldsFile.exists_find_parent {l : Location}
    (h : t.HoldsFile working (Path.ofLocation l)) :
    ∃ d, t.find .target working (Path.ofLocation l).parent = .ok d ∧
      t.entry? d = some .directory := by
  obtain ⟨l', content, hl, he⟩ := h
  obtain ⟨hnull, hlong, hwalk⟩ := find_eq_ok_iff.mp hl
  have hwalk : t.walk .target linkLimit [] l = .ok l' := hwalk
  have hlast : l ≠ [] := by
    rintro rfl
    rw [walk] at hwalk
    obtain rfl := Except.ok.inj hwalk
    cases he
  rw [← List.dropLast_concat_getLast hlast] at hwalk
  obtain ⟨d, hd, hdirectory⟩ := exists_walk_before hwalk (List.cons_ne_nil _ _)
  refine ⟨d, find_eq_ok_iff.mpr ⟨fun h => ?_, fun h => ?_, hd⟩, hdirectory⟩
  · obtain ⟨name, hname, hcontains⟩ := List.any_eq_true.mp h
    exact hnull (List.any_eq_true.mpr ⟨name, List.dropLast_subset _ hname, hcontains⟩)
  · exact hlong (h.trans_le (byteLength_parent_ofLocation l))

/-- A directory that is there need not be made. -/
theorem tryDirectory_of_find {d : Location} (h : t.find .target working p = .ok d)
    (hd : t.entry? d = some .directory) (ifMissing : Progress) :
    t.tryDirectory working p ifMissing = (t, none) := by
  obtain ⟨hnull, hlong, hwalk⟩ := find_eq_ok_iff.mp h
  obtain ⟨l, e, hwalk, he⟩ := exists_walk_entry hwalk hd
  have hl : t.find .entry working p = .ok l := find_eq_ok_iff.mpr ⟨hnull, hlong, hwalk⟩
  have hmake : t.makeDirectory working p = .error .alreadyThere := by
    simp only [makeDirectory, hl, Bind.bind, Except.bind, he]
  have hdirectory : t.isDirectory working p = .ok true := by
    simp only [isDirectory, asks, stat, h, Bind.bind, Except.bind, hd]
    rfl
  rw [tryDirectory, hmake]
  dsimp only
  rw [unlessDirectory, hdirectory]

theorem makeDirectories_of_find {d : Location} (h : t.find .target working p = .ok d)
    (hd : t.entry? d = some .directory) : t.makeDirectories working p = (t, none) := by
  obtain ⟨root, names⟩ := p
  unfold makeDirectories
  rcases List.eq_nil_or_concat' names with rfl | ⟨names, name, rfl⟩
  · exact tryDirectory_of_find h hd _
  · rw [List.reverse_concat, makeDirectoriesUp]
    have hp : (⟨root, (name :: names.reverse).reverse⟩ : Path) = ⟨root, names ++ [name]⟩ := by simp
    dsimp only
    rw [hp]
    exact tryDirectory_of_find h hd _

/-- A file to which a line could be added takes further ones. -/
theorem HoldsFile.exists_appendDeep {l : Location}
    (h : t.HoldsFile working (Path.ofLocation l)) (text : Text) :
    ∃ u, t.appendDeep working (Path.ofLocation l) text = (u, none) ∧ u.Alike t := by
  obtain ⟨d, hparent, hd⟩ := h.exists_find_parent
  obtain ⟨l', content, hl, he⟩ := h
  obtain ⟨hnull, hlong, hwalk⟩ := find_eq_ok_iff.mp hl
  have hmaking : t.find .making working (Path.ofLocation l) = .ok l' :=
    find_eq_ok_iff.mpr ⟨hnull, hlong, walk_making_of_target hwalk he⟩
  have hne : l' ≠ [] := by
    rintro rfl
    cases he
  refine ⟨t.put l' (.file (content ++ Text.encode text)), ?_, fun l'' => ?_⟩
  · rw [FileTree.appendDeep, inDirectoryOf, makeDirectories_of_find hparent hd]
    simp only [append, change, hmaking, he]
  · rw [shape?_put t hne]
    split
    next heq => rw [heq, shape?_of_entry?_eq he]; rfl
    next => rfl

end FileTree

end AnnotatedRoutes
