import AnnotatedRoutes.FileTree.Basic
import AnnotatedRoutes.Proofs.KeyedLookup

namespace AnnotatedRoutes.FileTree

/-- A place that is free or holds a file. -/
def TakesFile (t : FileTree) (l : Location) : Prop := ∀ e, t.entry? l = some e → e.isFile = true

theorem entry_put (t : FileTree) {l : Location} (hl : l ≠ []) (e : Entry) (l' : Location) :
    FileTree.entry? (t.put l e) l' = if l' = l then some e else t.entry? l' := by
  by_cases h : l' = []
  · simp [ entry?, h, Ne.symm hl]
  · simp [ entry?, h, put, Keyed.get?_put]

theorem TakesFile.ne_nil {t : FileTree} {l : Location} (h : t.TakesFile l) : l ≠ [] := by
  rintro rfl
  exact absurd (h .directory rfl) (by decide)

theorem TakesFile.entry_put {t : FileTree} {l l' : Location} {e : Entry} (h : t.TakesFile l)
    (he : t.entry? l' = some e) (hf : e.isFile = false) (content : Text.Bytes) :
    FileTree.entry? (t.put l (.file content)) l' = some e := by
  have hne : l' ≠ l := by
    rintro rfl
    exact absurd (h e he) (by simp [hf])
  rw [FileTree.entry_put t h.ne_nil, if_neg hne, he]

/-- What a name in a directory leads to. -/
theorem walk_cons {t : FileTree} {purpose : Purpose} {links : Nat} {here : Location} {name : Text}
    {rest : List Text} (hd : ¬ t.entry? here ≠ some .directory)
    (hn : ¬ (name = [] || name = Path.dot) = true) (hdots : name ≠ Path.dots)
    (hslash : ¬ (purpose = .making && endsInSlash rest) = true)
    (hlong : ¬ nameLimit < byteLength name) :
    t.walk purpose links here (name :: rest) =
      match t.entry? (here ++ [name]) with
      | none => if rest = [] then .ok (here ++ [name]) else .error .missing
      | some (.link target) =>
        if rest = [] && purpose = .entry then .ok (here ++ [name])
        else match links with
          | 0 => .error .tooManyLinks
          | links + 1 =>
            t.walk purpose links (startOf here target) (Text.splitAt '/' target ++ rest)
      | some _ => t.walk purpose links (here ++ [name]) rest := by
  rw [walk]
  exact (if_neg hd).trans <| (if_neg hn).trans <| (if_neg hdots).trans <|
    (if_neg hslash).trans (if_neg hlong)

theorem walk_target_cons {t : FileTree} {here : Location} {name : Text}
    (hd : t.entry? here = some .directory) (hn : ¬ (name = [] || name = Path.dot) = true)
    (hdots : name ≠ Path.dots) (hlong : ¬ nameLimit < byteLength name) (links : Nat)
    (rest : List Text) :
    t.walk .target links here (name :: rest) =
      match t.entry? (here ++ [name]) with
      | none => if rest = [] then .ok (here ++ [name]) else .error .missing
      | some (.link target) =>
        match links with
        | 0 => .error .tooManyLinks
        | links + 1 => t.walk .target links (startOf here target) (Text.splitAt '/' target ++ rest)
      | some _ => t.walk .target links (here ++ [name]) rest := by
  rw [walk_cons (not_not.mpr hd) hn hdots (by simp) hlong]
  simp

/-- The way to a file that is made is the way to it once it is there. -/
theorem walk_put {t : FileTree} {links : Nat} {here l : Location} {names : List Text}
    (hl : t.TakesFile l) (content : Text.Bytes) (h : t.walk .making links here names = .ok l) :
    (t.put l (.file content)).walk .target links here names = .ok l := by
  have hthere : ∀ {l'}, ¬ t.entry? l' ≠ some .directory →
      FileTree.entry? (t.put l (.file content)) l' = some .directory :=
    fun hd => hl.entry_put (not_not.mp hd) rfl content
  have hnew : FileTree.entry? (t.put l (.file content)) l = some (.file content) := by
    rw [FileTree.entry_put t hl.ne_nil, if_pos rfl]
  -- on the way there are directories and links only, and these are as before
  fun_induction walk t .making links here names with
  | case1 => rw [walk]; exact h
  | case2 | case5 | case6 | case8 | case10 => cases h
  | case3 links here name rest hd hn ih =>
    rw [walk, if_neg (not_not.mpr (hthere hd)), if_pos hn, ih h]
  | case4 links here rest hd hn ih =>
    rw [walk, if_neg (not_not.mpr (hthere hd)), if_neg hn, if_pos rfl, ih h]
  | case7 links here name hd hn hdots hlong next hnone hslash =>
    obtain rfl : here ++ [name] = l := Except.ok.inj h
    rw [walk_target_cons (hthere hd) hn hdots hlong, hnew]
    simp [walk]
  | case9 links here name rest hd hn hdots hslash hlong next target hlink hlast => simp at hlast
  | case11 here name rest hd hn hdots hslash hlong next target hlink hlast links ih =>
    have hsame : FileTree.entry? (t.put l (.file content)) (here ++ [name]) = some (.link target) :=
      hl.entry_put hlink rfl content
    rw [walk_target_cons (hthere hd) hn hdots hlong, hsame]
    exact ih h
  | case12 links here name rest hd hn hdots hslash hlong next e hlink he ih =>
    rw [walk_target_cons (hthere hd) hn hdots hlong]
    by_cases hnext : here ++ [name] = l
    · subst hnext
      rw [hnew]
      exact ih h
    · have hsame : FileTree.entry? (t.put l (.file content)) (here ++ [name]) = some e := by
        rw [FileTree.entry_put t hl.ne_nil, if_neg hnext, ← he]
      rw [hsame]
      cases e with
      | link target => exact absurd rfl (hlink target)
      | directory | file => exact ih h

theorem find_put {t : FileTree} {working l : Location} {p : Path} (hl : t.TakesFile l)
    (content : Text.Bytes) (h : t.find .making working p = .ok l) :
    (t.put l (.file content)).find .target working p = .ok l := by
  unfold find at h ⊢
  split at h
  next => cases h
  next hnull =>
    split at h
    next => cases h
    next hlong =>
      rw [if_neg hnull, if_neg hlong]
      exact walk_put hl content h

theorem read_put {t : FileTree} {working l : Location} {p : Path} (hl : t.TakesFile l)
    (content : Text.Bytes) (h : t.find .making working p = .ok l) :
    (t.put l (.file content)).read working p = .ok content := by
  have hnew : FileTree.entry? (t.put l (.file content)) l = some (.file content) := by
    rw [FileTree.entry_put t hl.ne_nil, if_pos rfl]
  have hstat : (t.put l (.file content)).stat working p = .ok (.file content) := by
    simp only [stat, find_put hl content h, Bind.bind, Except.bind, hnew]
    rfl
  rw [read, hstat]

theorem read_of_write {t t' : FileTree} {working : Location} {p : Path} {text : Text}
    (h : t.write working p text = .ok t') : t'.read working p = .ok (Text.encode text) := by
  unfold write change at h
  split at h
  next => cases h
  next l hl =>
    split at h
    next hnone =>
      obtain rfl := Except.ok.inj h
      exact read_put (fun e he => by simp [hnone] at he) _ hl
    next content hfile =>
      obtain rfl := Except.ok.inj h
      refine read_put (fun e he => ?_) _ hl
      obtain rfl := Option.some.inj (hfile.symm.trans he)
      rfl
    next => cases h

/-- A file that was written, with the directory that it is in, is read as it was written. -/
theorem read_of_writeDeep {t t' : FileTree} {working : Location} {p : Path} {text : Text}
    (h : t.writeDeep working p text = (t', none)) :
    t'.read working p = .ok (Text.encode text) := by
  unfold writeDeep inDirectoryOf at h
  split at h
  next => cases h
  next t₁ _ =>
    dsimp only at h
    split at h
    next t₂ hw =>
      obtain rfl := congrArg Prod.fst h
      exact read_of_write hw
    next => cases h

end AnnotatedRoutes.FileTree
