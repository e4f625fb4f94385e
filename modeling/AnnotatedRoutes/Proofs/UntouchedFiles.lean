import AnnotatedRoutes.Proofs.CatalogEntries
import AnnotatedRoutes.Proofs.DryRun
import AnnotatedRoutes.Proofs.LinkResolution
import AnnotatedRoutes.Proofs.TextBytes

namespace AnnotatedRoutes

open Run

namespace FileTree

/-- Directories may have been made; everything that was there is as before. -/
structure Extends (t t' : FileTree) : Prop where
  kept : ∀ {l : Location} {e : Entry}, t.entry? l = some e → t'.entry? l = some e
  made : ∀ {l : Location} {e : Entry}, t'.entry? l = some e → t.entry? l = some e ∨ e = .directory

variable {t t' t'' : FileTree} {working : Location} {p : Path}

namespace Extends

theorem refl (t : FileTree) : t.Extends t := ⟨id, Or.inl⟩

theorem trans (h : t.Extends t') (h' : t'.Extends t'') : t.Extends t'' where
  kept he := h'.kept (h.kept he)
  made he := (h'.made he).elim h.made Or.inr

theorem file_iff (h : t.Extends t') (l : Location) (content : Text.Bytes) :
    t'.entry? l = some (.file content) ↔ t.entry? l = some (.file content) :=
  ⟨fun he => (h.made he).resolve_right nofun, h.kept⟩

end Extends

theorem extends_put_directory {l : Location} (h : t.entry? l = none) :
    t.Extends (t.put l .directory) := by
  have hl : l ≠ [] := by
    rintro rfl
    cases h
  constructor
  case kept =>
    intro l' e he
    have hne : l' ≠ l := by
      rintro rfl
      cases h.symm.trans he
    rwa [FileTree.entry_put t hl, if_neg hne]
  case made =>
    intro l' e he
    rw [FileTree.entry_put t hl] at he
    split at he
    · exact .inr (Option.some.inj he).symm
    · exact .inl he

theorem extends_makeDirectory (h : t.makeDirectory working p = .ok t') : t.Extends t' := by
  unfold makeDirectory at h
  obtain ⟨l, -, h⟩ := bind_eq_ok_iff.mp h
  split at h
  next => cases h
  next hnone =>
    obtain rfl := Except.ok.inj h
    exact extends_put_directory hnone

theorem extends_tryDirectory {ifMissing : Progress} (h : t.Extends ifMissing.1) :
    t.Extends (t.tryDirectory working p ifMissing).1 := by
  unfold tryDirectory unlessDirectory
  split
  next hmade => exact extends_makeDirectory hmade
  next => exact h
  next => split <;> exact .refl t

theorem extends_makeDirectoriesUp (t : FileTree) (working : Location) (root : PathRoot)
    (names : List Text) : t.Extends (t.makeDirectoriesUp working root names).1 := by
  induction names with
  | nil => exact extends_tryDirectory (.refl t)
  | cons name above ih =>
    refine extends_tryDirectory ?_
    split
    next t₁ e habove =>
      rw [habove] at ih
      exact ih
    next t₁ habove =>
      rw [habove] at ih
      exact ih.trans (extends_tryDirectory (.refl t₁))

theorem extends_makeDirectories (t : FileTree) (working : Location) (p : Path) :
    t.Extends (t.makeDirectories working p).1 :=
  extends_makeDirectoriesUp t working p.root p.names.reverse

/-- A change that is done puts a file in the place that the path leads to. -/
theorem exists_put_of_change {f : Text.Bytes → Text.Bytes} (h : t.change working p f = .ok t') :
    ∃ l content, t.find .making working p = .ok l ∧ t.TakesFile l ∧
      t' = t.put l (.file (f content)) := by
  unfold change at h
  split at h
  next => cases h
  next l hl =>
    split at h
    next hnone => exact ⟨l, [], hl, fun e he => by simp [hnone] at he, (Except.ok.inj h).symm⟩
    next content hfile =>
      refine ⟨l, content, hl, fun e he => ?_, (Except.ok.inj h).symm⟩
      obtain rfl := Option.some.inj (hfile.symm.trans he)
      rfl
    next => cases h

/-- A change of a file, with the directories above it, has made directories at most, or it has made
them and put the file in the place that the path leads to. -/
theorem inDirectoryOf_change (t : FileTree) (working : Location) (p : Path)
    (f : Text.Bytes → Text.Bytes) :
    (∃ t₁ e, t.Extends t₁ ∧ t.inDirectoryOf working p (·.change working p f) = (t₁, some e)) ∨
      ∃ t₁ l content, t.Extends t₁ ∧ t₁.find .making working p = .ok l ∧ t₁.TakesFile l ∧
        t.inDirectoryOf working p (·.change working p f) =
          (t₁.put l (.file (f content)), none) := by
  have hdirectories := extends_makeDirectories t working p.parent
  unfold inDirectoryOf
  split
  next t₁ e hmade =>
    rw [hmade] at hdirectories
    exact .inl ⟨t₁, e, hdirectories, rfl⟩
  next t₁ hmade =>
    rw [hmade] at hdirectories
    dsimp only
    split
    next t₂ hchange =>
      obtain ⟨l, content, hl, htakes, rfl⟩ := exists_put_of_change hchange
      exact .inr ⟨t₁, l, content, hdirectories, hl, htakes, rfl⟩
    next e _ => exact .inl ⟨t₁, e, hdirectories, rfl⟩

/-- A write that is refused has made directories at most. -/
theorem extends_of_writeDeep_refused {text : Text} {e : FileError}
    (h : t.writeDeep working p text = (t', some e)) : t.Extends t' := by
  rcases inDirectoryOf_change t working p fun _ => Text.encode text with
    ⟨t₁, e', ht, hrefused⟩ | ⟨t₁, l, content, -, -, -, hdone⟩
  · obtain ⟨rfl, -⟩ := Prod.mk.inj (hrefused.symm.trans h)
    exact ht
  · cases congrArg Prod.snd (hdone.symm.trans h)

/-- A write that is done has made directories and put the file in the place that the path leads
to. -/
theorem exists_put_of_writeDeep {text : Text} (h : t.writeDeep working p text = (t', none)) :
    ∃ t₁ l, t.Extends t₁ ∧ t₁.find .making working p = .ok l ∧ t₁.TakesFile l ∧
      t' = t₁.put l (.file (Text.encode text)) := by
  rcases inDirectoryOf_change t working p fun _ => Text.encode text with
    ⟨t₁, e, -, hrefused⟩ | ⟨t₁, l, content, ht, hl, htakes, hdone⟩
  · cases congrArg Prod.snd (hrefused.symm.trans h)
  · obtain ⟨rfl, -⟩ := Prod.mk.inj (h.symm.trans hdone)
    exact ⟨t₁, l, ht, hl, htakes, rfl⟩

/-- The text is in the file that the path stands for, where it is read again; all other files are as
before. -/
structure Written (t : FileTree) (around : Surroundings) (p : Path) (text : Text)
    (t' : FileTree) : Prop where
  read : t'.readText around.working p = .ok text
  others : ∃ l, t'.canonical around p = .ok (.ofLocation l) ∧
    ∀ l' ≠ l, ∀ content, t'.entry? l' = some (.file content) ↔ t.entry? l' = some (.file content)

theorem written_of_writeDeep {around : Surroundings} {text : Text}
    (h : t.writeDeep around.working p text = (t', none)) : t.Written around p text t' := by
  obtain ⟨t₁, l, hdirectories, hl, htakes, rfl⟩ := exists_put_of_writeDeep h
  constructor
  case read =>
    rw [readText, read_put htakes _ hl]
    exact congrArg Except.ok (Text.decodeLossy_encode text)
  case others =>
    have hnew : FileTree.entry? (t₁.put l (.file (Text.encode text))) l =
        some (.file (Text.encode text)) := by rw [FileTree.entry_put t₁ htakes.ne_nil, if_pos rfl]
    refine ⟨l, canonical_of_find (find_put htakes _ hl) hnew, fun l' hne content => ?_⟩
    rw [FileTree.entry_put t₁ htakes.ne_nil, if_neg hne, hdirectories.file_iff]

end FileTree

namespace Generator

variable {g : Generator} {s s' s₁ : Session} {inputs : List Path} {out : Path} {elapsed text : Text}

theorem run_generate_of_render_error (elapsed : Text) (out : Path) (hq : g.log.Quiet false)
    {e : Failure}
    (h : (g.render inputs).run.run s = (.error e, s₁)) :
    (g.generate elapsed inputs out).run.run s = (.error e, s₁) ∧ s₁.tree = s.tree := by
  obtain ⟨s₂, hrun, hs⟩ := reads_render hq inputs s
  obtain rfl : s₁ = s₂ := congrArg Prod.snd (h.symm.trans hrun)
  exact ⟨run_bind_error h _, hs.tree.symm⟩

/-- A router file that could be rendered is written, if the tree allows it. -/
theorem run_generate_of_render (elapsed : Text) (out : Path) (hq : g.log.Quiet false)
    (h : (g.render inputs).run.run s = (.ok text, s₁)) :
    ∃ s', (g.generate elapsed inputs out).run.run s =
        (resultOf (s.tree.writeDeep g.around.working out text).2, s') ∧
      s'.tree = (s.tree.writeDeep g.around.working out text).1 := by
  have hwrite := (changes_writeLogged hq g.around.working out text).logged (k := fun written => do
    if written then
      g.log ("[OK] wrote ".toList ++ out.toText ++ " in ".toList ++ elapsed ++ "s".toList)
    return written) fun written => by
      cases written with
      | false => exact reads_pure false
      | true => exact Reads.after (hq _) (reads_pure true)
  obtain ⟨s₂, hrun, hs⟩ := reads_render hq inputs s
  obtain rfl : s₁ = s₂ := congrArg Prod.snd (h.symm.trans hrun)
  obtain ⟨s', hrun', hs'⟩ := hwrite s₁
  rw [hs.tree]
  exact ⟨s', (run_bind_ok h _).trans hrun', hs'.tree.symm⟩

/-- A generation that does not write the router file, whether it ends with a failure or tells that
the tree refused the write, leaves every file as it was. One that writes it has the rendered text in
the file that the path stands for, and leaves every other file as it was. -/
theorem generate_spares_files (hq : g.log.Quiet false) {result : Except Failure Bool}
    (h : (g.generate elapsed inputs out).run.run s = (result, s')) :
    (result ≠ .ok true → ∀ l content,
      s'.tree.entry? l = some (.file content) ↔ s.tree.entry? l = some (.file content)) ∧
    (result = .ok true → ∃ text s₁, (g.render inputs).run.run s = (.ok text, s₁) ∧
      s.tree.Written g.around out text s'.tree) := by
  rcases hrender : (g.render inputs).run.run s with ⟨rendered, s₁⟩
  cases rendered with
  | error e =>
    obtain ⟨hrun, htree⟩ := run_generate_of_render_error elapsed out hq hrender
    obtain ⟨rfl, rfl⟩ := Prod.mk.inj (h.symm.trans hrun)
    exact ⟨fun _ l content => by rw [htree], nofun⟩
  | ok text =>
    obtain ⟨s₂, hrun, htree⟩ := run_generate_of_render elapsed out hq hrender
    obtain ⟨rfl, rfl⟩ := Prod.mk.inj (h.symm.trans hrun)
    rcases hwrite : s.tree.writeDeep g.around.working out text with ⟨t, _ | e⟩
    · simp only [hwrite] at htree
      rw [← htree] at hwrite
      have hwritten := FileTree.written_of_writeDeep hwrite
      exact ⟨fun hfailed => absurd rfl hfailed, fun _ => ⟨text, s₁, rfl, hwritten⟩⟩
    · simp only [hwrite] at htree
      rw [← htree] at hwrite
      have hkept := FileTree.extends_of_writeDeep_refused hwrite
      refine ⟨fun _ => hkept.file_iff, fun hdone => ?_⟩
      exact absurd (of_resultOf_eq_ok hdone).1 (by simp)

/-- A router file is written to a free place and read back there; in the place of a directory it is
refused. -/
theorem generate_spares_files_oneDirectory :
    let g := (CommandLine.Invocation.onInput {} ['x']).generator
    let s : Session := { tree := CommandLine.Invocation.oneDirectory }
    let inputs : List Path := [⟨.relative, [['x']]⟩]
    let free : Path := ⟨.absolute, [['o']]⟩
    let taken : Path := ⟨.absolute, [['d']]⟩
    g.log.Quiet false ∧
      (∃ s' text, (g.generate [] inputs free).run.run s = (.ok true, s') ∧
        s.tree.Written g.around free text s'.tree) ∧
      ∃ s', (g.generate [] inputs taken).run.run s = (.ok false, s') ∧
        ∀ l content, s'.tree.entry? l = some (.file content) ↔
          s.tree.entry? l = some (.file content) := by
  intro g s inputs free taken
  have hq : g.log.Quiet false := Log.quiet_nowhere false
  have htext : g.textOf s.tree inputs = .ok _ := CommandLine.Invocation.textOf_missing {}
  obtain ⟨s₁, hrender, -⟩ := reads_render hq inputs s
  simp only [htext] at hrender
  have hfree (text : Text) :
      resultOf (s.tree.writeDeep g.around.working free text).2 = .ok true := by cbv
  have htaken (text : Text) :
      resultOf (s.tree.writeDeep g.around.working taken text).2 = .ok false := by cbv
  refine ⟨hq, ?_, ?_⟩
  · obtain ⟨s', hrun, -⟩ := run_generate_of_render [] free hq hrender
    rw [hfree] at hrun
    obtain ⟨text, _, -, hwritten⟩ := (generate_spares_files hq hrun).2 rfl
    exact ⟨s', text, hrun, hwritten⟩
  · obtain ⟨s', hrun, -⟩ := run_generate_of_render [] taken hq hrender
    rw [htaken] at hrun
    have hrefused : (.ok false : Except Failure Bool) ≠ .ok true := by simp
    exact ⟨s', hrun, (generate_spares_files hq hrun).1 hrefused⟩

end Generator

end AnnotatedRoutes
