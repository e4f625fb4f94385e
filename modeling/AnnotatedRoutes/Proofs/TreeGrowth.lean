import AnnotatedRoutes.Proofs.JobAttempts
import AnnotatedRoutes.Proofs.TreeShape
import AnnotatedRoutes.Proofs.UntouchedFiles

namespace AnnotatedRoutes

namespace FileTree

variable {t u v : FileTree} {working l : Location} {p : Path}

/-- Operations that got equally far in trees of the same shape. -/
structure Progress.Alike (a b : Progress) : Prop where
  tree : a.1.Alike b.1
  refusal : a.2 = b.2

/-- Results that are trees of the same shape, or the same error. -/
inductive SameShape {ε : Type} : Except ε FileTree → Except ε FileTree → Prop
  | ok {t u : FileTree} (h : t.Alike u) : SameShape (.ok t) (.ok u)
  | error (e : ε) : SameShape (.error e) (.error e)

namespace Alike

theorem put (h : t.Alike u) (hl : l ≠ []) {e e' : Entry} (he : e.shape = e'.shape) :
    (t.put l e).Alike (u.put l e') := by
  intro l'
  rw [shape?_put t hl, shape?_put u hl, he, h l']

theorem change (h : t.Alike u) (f g : Text.Bytes → Text.Bytes) :
    SameShape (t.change working p f) (u.change working p g) := by
  unfold FileTree.change
  rw [h.find_eq]
  cases u.find .making working p with
  | error fault => exact .error _
  | ok l =>
    have hl := h l
    dsimp only
    cases ht : t.entry? l with
    | none =>
      rw [h.none_iff.mp ht]
      have hl : l ≠ [] := by
        rintro rfl
        cases ht
      exact .ok (h.put hl rfl)
    | some e =>
      obtain ⟨e', hu, hshape⟩ := exists_of_shape? (hl.symm.trans (shape?_of_entry?_eq ht))
      rw [hu]
      cases e with
      | file content =>
        cases e' with
        | file content' =>
          have hl : l ≠ [] := by
            rintro rfl
            cases ht
          exact .ok (h.put hl rfl)
        | directory | link => cases hshape
      | directory | link =>
        cases e' with
        | file content' => cases hshape
        | directory | link => exact .error _

theorem makeDirectory (h : t.Alike u) :
    SameShape (t.makeDirectory working p) (u.makeDirectory working p) := by
  unfold FileTree.makeDirectory
  rw [h.find_eq]
  cases u.find .entry working p with
  | error fault => exact .error _
  | ok l =>
    simp only [Bind.bind, Except.bind]
    cases ht : t.entry? l with
    | none =>
      rw [h.none_iff.mp ht]
      have hl : l ≠ [] := by
        rintro rfl
        cases ht
      exact .ok (h.put hl rfl)
    | some e =>
      obtain ⟨e', hu, -⟩ := exists_of_shape? ((h l).symm.trans (shape?_of_entry?_eq ht))
      rw [hu]
      exact .error _

theorem tryDirectory (h : t.Alike u) {a b : Progress} (hab : a.Alike b) :
    Progress.Alike (t.tryDirectory working p a) (u.tryDirectory working p b) := by
  unfold FileTree.tryDirectory unlessDirectory
  rw [h.isDirectory_eq]
  generalize hx : t.makeDirectory working p = x
  generalize hy : u.makeDirectory working p = y
  have hxy : SameShape x y := by
    rw [← hx, ← hy]
    exact h.makeDirectory
  cases hxy with
  | ok h' => exact ⟨h', rfl⟩
  | error fault =>
    cases fault
    case missing => exact hab
    all_goals
      dsimp only
      split
      · exact ⟨h, rfl⟩
      · exact ⟨h, rfl⟩
      · exact ⟨h, rfl⟩

theorem makeDirectoriesUp (h : t.Alike u) (root : PathRoot) (names : List Text) :
    Progress.Alike (t.makeDirectoriesUp working root names)
      (u.makeDirectoriesUp working root names) := by
  induction names with
  | nil => exact h.tryDirectory ⟨h, rfl⟩
  | cons name above ih =>
    refine h.tryDirectory ?_
    revert ih
    rcases t.makeDirectoriesUp working root above with ⟨t', r⟩
    rcases u.makeDirectoriesUp working root above with ⟨u', r'⟩
    rintro ⟨htree, hrefusal⟩
    obtain rfl : r = r' := hrefusal
    cases r with
    | some e => exact ⟨htree, rfl⟩
    | none => exact htree.tryDirectory ⟨htree, rfl⟩

theorem inDirectoryOf (h : t.Alike u) (f g : Text.Bytes → Text.Bytes) :
    Progress.Alike (t.inDirectoryOf working p fun t => t.change working p f)
      (u.inDirectoryOf working p fun u => u.change working p g) := by
  have hdirectories : Progress.Alike (t.makeDirectories working p.parent)
      (u.makeDirectories working p.parent) := h.makeDirectoriesUp _ _
  unfold FileTree.inDirectoryOf
  revert hdirectories
  rcases t.makeDirectories working p.parent with ⟨t', r⟩
  rcases u.makeDirectories working p.parent with ⟨u', r'⟩
  rintro ⟨htree, hrefusal⟩
  obtain rfl : r = r' := hrefusal
  cases r with
  | some e => exact ⟨htree, rfl⟩
  | none =>
    dsimp only at htree ⊢
    have hchange : SameShape (t'.change working p f) (u'.change working p g) := htree.change f g
    revert hchange
    generalize t'.change working p f = x
    generalize u'.change working p g = y
    intro hchange
    cases hchange with
    | ok h' => exact ⟨h', rfl⟩
    | error e => exact ⟨htree, rfl⟩

theorem writeDeep (h : t.Alike u) (text text' : Text) :
    Progress.Alike (t.writeDeep working p text) (u.writeDeep working p text') :=
  h.inDirectoryOf _ _

end Alike

theorem grows_of_extends (h : t.Extends u) : t.Grows u := by
  intro l e he
  obtain ⟨e', he', rfl⟩ := exists_of_shape? he
  exact shape?_of_entry?_eq (h.kept he')

theorem grows_put (hl : t.TakesFile l) (content : Text.Bytes) :
    t.Grows (t.put l (.file content)) := by
  intro l' e he
  rw [shape?_put t hl.ne_nil]
  split
  next heq =>
    subst heq
    obtain ⟨e', he', rfl⟩ := exists_of_shape? he
    cases e' with
    | file => rfl
    | directory | link => cases hl _ he'
  next => exact he

theorem grows_inDirectoryOf (f : Text.Bytes → Text.Bytes) :
    t.Grows (t.inDirectoryOf working p (·.change working p f)).1 := by
  rcases inDirectoryOf_change t working p f with ⟨t₁, e, h, heq⟩ | ⟨t₁, l, content, h, -, hl, heq⟩
  · rw [heq]
    exact grows_of_extends h
  · rw [heq]
    exact (grows_of_extends h).trans (grows_put hl _)

theorem grows_writeAsked (t : FileTree) (working : Location) (p : Option Path) (text : Text) :
    t.Grows (t.writeAsked working p text).1 := by
  cases p with
  | none => exact .refl t
  | some p => exact grows_inDirectoryOf _

end FileTree

end AnnotatedRoutes
