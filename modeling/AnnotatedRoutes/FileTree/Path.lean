import AnnotatedRoutes.Text.Quoted

namespace AnnotatedRoutes

/-- What a path starts from. A text with exactly two slashes in front has a root of its own. -/
inductive PathRoot where
  | relative
  | absolute
  | doubled
  deriving DecidableEq

structure Path where
  root : PathRoot
  names : List Text
  deriving DecidableEq

namespace Path

/-- The working directory. -/
def here : Path := ⟨.relative, []⟩

def dot : Text := ['.']

def dots : Text := ['.', '.']

def rootOf : Text → PathRoot
  | '/' :: '/' :: '/' :: _ => .absolute
  | '/' :: '/' :: _ => .doubled
  | '/' :: _ => .absolute
  | _ => .relative

def ofText (t : Text) : Path :=
  ⟨rootOf t, (Text.splitAt '/' t).filter fun name => name ≠ [] && name ≠ dot⟩

def PathRoot.text : PathRoot → Text
  | .relative => []
  | .absolute => ['/']
  | .doubled => ['/', '/']

def toText (p : Path) : Text :=
  if p = here then dot else PathRoot.text p.root ++ Text.join ['/'] p.names

/-- The second path as seen from the first; an absolute one stands for itself. -/
def join (p q : Path) : Path :=
  match q.root with
  | .relative => ⟨p.root, p.names ++ q.names⟩
  | _ => q

def child (p : Path) (name : Text) : Path := p.join (ofText name)

/-- The path without its last name. -/
def parent (p : Path) : Path := ⟨p.root, p.names.dropLast⟩

/-- The last name; empty if there is none. -/
def name (p : Path) : Text := p.names.getLast?.getD []

/-- The names that lead from one path to another below it. -/
def namesBelow? : List Text → List Text → Option (List Text)
  | [], names => some names
  | _ :: _, [] => none
  | a :: base, b :: names => if a = b then namesBelow? base names else none

theorem namesBelow?_eq_some_iff {base l names : List Text} :
    namesBelow? base l = some names ↔ l = base ++ names := by
  induction base generalizing l with
  | nil => simp [namesBelow?]
  | cons a base ih =>
    cases l with
    | nil => simp [namesBelow?]
    | cons b l =>
      rw [namesBelow?, List.cons_append, List.cons.injEq]
      split
      next hab => rw [ih, hab, eq_self b, true_and]
      next hab => simp [Ne.symm hab]

/-- The path from `base` to a path that is `base` or below it, as far as the names tell. -/
def relativeTo? (p base : Path) : Option Path :=
  if p.root = base.root then (namesBelow? base.names p.names).map fun names => ⟨.relative, names⟩
  else none

end Path

end AnnotatedRoutes
