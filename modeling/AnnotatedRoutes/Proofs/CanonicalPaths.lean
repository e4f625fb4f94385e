import AnnotatedRoutes.FileTree.Canonical
import Mathlib.Data.List.Basic

namespace AnnotatedRoutes

namespace Text

theorem join_prefix_append (sep : Text) (ts us : List Text) :
    join sep ts <+: join sep (ts ++ us) := by
  fun_induction join sep ts with
  | case1 => exact List.nil_prefix
  | case2 t =>
    cases us with
    | nil => exact List.prefix_rfl
    | cons u us => exact ⟨sep ++ join sep (u :: us), by simp [join]⟩
  | case3 t u ts ih => exact (List.prefix_append_right_inj (t ++ sep)).mpr ih

theorem of_mem_splitAt {sep : Char} {t piece : Text} (h : piece ∈ splitAt sep t) :
    sep ∉ piece ∧ ∀ c ∈ piece, c ∈ t := by
  induction t generalizing piece with
  | nil =>
    obtain rfl : piece = [] := by simpa [splitAt] using h
    exact ⟨List.not_mem_nil, fun _ hd => absurd hd List.not_mem_nil⟩
  | cons c t ih =>
    have later : ∀ {p}, p ∈ splitAt sep t → sep ∉ p ∧ ∀ d ∈ p, d ∈ c :: t :=
      fun hp => ⟨(ih hp).1, fun d hd => List.mem_cons_of_mem c ((ih hp).2 d hd)⟩
    rw [splitAt] at h
    split at h
    next =>
      rcases List.mem_cons.mp h with rfl | h
      · exact ⟨List.not_mem_nil, fun _ hd => absurd hd List.not_mem_nil⟩
      · exact later h
    next hc =>
      cases hs : splitAt sep t with
      | nil => exact absurd hs (splitAt_ne_nil sep t)
      | cons first pieces =>
        rw [hs] at h later
        rcases List.mem_cons.mp h with rfl | h
        · obtain ⟨hsep, hsub⟩ := later List.mem_cons_self
          refine ⟨fun hm => (List.mem_cons.mp hm).elim (fun e => hc e.symm) hsep, fun d hd => ?_⟩
          exact (List.mem_cons.mp hd).elim (fun e => e ▸ List.mem_cons_self) (hsub d)
        · exact later (List.mem_cons_of_mem first h)

/-- What follows the last separator goes on with a text that has none. -/
theorem splitAt_append_of_not_mem {sep : Char} {u : Text} (h : sep ∉ u) (t : Text) :
    splitAt sep (t ++ u) =
      (splitAt sep t).dropLast ++ [(splitAt sep t).getLast (splitAt_ne_nil sep t) ++ u] := by
  induction t with
  | nil =>
    induction u with
    | nil => rfl
    | cons c u ih =>
      obtain ⟨hc, hu⟩ := not_or.mp (mt List.mem_cons.mpr h)
      have ih : splitAt sep u = [u] := by simpa [splitAt] using ih hu
      simp [splitAt, Ne.symm hc, ih]
  | cons c t ih =>
    have hne := splitAt_ne_nil sep t
    by_cases hc : c = sep
    · simp only [List.cons_append, splitAt, hc, if_true, ih, List.dropLast_cons_of_ne_nil hne,
        List.getLast_cons hne]
    · cases hs : splitAt sep t with
      | nil => exact absurd hs hne
      | cons first pieces =>
        simp only [hs] at ih
        cases pieces with
        | nil => simp [splitAt, hc, ih, hs]
        | cons second pieces => simp [splitAt, hc, ih, hs]

end Text

theorem FileTree.byteLength_le_of_prefix {u v : Text} (h : u <+: v) :
    byteLength u ≤ byteLength v := by
  obtain ⟨rest, rfl⟩ := h
  rw [byteLength, byteLength, Text.encode, Text.encode, List.flatMap_append, List.length_append]
  exact Nat.le_add_right _ _

namespace Path

/-- A name that an entry of a directory can have. -/
structure IsName (name : Text) : Prop where
  ne_nil : name ≠ []
  ne_dot : name ≠ dot
  ne_dots : name ≠ dots
  unslashed : '/' ∉ name

/-- No name of the path has a character. -/
def Avoids (p : Path) (c : Char) : Prop := ∀ name ∈ p.names, c ∉ name

variable {p q : Path} {c : Char}

theorem avoids_slash_ofText (t : Text) : (ofText t).Avoids '/' :=
  fun _ h => (Text.of_mem_splitAt (List.mem_of_mem_filter h)).1

theorem avoids_ofText {t : Text} (h : c ∉ t) : (ofText t).Avoids c :=
  fun _ hm hc => h ((Text.of_mem_splitAt (List.mem_of_mem_filter hm)).2 c hc)

theorem Avoids.join (hp : p.Avoids c) (hq : q.Avoids c) : (p.join q).Avoids c := by
  intro name h
  rw [Path.join] at h
  split at h
  · exact (List.mem_append.mp h).elim (hp name) (hq name)
  · exact hq name h

theorem Avoids.parent (hp : p.Avoids c) : p.parent.Avoids c :=
  fun name h => hp name (List.dropLast_subset _ h)

theorem Avoids.up (hp : p.Avoids '/') : p.up.Avoids '/' := by
  intro name h
  rw [Path.up] at h
  split at h
  · rcases List.mem_append.mp h with h | h
    · exact hp name h
    · obtain rfl := List.mem_singleton.mp h
      decide
  · exact hp.parent name h

theorem Avoids.startOf (hp : p.Avoids c) (target : Text) : (p.startOf target).Avoids c := by
  intro name h
  rw [Path.startOf] at h
  split at h
  · exact hp name h
  · cases h

theorem Avoids.continued (hp : p.Avoids c) {names : List Text} (h : ∀ name ∈ names, c ∉ name) :
    (p.continued names).Avoids c := by
  intro name hm
  rw [Path.continued.eq_def] at hm
  split at hm
  · exact h name (List.mem_cons_of_mem _ hm)
  · exact (List.mem_append.mp hm).elim (hp name) (h name)

theorem Avoids.expandHome {around : Surroundings} (hp : p.Avoids '/')
    (h : p.expandHome around = .ok q) : q.Avoids '/' := by
  unfold Path.expandHome at h
  split at h
  next account names hroot hnames =>
    split at h
    next home hhome =>
      obtain rfl := Except.ok.inj h
      refine (avoids_slash_ofText home).join fun name hm => hp name ?_
      rw [hnames]
      exact List.mem_cons_of_mem _ hm
    next => split at h <;> cases h
  next => exact Except.ok.inj h ▸ hp

end Path

namespace FileTree

theorem lexical_append (here : Location) (names rest : List Text) :
    lexical here (names ++ rest) = lexical (lexical here names) rest := by
  induction names generalizing here with
  | nil => rfl
  | cons name names ih =>
    rw [List.cons_append, lexical, lexical]
    split
    · exact ih here
    · split
      · exact ih here.dropLast
      · exact ih (here ++ [name])

/-- Empty names and single dots lead nowhere. -/
theorem lexical_filter (here : Location) (names : List Text) :
    lexical here (names.filter fun name => name ≠ [] && name ≠ Path.dot) = lexical here names := by
  induction names generalizing here with
  | nil => rfl
  | cons name names ih =>
    rw [List.filter_cons, lexical]
    by_cases h : name = [] ∨ name = Path.dot
    · have hskipped : (name = [] || name = Path.dot) = true := by simpa using h
      rw [if_pos hskipped, if_neg (by simpa [imp_iff_not_or] using h), ih]
    · have hkept : ¬ (name = [] || name = Path.dot) = true := by simpa using h
      rw [if_neg hkept, if_pos (by simpa using h), lexical, if_neg hkept]
      simp only [ih]

theorem lexical_of_isName {names : List Text} (h : ∀ name ∈ names, Path.IsName name)
    (here : Location) : lexical here names = here ++ names := by
  induction names generalizing here with
  | nil => rw [lexical, List.append_nil]
  | cons name names ih =>
    obtain ⟨hname, hnames⟩ := List.forall_mem_cons.mp h
    have hkept : ¬ (name = [] || name = Path.dot) = true := by
      simpa using ⟨hname.ne_nil, hname.ne_dot⟩
    rw [lexical, if_neg hkept, if_neg hname.ne_dots, ih hnames, List.append_assoc,
      List.singleton_append]

/-- Names without slashes, from a location of names, lead to a location of names. -/
theorem isName_of_mem_lexical {here : Location} {names : List Text}
    (hh : ∀ name ∈ here, Path.IsName name) (hn : ∀ name ∈ names, '/' ∉ name) :
    ∀ name ∈ lexical here names, Path.IsName name := by
  induction names generalizing here with
  | nil => exact hh
  | cons name names ih =>
    obtain ⟨hname, hnames⟩ := List.forall_mem_cons.mp hn
    rw [lexical]
    split
    · exact ih hh hnames
    next hkept =>
      split
      · exact ih (fun n hm => hh n (List.dropLast_subset here hm)) hnames
      next hdots =>
        refine ih (fun n hm => ?_) hnames
        rcases List.mem_append.mp hm with hm | hm
        · exact hh n hm
        · obtain rfl := List.mem_singleton.mp hm
          have hkept : n ≠ [] ∧ n ≠ Path.dot := by simpa using hkept
          exact ⟨hkept.1, hkept.2, hdots, hname⟩

/-- Where a text leads from a directory. -/
theorem locationOf_child {directory : Location} (h : ∀ name ∈ directory, Path.IsName name)
    (working : Location) (text : Text) :
    locationOf working ((Path.ofLocation directory).child text) =
      lexical (startOf directory text) (Text.splitAt '/' text) := by
  have hdirectory : lexical [] directory = directory := lexical_of_isName h []
  rw [Path.child, Path.join, locationOf, startOf, Path.ofText]
  cases hr : Path.rootOf text with
  | relative =>
    simp only [Path.ofLocation, reduceCtorEq, if_false, if_true]
    rw [lexical_append, hdirectory, lexical_filter]
  | absolute => simp only [reduceCtorEq, if_false, lexical_filter]
  | doubled => simp only [reduceCtorEq, if_false, lexical_filter]

/-- A path without null characters is followed to some location; only a loop of links keeps that
location from being its canonical path. -/
theorem canonical_eq (t : FileTree) (around : Surroundings) {p : Path} (h : p.Avoids '\x00') :
    ∃ l, t.canonical around p = .ok (Path.ofLocation l) ∨
      t.canonical around p = .error (.linkLoop (Path.ofLocation l)) := by
  have hnull : ¬ (p.names.any (·.contains '\x00')) = true := by simpa [Path.Avoids] using h
  rw [canonical, if_neg hnull]
  dsimp only
  generalize t.follow _ _ _ _ _ = followed
  refine ⟨locationOf around.working followed.1, ?_⟩
  by_cases hcomplete : followed.2 = true
  · rw [if_pos hcomplete]
    exact Or.inl rfl
  · rw [if_neg hcomplete]
    split
    · exact Or.inr rfl
    · exact Or.inl rfl

/-- Slashes never get into names: what is followed are the pieces of texts between slashes. -/
theorem avoids_slash_follow (t : FileTree) (working : Location) (depth : Nat) (opened : List Path)
    {here : Path} {names : List Text} (hh : here.Avoids '/') (hn : ∀ name ∈ names, '/' ∉ name) :
    (t.follow working depth opened here names).1.Avoids '/' := by
  have split_target : ∀ target : Text, ∀ name ∈ Text.splitAt '/' target, '/' ∉ name :=
    fun _ _ h => (Text.of_mem_splitAt h).1
  have hnext {here : Path} {name : Text} {rest : List Text} (hh : here.Avoids '/')
      (hn : ∀ n ∈ name :: rest, '/' ∉ n) : Path.Avoids ⟨here.root, here.names ++ [name]⟩ '/' :=
    fun n hm => (List.mem_append.mp hm).elim (hh n) fun hm =>
      hn n (List.mem_singleton.mp hm ▸ List.mem_cons_self)
  fun_induction follow t working depth opened here names with
  | case1 => exact hh
  | case2 depth opened here name rest skipped ih => exact ih hh (List.forall_mem_cons.mp hn).2
  | case3 depth opened here rest kept ih => exact ih hh.up (List.forall_mem_cons.mp hn).2
  | case4 => exact (hnext hh hn).continued (List.forall_mem_cons.mp hn).2
  | case5 => exact (hnext hh hn).continued (List.forall_mem_cons.mp hn).2
  | case6 opened here name rest _ _ _ target _ _ depth there followed ihTarget ih =>
    have hthere := ihTarget (hh.startOf target) (split_target target)
    rw [followed] at hthere
    exact ih hthere (List.forall_mem_cons.mp hn).2
  | case7 opened here name rest _ _ _ target _ _ depth there followed ihTarget =>
    have hthere := ihTarget (hh.startOf target) (split_target target)
    rw [followed] at hthere
    exact hthere.continued (List.forall_mem_cons.mp hn).2
  | case8 depth opened here name rest _ _ _ _ ih =>
    exact ih (hnext hh hn) (List.forall_mem_cons.mp hn).2

theorem eq_ofLocation_of_canonical {t : FileTree} {around : Surroundings} {p q : Path}
    (h : t.canonical around p = .ok q) :
    q = Path.ofLocation (locationOf around.working
      (t.follow around.working (t.followLimit around.working) []
        (if p.root = .relative then Path.here else ⟨.absolute, []⟩) p.names).1) := by
  unfold canonical at h
  split at h
  · cases h
  dsimp only at h
  generalize t.follow _ _ _ _ _ = followed at h ⊢
  split at h
  · exact (Except.ok.inj h).symm
  · split at h
    · cases h
    · exact (Except.ok.inj h).symm

/-- A canonical path is the path of a location whose names are names of entries. -/
theorem location_of_canonical {t : FileTree} {around : Surroundings} {p q : Path}
    (h : t.canonical around p = .ok q) (hp : p.Avoids '/')
    (hw : ∀ name ∈ around.working, Path.IsName name) :
    ∃ l, q = Path.ofLocation l ∧ ∀ name ∈ l, Path.IsName name := by
  refine ⟨_, eq_ofLocation_of_canonical h, isName_of_mem_lexical ?start ?names⟩
  case start =>
    generalize (t.follow _ _ _ _ _).1.root = root
    split
    · exact hw
    · nofun
  case names =>
    refine t.avoids_slash_follow _ _ _ ?_ hp
    split <;> nofun

end FileTree

end AnnotatedRoutes
