import AnnotatedRoutes.Proofs.CanonicalPaths
import AnnotatedRoutes.Proofs.WrittenFiles
import Mathlib.Data.List.Perm.Subperm

namespace AnnotatedRoutes.FileTree

theorem mem_entries_of_entry {t : FileTree} {l : Location} {e : Entry} (h : t.entry? l = some e)
    (he : e ≠ .directory) : (l, e) ∈ t.entries.entries := by
  unfold FileTree.entry? at h
  split at h
  next => exact absurd (Option.some.inj h).symm he
  next => exact Keyed.get?_eq_some_iff.mp h

/-- What a name in a directory stands for. -/
inductive Turn where
  | place (l : Location)
  | link (target : Text)

/-- The place, or the link, that a name leads to. -/
def turn? (t : FileTree) (here : Location) (name : Text) : Option Turn :=
  if name = [] || name = Path.dot then some (.place here)
  else if name = Path.dots then some (.place here.dropLast)
  else match t.entry? (here ++ [name]) with
    | none => none
    | some (.link target) => some (.link target)
    | some _ => some (.place (here ++ [name]))

/-- Names lead from a location to another one by way of so many links. -/
inductive Leads (t : FileTree) : Location → List Text → Nat → Location → Prop
  | here (l : Location) : Leads t l [] 0 l
  | place {here next l : Location} {name : Text} {names : List Text} {n : Nat}
    (turn : t.turn? here name = some (.place next)) (rest : Leads t next names n l) :
    Leads t here (name :: names) n l
  | link {here l : Location} {name target : Text} {names : List Text} {n : Nat}
    (turn : t.turn? here name = some (.link target))
    (rest : Leads t (startOf here target) (Text.splitAt '/' target ++ names) n l) :
    Leads t here (name :: names) (n + 1) l

variable {t : FileTree}

theorem Leads.unique {here l l' : Location} {names : List Text} {n n' : Nat}
    (h : t.Leads here names n l) (h' : t.Leads here names n' l') : n = n' ∧ l = l' := by
  induction h generalizing n' l' with
  | here =>
    cases h'
    exact ⟨rfl, rfl⟩
  | place turn _ ih =>
    cases h' with
    | place turn' rest' =>
      cases turn.symm.trans turn'
      exact ih rest'
    | link turn' => cases turn.symm.trans turn'
  | link turn _ ih =>
    cases h' with
    | place turn' => cases turn.symm.trans turn'
    | link turn' rest' =>
      cases turn.symm.trans turn'
      obtain ⟨rfl, rfl⟩ := ih rest'
      exact ⟨rfl, rfl⟩

/-- Names lead on from where the names before them lead to. -/
theorem Leads.exists_of_append {here l : Location} {names rest : List Text} {n : Nat}
    (h : t.Leads here (names ++ rest) n l) :
    ∃ m k d, t.Leads here names m d ∧ t.Leads d rest k l ∧ m + k = n := by
  generalize hall : names ++ rest = all at h
  induction h generalizing names with
  | here =>
    obtain ⟨rfl, rfl⟩ := List.append_eq_nil_iff.mp hall
    exact ⟨0, 0, _, .here _, .here _, rfl⟩
  | @place here next l name all n turn hrest ih =>
    cases names with
    | nil =>
      obtain rfl : rest = name :: all := hall
      exact ⟨0, n, _, .here _, .place turn hrest, Nat.zero_add n⟩
    | cons first names =>
      obtain ⟨rfl, rfl⟩ := List.cons.inj hall
      obtain ⟨m, k, d, hnames, hrest, hn⟩ := ih rfl
      exact ⟨m, k, d, .place turn hnames, hrest, hn⟩
  | @link here l name target all n turn hrest ih =>
    cases names with
    | nil =>
      obtain rfl : rest = name :: all := hall
      exact ⟨0, n + 1, _, .here _, .link turn hrest, Nat.zero_add _⟩
    | cons first names =>
      obtain ⟨rfl, rfl⟩ := List.cons.inj hall
      obtain ⟨m, k, d, hnames, hrest, hn⟩ := ih (List.append_assoc _ _ _)
      exact ⟨m + 1, k, d, .link turn hnames, hrest, by omega⟩

/-- A walk to an entry. -/
theorem exists_leads_of_walk {links : Nat} {here l : Location} {names : List Text} {e : Entry}
    (h : t.walk .target links here names = .ok l) (he : t.entry? l = some e) :
    ∃ n, t.Leads here names n l := by
  fun_induction walk t .target links here names with
  | case1 =>
    obtain rfl := Except.ok.inj h
    exact ⟨0, .here _⟩
  | case2 | case5 | case6 | case8 | case10 => cases h
  | case3 links here name rest hd hn ih =>
    obtain ⟨n, hrest⟩ := ih h
    exact ⟨n, .place (if_pos hn) hrest⟩
  | case4 links here rest hd hn ih =>
    obtain ⟨n, hrest⟩ := ih h
    exact ⟨n, .place (by rw [turn?, if_neg hn, if_pos rfl]) hrest⟩
  | case7 links here name hd hn hdots hlong next hnone hslash =>
    obtain rfl : here ++ [name] = l := Except.ok.inj h
    cases hnone.symm.trans he
  | case9 links here name rest hd hn hdots hslash hlong next target hlink hlast => simp at hlast
  | case11 here name rest hd hn hdots hslash hlong next target hlink hlast links ih =>
    obtain ⟨n, hrest⟩ := ih h
    have hlink : t.entry? (here ++ [name]) = some (.link target) := hlink
    exact ⟨n + 1, .link (by rw [turn?, if_neg hn, if_neg hdots, hlink]) hrest⟩
  | case12 links here name rest hd hn hdots hslash hlong next e hplace hnext ih =>
    obtain ⟨n, hrest⟩ := ih h
    have hnext : t.entry? (here ++ [name]) = some e := hnext
    refine ⟨n, .place ?_ hrest⟩
    rw [turn?, if_neg hn, if_neg hdots, hnext]
    cases e with
    | link target => exact absurd rfl (hplace target)
    | directory | file => rfl

/-- The names of the path are those of entries; only a relative path may go upwards. -/
def Spelled (p : Path) : Prop :=
  ∀ name ∈ p.names, name ≠ [] ∧ name ≠ Path.dot ∧ (p.root ≠ .relative → name ≠ Path.dots)

section Spelled

variable {working : Location} {p : Path}

theorem locationOf_snoc (working : Location) (p : Path) (name : Text) :
    locationOf working ⟨p.root, p.names ++ [name]⟩ =
      lexical (locationOf working p) [name] :=
  lexical_append _ _ _

theorem lexical_singleton {name : Text} (hn : ¬ (name = [] || name = Path.dot) = true)
    (hdots : name ≠ Path.dots) (here : Location) : lexical here [name] = here ++ [name] := by
  rw [lexical, if_neg hn, if_neg hdots, lexical]

theorem Spelled.next (hp : Spelled p) {name : Text}
    (hn : ¬ (name = [] || name = Path.dot) = true) (hdots : name ≠ Path.dots) :
    Spelled ⟨p.root, p.names ++ [name]⟩ := by
  intro other h
  rcases List.mem_append.mp h with h | h
  · exact hp other h
  · obtain rfl := List.mem_singleton.mp h
    have hn : other ≠ [] ∧ other ≠ Path.dot := by simpa using hn
    exact ⟨hn.1, hn.2, fun _ => hdots⟩

theorem Spelled.up (hp : Spelled p) : Spelled p.up := by
  intro name h
  unfold Path.up at h ⊢
  split at h
  next hup =>
    rw [if_pos hup]
    rcases List.mem_append.mp h with h | h
    · exact hp name h
    · obtain rfl := List.mem_singleton.mp h
      exact ⟨by decide, by decide, fun hroot => absurd hup.1 hroot⟩
  next hup =>
    rw [if_neg hup]
    exact hp name (List.dropLast_subset _ h)

theorem Spelled.startOf (hp : Spelled p) (target : Text) : Spelled (p.startOf target) := by
  unfold Path.startOf
  split
  · exact hp
  · nofun

theorem locationOf_startOf (working : Location) (p : Path) (target : Text) :
    locationOf working (p.startOf target) = FileTree.startOf (locationOf working p) target := by
  unfold Path.startOf FileTree.startOf
  split <;> rfl

theorem locationOf_up (hp : Spelled p) :
    locationOf working p.up = (locationOf working p).dropLast := by
  unfold Path.up
  split
  next => rw [locationOf_snoc]; rfl
  next hup =>
    rcases List.eq_nil_or_concat' p.names with hnil | ⟨names, name, hnames⟩
    · have hroot : p.root ≠ .relative := fun hroot => hup ⟨hroot, .inl hnil⟩
      simp [locationOf, Path.parent, hnil, hroot, lexical]
    · obtain ⟨hne, hdot, habsolute⟩ := hp name (by simp [hnames])
      have hdots : name ≠ Path.dots := by
        rintro rfl
        refine hup ⟨?_, .inr (by simp [hnames])⟩
        by_contra hroot
        exact habsolute hroot rfl
      have hp : p = ⟨p.root, names ++ [name]⟩ := by rw [← hnames]
      have hparent : p.parent = ⟨p.root, names⟩ := by simp [Path.parent, hnames]
      rw [hparent, hp, locationOf_snoc working ⟨p.root, names⟩,
        lexical_singleton (by simpa using ⟨hne, hdot⟩) hdots, List.dropLast_concat]

end Spelled

/-- A link whose target leads somewhere by way of so many links. -/
def Opens (t : FileTree) (l : Location) (n : Nat) : Prop :=
  ∃ target d, t.entry? l = some (.link target) ∧
    t.Leads (startOf l.dropLast target) (Text.splitAt '/' target) n d

theorem Opens.unique {l : Location} {n n' : Nat} (h : t.Opens l n) (h' : t.Opens l n') :
    n = n' := by
  obtain ⟨target, d, he, hl⟩ := h
  obtain ⟨target', d', he', hl'⟩ := h'
  cases he.symm.trans he'
  exact (hl.unique hl').1

section Name

variable {here l : Location} {name : Text} {rest : List Text} {n : Nat}

/-- A way through a link goes to where its target leads, and on from there. -/
theorem Leads.of_link {target : Text} (h : t.Leads here (name :: rest) n l)
    (hn : ¬ (name = [] || name = Path.dot) = true) (hdots : name ≠ Path.dots)
    (he : t.entry? (here ++ [name]) = some (.link target)) :
    ∃ m k d, t.Leads (startOf here target) (Text.splitAt '/' target) m d ∧ t.Leads d rest k l ∧
      t.Opens (here ++ [name]) m ∧ n = m + k + 1 := by
  have hturn : t.turn? here name = some (.link target) := by
    rw [turn?, if_neg hn, if_neg hdots, he]
  cases h with
  | place turn => cases hturn.symm.trans turn
  | link turn hway =>
    cases hturn.symm.trans turn
    obtain ⟨m, k, d, hm, hk, rfl⟩ := hway.exists_of_append
    exact ⟨m, k, d, hm, hk, ⟨target, d, he, by rwa [List.dropLast_concat]⟩, rfl⟩

theorem Leads.of_place (h : t.Leads here (name :: rest) n l)
    (hn : ¬ (name = [] || name = Path.dot) = true) (hdots : name ≠ Path.dots)
    (he : ∀ target, t.entry? (here ++ [name]) ≠ some (.link target)) :
    t.Leads (here ++ [name]) rest n l := by
  cases h with
  | place turn hrest =>
    rw [turn?, if_neg hn, if_neg hdots] at turn
    split at turn
    · cases turn
    · cases turn
    · cases turn
      exact hrest
  | link turn =>
    rw [turn?, if_neg hn, if_neg hdots] at turn
    split at turn
    · cases turn
    next target hlink => exact absurd hlink (he target)
    · cases turn

end Name

/-- The links whose targets are being followed: distinct ones, and none of them on the way that is
still to go, because its target would take as many links as the way and one more. -/
structure Ahead (t : FileTree) (working : Location) (opened : List Path) (n : Nat) : Prop where
  opens : ∀ p ∈ opened, ∃ m, n ≤ m ∧ t.Opens (locationOf working p) m
  distinct : (opened.map (locationOf working)).Nodup

namespace Ahead

variable {working : Location} {opened : List Path} {next : Path} {m n : Nat}

theorem mono (h : t.Ahead working opened n) (hm : m ≤ n) : t.Ahead working opened m :=
  ⟨fun p hp => (h.opens p hp).imp fun _ hk => ⟨Nat.le_trans hm hk.1, hk.2⟩, h.distinct⟩

theorem locationOf_not_mem (h : t.Ahead working opened n)
    (hnext : t.Opens (locationOf working next) m) (hm : m < n) :
    locationOf working next ∉ opened.map (locationOf working) := by
  intro hmem
  obtain ⟨p, hp, hsame⟩ := List.mem_map.mp hmem
  obtain ⟨k, hk, hopens⟩ := h.opens p hp
  have hkm := hopens.unique (hsame ▸ hnext)
  omega

/-- A link on the way is none of those that are open, and may be opened. -/
theorem cons (h : t.Ahead working opened n) (hnext : t.Opens (locationOf working next) m)
    (hm : m < n) : t.Ahead working (next :: opened) m where
  opens := List.forall_mem_cons.mpr ⟨⟨m, Nat.le_refl m, hnext⟩, (h.mono (Nat.le_of_lt hm)).opens⟩
  distinct := List.nodup_cons.mpr ⟨h.locationOf_not_mem hnext hm, h.distinct⟩

theorem length_le (h : t.Ahead working opened n) : opened.length ≤ t.linkCount := by
  rw [linkCount, ← List.length_map (f := locationOf working), ← List.length_map (f := Prod.fst)]
  refine (List.subperm_of_subset h.distinct fun l hl => ?_).length_le
  obtain ⟨p, hp, rfl⟩ := List.mem_map.mp hl
  obtain ⟨-, -, target, -, he, -⟩ := h.opens p hp
  exact List.mem_map.mpr ⟨_, List.mem_filter.mpr ⟨mem_entries_of_entry he nofun, rfl⟩, rfl⟩

end Ahead

/-- Names that lead somewhere are followed to there: neither an open link nor the bound on their
number stops the way. -/
theorem follow_of_leads {working : Location} (depth : Nat) (opened : List Path) {here : Path}
    {names : List Text} (hp : Spelled here) (hd : t.linkCount ≤ depth + opened.length) :
    ∀ {n : Nat} {l : Location}, t.Leads (locationOf working here) names n l →
      t.Ahead working opened n → ∃ q, t.follow working depth opened here names = (q, true) ∧
        Spelled q ∧ locationOf working q = l := by
  have hstep {here : Path} {name : Text} (hn : ¬ (name = [] || name = Path.dot) = true)
      (hdots : name ≠ Path.dots) : locationOf working ⟨here.root, here.names ++ [name]⟩ =
        locationOf working here ++ [name] := by
    rw [locationOf_snoc, lexical_singleton hn hdots]
  fun_induction follow t working depth opened here names with
  | case1 depth opened here =>
    intro n l hl ha
    cases hl
    exact ⟨here, rfl, hp, rfl⟩
  | case2 depth opened here name rest hn ih =>
    intro n l hl ha
    have hturn : t.turn? (locationOf working here) name = some (.place (locationOf working here)) :=
      if_pos hn
    cases hl with
    | place turn hrest =>
      cases hturn.symm.trans turn
      exact ih hp hd hrest ha
    | link turn => cases hturn.symm.trans turn
  | case3 depth opened here rest hn ih =>
    intro n l hl ha
    have hturn : t.turn? (locationOf working here) Path.dots =
        some (.place (locationOf working here).dropLast) := by rw [turn?, if_neg hn, if_pos rfl]
    cases hl with
    | place turn hrest =>
      cases hturn.symm.trans turn
      rw [← locationOf_up hp] at hrest
      exact ih hp.up hd hrest ha
    | link turn => cases hturn.symm.trans turn
  | case4 depth opened here name rest hn hdots next target hlink hopen =>
    intro n l hl ha
    rw [hstep hn hdots] at hlink
    obtain ⟨m, k, d, -, -, hopens, rfl⟩ := hl.of_link hn hdots hlink
    rw [← hstep hn hdots] at hopens
    have hnew := ha.locationOf_not_mem hopens (by omega)
    exact absurd (List.mem_map_of_mem (List.contains_iff_mem.mp hopen)) hnew
  | case5 opened here name rest hn hdots next target hlink hopen =>
    intro n l hl ha
    rw [hstep hn hdots] at hlink
    obtain ⟨m, k, d, -, -, hopens, rfl⟩ := hl.of_link hn hdots hlink
    rw [← hstep hn hdots] at hopens
    have hlength := (ha.cons hopens (by omega)).length_le
    rw [List.length_cons] at hlength
    omega
  | case6 opened here name rest hn hdots next target hlink hopen depth there followed ihTarget ih =>
    intro n l hl ha
    rw [hstep hn hdots] at hlink
    obtain ⟨m, k, d, htarget, hrest, hopens, rfl⟩ := hl.of_link hn hdots hlink
    rw [← hstep hn hdots] at hopens
    rw [← locationOf_startOf] at htarget
    obtain ⟨q, hq, hspelled, rfl⟩ := ihTarget (hp.startOf target)
      (by rw [List.length_cons]; omega) htarget (ha.cons hopens (by omega))
    obtain rfl : there = q := congrArg Prod.fst (followed.symm.trans hq)
    exact ih hspelled hd hrest (ha.mono (by omega))
  | case7 opened here name rest hn hdots next target hlink hopen depth there followed ihTarget =>
    intro n l hl ha
    rw [hstep hn hdots] at hlink
    obtain ⟨m, k, d, htarget, -, hopens, rfl⟩ := hl.of_link hn hdots hlink
    rw [← hstep hn hdots] at hopens
    rw [← locationOf_startOf] at htarget
    obtain ⟨q, hq, -, -⟩ := ihTarget (hp.startOf target)
      (by rw [List.length_cons]; omega) htarget (ha.cons hopens (by omega))
    cases congrArg Prod.snd (followed.symm.trans hq)
  | case8 depth opened here name rest hn hdots next hplace ih =>
    intro n l hl ha
    rw [hstep hn hdots] at hplace
    have hrest := hl.of_place hn hdots hplace
    rw [← hstep hn hdots] at hrest
    exact ih (hp.next hn hdots) hd hrest ha

/-- A path that leads to an entry has a canonical form, the path of the location of the entry. -/
theorem canonical_of_find {around : Surroundings} {p : Path} {l : Location} {e : Entry}
    (h : t.find .target around.working p = .ok l) (he : t.entry? l = some e) :
    t.canonical around p = .ok (Path.ofLocation l) := by
  unfold find at h
  split at h
  next => cases h
  next hnull =>
    split at h
    next => cases h
    next =>
      obtain ⟨n, hl⟩ := exists_leads_of_walk h he
      let start : Path := if p.root = .relative then Path.here else ⟨.absolute, []⟩
      have hstart : locationOf around.working start =
          if p.root = .relative then around.working else [] := by
        dsimp only [start]
        split <;> rfl
      have hspelled : Spelled start := by
        dsimp only [start]
        split <;> nofun
      rw [← hstart] at hl
      obtain ⟨q, hq, -, rfl⟩ := follow_of_leads (t.followLimit around.working) [] hspelled
        (Nat.le_mul_of_pos_right _ (Nat.succ_pos _)) hl ⟨nofun, List.nodup_nil⟩
      rw [canonical, if_neg hnull]
      dsimp only
      rw [hq, if_pos rfl]

end AnnotatedRoutes.FileTree
