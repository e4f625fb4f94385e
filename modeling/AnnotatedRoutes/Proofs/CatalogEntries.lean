import AnnotatedRoutes.Catalog.Basic
import AnnotatedRoutes.Proofs.CanonicalPaths
import AnnotatedRoutes.Proofs.ExceptRules

namespace AnnotatedRoutes

namespace Path

/-- The path of a location or of one below it. -/
def Beneath (root : Location) (p : Path) : Prop := ∃ below, p = ofLocation (root ++ below)

theorem isSome_namesBelow? (base names : List Text) :
    (namesBelow? base names).isSome = true ↔ base <+: names := by
  induction base generalizing names with
  | nil => simp [namesBelow?]
  | cons a base ih =>
    cases names with
    | nil => simp [namesBelow?]
    | cons b names =>
      rw [namesBelow?, List.cons_prefix_cons]
      split
      next h => simp [h, ih]
      next h => simp [h]

theorem isInside_iff {root : Location} {p : Path} :
    Catalog.isInside (ofLocation root) p = true ↔ p.Beneath root := by
  obtain ⟨kind, names⟩ := p
  unfold Catalog.isInside relativeTo? Beneath ofLocation
  split
  next hkind =>
    obtain rfl : kind = .absolute := hkind
    rw [Option.isSome_map, isSome_namesBelow?]
    exact ⟨fun ⟨below, h⟩ => ⟨below, h ▸ rfl⟩, fun ⟨below, h⟩ => ⟨below, (Path.mk.inj h).2.symm⟩⟩
  next hkind =>
    refine ⟨nofun, fun ⟨below, h⟩ => absurd (Path.mk.inj h).1 hkind⟩

end Path

/-- All paths of the job are within a root. -/
structure RouterJob.Beneath (root : Location) (job : RouterJob) : Prop where
  inputs : ∀ p ∈ job.inputs, p.Beneath root
  out : job.out.Beneath root

namespace Catalog

/-- One text, or a list of some texts. -/
inductive NamesControllers : Value → List Text → Prop
  | one (t : Text) : NamesControllers (.scalar (.text t)) [t]
  | some {ts : List Text} (h : ts ≠ []) :
    NamesControllers (.list (ts.map fun t => .scalar (.text t))) ts

theorem NamesControllers.ne_nil {v : Value} {ts : List Text} (h : NamesControllers v ts) :
    ts ≠ [] := by
  cases h with
  | one t => exact List.cons_ne_nil _ _
  | some hne => exact hne

/-- The value is a mapping with what an entry needs. -/
inductive Describes : Value → Router → Prop
  | mapping {s : Section} {controllers : Value} {r : Router}
    (hname : s.get? "name".toList = some (.scalar (.text r.name))) (nameFilled : r.name ≠ [])
    (hcontrollers : s.get? "controllers".toList = some controllers)
    (controllersNamed : NamesControllers controllers r.controllers)
    (hout : s.get? "out".toList = some (.scalar (.text r.out))) (outFilled : r.out ≠ []) :
    Describes (.mapping s) r

theorem text?_eq_some_iff {v : Value} {t : Text} : v.text? = some t ↔ v = .scalar (.text t) := by
  unfold Value.text?
  split <;> simp_all

theorem filledText?_eq_some_iff {v : Option Value} {t : Text} :
    filledText? v = some t ↔ v = some (.scalar (.text t)) ∧ t ≠ [] := by
  cases v with
  | none => simp [filledText?]
  | some v =>
    rw [filledText?, Option.bind_some, Option.some.injEq, ← text?_eq_some_iff]
    split <;> grind

theorem mapM_text?_eq_some_iff {vs : List Value} {ts : List Text} :
    vs.mapM Value.text? = some ts ↔ vs = ts.map fun t => .scalar (.text t) := by
  induction vs generalizing ts with
  | nil => cases ts <;> simp
  | cons v vs ih =>
    cases ts with
    | nil => simp [List.mapM_cons, Option.bind_eq_some_iff]
    | cons t ts =>
      simp only [List.mapM_cons, Option.bind_eq_bind, Option.pure_def, Option.bind_eq_some_iff,
        Option.some.injEq, List.cons.injEq, text?_eq_some_iff, ih, List.map_cons]
      constructor
      · rintro ⟨_, hv, _, hvs, rfl, rfl⟩
        exact ⟨hv, hvs⟩
      · rintro ⟨hv, hvs⟩
        exact ⟨t, hv, ts, hvs, rfl, rfl⟩

theorem controllerTexts?_eq_some_iff {v : Option Value} {ts : List Text} :
    controllerTexts? v = some ts ↔ ∃ controllers, v = some controllers ∧
      NamesControllers controllers ts := by
  unfold controllerTexts?
  split
  next t =>
    constructor
    · rintro ⟨⟩
      exact ⟨_, rfl, .one t⟩
    · rintro ⟨_, ⟨⟩, ⟨⟩⟩
      rfl
  next items =>
    constructor
    · intro h
      split at h
      · cases h
      next hne =>
        obtain rfl := mapM_text?_eq_some_iff.mp h
        exact ⟨_, rfl, .some (by simpa using hne)⟩
    · rintro ⟨_, ⟨⟩, ⟨⟩⟩
      rw [if_neg (by simpa using ‹ts ≠ []›)]
      exact mapM_text?_eq_some_iff.mpr rfl
  next notOne notSome =>
    refine ⟨nofun, ?_⟩
    rintro ⟨_, rfl, h⟩
    cases h with
    | one t => exact absurd rfl (notOne t)
    | some => exact absurd rfl (notSome _)

theorem readRouter_eq_ok_iff {index : Nat} {v : Value} {r : Router} :
    readRouter index v = .ok r ↔ Describes v r := by
  constructor
  · intro h
    unfold readRouter at h
    split at h
    · cases h
    next s hs =>
      split at h
      · cases h
      next name hname =>
        split at h
        · cases h
        next controllers hcontrollers =>
          split at h
          · cases h
          next out hout =>
            cases h
            obtain rfl : v = .mapping s := by
              unfold Value.entries? at hs
              split at hs <;> simp_all
            obtain ⟨hname, nameFilled⟩ := filledText?_eq_some_iff.mp hname
            obtain ⟨_, hcontrollers, named⟩ := controllerTexts?_eq_some_iff.mp hcontrollers
            obtain ⟨hout, outFilled⟩ := filledText?_eq_some_iff.mp hout
            exact .mapping hname nameFilled hcontrollers named hout outFilled
  · rintro ⟨hname, nameFilled, hcontrollers, named, hout, outFilled⟩
    have hname := filledText?_eq_some_iff.mpr ⟨hname, nameFilled⟩
    have hcontrollers := controllerTexts?_eq_some_iff.mpr ⟨_, hcontrollers, named⟩
    have hout := filledText?_eq_some_iff.mpr ⟨hout, outFilled⟩
    simp only [readRouter, Value.entries?, hname, hcontrollers, hout]

variable {t : FileTree} {around : Surroundings} {root : Location} {r : Router} {job : RouterJob}

/-- An absolute path has no home directory to expand. -/
theorem under_eq (t : FileTree) (around : Surroundings) (root : Location) (written : Text) :
    under t around (.ofLocation root) written =
      t.canonical around ((Path.ofLocation root).child written) := by
  have habsolute : ((Path.ofLocation root).child written).root ≠ .relative := by
    unfold Path.child Path.join
    split
    · exact nofun
    next hroot => exact hroot
  unfold under Path.expandHome
  split
  next hrelative _ => exact absurd hrelative habsolute
  next => rfl

/-- The job has the canonical paths of what the entry names, in the same order. -/
structure Resolves (t : FileTree) (around : Surroundings) (root : Location) (r : Router)
    (job : RouterJob) : Prop where
  name : job.name = r.name
  inputs : List.Forall₂
    (fun written p => t.canonical around ((Path.ofLocation root).child written) = .ok p)
    r.controllers job.inputs
  out : t.canonical around ((Path.ofLocation root).child r.out) = .ok job.out

namespace Resolves

theorem mapM_under (h : Resolves t around root r job) :
    (r.controllers.mapM fun written => do
      return (written, ← under t around (.ofLocation root) written)) =
      pure (r.controllers.zip job.inputs) := by
  rw [mapM_with_argument, funext (under_eq t around root), mapM_eq_ok_iff.mpr h.inputs]
  rfl

theorem map_snd_zip (h : Resolves t around root r job) :
    (r.controllers.zip job.inputs).map Prod.snd = job.inputs :=
  List.map_snd_zip (Nat.le_of_eq h.inputs.length_eq.symm)

/-- No input escapes exactly if all are within the root. -/
theorem filter_eq_nil_iff (h : Resolves t around root r job) :
    (r.controllers.zip job.inputs).filter (fun input => !isInside (.ofLocation root) input.2) = [] ↔
      ∀ p ∈ job.inputs, p.Beneath root := by
  rw [List.filter_eq_nil_iff]
  simp only [Bool.not_eq_true', Bool.not_eq_false, Path.isInside_iff]
  rw [← List.forall_mem_map (f := Prod.snd) (P := Path.Beneath root), h.map_snd_zip]

end Resolves

namespace Progress

/-- What an entry adds to the progress: its name is taken, its job is kept if all paths are within
the root, and it is faulty if they are not or if the name or the output was taken before. -/
structure Takes (root : Location) (p : Progress) (job : RouterJob) (p' : Progress) : Prop where
  names : p'.names = p.names ++ [job.name]
  kept : job.Beneath root → p'.jobs = p.jobs ++ [job] ∧ p'.outs = p.outs ++ [job.out]
  dropped : ¬ job.Beneath root → p'.jobs = p.jobs ∧ p'.outs = p.outs
  faults : ∃ faults, p'.faults = p.faults ++ faults ∧
    (faults = [] ↔ job.Beneath root ∧ job.name ∉ p.names ∧ job.out ∉ p.outs)

/-- A fault that is added under a condition. -/
theorem ite_addFault (p : Progress) (c : Prop) [Decidable c] (fault : Fault) :
    (if c then p.addFault fault else p) =
      { p with faults := p.faults ++ if c then [fault] else [] } := by
  split
  · rfl
  · rw [List.append_nil]

theorem addRouter_of_resolves (p : Progress) (h : Resolves t around root r job) :
    ∃ p', p.addRouter t around (.ofLocation root) r = .ok p' ∧ p.Takes root job p' := by
  have hout : under t around (.ofLocation root) r.out = pure job.out := (under_eq ..).trans h.out
  have hinside := h.filter_eq_nil_iff
  unfold addRouter
  simp only [ite_addFault]
  rw [h.mapM_under, pure_bind, hout, pure_bind, h.map_snd_zip]
  generalize (r.controllers.zip job.inputs).filter _ = escaped at hinside ⊢
  -- An escaping output ends the entry before the inputs count, though their faults are kept.
  by_cases hout : job.out.Beneath root
  · by_cases hnone : escaped = []
    · have hbeneath : job.Beneath root := ⟨hinside.mp hnone, hout⟩
      rw [if_neg (by simpa using Path.isInside_iff.mpr hout), if_neg (by simp [hnone])]
      have hjob : (⟨r.name, job.inputs, job.out⟩ : RouterJob) = job := h.name ▸ rfl
      rw [hjob]
      refine ⟨_, rfl, ⟨?names, fun _ => ⟨rfl, rfl⟩, fun hn => absurd hbeneath hn, ?faults⟩⟩
      case names => rw [h.name]
      case faults =>
        subst hnone
        refine ⟨_, by rw [List.map_nil, List.append_nil, List.append_assoc], ?_⟩
        simp [hbeneath, h.name]
    · have hescapes : ¬ job.Beneath root := fun h => hnone (hinside.mpr h.inputs)
      rw [if_neg (by simpa using Path.isInside_iff.mpr hout), if_pos (by simpa using hnone)]
      refine ⟨_, rfl, ⟨by rw [h.name], fun hb => absurd hb hescapes, fun _ => ⟨rfl, rfl⟩, ?_⟩⟩
      exact ⟨_, List.append_assoc .., by simp [hescapes, hnone]⟩
  · have hescapes : ¬ job.Beneath root := fun h => hout h.out
    rw [if_pos (by simpa using mt Path.isInside_iff.mp hout)]
    refine ⟨_, rfl, ⟨by rw [h.name]; rfl, fun hb => absurd hb hescapes, fun _ => ⟨rfl, rfl⟩, ?_⟩⟩
    exact ⟨_, (List.append_assoc ..).trans (List.append_assoc ..), by simp [hescapes]⟩

theorem takes_of_addRouter {p p' : Progress}
    (h : p.addRouter t around (.ofLocation root) r = .ok p') :
    ∃ job, Resolves t around root r job ∧ p.Takes root job p' := by
  have hresolved := h
  unfold addRouter at hresolved
  obtain ⟨inputs, hinputs, hresolved⟩ := bind_eq_ok_iff.mp hresolved
  obtain ⟨out, hout, -⟩ := bind_eq_ok_iff.mp hresolved
  rw [mapM_with_argument, funext (under_eq t around root)] at hinputs
  cases hpaths : r.controllers.mapM fun written =>
      t.canonical around ((Path.ofLocation root).child written) with
  | error fault =>
    rw [hpaths] at hinputs
    cases hinputs
  | ok paths =>
    have hresolves : Resolves t around root r ⟨r.name, paths, out⟩ :=
      ⟨rfl, mapM_eq_ok_iff.mp hpaths, (under_eq ..).symm.trans hout⟩
    obtain ⟨_, hadded, htakes⟩ := addRouter_of_resolves p hresolves
    obtain rfl := Except.ok.inj (h.symm.trans hadded)
    exact ⟨_, hresolves, htakes⟩

end Progress

/-- The value describes a router with this job. -/
def EntryOf (t : FileTree) (around : Surroundings) (root : Location) (v : Value)
    (job : RouterJob) : Prop := ∃ r, Describes v r ∧ Resolves t around root r job

theorem EntryOf.name_ne_nil {v : Value} (h : EntryOf t around root v job) : job.name ≠ [] := by
  obtain ⟨r, ⟨-, hfilled, -, -, -, -⟩, hresolves⟩ := h
  exact hresolves.name ▸ hfilled

theorem EntryOf.inputs_ne_nil {v : Value} (h : EntryOf t around root v job) : job.inputs ≠ [] := by
  obtain ⟨r, ⟨-, -, -, hnamed, -, -⟩, hresolves⟩ := h
  intro hnil
  have hlength := hresolves.inputs.length_eq
  rw [hnil] at hlength
  exact hnamed.ne_nil (List.eq_nil_of_length_eq_zero hlength)

end Catalog

end AnnotatedRoutes
