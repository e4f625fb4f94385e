import AnnotatedRoutes.Catalog.File
import AnnotatedRoutes.Proofs.CatalogValidation

namespace AnnotatedRoutes.Catalog

variable {t : FileTree} {around : Surroundings} {root file : Location} {routers : List Value}

/-- The paths that entries name have canonical forms under a root. -/
def Locates (t : FileTree) (around : Surroundings) (root : Location) (routers : List Value) :
    Prop :=
  ∀ v ∈ routers, ∀ r, Describes v r → ∀ written ∈ r.out :: r.controllers,
    ∃ p, t.canonical around ((Path.ofLocation root).child written) = .ok p

theorem Resolves.exists_canonical {r : Router} {job : RouterJob}
    (h : Resolves t around root r job) :
    ∀ written ∈ r.out :: r.controllers,
      ∃ p, t.canonical around ((Path.ofLocation root).child written) = .ok p :=
  List.forall_mem_cons.mpr ⟨⟨_, h.out⟩, exists_forall₂_iff.mp ⟨_, h.inputs⟩⟩

theorem Progress.exists_addAll_iff {p : Progress} {index : Nat} :
    (∃ p', p.addAll t around (.ofLocation root) index routers = .ok p') ↔
      Locates t around root routers := by
  constructor
  · rintro ⟨p', h⟩
    induction routers generalizing p index with
    | nil => exact nofun
    | cons v routers ih =>
      refine List.forall_mem_cons.mpr ?_
      rw [addAll] at h
      split at h
      next fault hr =>
        refine ⟨fun r hdescribes => ?_, ih h⟩
        cases hr.symm.trans (readRouter_eq_ok_iff.mpr hdescribes)
      next r hr =>
        obtain ⟨p₁, hadded, h⟩ := bind_eq_ok_iff.mp h
        obtain ⟨job, hresolves, -⟩ := takes_of_addRouter hadded
        refine ⟨fun r' hdescribes => ?_, ih h⟩
        obtain rfl := Except.ok.inj (hr.symm.trans (readRouter_eq_ok_iff.mpr hdescribes))
        exact hresolves.exists_canonical
  · intro h
    exact exists_addAll fun v hv r hr => exists_resolves (h v hv r hr)

/-- The root can be asked about and, if it is a directory, what the entries name can be located. -/
structure Validates (t : FileTree) (around : Surroundings) (root : Location)
    (routers : List Value) : Prop where
  asked : ∃ there, t.isThere around.working (.ofLocation root) = .ok there
  located : t.isDirectory around.working (.ofLocation root) = .ok true →
    Locates t around root routers

theorem exists_isDirectory_of_isThere {working : Location} {p : Path} {there : Bool}
    (h : t.isThere working p = .ok there) :
    ∃ directory, t.isDirectory working p = .ok directory := by
  unfold FileTree.isThere FileTree.asks at h
  unfold FileTree.isDirectory FileTree.asks
  split at h
  · exact ⟨_, rfl⟩
  next fault =>
    split at h
    next habsent => exact ⟨false, if_pos habsent⟩
    next => cases h

theorem exists_validate_iff :
    (∃ progress, validate t around (.ofLocation root) routers = .ok progress) ↔
      Validates t around root routers := by
  constructor
  · rintro ⟨progress, h⟩
    obtain ⟨there, hthere, -⟩ := bind_eq_ok_iff.mp h
    refine ⟨⟨there, mapError_eq_ok_iff.mp hthere⟩, fun hdir => ?_⟩
    rw [validate_eq_addAll hdir] at h
    exact Progress.exists_addAll_iff.mp ⟨progress, h⟩
  · rintro ⟨⟨there, hthere⟩, hlocated⟩
    obtain ⟨directory, hdir⟩ := exists_isDirectory_of_isThere hthere
    cases directory with
    | true =>
      rw [validate_eq_addAll hdir]
      exact Progress.exists_addAll_iff.mpr (hlocated hdir)
    | false =>
      rw [validate, hthere, hdir]
      cases there with
      | true => exact ⟨_, rfl⟩
      | false => exact ⟨_, rfl⟩

/-- The file can be asked about; if a catalog can be read from it, its root has a canonical form and
its entries can be validated under that. -/
structure Loads (t : FileTree) (around : Surroundings) (file : Location) : Prop where
  asked : ∃ there, t.isThere around.working (.ofLocation file) = .ok there
  read : ∀ v s routers, t.readValue around.working (.ofLocation file) = .ok v →
    v.entries? = some s → s.get? "routers".toList = some routers →
    ∃ written root, s.textOr "root".toList Path.dot = .ok written ∧
      t.canonical around ((Path.ofLocation file.dropLast).child written) = .ok (.ofLocation root) ∧
      ∀ items, routers.items? = some items → Validates t around root items

theorem rootOf_eq_ok_iff {s : Section} {p : Path} :
    rootOf t around (.ofLocation file) s = .ok p ↔
      ∃ written, s.textOr "root".toList Path.dot = .ok written ∧
        t.canonical around ((Path.ofLocation file.dropLast).child written) = .ok p := by
  unfold rootOf
  rw [bind_eq_ok_iff]
  simp only [mapError_eq_ok_iff]
  exact exists_congr fun written => and_congr_right fun _ =>
    iff_of_eq (congrArg (· = _) (under_eq t around file.dropLast written))

theorem not_readValue_of_not_isThere {working : Location} {p : Path} {v : Value}
    (h : t.isThere working p = .ok false) : t.readValue working p ≠ .ok v := by
  intro hv
  obtain ⟨bytes, hbytes, -⟩ := bind_eq_ok_iff.mp hv
  have hread : t.read working p = .ok bytes := mapError_eq_ok_iff.mp hbytes
  unfold FileTree.isThere FileTree.asks at h
  unfold FileTree.read at hread
  split at h
  · cases h
  next hstat =>
    rw [hstat] at hread
    cases hread

/-- Loading gives jobs or a refusal exactly if all paths on the way allow it. -/
theorem exists_load_iff :
    (∃ loaded, load t around (.ofLocation file) = .ok loaded) ↔ Loads t around file := by
  constructor
  · rintro ⟨loaded, h⟩
    obtain ⟨there, hthere, h⟩ := bind_eq_ok_iff.mp h
    have hthere := mapError_eq_ok_iff.mp hthere
    refine ⟨⟨there, hthere⟩, fun v s routers hv hs hrouters => ?_⟩
    cases there with
    | false => exact absurd hv (not_readValue_of_not_isThere hthere)
    | true =>
      simp only [hv, hs, hrouters] at h
      obtain ⟨p, hroot, h⟩ := bind_eq_ok_iff.mp h
      obtain ⟨written, hwritten, hp⟩ := rootOf_eq_ok_iff.mp hroot
      obtain rfl := FileTree.eq_ofLocation_of_canonical hp
      refine ⟨written, _, hwritten, hp, fun items hitems => exists_validate_iff.mp ?_⟩
      simp only [hitems] at h
      obtain ⟨progress, hprogress, -⟩ := bind_eq_ok_iff.mp h
      exact ⟨progress, mapError_eq_ok_iff.mp hprogress⟩
  · rintro ⟨⟨there, hthere⟩, hread⟩
    have hasked := mapError_eq_ok_iff (f := fun e => Settings.LoadFault.path (.file e)).mpr hthere
    unfold load
    rw [hasked]
    cases there with
    | false => exact ⟨_, rfl⟩
    | true =>
      simp only [Bind.bind, Except.bind, Bool.not_true, Bool.false_eq_true, if_false]
      split
      · exact ⟨_, rfl⟩
      next v hv =>
        split
        · exact ⟨_, rfl⟩
        next s hs =>
          split
          · exact ⟨_, rfl⟩
          next routers hrouters =>
            obtain ⟨written, root, hwritten, hp, hitems⟩ := hread v s routers hv hs hrouters
            rw [rootOf_eq_ok_iff.mpr ⟨written, hwritten, hp⟩]
            cases hlisted : routers.items? with
            | none => exact ⟨_, rfl⟩
            | some items =>
              obtain ⟨progress, hprogress⟩ := exists_validate_iff.mpr (hitems items hlisted)
              simp only [hprogress, Except.mapError]
              split
              · exact ⟨_, rfl⟩
              · exact ⟨_, rfl⟩

end AnnotatedRoutes.Catalog
