import AnnotatedRoutes.Proofs.CatalogEntries
import Mathlib.Data.List.Permutation

namespace AnnotatedRoutes.Catalog

variable {t : FileTree} {around : Surroundings} {root : Location} {r : Router} {job : RouterJob}

namespace Progress

/-- What a rejected entry and an accepted one keep is kept by all entries. -/
theorem addAll_induction {motive : Progress → Prop}
    (rejected : ∀ p fault, motive p → motive (p.addFault fault))
    (accepted : ∀ p job p', job.inputs ≠ [] → p.Takes root job p' → motive p → motive p')
    {p p' : Progress} {index : Nat} {routers : List Value} (hp : motive p)
    (h : p.addAll t around (.ofLocation root) index routers = .ok p') : motive p' := by
  induction routers generalizing p index with
  | nil => exact Except.ok.inj h ▸ hp
  | cons v routers ih =>
    rw [addAll] at h
    split at h
    · exact ih (rejected p _ hp) h
    next r hr =>
      obtain ⟨p₁, hadded, h⟩ := bind_eq_ok_iff.mp h
      obtain ⟨job, hresolves, htakes⟩ := takes_of_addRouter hadded
      have hentry : EntryOf t around root v job := ⟨r, readRouter_eq_ok_iff.mp hr, hresolves⟩
      exact ih (accepted p job p₁ hentry.inputs_ne_nil htakes hp) h

theorem faults_prefix_addAll {p p' : Progress} {index : Nat} {routers : List Value}
    (h : p.addAll t around (.ofLocation root) index routers = .ok p') : p.faults <+: p'.faults := by
  refine addAll_induction (motive := fun q => p.faults <+: q.faults) ?_ ?_ List.prefix_rfl h
  · exact fun q fault hq => hq.trans (List.prefix_append _ _)
  · intro q job q' _ htakes hq
    obtain ⟨faults, hfaults, -⟩ := htakes.faults
    exact hq.trans ⟨faults, hfaults.symm⟩

/-- Whatever is reported, the jobs have inputs and stay within the root. -/
theorem beneath_of_mem_addAll {p p' : Progress} {index : Nat} {routers : List Value}
    (h : p.addAll t around (.ofLocation root) index routers = .ok p')
    (hp : ∀ job ∈ p.jobs, job.inputs ≠ [] ∧ job.Beneath root) :
    ∀ job ∈ p'.jobs, job.inputs ≠ [] ∧ job.Beneath root := by
  refine addAll_induction
    (motive := fun q => ∀ job ∈ q.jobs, job.inputs ≠ [] ∧ job.Beneath root) ?_ ?_ hp h
  · exact fun q fault hq => hq
  · intro q job q' hne htakes hq j hj
    by_cases hbeneath : job.Beneath root
    · rw [(htakes.kept hbeneath).1] at hj
      rcases List.mem_append.mp hj with hj | hj
      · exact hq j hj
      · exact List.mem_singleton.mp hj ▸ ⟨hne, hbeneath⟩
    · rw [(htakes.dropped hbeneath).1] at hj
      exact hq j hj

/-- A valid rest of a catalog: its jobs are those of its entries, within the root, and they take
nothing twice and nothing that is taken. -/
structure ValidAfter (t : FileTree) (around : Surroundings) (root : Location) (p : Progress)
    (routers : List Value) (jobs : List RouterJob) : Prop where
  entries : List.Forall₂ (EntryOf t around root) routers jobs
  beneath : ∀ job ∈ jobs, job.Beneath root
  names : (p.names ++ jobs.map (·.name)).Nodup
  outs : (p.outs ++ jobs.map (·.out)).Nodup

variable {p p' : Progress} {v : Value} {index : Nat} {routers : List Value} {jobs : List RouterJob}

theorem validAfter_cons_iff (hp : p.Takes root job p') (hb : job.Beneath root) :
    ValidAfter t around root p (v :: routers) (job :: jobs) ↔
      EntryOf t around root v job ∧ ValidAfter t around root p' routers jobs := by
  have hnames : p'.names ++ jobs.map (·.name) = p.names ++ (job :: jobs).map (·.name) := by
    rw [hp.names, List.append_assoc]
    rfl
  have houts : p'.outs ++ jobs.map (·.out) = p.outs ++ (job :: jobs).map (·.out) := by
    rw [(hp.kept hb).2, List.append_assoc]
    rfl
  constructor
  · rintro ⟨hentries, hbeneath, hn, ho⟩
    obtain ⟨hentry, hentries⟩ := List.forall₂_cons.mp hentries
    exact ⟨hentry, hentries, (List.forall_mem_cons.mp hbeneath).2, hnames ▸ hn, houts ▸ ho⟩
  · rintro ⟨hentry, hrest⟩
    exact ⟨.cons hentry hrest.entries, List.forall_mem_cons.mpr ⟨hb, hrest.beneath⟩,
      hnames ▸ hrest.names, houts ▸ hrest.outs⟩

/-- Nothing keeps the first job of a valid rest from being taken without a fault. -/
theorem ValidAfter.head (h : ValidAfter t around root p (v :: routers) (job :: jobs)) :
    job.Beneath root ∧ job.name ∉ p.names ∧ job.out ∉ p.outs :=
  ⟨h.beneath job List.mem_cons_self,
    fun hm => List.disjoint_of_nodup_append h.names hm List.mem_cons_self,
    fun hm => List.disjoint_of_nodup_append h.outs hm List.mem_cons_self⟩

theorem validAfter_of_addAll (hnames : p.names.Nodup) (houts : p.outs.Nodup)
    (h : p.addAll t around (.ofLocation root) index routers = .ok p') (hclean : p'.faults = []) :
    ∃ jobs, p'.jobs = p.jobs ++ jobs ∧ ValidAfter t around root p routers jobs := by
  induction routers generalizing p index with
  | nil =>
    obtain rfl := Except.ok.inj h
    exact ⟨[], (List.append_nil _).symm, .nil, nofun, by simpa using hnames, by simpa using houts⟩
  | cons v routers ih =>
    rw [addAll] at h
    split at h
    next fault _ =>
      have hreported := faults_prefix_addAll h
      rw [hclean, List.prefix_nil] at hreported
      exact absurd hreported (by simp [addFault])
    next r hr =>
      obtain ⟨p₁, hadded, h⟩ := bind_eq_ok_iff.mp h
      obtain ⟨job, hresolves, htakes⟩ := takes_of_addRouter hadded
      have hentry : EntryOf t around root v job := ⟨r, readRouter_eq_ok_iff.mp hr, hresolves⟩
      -- Faults are never taken back, so none at the end means none from this entry.
      obtain ⟨faults, hfaults, hnone⟩ := htakes.faults
      have hunreported := faults_prefix_addAll h
      rw [hclean, List.prefix_nil, hfaults, List.append_eq_nil_iff] at hunreported
      obtain ⟨hbeneath, hname, hout⟩ := hnone.mp hunreported.2
      have hjobs := (htakes.kept hbeneath).1
      have hnames₁ : p₁.names.Nodup :=
        htakes.names ▸ hnames.append (List.nodup_singleton _) (by simpa using hname)
      have houts₁ : p₁.outs.Nodup :=
        (htakes.kept hbeneath).2 ▸ houts.append (List.nodup_singleton _) (by simpa using hout)
      obtain ⟨jobs, hrest, hvalid⟩ := ih hnames₁ houts₁ h
      refine ⟨job :: jobs, ?_, (validAfter_cons_iff htakes hbeneath).mpr ⟨hentry, hvalid⟩⟩
      rw [hrest, hjobs, List.append_assoc, List.singleton_append]

theorem addAll_of_validAfter (index : Nat) (hp : p.faults = [])
    (h : ValidAfter t around root p routers jobs) :
    ∃ p', p.addAll t around (.ofLocation root) index routers = .ok p' ∧ p'.faults = [] ∧
      p'.jobs = p.jobs ++ jobs := by
  induction routers generalizing p index jobs with
  | nil =>
    obtain rfl := List.forall₂_nil_left_iff.mp h.entries
    exact ⟨p, rfl, hp, (List.append_nil _).symm⟩
  | cons v routers ih =>
    obtain ⟨job, jobs, -, -, rfl⟩ := List.forall₂_cons_left_iff.mp h.entries
    obtain ⟨hbeneath, hname, hout⟩ := h.head
    obtain ⟨r, hr, hresolves⟩ := (List.forall₂_cons.mp h.entries).1
    obtain ⟨p₁, hadded, htakes⟩ := addRouter_of_resolves p hresolves
    obtain ⟨faults, hfaults, hnone⟩ := htakes.faults
    have hclean : p₁.faults = [] := by
      rw [hfaults, hp, hnone.mpr ⟨hbeneath, hname, hout⟩, List.append_nil]
    obtain ⟨p', hall, hfaults', hjobs'⟩ :=
      ih (index + 1) hclean ((validAfter_cons_iff htakes hbeneath).mp h).2
    refine ⟨p', ?_, hfaults', ?_⟩
    · rw [addAll, readRouter_eq_ok_iff.mpr hr]
      exact bind_eq_ok_iff.mpr ⟨p₁, hadded, hall⟩
    · rw [hjobs', (htakes.kept hbeneath).1, List.append_assoc, List.singleton_append]

/-- Nothing but a path without a canonical form stops a validation. -/
theorem exists_addAll
    (h : ∀ v ∈ routers, ∀ r, Describes v r → ∃ job, Resolves t around root r job) :
    ∃ p', p.addAll t around (.ofLocation root) index routers = .ok p' := by
  induction routers generalizing p index with
  | nil => exact ⟨p, rfl⟩
  | cons v routers ih =>
    obtain ⟨hv, hrouters⟩ := List.forall_mem_cons.mp h
    rw [addAll]
    split
    · exact ih hrouters
    next r hr =>
      obtain ⟨job, hresolves⟩ := hv r (readRouter_eq_ok_iff.mp hr)
      obtain ⟨p₁, hadded, -⟩ := addRouter_of_resolves p hresolves
      obtain ⟨p', hall⟩ := ih hrouters
      exact ⟨p', bind_eq_ok_iff.mpr ⟨p₁, hadded, hall⟩⟩

end Progress

theorem stat_of_isDirectory {working : Location} {p : Path}
    (h : t.isDirectory working p = .ok true) : ∃ e, t.stat working p = .ok e := by
  unfold FileTree.isDirectory FileTree.asks at h
  cases hstat : t.stat working p with
  | ok e => exact ⟨e, rfl⟩
  | error fault =>
    simp only [hstat] at h
    split at h <;> cases h

theorem avoids_null_of_stat {working : Location} {p : Path} {e : Entry}
    (h : t.stat working p = .ok e) : p.Avoids '\x00' := by
  intro name hm hnull
  have hany : p.names.any (·.contains '\x00') = true :=
    List.any_eq_true.mpr ⟨name, hm, by simpa using hnull⟩
  rw [FileTree.stat, FileTree.find, if_pos hany] at h
  cases h

theorem validate_eq_addAll {routers : List Value}
    (h : t.isDirectory around.working (.ofLocation root) = .ok true) :
    validate t around (.ofLocation root) routers =
      Progress.addAll t around (.ofLocation root) {} 0 routers := by
  obtain ⟨e, he⟩ := stat_of_isDirectory h
  have hthere : t.isThere around.working (.ofLocation root) = .ok true := by
    rw [FileTree.isThere, FileTree.asks, he]
  rw [validate, hthere, h]
  rfl

/-- The entries are well-formed and their paths have canonical forms, which are those of the jobs;
names and outputs are distinct and all paths are within the root. -/
structure Valid (t : FileTree) (around : Surroundings) (root : Location) (routers : List Value)
    (jobs : List RouterJob) : Prop where
  entries : List.Forall₂ (EntryOf t around root) routers jobs
  beneath : ∀ job ∈ jobs, job.Beneath root
  names : (jobs.map (·.name)).Nodup
  outs : (jobs.map (·.out)).Nodup

/-- A root that is no directory is a fault. -/
theorem isDirectory_of_validate {routers : List Value} {progress : Progress} {root : Path}
    (h : validate t around root routers = .ok progress) (hclean : progress.faults = []) :
    t.isDirectory around.working root = .ok true := by
  obtain ⟨there, -, h⟩ := bind_eq_ok_iff.mp h
  cases there with
  | false => exact absurd hclean (Except.ok.inj h ▸ List.cons_ne_nil _ _)
  | true =>
    obtain ⟨directory, hdir, h⟩ := bind_eq_ok_iff.mp h
    cases directory with
    | false => exact absurd hclean (Except.ok.inj h ▸ List.cons_ne_nil _ _)
    | true => exact mapError_eq_ok_iff.mp hdir

theorem valid_of_validate {routers : List Value} {progress : Progress}
    (h : validate t around (.ofLocation root) routers = .ok progress)
    (hclean : progress.faults = []) : Valid t around root routers progress.jobs := by
  rw [validate_eq_addAll (isDirectory_of_validate h hclean)] at h
  obtain ⟨jobs, hjobs, hvalid⟩ :=
    Progress.validAfter_of_addAll List.nodup_nil List.nodup_nil h hclean
  obtain rfl : progress.jobs = jobs := hjobs
  exact ⟨hvalid.entries, hvalid.beneath, hvalid.names, hvalid.outs⟩

theorem validate_of_valid {routers : List Value} {jobs : List RouterJob}
    (hdir : t.isDirectory around.working (.ofLocation root) = .ok true)
    (h : Valid t around root routers jobs) :
    ∃ progress, validate t around (.ofLocation root) routers = .ok progress ∧
      progress.faults = [] ∧ progress.jobs = jobs := by
  rw [validate_eq_addAll hdir]
  exact Progress.addAll_of_validAfter 0 rfl ⟨h.entries, h.beneath, h.names, h.outs⟩

theorem Valid.name_ne_nil {routers : List Value} {jobs : List RouterJob}
    (h : Valid t around root routers jobs) : ∀ job ∈ jobs, job.name ≠ [] := by
  obtain ⟨hentries, -, -, -⟩ := h
  induction hentries with
  | nil => exact nofun
  | cons hentry _ ih => exact List.forall_mem_cons.mpr ⟨hentry.name_ne_nil, ih⟩

/-- A path that a valid root and a text without null characters make has a canonical form, if no
links lead back to each other on the way. -/
theorem exists_canonical {written : Text} (hroot : (Path.ofLocation root).Avoids '\x00')
    (hw : '\x00' ∉ written)
    (hlinks : ∀ q, t.canonical around ((Path.ofLocation root).child written) ≠
      .error (.linkLoop q)) :
    ∃ p, t.canonical around ((Path.ofLocation root).child written) = .ok p := by
  obtain ⟨l, h | h⟩ := t.canonical_eq around (hroot.join (Path.avoids_ofText hw))
  · exact ⟨_, h⟩
  · exact absurd h (hlinks _)

theorem exists_resolves
    (h : ∀ written ∈ r.out :: r.controllers,
      ∃ p, t.canonical around ((Path.ofLocation root).child written) = .ok p) :
    ∃ job, Resolves t around root r job := by
  obtain ⟨⟨out, hout⟩, hcontrollers⟩ := List.forall_mem_cons.mp h
  have : Nonempty Path := ⟨out⟩
  choose! f hf using hcontrollers
  have hinputs : List.Forall₂
      (fun written p => t.canonical around ((Path.ofLocation root).child written) = .ok p)
      r.controllers (r.controllers.map f) := by
    rw [List.forall₂_map_right_iff]
    exact List.forall₂_same.mpr hf
  exact ⟨⟨r.name, _, out⟩, rfl, hinputs, hout⟩

/-- Validation under a root directory returns if the paths that entries name hold no null
characters and meet no loop of links. It reports no fault exactly if the catalog is valid, with the
jobs that make it so; the jobs that it returns have inputs and stay within the root in any case. -/
theorem validate_clean_iff_valid (t : FileTree) (around : Surroundings) (root : Location)
    (routers : List Value)
    (hdir : t.isDirectory around.working (.ofLocation root) = .ok true) :
    (∀ jobs, (∃ progress, validate t around (.ofLocation root) routers = .ok progress ∧
        progress.faults = [] ∧ progress.jobs = jobs) ↔ Valid t around root routers jobs) ∧
      (∀ progress, validate t around (.ofLocation root) routers = .ok progress →
        ∀ job ∈ progress.jobs, job.inputs ≠ [] ∧ job.Beneath root) ∧
      ((∀ v ∈ routers, ∀ r, Describes v r → ∀ written ∈ r.out :: r.controllers,
          '\x00' ∉ written ∧ ∀ q, t.canonical around ((Path.ofLocation root).child written) ≠
            .error (.linkLoop q)) →
        ∃ progress, validate t around (.ofLocation root) routers = .ok progress) := by
  refine ⟨fun jobs => ⟨?_, validate_of_valid hdir⟩, ?_, ?_⟩
  · rintro ⟨progress, h, hclean, rfl⟩
    exact valid_of_validate h hclean
  · intro progress h
    rw [validate_eq_addAll hdir] at h
    exact Progress.beneath_of_mem_addAll h nofun
  · intro h
    obtain ⟨e, he⟩ := stat_of_isDirectory hdir
    have hroot := avoids_null_of_stat he
    rw [validate_eq_addAll hdir]
    refine Progress.exists_addAll fun v hv r hr => exists_resolves fun written hw => ?_
    obtain ⟨hnull, hlinks⟩ := h v hv r hr written hw
    exact exists_canonical hroot hnull hlinks

/-- The paths go through a link, up and down again, and from the root of the tree. -/
theorem validate_clean_iff_valid_linked :
    let t := ((FileTree.put {} [['r']] .directory).put [['r'], ['d']] .directory).put
      [['r'], ['l']] (.link ['d'])
    let around : Surroundings := { working := [], home := [] }
    let text (written : Text) : Value := .scalar (.text written)
    let router (name : Text) (controllers : Value) (out : Text) : Value :=
      .mapping [(.text "name".toList, text name), (.text "controllers".toList, controllers),
        (.text "out".toList, text out)]
    let routers := [router ['a'] (text "l/x".toList) ['o'],
      router ['b'] (.list [text "d/../y".toList, text "/r/z".toList]) "l/o".toList]
    t.isDirectory around.working (.ofLocation [['r']]) = .ok true ∧
      Valid t around [['r']] routers
        [⟨['a'], [.ofLocation [['r'], ['d'], ['x']]], .ofLocation [['r'], ['o']]⟩,
        ⟨['b'], [.ofLocation [['r'], ['y']], .ofLocation [['r'], ['z']]],
          .ofLocation [['r'], ['d'], ['o']]⟩] := by
  intro t around text router routers
  have hdir : t.isDirectory around.working (.ofLocation [['r']]) = .ok true := by cbv
  refine ⟨hdir, ((validate_clean_iff_valid t around [['r']] routers hdir).1 _).mp
    ⟨⟨_, [], [['a'], ['b']], [.ofLocation [['r'], ['o']], .ofLocation [['r'], ['d'], ['o']]]⟩,
      ?_, rfl, rfl⟩⟩
  have hfirst : readRouter 0 (router ['a'] (text "l/x".toList) ['o']) =
      .ok ⟨['a'], ["l/x".toList], ['o']⟩ := rfl
  have hsecond : readRouter 1 (router ['b']
      (.list [text "d/../y".toList, text "/r/z".toList]) "l/o".toList) =
      .ok ⟨['b'], ["d/../y".toList, "/r/z".toList], "l/o".toList⟩ := rfl
  simp only [validate_eq_addAll hdir, routers, Progress.addAll, hfirst, hsecond]
  cbv

end AnnotatedRoutes.Catalog
