import AnnotatedRoutes.Session

namespace AnnotatedRoutes

/-- Two sessions differ in what is logged only. Log lines go to the standard output unless it is
kept clean. -/
structure Session.Matches (clean : Bool) (s s' : Session) : Prop where
  tree : s.tree = s'.tree
  output : clean = true → s.output = s'.output

namespace Session.Matches

variable {clean : Bool} {s s' s'' : Session}

theorem refl (clean : Bool) (s : Session) : s.Matches clean s := ⟨rfl, fun _ => rfl⟩

theorem trans (h : s.Matches clean s') (h' : s'.Matches clean s'') : s.Matches clean s'' :=
  ⟨h.tree.trans h'.tree, fun hc => (h.output hc).trans (h'.output hc)⟩

end Session.Matches

namespace Run

variable {α β : Type} {clean : Bool} {s s' : Session}

theorem of_bind_eq_ok {x : Run α} {k : α → Run β} {b : β}
    (h : (x >>= k).run.run s = (.ok b, s')) :
    ∃ a s₁, x.run.run s = (.ok a, s₁) ∧ (k a).run.run s₁ = (.ok b, s') := by
  rw [ExceptT.run_bind, StateT.run_bind] at h
  rcases hx : x.run.run s with ⟨result, s₁⟩
  rw [hx] at h
  cases result with
  | error e => cases h
  | ok a => exact ⟨a, s₁, rfl, h⟩

theorem of_pure_eq {a b : α} (h : (pure a : Run α).run.run s = (.ok b, s')) : a = b ∧ s = s' := by
  obtain ⟨hab, hs⟩ := Prod.mk.inj h
  exact ⟨Except.ok.inj hab, hs⟩

theorem of_pure_eq_ok {a b : α} (h : (pure a : Run α).run.run s = (.ok b, s')) : a = b :=
  (of_pure_eq h).1

theorem of_lift_eq_ok {ε : Type} {f : ε → Failure} {result : Except ε α} {a : α}
    (h : (Run.lift f result).run.run s = (.ok a, s')) : result = .ok a := by
  cases result with
  | error e => cases congrArg Prod.fst h
  | ok b => exact congrArg Except.ok (of_pure_eq_ok h)

theorem run_bind_ok {x : Run α} {a : α} (h : x.run.run s = (.ok a, s')) (k : α → Run β) :
    (x >>= k).run.run s = (k a).run.run s' := by
  rw [ExceptT.run_bind, StateT.run_bind, h]
  rfl

theorem run_bind_error {x : Run α} {e : Failure} (h : x.run.run s = (.error e, s'))
    (k : α → Run β) : (x >>= k).run.run s = (.error e, s') := by
  rw [ExceptT.run_bind, StateT.run_bind, h]
  rfl

/-- The run leaves the session as it is. -/
def Leaves (x : Run α) : Prop := ∀ s : Session, (x.run.run s).2 = s

theorem leaves_pure (a : α) : Leaves (pure a : Run α) := fun _ => rfl

theorem leaves_tree : Leaves Run.tree := fun _ => rfl

theorem leaves_lift {ε : Type} (f : ε → Failure) (result : Except ε α) :
    (Run.lift f result).Leaves := by
  cases result <;> exact fun _ => rfl

namespace Leaves

theorem bind {x : Run α} {k : α → Run β} (hx : x.Leaves) (hk : ∀ a, (k a).Leaves) :
    (x >>= k).Leaves := by
  intro s
  rcases hrun : x.run.run s with ⟨result, s'⟩
  obtain rfl : s' = s := (congrArg Prod.snd hrun).symm.trans (hx s)
  cases result with
  | error e => rw [run_bind_error hrun]
  | ok a => rw [run_bind_ok hrun, hk a]

theorem mapM {k : α → Run β} (hk : ∀ a, (k a).Leaves) (as : List α) : (as.mapM k).Leaves := by
  induction as with
  | nil => exact leaves_pure []
  | cons a as ih =>
    rw [List.mapM_cons]
    exact (hk a).bind fun b => ih.bind fun bs => leaves_pure _

end Leaves

/-- The run changes the tree and has a result as `f` says; of the rest of the session it changes the
logs only. -/
def Changes (clean : Bool) (x : Run α) (f : FileTree → FileTree × Except Failure α) : Prop :=
  ∀ s : Session, ∃ s', x.run.run s = ((f s.tree).2, s') ∧
    Session.Matches clean { s with tree := (f s.tree).1 } s'

theorem Changes.of_eq_ok {x : Run α} {f : FileTree → FileTree × Except Failure α} {a : α}
    (hx : x.Changes clean f) (h : x.run.run s = (.ok a, s')) :
    (f s.tree).2 = .ok a ∧ Session.Matches clean { s with tree := (f s.tree).1 } s' := by
  obtain ⟨s₁, hrun, hs⟩ := hx s
  rw [h] at hrun
  obtain ⟨ha, rfl⟩ := Prod.mk.inj hrun
  exact ⟨ha.symm, hs⟩

theorem Changes.of_bind_eq_ok {x : Run α} {k : α → Run β}
    {f : FileTree → FileTree × Except Failure α} {b : β} (hx : x.Changes clean f)
    (h : (x >>= k).run.run s = (.ok b, s')) :
    ∃ a s₁, (f s.tree).2 = .ok a ∧ Session.Matches clean { s with tree := (f s.tree).1 } s₁ ∧
      (k a).run.run s₁ = (.ok b, s') := by
  obtain ⟨a, s₁, hrun, h⟩ := Run.of_bind_eq_ok h
  obtain ⟨ha, hs⟩ := hx.of_eq_ok hrun
  exact ⟨a, s₁, ha, hs, h⟩

theorem Changes.run_ok {x : Run α} {f : FileTree → FileTree × Except Failure α} {a : α}
    (hx : x.Changes clean f) (ha : (f s.tree).2 = .ok a) :
    ∃ s₁, x.run.run s = (.ok a, s₁) ∧
      Session.Matches clean { s with tree := (f s.tree).1 } s₁ := by
  obtain ⟨s₁, hrun, hs⟩ := hx s
  exact ⟨s₁, ha ▸ hrun, hs⟩

/-- The run only reads the tree: its result is what `f` gives for it. -/
def Reads (clean : Bool) (x : Run α) (f : FileTree → Except Failure α) : Prop :=
  ∀ s : Session, ∃ s', x.run.run s = (f s.tree, s') ∧ s.Matches clean s'

theorem reads_pure (a : α) : Reads clean (pure a) fun _ => .ok a :=
  fun s => ⟨s, rfl, .refl clean s⟩

theorem reads_throw (e : Failure) : Reads clean (throw e : Run α) fun _ => .error e :=
  fun s => ⟨s, rfl, .refl clean s⟩

theorem reads_tree : Reads clean Run.tree .ok := fun s => ⟨s, rfl, .refl clean s⟩

theorem reads_lift {ε : Type} (f : ε → Failure) (result : Except ε α) :
    Reads clean (Run.lift f result) fun _ => result.mapError f := by
  cases result with
  | error e => exact reads_throw (f e)
  | ok a => exact reads_pure a

namespace Reads

variable {x : Run α} {k : α → Run β} {f : FileTree → Except Failure α}
  {g : α → FileTree → Except Failure β}

theorem bind (hx : x.Reads clean f) (hk : ∀ a, (k a).Reads clean (g a)) :
    (x >>= k).Reads clean fun t => f t >>= fun a => g a t := by
  intro s
  obtain ⟨s₁, hrun, hs⟩ := hx s
  cases hf : f s.tree with
  | error e =>
    rw [hf] at hrun
    refine ⟨s₁, ?_, hs⟩
    simp only [run_bind_error hrun, hf]
    rfl
  | ok a =>
    rw [hf] at hrun
    obtain ⟨s₂, hrun', hs'⟩ := hk a s₁
    refine ⟨s₂, ?_, hs.trans hs'⟩
    simp only [run_bind_ok hrun, hrun', ← hs.tree, hf]
    rfl

/-- What follows a look at the tree sees the tree as it is. -/
theorem withTree {k : FileTree → Run α} (hk : ∀ t, (k t).Reads clean fun _ => f t) :
    (Run.tree >>= k).Reads clean f :=
  Reads.bind (g := fun t _ => f t) reads_tree hk

/-- What follows a run that has one result only, such as a log line. -/
theorem after {x : Run β} {k : β → Run α} {b : β} (hx : x.Reads clean fun _ => .ok b)
    (hk : (k b).Reads clean f) : (x >>= k).Reads clean f := by
  intro s
  obtain ⟨s₁, hrun, hs⟩ := hx s
  obtain ⟨s₂, hrun', hs'⟩ := hk s₁
  refine ⟨s₂, ?_, hs.trans hs'⟩
  rw [run_bind_ok hrun, hrun', hs.tree]

theorem logged {log : α → Run Unit} (hx : x.Reads clean f)
    (hlog : ∀ a, (log a).Reads clean fun _ => .ok ()) :
    (x >>= fun a => log a >>= fun _ => pure a).Reads clean f := by
  have h := hx.bind fun a => Reads.after (k := fun _ => pure a) (hlog a) (reads_pure a)
  have hf : (fun t => f t >>= fun a => .ok a) = f := funext fun t => bind_pure (f t)
  rwa [hf] at h

theorem ite {c : Prop} [Decidable c] {x y : Run α} {f g : FileTree → Except Failure α}
    (hx : x.Reads clean f) (hy : y.Reads clean g) :
    (if c then x else y).Reads clean fun t => if c then f t else g t := by
  split
  · exact hx
  · exact hy

theorem mapM (hk : ∀ a, (k a).Reads clean (g a)) (l : List α) :
    (l.mapM k).Reads clean fun t => l.mapM fun a => g a t := by
  induction l with
  | nil => exact reads_pure []
  | cons a l ih =>
    simp only [List.mapM_cons]
    exact (hk a).bind fun b => ih.bind fun bs => reads_pure (b :: bs)

theorem forM {log : α → Run Unit} (hlog : ∀ a, (log a).Reads clean fun _ => .ok ()) (l : List α) :
    (l.forM log).Reads clean fun _ => .ok () := by
  induction l with
  | nil => exact reads_pure ()
  | cons a l ih => exact (hlog a).bind fun _ => ih

theorem changes (hx : x.Reads clean f) : x.Changes clean fun t => (t, f t) := hx

theorem run_ok {a : α} (hx : x.Reads clean f) (ha : f s.tree = .ok a) :
    ∃ s₁, x.run.run s = (.ok a, s₁) ∧ s.Matches clean s₁ :=
  hx.changes.run_ok ha

theorem of_eq_ok {a : α} (hx : x.Reads clean f) (h : x.run.run s = (.ok a, s')) :
    f s.tree = .ok a ∧ s.Matches clean s' :=
  hx.changes.of_eq_ok h

theorem of_bind_eq_ok {b : β} (hx : x.Reads clean f) (h : (x >>= k).run.run s = (.ok b, s')) :
    ∃ a s₁, f s.tree = .ok a ∧ s.Matches clean s₁ ∧ (k a).run.run s₁ = (.ok b, s') :=
  hx.changes.of_bind_eq_ok h

end Reads

/-- A change with a log of its result. -/
theorem Changes.logged {x : Run α} {f : FileTree → FileTree × Except Failure α} {k : α → Run α}
    (hx : x.Changes clean f) (hk : ∀ a, (k a).Reads clean fun _ => .ok a) :
    (x >>= k).Changes clean f := by
  intro s
  obtain ⟨s₁, hrun, hs⟩ := hx s
  cases hf : (f s.tree).2 with
  | error e =>
    rw [hf] at hrun
    exact ⟨s₁, run_bind_error hrun k, hs⟩
  | ok a =>
    rw [hf] at hrun
    obtain ⟨s₂, hrun', hs'⟩ := hk a s₁
    exact ⟨s₂, (run_bind_ok hrun k).trans hrun', hs.trans hs'⟩

theorem run_proceed (progress : FileTree.Progress) (s : Session) :
    (Run.proceed progress).run.run s =
      (match progress.2 with
        | none => .ok ()
        | some e => .error (.path (.file e)), { s with tree := progress.1 }) := by
  obtain ⟨t, _ | e⟩ := progress <;> rfl

/-- A write that ends the run if the tree refuses it. -/
def writtenOr : Option FileError → Except Failure Bool
  | none => .ok true
  | some e => .error (.path (.file e))

theorem changes_proceed (f : FileTree → FileTree.Progress) {k : Unit → Run Bool}
    (hk : (k ()).Reads clean fun _ => .ok true) :
    (Run.tree >>= fun t => Run.proceed (f t) >>= k).Changes clean fun t =>
      ((f t).1, writtenOr (f t).2) := by
  intro s
  have hrun := run_proceed (f s.tree) s
  change ∃ s', (Run.proceed (f s.tree) >>= k).run.run s = _ ∧ _
  cases hr : (f s.tree).2 with
  | some e =>
    rw [hr] at hrun
    exact ⟨_, by simp only [run_bind_error hrun, hr, writtenOr], .refl clean _⟩
  | none =>
    rw [hr] at hrun
    obtain ⟨s₁, hlogged, hs⟩ := hk { s with tree := (f s.tree).1 }
    exact ⟨s₁, by simp only [run_bind_ok hrun, hlogged, hr, writtenOr], hs⟩

/-- What a write that the tree refused comes to: it failed, but a malformed path ends the run. -/
def resultOf : Option FileError → Except Failure Bool
  | none => .ok true
  | some e => if e.fault = .nullCharacter then .error (.path (.file e)) else .ok false

theorem of_resultOf_eq_ok {refusal : Option FileError} {b : Bool} (h : resultOf refusal = .ok b) :
    b = refusal.isNone ∧ ∀ e ∈ refusal, e.fault ≠ .nullCharacter := by
  cases refusal with
  | none => exact ⟨(Except.ok.inj h).symm, by simp⟩
  | some e =>
    simp only [resultOf] at h
    split at h
    next => cases h
    next hn => exact ⟨(Except.ok.inj h).symm, by simpa using hn⟩

theorem resultOf_eq_ok {refusal : Option FileError}
    (h : ∀ e ∈ refusal, e.fault ≠ .nullCharacter) : resultOf refusal = .ok refusal.isNone := by
  cases refusal with
  | none => rfl
  | some e => exact if_neg (h e rfl)

theorem run_tryCatch (x : Run α) (handle : Failure → Run α) (s : Session) :
    (tryCatch x handle).run.run s =
      match x.run.run s with
      | (.ok a, s') => (.ok a, s')
      | (.error e, s') => (handle e).run.run s' := by
  simp only [tryCatch, tryCatchThe, MonadExceptOf.tryCatch, ExceptT.tryCatch, ExceptT.mk,
    ExceptT.run]
  rw [StateT.run_bind]
  rcases StateT.run x s with ⟨_ | _, s'⟩ <;> rfl

theorem run_orRefused_ok {x : Run α} {refused : FileError → Run α} {a : α}
    (h : x.run.run s = (.ok a, s')) : (Run.orRefused x refused).run.run s = (.ok a, s') := by
  rw [Run.orRefused, run_tryCatch, h]

theorem run_orRefused_error {x : Run α} {refused : FileError → Run α} {e : FileError}
    (h : x.run.run s = (.error (.path (.file e)), s')) :
    (Run.orRefused x refused).run.run s =
      if e.fault = .nullCharacter then (.error (.path (.file e)), s')
      else (refused e).run.run s' := by
  rw [Run.orRefused, run_tryCatch, h]
  dsimp only
  split <;> rfl

/-- A write whose refusal is logged. -/
theorem changes_orRefused {write : Run Bool} {refused : FileError → Run Bool}
    {f : FileTree → FileTree.Progress}
    (hw : write.Changes clean fun t => ((f t).1, writtenOr (f t).2))
    (hr : ∀ e, (refused e).Reads clean fun _ => .ok false) :
    (Run.orRefused write refused).Changes clean fun t => ((f t).1, resultOf (f t).2) := by
  intro s
  obtain ⟨s₁, hrun, hs⟩ := hw s
  simp only at hrun hs ⊢
  cases hf : (f s.tree).2 with
  | none =>
    rw [hf] at hrun
    exact ⟨s₁, run_orRefused_ok hrun, hs⟩
  | some e =>
    rw [hf] at hrun
    obtain ⟨s₂, hrun', hs'⟩ := hr e s₁
    by_cases he : e.fault = .nullCharacter
    · exact ⟨s₁, by rw [run_orRefused_error hrun, resultOf, if_pos he, if_pos he], hs⟩
    · refine ⟨s₂, ?_, hs.trans hs'⟩
      rw [run_orRefused_error hrun, resultOf, if_neg he, if_neg he, hrun']

end Run

end AnnotatedRoutes
