import AnnotatedRoutes.Proofs.HeldFiles

namespace AnnotatedRoutes

namespace Run

variable {α β : Type} {t u v : FileTree} {Q : α → Prop} {R : β → Prop}

/-- In every tree like `t` the run returns such a value and leaves a tree like `u`. -/
def Takes (t : FileTree) (x : Run α) (u : FileTree) (Q : α → Prop) : Prop :=
  ∀ s : Session, s.tree.Alike t → ∃ a s', x.run.run s = (.ok a, s') ∧ s'.tree.Alike u ∧ Q a

/-- In every tree like `t` the run fails. -/
def Fails (t : FileTree) (x : Run α) : Prop :=
  ∀ s : Session, s.tree.Alike t → ∃ e s', x.run.run s = (.error e, s')

theorem takes_pure {a : α} (h : Q a) : Takes t (pure a) t Q := fun s hs => ⟨a, s, rfl, hs, h⟩

theorem fails_throw (e : Failure) : Fails t (throw e : Run α) := fun s _ => ⟨e, s, rfl⟩

theorem takes_tree : Takes t Run.tree t (·.Alike t) := fun s hs => ⟨s.tree, s, rfl, hs, hs⟩

theorem takes_lift {ε : Type} {f : ε → Failure} {result : Except ε α} {a : α}
    (h : result = .ok a) : Takes t (Run.lift f result) t (· = a) := by
  subst h
  exact takes_pure rfl

theorem takes_modify {f : Session → Session} (h : ∀ s, (f s).tree = s.tree) :
    Takes t (modify f : Run Unit) t fun _ => True :=
  fun s hs => ⟨(), f s, rfl, (h s).symm ▸ hs, trivial⟩

namespace Takes

theorem bind {x : Run α} {k : α → Run β} (hx : Takes t x u Q)
    (hk : ∀ a, Q a → Takes u (k a) v R) : Takes t (x >>= k) v R := by
  intro s hs
  obtain ⟨a, s₁, hrun, hs₁, ha⟩ := hx s hs
  rw [run_bind_ok hrun]
  exact hk a ha s₁ hs₁

theorem bind_fails {x : Run α} {k : α → Run β} (hx : Takes t x u Q)
    (hk : ∀ a, Q a → Fails u (k a)) : Fails t (x >>= k) := by
  intro s hs
  obtain ⟨a, s₁, hrun, hs₁, ha⟩ := hx s hs
  rw [run_bind_ok hrun]
  exact hk a ha s₁ hs₁

theorem forM {k : α → Run Unit} (h : ∀ a, Takes t (k a) t fun _ => True) (as : List α) :
    Takes t (as.forM k) t fun _ => True := by
  induction as with
  | nil => exact takes_pure trivial
  | cons a as ih => exact (h a).bind fun _ _ => ih

end Takes

theorem Fails.bind {x : Run α} (hx : Fails t x) (k : α → Run β) : Fails t (x >>= k) := by
  intro s hs
  obtain ⟨e, s', hrun⟩ := hx s hs
  exact ⟨e, s', run_bind_error hrun k⟩

theorem Fails.ne_ok {x : Run α} {s s' : Session} {a : α} (hx : Fails s.tree x) :
    x.run.run s ≠ (.ok a, s') := by
  intro h
  obtain ⟨e, s₁, hrun⟩ := hx s (.refl _)
  cases congrArg Prod.fst (h.symm.trans hrun)

/-- In every tree like `t` the run has this result, up to the error, and leaves a tree like it. -/
def Goes (t : FileTree) (x : Run α) : Except Failure α → Prop
  | .ok a => Takes t x t (· = a)
  | .error _ => Fails t x

theorem goes_pure (a : α) : Goes t (pure a) (.ok a) := takes_pure rfl

theorem goes_lift {ε : Type} (f : ε → Failure) (result : Except ε α) :
    Goes t (Run.lift f result) (result.mapError f) := by
  cases result with
  | ok a => exact takes_pure rfl
  | error e => exact fails_throw (f e)

namespace Goes

variable {x : Run α} {k : α → Run β} {r : Except Failure α} {q : α → Except Failure β}

theorem bind (hx : Goes t x r) (hk : ∀ a, r = .ok a → Goes t (k a) (q a)) :
    Goes t (x >>= k) (r >>= q) := by
  cases r with
  | error e => exact Fails.bind hx k
  | ok a =>
    have hk : Goes t (k a) (q a) := hk a rfl
    have hx : Takes t x t (· = a) := hx
    change Goes t (x >>= k) (q a)
    cases hq : q a with
    | error e =>
      rw [hq] at hk
      refine hx.bind_fails ?_
      rintro _ rfl
      exact hk
    | ok b =>
      rw [hq] at hk
      refine hx.bind ?_
      rintro _ rfl
      exact hk

theorem withTree {k : FileTree → Run α} (h : ∀ u, u.Alike t → Goes t (k u) r) :
    Goes t (Run.tree >>= k) r := by
  cases r with
  | error e => exact takes_tree.bind_fails fun u hu => h u hu
  | ok a => exact takes_tree.bind fun u hu => h u hu

theorem after {y : Run Unit} {k : Unit → Run α} (hy : Takes t y t fun _ => True)
    (hk : Goes t (k ()) r) : Goes t (y >>= k) r := by
  cases r with
  | error e => exact hy.bind_fails fun _ _ => hk
  | ok a => exact hy.bind fun _ _ => hk

theorem logged {log : α → Run Unit} (hx : Goes t x r)
    (hlog : ∀ a, Takes t (log a) t fun _ => True) :
    Goes t (x >>= fun a => log a >>= fun _ => pure a) r := by
  cases r with
  | error e => exact Fails.bind hx _
  | ok a =>
    refine Takes.bind hx ?_
    rintro _ rfl
    exact (hlog _).bind fun _ _ => takes_pure rfl

theorem ite {c : Prop} [Decidable c] {y : Run α} {r' : Except Failure α}
    (hx : c → Goes t x r) (hy : ¬ c → Goes t y r') :
    Goes t (if c then x else y) (if c then r else r') := by
  split
  next h => exact hx h
  next h => exact hy h

theorem mapM {as : List α} (h : ∀ a ∈ as, Goes t (k a) (q a)) :
    Goes t (as.mapM k) (as.mapM q) := by
  induction as with
  | nil => exact goes_pure []
  | cons a as ih =>
    obtain ⟨ha, has⟩ := List.forall_mem_cons.mp h
    rw [List.mapM_cons, List.mapM_cons]
    exact ha.bind fun b _ => (ih has).bind fun bs _ => goes_pure (b :: bs)

end Goes

section Write

variable {working : Location} {p : Path} {text : Text} {k : Run Bool}
  {refused : FileError → Run Bool}

theorem run_write (working : Location) (p : Path) (text : Text) (k : Run Bool) (s : Session) :
    (do
      let t ← Run.tree
      Run.proceed (t.writeDeep working p text)
      k : Run Bool).run.run s =
      match (s.tree.writeDeep working p text).2 with
      | none => k.run.run { s with tree := (s.tree.writeDeep working p text).1 }
      | some e =>
        (.error (.path (.file e)), { s with tree := (s.tree.writeDeep working p text).1 }) := by
  have htree : Run.tree.run.run s = (.ok s.tree, s) := rfl
  have hproceed := run_proceed (s.tree.writeDeep working p text) s
  rw [run_bind_ok htree]
  cases hr : (s.tree.writeDeep working p text).2 with
  | none =>
    rw [hr] at hproceed
    rw [run_bind_ok hproceed]
  | some e =>
    rw [hr] at hproceed
    rw [run_bind_error hproceed]

/-- A write goes on, whether it is done or refused, unless it is refused for a null character. -/
theorem takes_write (hwell : ∀ e ∈ (t.writeDeep working p []).2, e.fault ≠ .nullCharacter)
    (hu : u = (t.writeDeep working p []).1) (hk : Takes u k u fun _ => True)
    (hrefused : ∀ e, Takes u (refused e) u fun _ => True) :
    Takes t (Run.orRefused (do
      let t ← Run.tree
      Run.proceed (t.writeDeep working p text)
      k) refused) u fun _ => True := by
  intro s hs
  obtain ⟨htree, hrefusal⟩ : FileTree.Progress.Alike (s.tree.writeDeep working p text)
      (t.writeDeep working p []) := hs.writeDeep text []
  have hwrite := run_write working p text k s
  rw [← hu] at htree
  cases hr : (s.tree.writeDeep working p text).2 with
  | none =>
    obtain ⟨b, s', hrun, hs', -⟩ := hk { s with tree := (s.tree.writeDeep working p text).1 } htree
    rw [hr] at hwrite
    exact ⟨b, s', run_orRefused_ok (hwrite.trans hrun), hs', trivial⟩
  | some e =>
    have he : e.fault ≠ .nullCharacter := hwell e (by rw [← hrefusal, hr]; rfl)
    obtain ⟨b, s', hrun, hs', -⟩ :=
      hrefused e { s with tree := (s.tree.writeDeep working p text).1 } htree
    rw [hr] at hwrite
    exact ⟨b, s', by rw [run_orRefused_error hwrite, if_neg he, hrun], hs', trivial⟩

theorem fails_write {e : FileError} (he : e ∈ (t.writeDeep working p []).2)
    (hnull : e.fault = .nullCharacter) :
    Fails t (Run.orRefused (do
      let t ← Run.tree
      Run.proceed (t.writeDeep working p text)
      k) refused) := by
  intro s hs
  obtain ⟨-, hrefusal⟩ : FileTree.Progress.Alike (s.tree.writeDeep working p text)
      (t.writeDeep working p []) := hs.writeDeep text []
  have hwrite := run_write working p text k s
  rw [hrefusal, Option.mem_def.mp he] at hwrite
  exact ⟨_, _, by rw [run_orRefused_error hwrite, if_pos hnull]⟩

end Write

end Run

/-- Lines can be logged in trees like `t`, and change nothing of the shape. -/
def Log.Steady (t : FileTree) (log : Log) : Prop := ∀ line, Run.Takes t (log line) t fun _ => True

theorem Log.steady_nowhere (t : FileTree) : nowhere.Steady t := fun _ => Run.takes_pure trivial

theorem Log.Steady.onlyIf {t : FileTree} {log : Log} (h : log.Steady t) (wanted : Bool) :
    (Log.onlyIf wanted log).Steady t := by
  cases wanted with
  | false => exact Log.steady_nowhere t
  | true => exact h

end AnnotatedRoutes
