import AnnotatedRoutes.Proofs.OutputAgreement
import AnnotatedRoutes.Proofs.StableOrder

namespace AnnotatedRoutes

namespace Keyed

variable {α β : Type} [DecidableEq α]

/-- Writes whose last values are there already change nothing, whatever they write in between. -/
theorem putAll_of_get? {m : Keyed α β} {pairs : List (α × β)}
    (h : ∀ key value, lastUnder key pairs = some value → m.get? key = some value) :
    m.putAll pairs = m := by
  have hkeys : ∀ key ∈ firstOfEach id (pairs.map Prod.fst), key ∈ m.keys := by
    intro key hk
    have hmem : key ∈ pairs.map Prod.fst := (firstOfEach_sublist id _).subset hk
    obtain ⟨value, hv⟩ := Option.ne_none_iff_exists'.mp fun hn => lastUnder_eq_none_iff.mp hn hmem
    exact mem_keys_iff.mpr (Option.isSome_of_eq_some (h key value hv))
  have hnone : (firstOfEach id (pairs.map Prod.fst)).filter (· ∉ m.keys) = [] :=
    List.filter_eq_nil_iff.mpr fun key hk => by simpa using hkeys key hk
  refine eq_of_keys_eq ?_ fun key => ?_
  · rw [keys_putAll, hnone, List.append_nil]
  · rw [get?_putAll]
    cases hl : lastUnder key pairs with
    | none => rfl
    | some value => exact (h key value hl).symm

theorem putAll_putAll (m : Keyed α β) (pairs : List (α × β)) :
    (m.putAll pairs).putAll pairs = m.putAll pairs :=
  putAll_of_get? fun key value hv => by rw [get?_putAll, hv, Option.some_or]

end Keyed

namespace Controller

theorem Descending.orderActions {k : Controller} (h : k.Descending) : k.orderActions = k :=
  congrArg (Controller.mk k.className) (Keyed.ext (descending_of_pairwise _ h))

/-- The second time the actions are written in place, into a collection that is in order already. -/
theorem addActions_addActions (k : Controller) (actions : List (Text × Action)) :
    (k.addActions actions).addActions actions = k.addActions actions := by
  have hwritten : (k.addActions actions).actions.putAll actions = (k.addActions actions).actions :=
    Keyed.putAll_of_get? fun name a ha => by rw [get?_actions_addActions, ha, Option.some_or]
  calc (k.addActions actions).addActions actions
      = orderActions { k.addActions actions with
          actions := (k.addActions actions).actions.putAll actions } := rfl
    _ = (k.addActions actions).orderActions := by rw [hwritten]
    _ = k.addActions actions := (k.descending_addActions actions).orderActions

end Controller

theorem RoutingModel.addClass_addClass (m : RoutingModel) (c : HandlerClass) :
    (m.addClass c).model.addClass c = m.addClass c := by
  by_cases h : c.routingName = []
  · rw [addClass_of_rejected m h]
  · rw [addClass_of_accepted m h, addClass_eq_of_accepted _ h, addClass_eq_of_accepted m h]
    simp only [Keyed.get?_put_self, Option.getD_some, Controller.addActions_addActions,
      Controller.className_addActions, Keyed.put_put, Keyed.putAll_putAll]

/-- A class that is added twice in a row is accepted under the same name, gives the same notices and
leaves the same builder, with all its orders, as if it were added once. -/
theorem Builder.addClass_twice (b : Builder) (c : HandlerClass) :
    (b.addClass c).builder.addClass c = b.addClass c := by
  simp only [addClass, RoutingModel.addClass_addClass]

end AnnotatedRoutes
