import AnnotatedRoutes.Proofs.ClassOrder
import AnnotatedRoutes.Proofs.RecordOrder
import Mathlib.Data.List.Permutation

namespace AnnotatedRoutes

/-- What an index shows of some registrations, each a URL and the routing name that claims it: who
was the last to claim a URL, with the greatest of the URLs that were last claimed by the same. -/
structure ShowsOwners (calls index : List (Text × Text)) : Prop where
  mem_iff : ∀ url n, (url, n) ∈ index ↔ Keyed.lastUnder url calls = some n ∧
    ∀ other, Keyed.lastUnder other calls = some n → Text.le other url = true
  descending : index.Pairwise fun a b => b.1 < a.1
  names : (index.map Prod.snd).Nodup

/-- The same registrations in another order, where those of one URL keep theirs. -/
structure CallsReordered (calls calls' : List (Text × Text)) : Prop where
  perm : calls.Perm calls'
  underUrl : ∀ url, calls.filter (·.1 = url) = calls'.filter (·.1 = url)

/-- Two neighbours with different URLs may change places. -/
theorem CallsReordered.swap {call call' : Text × Text} (h : call.1 ≠ call'.1)
    (before after : List (Text × Text)) :
    CallsReordered (before ++ call :: call' :: after) (before ++ call' :: call :: after) where
  perm := (List.Perm.swap call' call after).append_left before
  underUrl url := by
    rw [List.filter_append, List.filter_append]
    congr 1
    by_cases hc : call.1 = url
    · have hc' : call'.1 ≠ url := fun e => h (hc.trans e.symm)
      simp [hc, hc']
    · simp [hc, List.filter_cons]

namespace RoutingModel

/-- The model after a run of registrations. -/
def registerAll (m : RoutingModel) (calls : List (Text × Text)) : RoutingModel :=
  calls.foldl (fun m call => m.registerUrl call.2 call.1) m

theorem registerAll_eq (m : RoutingModel) (calls : List (Text × Text)) :
    m.registerAll calls = { m with urlIndex := m.urlIndex.putAll calls } := by
  induction calls generalizing m with
  | nil => rfl
  | cons call calls ih => exact ih (m.registerUrl call.2 call.1)

/-- A later registration overwrites an earlier one, whatever was registered in between. -/
theorem get?_urlIndex_registerAll (calls : List (Text × Text)) (url : Text) :
    (registerAll {} calls).urlIndex.get? url = Keyed.lastUnder url calls := by
  rw [registerAll_eq, Keyed.get?_putAll, Keyed.get?_empty, Option.or_none]

/-- The index has just the routing names that own a URL, each with the greatest one. -/
theorem mem_reducedIndex_iff {m : RoutingModel} {url n : Text} :
    (url, n) ∈ m.reducedIndex ↔ m.Leads n url := by
  constructor
  · exact leads_of_mem_reducedIndex
  · intro h
    obtain ⟨⟨other, n⟩, ho, rfl⟩ := List.mem_map.mp (mem_names_reducedIndex.mpr ⟨url, h.owned⟩)
    rwa [← (leads_of_mem_reducedIndex ho).eq h]

theorem pairwise_lt_reducedIndex (m : RoutingModel) :
    m.reducedIndex.Pairwise fun a b => b.1 < a.1 := by
  have hperm : m.sortedIndex.Perm m.urlIndex.entries := List.mergeSort_perm _ _
  have hnodup : (m.sortedIndex.map Prod.fst).Nodup :=
    (hperm.map Prod.fst).nodup_iff.mpr m.urlIndex.distinct
  have hsorted := m.pairwise_sortedIndex.and (List.pairwise_map.mp hnodup)
  refine (hsorted.imp ?_).sublist (firstOfEach_sublist _ _)
  rintro a b ⟨hle, hne⟩
  exact Text.lt_of_le_of_ne hle (Ne.symm hne)

/-- Nothing but the order of the registrations of one URL counts. -/
theorem alike_registerAll {calls calls' : List (Text × Text)} (h : CallsReordered calls calls') :
    (registerAll {} calls').Alike (registerAll {} calls) where
  controllers n := by rw [registerAll_eq, registerAll_eq]
  owners url := by
    rw [get?_urlIndex_registerAll, get?_urlIndex_registerAll, Keyed.lastUnder, Keyed.lastUnder,
      h.underUrl]

/-- After any run of registrations the reduced index has every routing name that was the last to
claim some URL, once, with the greatest of these URLs, in descending order; it stays the same if
registrations of different URLs change places. -/
theorem reducedIndex_shows_owners (calls : List (Text × Text)) :
    ShowsOwners calls (registerAll {} calls).reducedIndex ∧
      ∀ calls', CallsReordered calls calls' →
        (registerAll {} calls').reducedIndex = (registerAll {} calls).reducedIndex := by
  refine ⟨?_, fun calls' h => (alike_registerAll h).reducedIndex_eq⟩
  constructor
  case mem_iff =>
    intro url n
    simp only [← get?_urlIndex_registerAll]
    exact mem_reducedIndex_iff.trans ⟨fun h => ⟨h.owned, h.greatest⟩, fun h => ⟨h.1, h.2⟩⟩
  case descending => exact pairwise_lt_reducedIndex _
  case names => exact nodup_map_firstOfEach _ _

/-- The greatest URL of `a` passes to `b`, which leaves `a` with a smaller one; the registration of
`c` may come at any time. -/
theorem reducedIndex_shows_owners_overwritten :
    let calls := [("/z".toList, ['a']), ("/m".toList, ['a']), ("/z".toList, ['b']),
      ("/k".toList, ['c'])]
    let calls' := [("/z".toList, ['a']), ("/m".toList, ['a']), ("/k".toList, ['c']),
      ("/z".toList, ['b'])]
    CallsReordered calls calls' ∧
      (registerAll {} calls).reducedIndex =
        [("/z".toList, ['b']), ("/m".toList, ['a']), ("/k".toList, ['c'])] ∧
      (registerAll {} calls').reducedIndex = (registerAll {} calls).reducedIndex := by
  intro calls calls'
  have reordered : CallsReordered calls calls' :=
    CallsReordered.swap (by decide) [("/z".toList, ['a']), ("/m".toList, ['a'])] []
  exact ⟨reordered, by cbv, (reducedIndex_shows_owners calls).2 calls' reordered⟩

end RoutingModel

end AnnotatedRoutes
