namespace AnnotatedRoutes

/-- Entries with distinct keys, in order. -/
@[ext] structure Keyed (α β : Type) where
  entries : List (α × β)
  distinct : (entries.map Prod.fst).Nodup

namespace Keyed

variable {α β : Type}

def empty : Keyed α β := ⟨[], List.nodup_nil⟩

instance : EmptyCollection (Keyed α β) := ⟨empty⟩

instance [DecidableEq α] [DecidableEq β] : DecidableEq (Keyed α β) := fun a b =>
  decidable_of_iff (a.entries = b.entries) Keyed.ext_iff.symm

def keys (m : Keyed α β) : List α := m.entries.map Prod.fst

def size (m : Keyed α β) : Nat := m.entries.length

variable [DecidableEq α]

/-- The value under a key. -/
def get? (m : Keyed α β) (key : α) : Option β :=
  (m.entries.find? (·.1 = key)).map Prod.snd

/-- Writes a value under a key: in place if the key is there, at the end if it is new. -/
def putEntry (key : α) (value : β) : List (α × β) → List (α × β)
  | [] => [(key, value)]
  | entry :: entries =>
    if entry.1 = key then (key, value) :: entries else entry :: putEntry key value entries

theorem map_fst_putEntry (key : α) (value : β) (entries : List (α × β)) :
    (putEntry key value entries).map Prod.fst =
      if key ∈ entries.map Prod.fst then entries.map Prod.fst
      else entries.map Prod.fst ++ [key] := by
  induction entries with
  | nil => simp [putEntry]
  | cons entry entries ih =>
    by_cases h : entry.1 = key
    · simp [putEntry, h]
    · have h' : key ≠ entry.1 := Ne.symm h
      simp only [putEntry, h, if_false, List.map_cons, ih, List.mem_cons, h', false_or]
      split <;> simp

theorem nodup_putEntry (key : α) (value : β) {entries : List (α × β)}
    (h : (entries.map Prod.fst).Nodup) : ((putEntry key value entries).map Prod.fst).Nodup := by
  rw [map_fst_putEntry]
  split
  · exact h
  next hk =>
    rw [List.nodup_append]
    refine ⟨h, by simp, ?_⟩
    intro a ha b hb hab
    simp only [List.mem_singleton] at hb
    exact hk (hb ▸ hab ▸ ha)

/-- Keeps the first place of a key and the last value written under it. -/
def put (m : Keyed α β) (key : α) (value : β) : Keyed α β :=
  ⟨putEntry key value m.entries, nodup_putEntry key value m.distinct⟩

/-- The pairs written one after another. -/
def ofList (pairs : List (α × β)) : Keyed α β := pairs.foldl (fun m p => m.put p.1 p.2) empty

omit [DecidableEq α] in
theorem nodup_mergeSort {entries : List (α × β)} (le : α × β → α × β → Bool)
    (h : (entries.map Prod.fst).Nodup) : ((entries.mergeSort le).map Prod.fst).Nodup :=
  ((List.mergeSort_perm entries le).map Prod.fst).nodup_iff.mpr h

omit [DecidableEq α] in
/-- The same entries in another order; entries that count as equal keep theirs. -/
def sortBy (m : Keyed α β) (le : α × β → α × β → Bool) : Keyed α β :=
  ⟨m.entries.mergeSort le, nodup_mergeSort le m.distinct⟩

theorem get?_put (m : Keyed α β) (key other : α) (value : β) :
    (m.put key value).get? other = if other = key then some value else m.get? other := by
  unfold get? put
  simp only
  induction m.entries with
  | nil => by_cases h : other = key <;> simp [putEntry, h, eq_comm]
  | cons entry entries ih =>
    by_cases he : entry.1 = key
    · by_cases h : other = key
      · simp [putEntry, he, h]
      · have h' : key ≠ other := Ne.symm h
        simp [putEntry, he, h, h']
    · by_cases ho : entry.1 = other
      · have h : other ≠ key := fun e => he (ho.trans e)
        simp [putEntry, ho, h]
      · simp only [putEntry, he, if_false, List.find?_cons, ho, decide_false, ih]

end Keyed

end AnnotatedRoutes
