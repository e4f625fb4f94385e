import AnnotatedRoutes.Keyed
import Mathlib.Data.List.Induction
import Mathlib.Data.List.Nodup

namespace AnnotatedRoutes.Keyed

variable {α β : Type} [DecidableEq α]

theorem get?_eq_some_iff {m : Keyed α β} {key : α} {value : β} :
    m.get? key = some value ↔ (key, value) ∈ m.entries := by
  constructor
  · intro h
    obtain ⟨entry, hf, rfl⟩ := Option.map_eq_some_iff.mp h
    have hk : entry.1 = key := by simpa using List.find?_some hf
    subst hk
    exact List.mem_of_find?_eq_some hf
  · intro h
    cases hf : m.entries.find? (·.1 = key) with
    | none => simpa using List.find?_eq_none.mp hf _ h
    | some entry =>
      have hk : entry.1 = key := by simpa using List.find?_some hf
      have he : entry = (key, value) :=
        List.inj_on_of_nodup_map m.distinct (List.mem_of_find?_eq_some hf) h hk
      simp [get?, hf, he]

theorem mem_keys_iff {m : Keyed α β} {key : α} : key ∈ m.keys ↔ (m.get? key).isSome := by
  rw [Option.isSome_iff_exists]
  simp only [keys, List.mem_map, get?_eq_some_iff, Prod.exists, exists_and_right, exists_eq_right]

@[simp] theorem get?_empty (key : α) : (∅ : Keyed α β).get? key = none := rfl

@[simp] theorem get?_put_self (m : Keyed α β) (key : α) (value : β) :
    (m.put key value).get? key = some value := by
  rw [get?_put, if_pos rfl]

theorem mem_keys_put {m : Keyed α β} {key other : α} {value : β} :
    other ∈ (m.put key value).keys ↔ other = key ∨ other ∈ m.keys := by
  rw [mem_keys_iff, mem_keys_iff, get?_put]
  by_cases h : other = key
  · simp [h]
  · simp [h]

theorem putEntry_putEntry (key : α) (value value' : β) (entries : List (α × β)) :
    putEntry key value' (putEntry key value entries) = putEntry key value' entries := by
  induction entries with
  | nil => simp [putEntry]
  | cons entry entries ih =>
    by_cases h : entry.1 = key
    · simp [putEntry, h]
    · simp [putEntry, h, ih]

/-- A value that is written over leaves no trace. -/
theorem put_put (m : Keyed α β) (key : α) (value value' : β) :
    (m.put key value).put key value' = m.put key value' :=
  Keyed.ext (putEntry_putEntry key value value' m.entries)

theorem putEntry_of_find? {key : α} {value : β} {entries : List (α × β)}
    (h : entries.find? (·.1 = key) = some (key, value)) : putEntry key value entries = entries := by
  induction entries with
  | nil => simp at h
  | cons entry entries ih =>
    by_cases hk : entry.1 = key
    · have he : entry = (key, value) := by simpa [hk] using h
      simp [putEntry, he]
    · have hf : entries.find? (·.1 = key) = some (key, value) := by simpa [hk] using h
      simp [putEntry, hk, ih hf]

/-- Writing what is there already changes nothing. -/
theorem put_of_get? {m : Keyed α β} {key : α} {value : β} (h : m.get? key = some value) :
    m.put key value = m := by
  obtain ⟨entry, hf, rfl⟩ := Option.map_eq_some_iff.mp h
  have hk : entry.1 = key := by simpa using List.find?_some hf
  subst hk
  exact Keyed.ext (putEntry_of_find? hf)

omit [DecidableEq α] in
theorem nodup_map_of_injective {γ : Type} (m : Keyed α β) {f : α → γ} (hf : Function.Injective f) :
    (m.entries.map fun entry => f entry.1).Nodup := by
  have h := m.distinct.map hf
  rwa [List.map_map] at h

/-- Two collections with the same entries answer alike, in whatever order the entries are. -/
theorem get?_eq_of_perm {m m' : Keyed α β} (h : m.entries.Perm m'.entries) (key : α) :
    m.get? key = m'.get? key := by
  apply Option.ext
  intro value
  rw [get?_eq_some_iff, get?_eq_some_iff]
  exact h.mem_iff

/-- Two collections that answer alike have the same entries. -/
theorem perm_of_get?_eq {m m' : Keyed α β} (h : ∀ key, m.get? key = m'.get? key) :
    m.entries.Perm m'.entries := by
  have hm : m.entries.Nodup := List.Nodup.of_map _ m.distinct
  have hm' : m'.entries.Nodup := List.Nodup.of_map _ m'.distinct
  rw [List.perm_ext_iff_of_nodup hm hm']
  rintro ⟨key, value⟩
  rw [← get?_eq_some_iff, ← get?_eq_some_iff, h]

@[simp] theorem get?_sortBy (m : Keyed α β) (le : α × β → α × β → Bool) (key : α) :
    (m.sortBy le).get? key = m.get? key :=
  get?_eq_of_perm (List.mergeSort_perm _ _) key

/-- The collection after a run of writes. -/
def putAll (m : Keyed α β) (pairs : List (α × β)) : Keyed α β :=
  pairs.foldl (fun m p => m.put p.1 p.2) m

@[simp] theorem putAll_nil (m : Keyed α β) : m.putAll [] = m := rfl

@[simp] theorem putAll_cons (m : Keyed α β) (p : α × β) (pairs : List (α × β)) :
    m.putAll (p :: pairs) = (m.put p.1 p.2).putAll pairs := rfl

theorem putAll_append (m : Keyed α β) (pairs pairs' : List (α × β)) :
    m.putAll (pairs ++ pairs') = (m.putAll pairs).putAll pairs' :=
  List.foldl_append

/-- The last of the values written under a key. -/
def lastUnder (key : α) (pairs : List (α × β)) : Option β :=
  (pairs.filter (·.1 = key)).getLast?.map Prod.snd

theorem lastUnder_append (key : α) (pairs pairs' : List (α × β)) :
    lastUnder key (pairs ++ pairs') = (lastUnder key pairs').or (lastUnder key pairs) := by
  simp only [lastUnder, List.filter_append, List.getLast?_append, Option.map_or]

theorem lastUnder_eq_none_iff {key : α} {pairs : List (α × β)} :
    lastUnder key pairs = none ↔ key ∉ pairs.map Prod.fst := by
  simp only [lastUnder, Option.map_eq_none_iff, List.getLast?_eq_none_iff,
    List.filter_eq_nil_iff, decide_eq_true_eq, List.mem_map, not_exists, not_and]

theorem mem_of_lastUnder_eq_some {key : α} {value : β} {pairs : List (α × β)}
    (h : lastUnder key pairs = some value) : (key, value) ∈ pairs := by
  obtain ⟨p, hl, rfl⟩ := Option.map_eq_some_iff.mp h
  obtain ⟨hm, hk⟩ := List.mem_filter.mp (List.mem_of_getLast? hl)
  have hk : p.1 = key := by simpa using hk
  exact hk ▸ hm

/-- If all values under a key are the same, then it does not matter which is the last. -/
theorem lastUnder_eq_some_iff {key : α} {value : β} {pairs : List (α × β)}
    (h : ∀ v ∈ pairs, ∀ w ∈ pairs, v.1 = w.1 → v.2 = w.2) :
    lastUnder key pairs = some value ↔ (key, value) ∈ pairs := by
  constructor
  · exact mem_of_lastUnder_eq_some
  · intro hv
    cases hl : lastUnder key pairs with
    | none => exact absurd (List.mem_map_of_mem hv) (lastUnder_eq_none_iff.mp hl)
    | some w => exact congrArg some (h _ (mem_of_lastUnder_eq_some hl) _ hv rfl)

/-- A run of writes leaves the last value written under a key, or else what was there before. -/
theorem get?_putAll (m : Keyed α β) (pairs : List (α × β)) (key : α) :
    (m.putAll pairs).get? key = (lastUnder key pairs).or (m.get? key) := by
  induction pairs using List.reverseRecOn with
  | nil => rfl
  | append_singleton pairs p ih =>
    rw [putAll_append, putAll_cons, putAll_nil, get?_put, lastUnder_append, Option.or_assoc, ← ih]
    by_cases h : key = p.1
    · simp [lastUnder, h]
    · simp [lastUnder, h, Ne.symm h]

end AnnotatedRoutes.Keyed
