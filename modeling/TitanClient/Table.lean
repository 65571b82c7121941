import Mathlib.Data.List.AList

/-!
# Counting the values of an association list

`AList` is the model of a hash map wherever one is iterated over or drained: its entries come in an
order, and no two have the same key. Mathlib has its lookup lemmas; what is missing are the counts:
how many entries hold a value with a given property, and how inserting and erasing change that
number.

The order of the entries has no meaning. What depends on it in a program is stated for every
permutation of `entries`, as `perm_cons_erase` is.

## What is deliberately absent

There is no predicate on keys, since a key is looked up and not searched for, and there is no lemma
on the number of all entries: that is `AList.size`, or `count` for a property that all have.

## Main results

* `count_insert`, `count_insert_erase`, `count_erase` — how the counts change
* `count_pos_iff` — a count is positive exactly when some key has such a value
* `perm_cons_erase` — the entries are the one under a key and the rest
* `erase_of_lookup_eq_none`, `eq_empty_of_lookup`, `lookup_of_lookup_erase` — lookups that say all
-/

namespace Table

universe u v

variable {κ : Type u} {ν : Type v}

/-- The number of entries whose value satisfies `p`. -/
def count (m : AList fun _ : κ => ν) (p : ν → Bool) : ℕ := m.entries.countP fun e => p e.2

@[simp] theorem count_empty (p : ν → Bool) : count (∅ : AList fun _ : κ => ν) p = 0 := rfl

variable [DecidableEq κ]

theorem count_insert {m : AList fun _ : κ => ν} {k : κ} (h : k ∉ m) (v : ν) (p : ν → Bool) :
    count (m.insert k v) p = count m p + (p v).toNat := by
  rw [count, AList.entries_insert_of_notMem h, List.countP_cons, count]
  cases p v <;> rfl

/-- Inserting replaces the entry that the key had. -/
theorem count_insert_erase (m : AList fun _ : κ => ν) (k : κ) (v : ν) (p : ν → Bool) :
    count (m.insert k v) p = count (m.erase k) p + (p v).toNat := by
  rw [count, AList.entries_insert, List.countP_cons, count]
  cases p v <;> rfl

theorem erase_of_lookup_eq_none {m : AList fun _ : κ => ν} {k : κ} (h : m.lookup k = none) :
    m.erase k = m := by
  rw [AList.lookup_eq_none] at h
  exact AList.ext (List.kerase_of_notMem_keys h)

theorem eq_empty_of_lookup {m : AList fun _ : κ => ν} (h : ∀ k, m.lookup k = none) : m = ∅ := by
  refine AList.ext (List.eq_nil_iff_forall_not_mem.mpr fun e he => ?_)
  have hlook : m.lookup e.1 = some e.2 := AList.mem_lookup_iff.mpr he
  cases (h e.1).symm.trans hlook

theorem lookup_of_lookup_erase {m : AList fun _ : κ => ν} {k k' : κ} {v : ν}
    (h : (m.erase k).lookup k' = some v) : m.lookup k' = some v := by
  by_cases hk : k' = k
  · subst hk
    rw [AList.lookup_erase] at h
    cases h
  · rwa [AList.lookup_erase_ne hk] at h

/-- Erasing a key takes exactly its entry out. -/
theorem perm_cons_erase {m : AList fun _ : κ => ν} {k : κ} {v : ν} (h : m.lookup k = some v) :
    m.entries.Perm (⟨k, v⟩ :: (m.erase k).entries) := by
  have hmem : (⟨k, v⟩ : Sigma fun _ : κ => ν) ∈ m.entries := AList.mem_lookup_iff.mp h
  obtain ⟨w, l₁, l₂, -, hm, herase⟩ := List.exists_of_kerase (List.mem_keys_of_mem hmem)
  have hw : m.lookup k = some w := AList.mem_lookup_iff.mpr (by rw [hm]; simp)
  rw [h, Option.some.injEq] at hw
  change m.entries.Perm (⟨k, v⟩ :: List.kerase k m.entries)
  rw [herase, hm, hw]
  exact List.perm_middle

theorem count_erase {m : AList fun _ : κ => ν} {k : κ} {v : ν} (h : m.lookup k = some v)
    (p : ν → Bool) : count m p = count (m.erase k) p + (p v).toNat := by
  rw [count, (perm_cons_erase h).countP_eq, List.countP_cons, count]
  cases p v <;> rfl

theorem count_pos_iff {m : AList fun _ : κ => ν} {p : ν → Bool} :
    0 < count m p ↔ ∃ k v, m.lookup k = some v ∧ p v = true := by
  rw [count, List.countP_pos_iff]
  constructor
  · rintro ⟨⟨k, v⟩, hmem, hp⟩
    exact ⟨k, v, AList.mem_lookup_iff.mpr hmem, hp⟩
  · rintro ⟨k, v, hlook, hp⟩
    exact ⟨⟨k, v⟩, AList.mem_lookup_iff.mp hlook, hp⟩

end Table
