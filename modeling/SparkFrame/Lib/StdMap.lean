import Mathlib.Data.List.AList

/-!
# The containers `map` and `unordered_map`

An association list without duplicate keys, with the operations that `AList` lacks or does
differently.

* `StdMap.try_insert` : `insert`, which leaves an entry that is already there;
* `StdMap.keep` : a loop over all entries that erases some;
* `StdMap.size` : the number of entries, with a lemma for each operation.
-/

namespace SparkFrame.Lib

universe u v

/-- A map from `K` to `V`. -/
abbrev StdMap (K : Type u) (V : Type v) := AList fun _ : K => V

namespace StdMap

variable {K : Type u} {V : Type v} [DecidableEq K]

def size (m : StdMap K V) : Nat := m.entries.length

/-- `insert({k, v})`: nothing changes when there is an entry for `k`. -/
def try_insert (k : K) (v : V) (m : StdMap K V) : StdMap K V :=
  if k ∈ m then m else m.insert k v

/-- The entries whose values pass a test. -/
def keep (p : V → Bool) (m : StdMap K V) : StdMap K V :=
  ⟨m.entries.filter fun e => p e.2, m.nodupKeys.sublist List.filter_sublist⟩

theorem mem_of_lookup {m : StdMap K V} {k : K} {v : V} (h : m.lookup k = some v) : k ∈ m :=
  AList.lookup_isSome.1 (Option.isSome_of_eq_some h)

theorem lookup_try_insert_self {m : StdMap K V} {k : K} (h : k ∉ m) (v : V) :
    (try_insert k v m).lookup k = some v := by
  rw [try_insert, if_neg h, AList.lookup_insert]

theorem lookup_try_insert_of_ne {m : StdMap K V} {k j : K} (h : j ≠ k) (v : V) :
    (try_insert k v m).lookup j = m.lookup j := by
  unfold try_insert
  split
  · rfl
  · exact AList.lookup_insert_ne h

theorem lookup_try_insert (k : K) (v : V) (m : StdMap K V) (j : K) :
    (try_insert k v m).lookup j = (m.lookup j).or (if k = j then some v else none) := by
  by_cases hj : j = k
  · subst hj
    rw [if_pos rfl]
    by_cases h : j ∈ m
    · obtain ⟨w, hw⟩ := Option.isSome_iff_exists.1 (AList.lookup_isSome.2 h)
      rw [try_insert, if_pos h, hw]
      rfl
    · rw [lookup_try_insert_self h, AList.lookup_eq_none.2 h]
      rfl
  · rw [lookup_try_insert_of_ne hj, if_neg (Ne.symm hj), Option.or_none]

theorem lookup_keep {p : V → Bool} {m : StdMap K V} {k : K} {v : V} :
    (keep p m).lookup k = some v ↔ m.lookup k = some v ∧ p v = true := by
  rw [← Option.mem_def, AList.mem_lookup_iff, ← Option.mem_def, AList.mem_lookup_iff, keep,
    List.mem_filter]

omit [DecidableEq K] in
@[simp] theorem size_empty : size (∅ : StdMap K V) = 0 := rfl

theorem size_insert_of_notMem {m : StdMap K V} {k : K} (h : k ∉ m) (v : V) :
    size (m.insert k v) = size m + 1 := by
  rw [size, AList.entries_insert_of_notMem h, List.length_cons, size]

theorem size_try_insert_le (k : K) (v : V) (m : StdMap K V) :
    size (try_insert k v m) ≤ size m + 1 := by
  unfold try_insert
  split
  · exact Nat.le_succ _
  · next h => rw [size_insert_of_notMem h]

theorem size_erase_le (k : K) (m : StdMap K V) : size (m.erase k) ≤ size m :=
  (List.kerase_sublist k m.entries).length_le

omit [DecidableEq K] in
theorem size_keep_le (p : V → Bool) (m : StdMap K V) : size (keep p m) ≤ size m :=
  List.length_filter_le ..

theorem erase_try_insert_empty (k : K) (v : V) :
    (try_insert k v (∅ : StdMap K V)).erase k = ∅ := by
  apply AList.ext
  rw [try_insert, if_neg (AList.notMem_empty k)]
  show List.kerase k (List.kinsert (β := fun _ => V) k v []) = []
  simp [List.kinsert]

end StdMap

end SparkFrame.Lib
