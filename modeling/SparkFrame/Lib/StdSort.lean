import Mathlib.Data.List.Sort

/-!
# Sorting by a comparison function

* `StdSort` : any sort that reorders a list so that no element compares less than an earlier one; which
  of several equivalent elements comes first is left to it;
* `StdSort.insertion` : one such sort, for a strict weak order.
-/

namespace SparkFrame.Lib

variable {α : Type*}

/-- An unstable sort by the comparison `less`. -/
structure StdSort (less : α → α → Bool) where
  sort : List α → List α
  perm : ∀ l, (sort l).Perm l
  sorted : ∀ l, (sort l).Pairwise fun a b => less b a = false

namespace StdSort

variable {less : α → α → Bool}

theorem mem_sort (s : StdSort less) {l : List α} {a : α} : a ∈ s.sort l ↔ a ∈ l := (s.perm l).mem_iff

theorem sort_ne_nil (s : StdSort less) {l : List α} (h : l ≠ []) : s.sort l ≠ [] :=
  fun hnil => h (List.Perm.nil_eq (hnil ▸ s.perm l)).symm

/-- Insertion sort, which keeps equivalent elements in their order. -/
def insertion (total : ∀ a b, less b a = false ∨ less a b = false)
    (trans : ∀ a b c, less b a = false → less c b = false → less c a = false) : StdSort less where
  sort l := l.insertionSort fun a b => less b a = false
  perm l := List.perm_insertionSort _ l
  sorted l :=
    have : Std.Total fun a b : α => less b a = false := ⟨total⟩
    have : IsTrans α fun a b => less b a = false := ⟨trans⟩
    List.pairwise_insertionSort _ l

end StdSort

end SparkFrame.Lib
