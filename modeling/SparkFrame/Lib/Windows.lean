import Mathlib.Data.List.Sort
import SparkFrame.Lib.Gaps

/-!
# Numbers in a row

* `eq_range'_of_perm` : in ascending order, numbers in a row are a range;
* `exists_append_perm_range'_iff` : numbers to which others can be added to make a row;
* `exists_window_iff` : an ascending list lies in a row of `n` numbers out of `1, .., m` exactly when
  it leaves no more gaps than the row has numbers to spare.
-/

namespace SparkFrame.Lib

theorem eq_range'_of_perm {l : List ℕ} {lo n : ℕ} (hs : l.Pairwise (· ≤ ·))
    (h : l.Perm (List.range' lo n)) : l = List.range' lo n :=
  h.eq_of_pairwise (fun _ _ _ _ => le_antisymm) hs (List.pairwise_le_range' 1)

/-- A list can be filled up to a row exactly when its numbers are different and in it. -/
theorem exists_append_perm_range'_iff {l : List ℕ} {lo n : ℕ} :
    (∃ free, (l ++ free).Perm (List.range' lo n)) ↔
      l.Nodup ∧ ∀ x ∈ l, lo ≤ x ∧ x < lo + n := by
  constructor
  · rintro ⟨free, h⟩
    have hnodup := h.nodup_iff.mpr List.nodup_range'
    refine ⟨(List.nodup_append.mp hnodup).1, fun x hx => ?_⟩
    exact List.mem_range'_1.mp (h.subset (List.mem_append_left _ hx))
  · rintro ⟨hnodup, hin⟩
    have hsub : l.Subperm (List.range' lo n) :=
      List.subperm_of_subset hnodup fun x hx => List.mem_range'_1.mpr (hin x hx)
    obtain ⟨l', hperm, hsublist⟩ := hsub
    obtain ⟨free, h⟩ := hsublist.exists_perm_append
    exact ⟨free, (hperm.symm.append_right free).trans h.symm⟩

/-- **Windows.** -/
theorem exists_window_iff {l : List ℕ} {m n : ℕ} (hs : l.Pairwise (· < ·))
    (hin : ∀ x ∈ l, 1 ≤ x ∧ x ≤ m) (hn : n ≤ m) :
    (∃ lo, 1 ≤ lo ∧ lo + n ≤ m + 1 ∧ ∀ x ∈ l, lo ≤ x ∧ x < lo + n) ↔ gapSum l + l.length ≤ n := by
  rcases l with _ | ⟨a, l⟩
  · refine iff_of_true ⟨1, le_rfl, by omega, by simp⟩ (by simp)
  have hlast : (a :: l).getLast (List.cons_ne_nil a l) ∈ a :: l := List.getLast_mem _
  have hsorted : (a :: l).Pairwise (· ≤ ·) := hs.imp le_of_lt
  have hle : ∀ x ∈ a :: l, a ≤ x ∧ x ≤ (a :: l).getLast (List.cons_ne_nil a l) := by
    intro x hx
    refine ⟨?_, hsorted.rel_getLast hx⟩
    rcases List.mem_cons.mp hx with rfl | hx
    · exact le_rfl
    · exact (List.pairwise_cons.mp hsorted).1 x hx
  have ha := hin a List.mem_cons_self
  have hb := hin _ hlast
  have hab := (hle a List.mem_cons_self).2
  rw [gapSum_eq_last_sub_head, List.length_cons]
  constructor
  · rintro ⟨lo, -, -, hwin⟩
    have hlo := hwin a List.mem_cons_self
    have hhi := hwin _ hlast
    omega
  · intro hfit
    refine ⟨min a (m + 1 - n), by omega, by omega, fun x hx => ?_⟩
    have hx' := hle x hx
    omega

end SparkFrame.Lib
