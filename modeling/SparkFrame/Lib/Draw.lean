import Mathlib.Data.List.Perm.Subperm
import Mathlib.Data.Stream.Init

/-!
# Drawing from a list

Random numbers come from a stream. What is drawn is overwritten with the last element of the list, and
the list gets shorter; the last element of all stays where it is.

* `removeAt`, `perm_removeAt` : nothing else is lost;
* `drawLoop` : draw `n` elements; a place that is not there ends the loop;
* `exists_drawLoop` : **a loop that draws no more than there is** draws just as much, and nothing more
  often than it is there; `drawLoop_all` : all of it is a permutation.
-/

namespace SparkFrame.Lib

variable {α : Type*}

/-- The element at `i` is overwritten with the last one, which goes. -/
def removeAt (l : List α) (i : Nat) : List α :=
  match l.getLast? with
  | none => []
  | some last => (l.set i last).dropLast

@[simp] theorem length_removeAt (l : List α) (i : Nat) : (removeAt l i).length = l.length - 1 := by
  unfold removeAt
  cases h : l.getLast? with
  | none => rw [List.getLast?_eq_none_iff.mp h]; rfl
  | some last => rw [List.length_dropLast, List.length_set]

theorem perm_removeAt {l : List α} {i : Nat} (h : i < l.length) : l.Perm (l[i] :: removeAt l i) := by
  have hne : l ≠ [] := List.ne_nil_of_length_pos (by omega)
  obtain ⟨front, last, rfl⟩ : ∃ front last, l = front ++ [last] :=
    ⟨l.dropLast, l.getLast hne, (List.dropLast_append_getLast hne).symm⟩
  rw [List.length_append, List.length_singleton] at h
  have hremove : removeAt (front ++ [last]) i = ((front ++ [last]).set i last).dropLast := by
    rw [removeAt, List.getLast?_append, List.getLast?_singleton]
    rfl
  rw [hremove]
  by_cases hi : i < front.length
  · rw [List.getElem_append_left hi, List.set_append_left _ _ hi, List.dropLast_concat]
    calc front ++ [last]
        _ |>.Perm (last :: front) := List.perm_append_singleton last front
        _ |>.Perm (last :: front[i] :: front.eraseIdx i) :=
          (List.getElem_cons_eraseIdx_perm hi).symm.cons last
        _ |>.Perm (front[i] :: last :: front.eraseIdx i) := .swap ..
        _ |>.Perm (front[i] :: front.set i last) := (List.set_perm_cons_eraseIdx hi last).symm.cons _
  · obtain rfl : i = front.length := by omega
    rw [List.getElem_concat_length rfl, List.set_append_right _ _ (Nat.le_refl _), Nat.sub_self,
      List.set_cons_zero, List.dropLast_concat]
    exact List.perm_append_singleton last front

/-- The loop, with what has been drawn before. There is no remainder by zero. -/
def drawLoop : Nat → List α → List α → Stream' Nat → Option (List α × Stream' Nat)
  | 0, _, drawn, rand => some (drawn, rand)
  | n + 1, l, drawn, rand =>
    if l.length = 0 then none
    else do
      let index := rand.head % l.length
      let a ← l[index]?
      drawLoop n (if 1 < l.length then removeAt l index else l) (drawn ++ [a]) rand.tail

/-- **A loop that draws no more than there is.** -/
theorem exists_drawLoop {n : Nat} {l : List α} (h : n ≤ l.length) (out : List α) (rand : Stream' Nat) :
    ∃ drawn rand', drawLoop n l out rand = some (out ++ drawn, rand') ∧ drawn.length = n ∧
      drawn.Subperm l := by
  induction n generalizing l out rand with
  | zero => exact ⟨[], rand, by rw [List.append_nil]; rfl, rfl, List.nil_subperm⟩
  | succ n ih =>
    have hindex : rand.head % l.length < l.length := Nat.mod_lt _ (by omega)
    have hperm := perm_removeAt hindex
    have hrest : n ≤ (if 1 < l.length then removeAt l (rand.head % l.length) else l).length := by
      split
      · rw [length_removeAt]
        omega
      · omega
    obtain ⟨drawn, rand', hloop, hlength, hsub⟩ := ih hrest (out ++ [l[rand.head % l.length]]) rand.tail
    refine ⟨l[rand.head % l.length] :: drawn, rand', ?_, by rw [List.length_cons, hlength], ?_⟩
    · rw [List.append_assoc] at hloop
      rw [drawLoop, if_neg (by omega)]
      simp only [List.getElem?_eq_getElem hindex]
      exact hloop
    · refine List.Subperm.trans ?_ hperm.symm.subperm
      rw [List.subperm_cons]
      by_cases hone : 1 < l.length
      · rwa [if_pos hone] at hsub
      · -- the last one of all was drawn
        rw [List.length_eq_zero_iff.mp (show drawn.length = 0 by omega)]
        exact List.nil_subperm

/-- **Drawing everything** is a permutation. -/
theorem drawLoop_all (l : List α) (rand : Stream' Nat) :
    ∃ drawn rand', drawLoop l.length l [] rand = some (drawn, rand') ∧ drawn.Perm l := by
  obtain ⟨drawn, rand', hloop, hlength, hsub⟩ := exists_drawLoop le_rfl [] rand
  exact ⟨drawn, rand', hloop, hsub.perm_of_length_le (Nat.le_of_eq hlength.symm)⟩

end SparkFrame.Lib
