import Mathlib.Data.List.Basic

/-!
# Data that is taken in block by block

* `absorb` : whole blocks are compressed into a state, and what is left is kept;
* `absorb_of_lt`, `absorb_block` : less than a block, and a block and what follows it;
* `length_absorb` : what is left is less than a block;
* `absorb_append` : **the data can be cut anywhere**: what is left goes in front of what comes next.
-/

namespace SparkFrame.Lib

variable {σ β : Type*}

/-- The state after the whole blocks of `data`, and what is left. -/
def absorb (compress : σ → List β → σ) (n : Nat) (s : σ) (data : List β) : σ × List β :=
  if n ≤ data.length ∧ 0 < n then absorb compress n (compress s (data.take n)) (data.drop n)
  else (s, data)
termination_by data.length
decreasing_by
  rw [List.length_drop]
  omega

variable (compress : σ → List β → σ) {n : Nat}

theorem absorb_of_lt (s : σ) {data : List β} (h : data.length < n) :
    absorb compress n s data = (s, data) := by
  rw [absorb, if_neg (by omega)]

theorem absorb_block (hn : 0 < n) (s : σ) {block : List β} (h : block.length = n) (data : List β) :
    absorb compress n s (block ++ data) = absorb compress n (compress s block) data := by
  rw [absorb, if_pos ⟨by rw [List.length_append]; omega, hn⟩, List.take_left' h, List.drop_left' h]

theorem absorb_cases (n : Nat) (data : List β) :
    data.length < n ∨ ∃ block rest, data = block ++ rest ∧ block.length = n := by
  by_cases h : data.length < n
  · exact Or.inl h
  · exact Or.inr ⟨data.take n, data.drop n, (List.take_append_drop n data).symm,
      by rw [List.length_take]; omega⟩

theorem length_absorb (hn : 0 < n) (s : σ) (data : List β) :
    (absorb compress n s data).2.length = data.length % n := by
  induction hd : data.length using Nat.strongRecOn generalizing s data with
  | _ d ih =>
    obtain hlt | ⟨block, rest, rfl, hblock⟩ := absorb_cases n data
    · rw [absorb_of_lt compress s hlt, ← hd, Nat.mod_eq_of_lt hlt]
    · rw [List.length_append, hblock] at hd
      rw [absorb_block compress hn s hblock, ih rest.length (by omega) _ rest rfl, ← hd,
        Nat.add_mod_left]

/-- **The data can be cut anywhere.** -/
theorem absorb_append (hn : 0 < n) (s : σ) (xs ys : List β) :
    absorb compress n s (xs ++ ys) =
      absorb compress n (absorb compress n s xs).1 ((absorb compress n s xs).2 ++ ys) := by
  induction hd : xs.length using Nat.strongRecOn generalizing s xs with
  | _ d ih =>
    obtain hlt | ⟨block, rest, rfl, hblock⟩ := absorb_cases n xs
    · rw [absorb_of_lt compress s hlt]
    · rw [List.length_append, hblock] at hd
      rw [List.append_assoc, absorb_block compress hn s hblock, absorb_block compress hn s hblock]
      exact ih rest.length (by omega) _ rest rfl

end SparkFrame.Lib
