import SparkFrame.Cards.Card
import SparkFrame.Lib.Colex

/-!
# `caculate_all_choices`: every selection of `n` elements

The loop keeps a vector of zeros and ones, starts from the ones in front, and moves on by
exchanging the first `1 0` and sorting the part before it.

* `indexToElem`, `nextIndex`, `choicesLoop`, `caculateAllChoices` : the code;
* `nextIndex_eq_some`, `nextIndex_lastVec` : one round of the loop is one `ColexNext` step;
* `caculateAllChoices_eq` : the output is `pick` along `colex`, whatever the element type;
* `mem_selectCardCombine`, `mem_caculateAllCardsCombines` : which selections appear.
-/

namespace SparkFrame.Cards

open SparkFrame.Lib

variable {α : Type*}

/-! ## The code -/

/-- `index_to_elem`: the elements whose index holds a one. -/
def indexToElem (vecElem : List α) (vecIndex : List Bool) : List α :=
  ((vecElem.zip vecIndex).filter (·.2)).map (·.1)

/-- The first `i` with `vec_index[i] == 1 && vec_index[i + 1] == 0`. -/
def firstDrop : List Bool → Option Nat
  | true :: false :: _ => some 0
  | _ :: bs => (firstDrop bs).map (· + 1)
  | [] => none

/-- One round: exchange the two, sort what stands before them in descending order. -/
def nextIndex (v : List Bool) : Option (List Bool) :=
  (firstDrop v).map fun i =>
    (v.take i).insertionSort (fun a b => b ≤ a) ++ false :: true :: v.drop (i + 2)

/-- The `for` loop restarted from `i = -1` after every round, for at most `fuel` rounds. -/
def choicesLoop (arr : List α) : Nat → List Bool → List (List α)
  | 0, _ => []
  | fuel + 1, v =>
    match nextIndex v with
    | none => []
    | some w => indexToElem arr w :: choicesLoop arr fuel w

/-- `caculate_all_choices`: what it appends to `all_combines`. Every round raises the vector read as
a binary number, so `2 ^ arr.length` rounds always suffice (`caculateAllChoices_eq`). -/
def caculateAllChoices (arr : List α) (n : Nat) : List (List α) :=
  if arr.length < n then []
  else
    let v := List.replicate n true ++ List.replicate (arr.length - n) false
    indexToElem arr v :: choicesLoop arr (2 ^ arr.length) v

def selectCardCombine (allCards : List PokerCard) (selectN : Nat) : List (List PokerCard) :=
  caculateAllChoices allCards selectN

/-- `caculate_all_cards_combines`: the selections of every size from `minSelect` to `maxSelect`. -/
def caculateAllCardsCombines (allCards : List PokerCard) (minSelect maxSelect : Nat) :
    List (List PokerCard) :=
  (List.range' minSelect (maxSelect + 1 - minSelect)).flatMap (selectCardCombine allCards)

/-! ## One round is one step of the colexicographic order -/

theorem indexToElem_eq_pick (l : List α) (v : List Bool) : indexToElem l v = pick l v := by
  induction l generalizing v with
  | nil => simp [indexToElem]
  | cons x l ih => rcases v with _ | ⟨_ | _, v⟩ <;> simp_all [indexToElem]

theorem firstDrop_replicate (k : Nat) (rest : List Bool) :
    firstDrop (List.replicate (k + 1) true ++ false :: rest) = some k := by
  induction k with
  | zero => rfl
  | succ k ih => rw [List.replicate_succ, List.cons_append, List.replicate_succ] at *; simp_all [firstDrop]

theorem firstDrop_falses (a : Nat) (v : List Bool) :
    firstDrop (List.replicate a false ++ v) = (firstDrop v).map (· + a) := by
  induction a with
  | zero => simp
  | succ a ih =>
    rw [List.replicate_succ, List.cons_append, firstDrop, ih, Option.map_map]
    · rfl
    · simp

theorem firstDrop_trues (k : Nat) : firstDrop (List.replicate k true) = none := by
  induction k with
  | zero => rfl
  | succ k ih => cases k <;> simp_all [firstDrop, List.replicate_succ]

theorem sort_falses_trues (a b : Nat) :
    (List.replicate a false ++ List.replicate b true).insertionSort (fun a b => b ≤ a) =
      List.replicate b true ++ List.replicate a false := by
  have hp := List.perm_insertionSort (fun a b : Bool => b ≤ a)
    (List.replicate a false ++ List.replicate b true)
  have hs := List.pairwise_insertionSort (fun a b : Bool => b ≤ a)
    (List.replicate a false ++ List.replicate b true)
  refine (hp.trans List.perm_append_comm).eq_of_pairwise
    (fun x y _ _ h₁ h₂ => le_antisymm h₂ h₁) hs ?_
  simp [List.pairwise_append, List.pairwise_replicate]

theorem nextIndex_of_colexNext {v w : List Bool} (h : ColexNext v w) : nextIndex v = some w := by
  obtain ⟨a, b, rest, rfl, rfl⟩ := h
  have hd : firstDrop (List.replicate a false ++ List.replicate (b + 1) true ++ false :: rest) =
      some (b + a) := by
    rw [List.append_assoc, firstDrop_falses, firstDrop_replicate, Option.map_some]
  have hv : List.replicate a false ++ List.replicate (b + 1) true ++ false :: rest =
      (List.replicate a false ++ List.replicate b true) ++ true :: false :: rest := by
    simp [List.replicate_succ']
  have hl : (List.replicate a false ++ List.replicate b true).length = b + a := by
    simp [Nat.add_comm]
  rw [nextIndex, hd, Option.map_some, hv, List.take_left' hl, sort_falses_trues,
    ← List.drop_drop, List.drop_left' hl]
  simp [List.replicate_succ']

theorem nextIndex_lastVec (m k : Nat) : nextIndex (lastVec m k) = none := by
  simp [nextIndex, lastVec, firstDrop_falses, firstDrop_trues]

/-! ## The whole loop -/

/-- Along a chain of steps whose last vector has no successor the loop outputs the chain. -/
theorem choicesLoop_of_isChain (arr : List α) (l : List (List Bool)) :
    ∀ (v : List Bool) (fuel : Nat), (v :: l).IsChain ColexNext →
      (∀ w ∈ (v :: l).getLast?, nextIndex w = none) → l.length < fuel →
      choicesLoop arr fuel v = l.map (pick arr) := by
  induction l with
  | nil =>
    intro v fuel _ hlast hf
    obtain ⟨fuel, rfl⟩ := Nat.exists_eq_succ_of_ne_zero (by omega : fuel ≠ 0)
    simp [choicesLoop, hlast v rfl]
  | cons w l ih =>
    intro v fuel hc hlast hf
    obtain ⟨fuel, rfl⟩ := Nat.exists_eq_succ_of_ne_zero (by omega : fuel ≠ 0)
    rw [List.isChain_cons_cons] at hc
    have hrec := ih w fuel hc.2 (by simpa using hlast) (by simpa using hf)
    simp [choicesLoop, nextIndex_of_colexNext hc.1, hrec, indexToElem_eq_pick]

/-- **`caculate_all_choices` lists the selections of size `n` in colexicographic order.** -/
theorem caculateAllChoices_eq (arr : List α) (n : Nat) :
    caculateAllChoices arr n = (colex arr.length n).map (pick arr) := by
  unfold caculateAllChoices
  split
  · next h => rw [colex_eq_nil h, List.map_nil]
  · next h =>
    have hle : n ≤ arr.length := Nat.not_lt.mp h
    have hhead := head?_colex hle
    have hlast := getLast?_colex hle
    have hchain := colex_isChain arr.length n
    have hlen := length_colex arr.length n
    rcases hcx : colex arr.length n with _ | ⟨v, l⟩
    · simp [hcx] at hhead
    · rw [hcx] at hhead hlast hchain hlen
      obtain rfl : v = firstVec arr.length n := by simpa using hhead
      have hfuel : l.length < 2 ^ arr.length := by
        have := Nat.choose_le_two_pow arr.length n
        simp at hlen
        omega
      have hloop := choicesLoop_of_isChain arr l _ _ hchain
        (fun w hw => by
          rw [hlast] at hw
          obtain rfl := Option.mem_some_iff.mp hw
          exact nextIndex_lastVec _ _) hfuel
      simp only [List.map_cons, indexToElem_eq_pick]
      exact congrArg₂ List.cons rfl hloop

theorem mem_selectCardCombine {cards s : List PokerCard} {n : Nat} :
    s ∈ selectCardCombine cards n ↔ s.Sublist cards ∧ s.length = n := by
  rw [selectCardCombine, caculateAllChoices_eq, mem_map_pick_colex]

theorem mem_caculateAllCardsCombines {cards s : List PokerCard} {lo hi : Nat} :
    s ∈ caculateAllCardsCombines cards lo hi ↔
      s.Sublist cards ∧ lo ≤ s.length ∧ s.length ≤ hi := by
  simp only [caculateAllCardsCombines, List.mem_flatMap, List.mem_range'_1, mem_selectCardCombine]
  constructor
  · rintro ⟨n, hn, hs, rfl⟩
    exact ⟨hs, by omega, by omega⟩
  · rintro ⟨hs, h₁, h₂⟩
    exact ⟨s.length, by omega, hs, rfl⟩

end SparkFrame.Cards
