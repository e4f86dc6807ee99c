import SparkFrame.Cards.Choices
import SparkFrame.Lib.ColexSets

/-!
# `caculate_all_choices`, index by index

The loop of `Choices` as the code runs it: one index a round, set back to `-1` behind every new selection.
The counters are `int`s, and every access is checked.

* `allChoicesLoop`, `caculateAllChoices` : the code; `none` is an access outside of `vec_index`, or too
  few rounds;
* `isDrop_falses_trues` : where the test fails; `exists_drop` : the first index at which it holds;
* `allChoicesLoop_next`, `allChoicesLoop_last` : from one selection to the next, and from the last to the
  end;
* `allChoicesLoop_of_isChain` : the whole loop, with the rounds it takes; `caculateAllChoices_eq` : it
  appends what `Choices` says;
* `caculateAllChoices_spec` : **every set of indices once**, for a vector whose size is an `int`.
-/

namespace SparkFrame.Cards.AllChoices

open SparkFrame.Lib

variable {α : Type}

/-! ## The code -/

/-- `int total_size = arr.size();` -/
def totalSize (arr : List α) : Int := (arr.length : Int).bmod (2 ^ 32)

/-- `vec_index[i]`. -/
def at? (vecIndex : List Bool) : Int → Option Bool
  | .ofNat i => vecIndex[i]?
  | .negSucc _ => none

/-- The first `m` rounds of `vec_index[i] = 1;`. -/
def fillOnes (vecIndex : List Bool) : Nat → Option (List Bool)
  | 0 => some vecIndex
  | i + 1 => do
    let vecIndex ← fillOnes vecIndex i
    let _ ← at? vecIndex i
    return vecIndex.set i true

/-- `vec_index[i] == 1 && vec_index[i + 1] == 0`. -/
def isDrop (vecIndex : List Bool) (i : Int) : Option Bool := do
  if ← at? vecIndex i then return !(← at? vecIndex (i + 1)) else return false

/-- `std::swap(vec_index[i], vec_index[i + 1])`. -/
def swapNext (vecIndex : List Bool) (i : Int) : Option (List Bool) := do
  let a ← at? vecIndex i
  let b ← at? vecIndex (i + 1)
  return (vecIndex.set i.toNat b).set (i + 1).toNat a

/-- `sort(vec_index.begin(), vec_index.begin() + i, std::greater<int>())`. -/
def sortFront (vecIndex : List Bool) (i : Int) : List Bool :=
  (vecIndex.take i.toNat).insertionSort (fun a b => b ≤ a) ++ vecIndex.drop i.toNat

/-- The loop from `i` on, for fewer than `fuel` rounds. -/
def allChoicesLoop (arr : List α) (totalSize : Int) :
    Nat → Int → List Bool → List (List α) → Option (List (List α))
  | 0, _, _, _ => none
  | fuel + 1, i, vecIndex, allCombines =>
    if i < totalSize - 1 then do
      if ← isDrop vecIndex i then
        let vecIndex := sortFront (← swapNext vecIndex i) i
        allChoicesLoop arr totalSize fuel (-1 + 1) vecIndex (allCombines ++ [indexToElem arr vecIndex])
      else allChoicesLoop arr totalSize fuel (i + 1) vecIndex allCombines
    else some allCombines

/-- `caculate_all_choices` with what is in `all_combines` before. -/
def caculateAllChoices (fuel : Nat) (arr : List α) (n : Int) (allCombines : List (List α)) :
    Option (List (List α)) :=
  if totalSize arr < n then some allCombines
  else do
    let vecIndex ← fillOnes (List.replicate arr.length false) n.toNat
    allChoicesLoop arr (totalSize arr) fuel 0 vecIndex (allCombines ++ [indexToElem arr vecIndex])

/-! ## Where the loop stops -/

@[simp] theorem at?_natCast (v : List Bool) (i : Nat) : at? v i = v[i]? := rfl

theorem isDrop_eq_true_iff {v : List Bool} {i : Nat} :
    isDrop v i = some true ↔ v[i]? = some true ∧ v[i + 1]? = some false := by
  rw [isDrop, ← Nat.cast_succ, at?_natCast, at?_natCast]
  cases v[i]? with
  | none => simp
  | some a => cases a <;> cases v[i + 1]? <;> simp

theorem isDrop_eq_false {v : List Bool} {i : Nat} (hi : i + 1 < v.length)
    (h : ¬ (v[i]? = some true ∧ v[i + 1]? = some false)) : isDrop v i = some false := by
  have hsome : isDrop v i = some true ∨ isDrop v i = some false := by
    rw [isDrop, ← Nat.cast_succ, at?_natCast, at?_natCast, List.getElem?_eq_getElem hi,
      List.getElem?_eq_getElem (Nat.lt_of_succ_lt hi)]
    cases v[i] <;> cases v[i + 1] <;> simp
  exact hsome.resolve_left fun htrue => h (isDrop_eq_true_iff.mp htrue)

theorem isDrop_falses_trues {a b j : Nat} (hj : j + 1 < a + b) (tail : List Bool) :
    isDrop (List.replicate a false ++ List.replicate b true ++ tail) j = some false := by
  refine isDrop_eq_false (by simp; omega) ?_
  rintro ⟨hone, hzero⟩
  rw [List.getElem?_append_left (by simp; omega), List.getElem?_append] at hone hzero
  simp only [List.length_replicate, List.getElem?_replicate] at hone hzero
  split at hone
  · simp at hone
  · split at hzero
    · omega
    · simp at hzero

theorem swapNext_append (front rest : List Bool) (x y : Bool) :
    swapNext (front ++ x :: y :: rest) front.length = some (front ++ y :: x :: rest) := by
  have hx : (front ++ x :: y :: rest)[front.length]? = some x := by simp
  have hy : (front ++ x :: y :: rest)[front.length + 1]? = some y := by
    rw [List.getElem?_append_right (Nat.le_succ _)]
    simp
  rw [swapNext, ← Nat.cast_succ, at?_natCast, at?_natCast, hx, hy]
  simp

theorem sortFront_append (front rest : List Bool) :
    sortFront (front ++ rest) front.length = front.insertionSort (fun a b => b ≤ a) ++ rest := by
  rw [sortFront, Int.toNat_natCast, List.take_left, List.drop_left]

/-- The first index at which the test holds, and what the round makes of the vector there. -/
theorem exists_drop {v w : List Bool} (h : ColexNext v w) :
    ∃ d, d + 1 < v.length ∧ (∀ j < d, isDrop v j = some false) ∧ isDrop v d = some true ∧
      (swapNext v d).map (sortFront · d) = some w := by
  obtain ⟨a, b, rest, rfl, rfl⟩ := h
  have hfront : (List.replicate a false ++ List.replicate b true).length = a + b := by simp
  have hsplit : List.replicate a false ++ List.replicate (b + 1) true ++ false :: rest =
      (List.replicate a false ++ List.replicate b true) ++ true :: false :: rest := by
    simp [List.replicate_succ']
  refine ⟨a + b, by simp; omega, fun j hj => isDrop_falses_trues (by omega) _, ?_, ?_⟩
  · rw [hsplit]
    refine isDrop_eq_true_iff.mpr ⟨?_, ?_⟩
    · rw [List.getElem?_append_right (by omega), hfront, Nat.sub_self]
      rfl
    · rw [List.getElem?_append_right (by omega), hfront, Nat.add_sub_cancel_left]
      rfl
  · rw [hsplit, ← hfront, swapNext_append, Option.map_some, sortFront_append, sort_falses_trues]
    simp [List.replicate_succ']

/-! ## One selection after another -/

theorem allChoicesLoop_skip (arr : List α) {m d : Nat} (hd : d + 1 ≤ m) {v : List Bool}
    (hv : ∀ j < d, isDrop v j = some false) (fuel : Nat) (acc : List (List α)) :
    allChoicesLoop arr m (fuel + d) 0 v acc = allChoicesLoop arr m fuel d v acc := by
  induction d generalizing fuel with
  | zero => rfl
  | succ d ih =>
    have hround : ((d : Int) < (m : Int) - 1) := by omega
    rw [← Nat.add_assoc, Nat.add_right_comm, ih (by omega) fun j hj => hv j (by omega), allChoicesLoop,
      if_pos hround, hv d (by omega)]
    rfl

theorem allChoicesLoop_next (arr : List α) {v w : List Bool} (h : ColexNext v w) :
    ∃ d, d < v.length ∧ ∀ fuel acc, allChoicesLoop arr v.length (fuel + 1 + d) 0 v acc =
      allChoicesLoop arr v.length fuel 0 w (acc ++ [pick arr w]) := by
  obtain ⟨d, hd, hskip, hdrop, hw⟩ := exists_drop h
  obtain ⟨u, hu, hsort⟩ := Option.map_eq_some_iff.mp hw
  refine ⟨d, Nat.lt_of_succ_lt hd, fun fuel acc => ?_⟩
  have hround : ((d : Int) < (v.length : Int) - 1) := by omega
  rw [allChoicesLoop_skip arr hd.le hskip, allChoicesLoop, if_pos hround, hdrop, hu,
    ← indexToElem_eq_pick, ← hsort]
  rfl

theorem allChoicesLoop_last (arr : List α) {m k : Nat} (hk : k ≤ m) {fuel : Nat} (hf : m < fuel)
    (acc : List (List α)) : allChoicesLoop arr m fuel 0 (lastVec m k) acc = some acc := by
  cases m with
  | zero =>
    obtain ⟨fuel, rfl⟩ := Nat.exists_eq_succ_of_ne_zero (by omega : fuel ≠ 0)
    rfl
  | succ m =>
    obtain ⟨fuel, rfl⟩ : ∃ f, fuel = f + 1 + m := ⟨fuel - 1 - m, by omega⟩
    have hskip : ∀ j < m, isDrop (lastVec (m + 1) k) j = some false := fun j hj => by
      have htest := isDrop_falses_trues (a := m + 1 - k) (b := k) (j := j) (by omega) []
      rwa [List.append_nil] at htest
    rw [allChoicesLoop_skip arr (Nat.le_refl _) hskip, allChoicesLoop, if_neg (by simp)]

/-- **The whole loop**, in no more rounds than the selections times the size. -/
theorem allChoicesLoop_of_isChain (arr : List α) {m k : Nat} (hk : k ≤ m) (l : List (List Bool)) :
    ∀ (v : List Bool) (fuel : Nat) (acc : List (List α)), (v :: l).IsChain ColexNext →
      (∀ u ∈ v :: l, u.length = m) → (v :: l).getLast? = some (lastVec m k) →
      (l.length + 1) * m < fuel →
      allChoicesLoop arr m fuel 0 v acc = some (acc ++ l.map (pick arr)) := by
  induction l with
  | nil =>
    intro v fuel acc _ _ hlast hf
    obtain rfl : v = lastVec m k := Option.some.inj hlast
    rw [allChoicesLoop_last arr hk (by simpa using hf), List.map_nil, List.append_nil]
  | cons w l ih =>
    intro v fuel acc hc hlen hlast hf
    rw [List.isChain_cons_cons] at hc
    obtain ⟨d, hd, hnext⟩ := allChoicesLoop_next arr hc.1
    have hv : v.length = m := hlen v List.mem_cons_self
    rw [List.length_cons, Nat.succ_mul] at hf
    obtain ⟨fuel, rfl⟩ : ∃ f, fuel = f + 1 + d := ⟨fuel - 1 - d, by omega⟩
    rw [hv] at hnext
    rw [hnext, ih w fuel _ hc.2 (fun u hu => hlen u (List.mem_cons_of_mem v hu)) hlast (by omega),
      List.map_cons, List.append_assoc]
    rfl

theorem fillOnes_eq {m n : Nat} (h : n ≤ m) :
    fillOnes (List.replicate m false) n = some (firstVec m n) := by
  induction n with
  | zero => simp [fillOnes, firstVec]
  | succ n ih =>
    have hrest : List.replicate (m - n) false = false :: List.replicate (m - (n + 1)) false := by
      rw [← List.replicate_succ]
      congr 1
      omega
    have hlen : (List.replicate n true).length = n := List.length_replicate
    have hget : (List.replicate n true ++ false :: List.replicate (m - (n + 1)) false)[n]? =
        some false := by
      rw [List.getElem?_append_right hlen.le, hlen, Nat.sub_self]
      rfl
    have hset : (List.replicate n true ++ false :: List.replicate (m - (n + 1)) false).set n true =
        firstVec m (n + 1) := by
      rw [List.set_append_right _ _ hlen.le, hlen, Nat.sub_self, firstVec, List.replicate_succ',
        List.append_assoc]
      rfl
    rw [fillOnes, ih (by omega), firstVec, hrest, ← hset]
    change (at? _ n >>= fun _ => _) = _
    rw [at?_natCast, hget]
    rfl

/-! ## The selections -/

theorem totalSize_eq {arr : List α} (h : arr.length < 2 ^ 31) : totalSize arr = arr.length := by
  unfold totalSize
  exact Int.bmod_eq_of_le (by omega) (by omega)

theorem caculateAllChoices_of_lt {arr : List α} {n : Int} (h : totalSize arr < n) (fuel : Nat)
    (allCombines : List (List α)) : caculateAllChoices fuel arr n allCombines = some allCombines :=
  if_pos h

theorem caculateAllChoices_eq {arr : List α} (hsize : arr.length < 2 ^ 31) (n : Nat)
    (allCombines : List (List α)) {fuel : Nat} (hf : arr.length.choose n * arr.length < fuel) :
    caculateAllChoices fuel arr n allCombines =
      some (allCombines ++ Cards.caculateAllChoices arr n) := by
  rw [Cards.caculateAllChoices_eq]
  rcases Nat.lt_or_ge arr.length n with hlt | hle
  · rw [caculateAllChoices_of_lt (by rw [totalSize_eq hsize]; omega), colex_eq_nil hlt, List.map_nil,
      List.append_nil]
  · have hhead := head?_colex hle
    have hlast := getLast?_colex hle
    have hchain := colex_isChain arr.length n
    have hlen := length_colex arr.length n
    have hmem : ∀ u ∈ colex arr.length n, u.length = arr.length := fun u hu => (mem_colex.mp hu).1
    rcases hcx : colex arr.length n with _ | ⟨v, l⟩
    · simp [hcx] at hhead
    · rw [hcx] at hhead hlast hchain hlen hmem
      obtain rfl : v = firstVec arr.length n := by simpa using hhead
      rw [List.length_cons] at hlen
      have hloop := allChoicesLoop_of_isChain arr hle l _ fuel
        (allCombines ++ [pick arr (firstVec arr.length n)]) hchain hmem hlast (by rwa [hlen])
      rw [caculateAllChoices, if_neg (by rw [totalSize_eq hsize]; omega), Int.toNat_natCast,
        fillOnes_eq hle, totalSize_eq hsize, List.map_cons, List.append_cons]
      simp only [bind, Option.bind, indexToElem_eq_pick]
      exact hloop

/-- **Every set of `n` indices once**, with its elements in their order, if the size is an `int`. -/
theorem caculateAllChoices_spec (arr : List α) (hsize : arr.length < 2 ^ 31) (n : Nat)
    (allCombines : List (List α)) :
    ∃ sets : List (Finset (Fin arr.length)),
      sets.Nodup ∧ (∀ S, S ∈ sets ↔ S.card = n) ∧ sets.length = arr.length.choose n ∧
      (arr.length < n → sets = []) ∧
      ∃ fuel₀, ∀ fuel ≥ fuel₀, caculateAllChoices fuel arr n allCombines =
        some (allCombines ++ sets.map (elems arr)) := by
  refine ⟨colexSets arr.length n, nodup_colexSets _ _, fun _ => mem_colexSets, length_colexSets _ _, ?_,
    arr.length.choose n * arr.length + 1, ?_⟩
  · intro hlt
    rw [colexSets, colex_eq_nil hlt, List.map_nil]
  · intro fuel hf
    rw [caculateAllChoices_eq hsize n allCombines hf, Cards.caculateAllChoices_eq, map_pick_colex]

/-- Two of three elements. -/
theorem caculateAllChoices_spec_three :
    ∃ sets : List (Finset (Fin 3)),
      sets.Nodup ∧ (∀ S, S ∈ sets ↔ S.card = 2) ∧ sets.length = 3 ∧ (3 < 2 → sets = []) ∧
      ∃ fuel₀, ∀ fuel ≥ fuel₀, caculateAllChoices fuel [7, 8, 9] 2 [] =
        some ([] ++ sets.map (elems [7, 8, 9])) :=
  caculateAllChoices_spec [7, 8, 9] (by decide) 2 []

/-- The empty selection of a vector whose size is no `int` is not listed. -/
theorem not_caculateAllChoices_spec :
    ¬ ∀ (arr : List Unit) (n : Nat), n ≤ arr.length →
      ∃ fuel out, caculateAllChoices fuel arr n [] = some out ∧ out.length = arr.length.choose n := by
  intro h
  have hsize : totalSize (List.replicate (2 ^ 31) ()) = -2 ^ 31 := by
    unfold totalSize
    rw [List.length_replicate]
    decide
  obtain ⟨fuel, out, hout, hlen⟩ := h (List.replicate (2 ^ 31) ()) 0 (Nat.zero_le _)
  rw [caculateAllChoices_of_lt (by rw [hsize]; decide)] at hout
  rw [← Option.some.inj hout, Nat.choose_zero_right] at hlen
  exact absurd hlen (by decide)

end SparkFrame.Cards.AllChoices
