import Mathlib.Data.List.Chain
import Mathlib.Data.List.Infix
import Mathlib.Data.Nat.Choose.Basic

/-!
# Enumerating the `k`-element selections of a list

A selection of a list is a vector of booleans of its length.

* `pick` : the elements a vector selects; always a sublist (`pick_sublist`), and every sublist is
  picked by some vector;
* `colex m k` : the vectors of length `m` with `k` ones, in colexicographic order;
* `ColexNext` : one vector follows another: the first one that has a zero behind it moves up, the
  ones in front of it return to the start;
* `colex_isChain`, `head?_colex`, `getLast?_colex` : the enumeration is the orbit of `ColexNext`
  from the ones in front to the ones at the end;
* `mem_map_pick_colex` : picking along `colex` lists exactly the sublists of length `k`.
-/

namespace SparkFrame.Lib

variable {α : Type*}

/-! ## Picking by a vector -/

def pick : List α → List Bool → List α
  | x :: xs, true :: bs => x :: pick xs bs
  | _ :: xs, false :: bs => pick xs bs
  | _, _ => []

@[simp] theorem pick_nil_left (bs : List Bool) : pick ([] : List α) bs = [] := by simp [pick]

@[simp] theorem pick_nil_right (l : List α) : pick l [] = [] := by cases l <;> rfl

@[simp] theorem pick_cons_true (x : α) (l : List α) (bs : List Bool) :
    pick (x :: l) (true :: bs) = x :: pick l bs := rfl

@[simp] theorem pick_cons_false (x : α) (l : List α) (bs : List Bool) :
    pick (x :: l) (false :: bs) = pick l bs := rfl

theorem pick_sublist (l : List α) (bs : List Bool) : (pick l bs).Sublist l := by
  induction l generalizing bs with
  | nil => simp
  | cons x l ih =>
    rcases bs with _ | ⟨_ | _, bs⟩
    · simp
    · exact (ih bs).cons x
    · exact (ih bs).cons_cons x

theorem length_pick (l : List α) (bs : List Bool) (h : bs.length = l.length) :
    (pick l bs).length = bs.count true := by
  induction l generalizing bs with
  | nil => simp [List.length_eq_zero_iff.mp h]
  | cons x l ih =>
    rcases bs with _ | ⟨_ | _, bs⟩
    · simp at h
    · simpa using ih bs (by simpa using h)
    · simpa using ih bs (by simpa using h)

theorem exists_pick_of_sublist {s l : List α} (h : s.Sublist l) :
    ∃ bs : List Bool, bs.length = l.length ∧ pick l bs = s := by
  induction h with
  | slnil => exact ⟨[], rfl, rfl⟩
  | cons x _ ih =>
    obtain ⟨bs, hl, rfl⟩ := ih
    exact ⟨false :: bs, by simp [hl], rfl⟩
  | cons_cons x _ ih =>
    obtain ⟨bs, hl, rfl⟩ := ih
    exact ⟨true :: bs, by simp [hl], rfl⟩

/-! ## Colexicographic order -/

def colex : Nat → Nat → List (List Bool)
  | 0, 0 => [[]]
  | 0, _ + 1 => []
  | m + 1, 0 => (colex m 0).map (· ++ [false])
  | m + 1, k + 1 => (colex m (k + 1)).map (· ++ [false]) ++ (colex m k).map (· ++ [true])

/-- All ones in front. -/
def firstVec (m k : Nat) : List Bool := List.replicate k true ++ List.replicate (m - k) false

/-- All ones at the end. -/
def lastVec (m k : Nat) : List Bool := List.replicate (m - k) false ++ List.replicate k true

def ColexNext (v w : List Bool) : Prop :=
  ∃ a b rest, v = List.replicate a false ++ List.replicate (b + 1) true ++ false :: rest ∧
    w = List.replicate b true ++ List.replicate (a + 1) false ++ true :: rest

theorem ColexNext.snoc {v w : List Bool} (h : ColexNext v w) (b : Bool) :
    ColexNext (v ++ [b]) (w ++ [b]) := by
  obtain ⟨a, k, rest, rfl, rfl⟩ := h
  exact ⟨a, k, rest ++ [b], by simp, by simp⟩

theorem colex_eq_nil {m k : Nat} (h : m < k) : colex m k = [] := by
  induction m generalizing k with
  | zero =>
    obtain ⟨k, rfl⟩ := Nat.exists_eq_succ_of_ne_zero (by omega : k ≠ 0)
    rfl
  | succ m ih =>
    obtain ⟨k, rfl⟩ := Nat.exists_eq_succ_of_ne_zero (by omega : k ≠ 0)
    simp [colex, ih (show m < k + 1 by omega), ih (show m < k by omega)]

theorem length_colex (m k : Nat) : (colex m k).length = m.choose k := by
  induction m generalizing k with
  | zero => cases k <;> simp [colex]
  | succ m ih => cases k <;> simp [colex, ih, Nat.choose_succ_succ, Nat.add_comm]

theorem colex_zero (m : Nat) : colex m 0 = [List.replicate m false] := by
  induction m with
  | zero => rfl
  | succ m ih => simp [colex, ih, List.replicate_succ']

theorem head?_colex {m k : Nat} (h : k ≤ m) : (colex m k).head? = some (firstVec m k) := by
  induction m generalizing k with
  | zero =>
    obtain rfl : k = 0 := by omega
    rfl
  | succ m ih =>
    cases k with
    | zero => simp [colex_zero, firstVec]
    | succ k =>
      rcases Nat.lt_or_ge m (k + 1) with hlt | hge
      · obtain rfl : k = m := by omega
        simp [colex, colex_eq_nil hlt, ih (Nat.le_refl k), firstVec, List.replicate_succ']
      · have hs : m + 1 - (k + 1) = (m - (k + 1)) + 1 := by omega
        simp [colex, ih hge, firstVec, hs, List.replicate_succ']

theorem getLast?_colex {m k : Nat} (h : k ≤ m) : (colex m k).getLast? = some (lastVec m k) := by
  induction m generalizing k with
  | zero =>
    obtain rfl : k = 0 := by omega
    rfl
  | succ m ih =>
    cases k with
    | zero => simp [colex_zero, lastVec]
    | succ k =>
      simp [colex, List.getLast?_append, ih (show k ≤ m by omega), lastVec, List.replicate_succ']

theorem colex_isChain (m k : Nat) : (colex m k).IsChain ColexNext := by
  induction m generalizing k with
  | zero => cases k <;> simp [colex]
  | succ m ih =>
    have hmap : ∀ k b, ((colex m k).map (· ++ [b])).IsChain ColexNext := fun k b =>
      (List.isChain_map _).mpr ((ih k).imp fun _ _ h => h.snoc b)
    cases k with
    | zero => exact hmap 0 false
    | succ k =>
      refine List.IsChain.append (hmap _ _) (hmap _ _) ?_
      intro v hv w hw
      rcases Nat.lt_or_ge m (k + 1) with hlt | hge
      · simp [colex_eq_nil hlt] at hv
      · rw [List.getLast?_map, getLast?_colex hge] at hv
        rw [List.head?_map, head?_colex (show k ≤ m by omega)] at hw
        simp only [Option.map_some, Option.mem_def, Option.some.injEq] at hv hw
        refine ⟨m - (k + 1), k, [], by simp [← hv, lastVec], ?_⟩
        rw [← hw, firstVec, show m - k = m - (k + 1) + 1 by omega]

theorem mem_colex {m k : Nat} {v : List Bool} :
    v ∈ colex m k ↔ v.length = m ∧ v.count true = k := by
  induction m generalizing k v with
  | zero => cases k <;> simp +contextual [colex, List.length_eq_zero_iff]
  | succ m ih =>
    rcases List.eq_nil_or_concat v with rfl | ⟨v, b, rfl⟩
    · cases k <;> simp [colex]
    · cases k <;> cases b <;> simp [colex, ih]

theorem mem_map_pick_colex {l s : List α} {k : Nat} :
    s ∈ (colex l.length k).map (pick l) ↔ s.Sublist l ∧ s.length = k := by
  simp only [List.mem_map, mem_colex]
  constructor
  · rintro ⟨v, ⟨hl, hk⟩, rfl⟩
    exact ⟨pick_sublist l v, by rw [length_pick l v hl, hk]⟩
  · rintro ⟨hs, hk⟩
    obtain ⟨v, hl, rfl⟩ := exists_pick_of_sublist hs
    exact ⟨v, ⟨hl, by rw [← length_pick l v hl, hk]⟩, rfl⟩

end SparkFrame.Lib
