import Mathlib.Data.Finset.Card
import Mathlib.Data.Fintype.Basic
import Mathlib.Data.List.FinRange
import SparkFrame.Lib.Colex

/-!
# Selections as sets of indices

* `support m v` : the indices at which a vector has a one; `indicator S` : the vector of a set;
* `elems l S` : the elements of `l` at the indices of `S`, in their order; `pick_indicator` : that is
  what the vector of `S` picks;
* `colexSets m k` : the sets of the vectors of `colex`; `nodup_colexSets`, `mem_colexSets` : **every set
  of `k` indices once**;
* `map_pick_colex` : picking along `colex` is listing the elements of these sets.
-/

namespace SparkFrame.Lib

variable {α β : Type*} {m : Nat}

/-! ## Vectors and sets -/

def support (m : Nat) (v : List Bool) : Finset (Fin m) :=
  Finset.univ.filter fun i => v[i.val]? = some true

def indicator (S : Finset (Fin m)) : List Bool := (List.finRange m).map fun i => decide (i ∈ S)

@[simp] theorem length_indicator (S : Finset (Fin m)) : (indicator S).length = m := by simp [indicator]

theorem getElem?_indicator (S : Finset (Fin m)) (i : Fin m) :
    (indicator S)[i.val]? = some (decide (i ∈ S)) := by simp [indicator]

theorem support_indicator (S : Finset (Fin m)) : support m (indicator S) = S := by
  ext i
  rw [support, Finset.mem_filter_univ, getElem?_indicator, Option.some.injEq, decide_eq_true_iff]

theorem indicator_support {v : List Bool} (hv : v.length = m) : indicator (support m v) = v := by
  refine List.ext_getElem (by rw [length_indicator, hv]) fun j hj hjv => ?_
  simp [indicator, support, List.getElem?_eq_getElem hjv]

/-! ## What a set selects -/

theorem pick_map (f : α → β) (l : List α) (v : List Bool) : pick (l.map f) v = (pick l v).map f := by
  induction l generalizing v with
  | nil => simp
  | cons x l ih => rcases v with _ | ⟨_ | _, v⟩ <;> simp [ih]

theorem pick_map_eq_filter (p : α → Bool) (l : List α) : pick l (l.map p) = l.filter p := by
  induction l with
  | nil => rfl
  | cons x l ih =>
    rw [List.map_cons, List.filter_cons]
    cases p x with
    | false => exact ih
    | true => exact congrArg (x :: ·) ih

/-- The elements at the indices of `S`, in their order. -/
def elems (l : List α) (S : Finset (Fin l.length)) : List α :=
  ((List.finRange l.length).filter fun i => decide (i ∈ S)).map l.get

theorem pick_indicator (l : List α) (S : Finset (Fin l.length)) : pick l (indicator S) = elems l S := by
  have hl : (List.finRange l.length).map l.get = l := List.map_get_finRange l
  calc pick l (indicator S)
      = pick ((List.finRange l.length).map l.get) (indicator S) := by rw [hl]
    _ = (pick (List.finRange l.length) (indicator S)).map l.get := pick_map _ _ _
    _ = elems l S := by rw [indicator, pick_map_eq_filter, elems]

theorem count_indicator (S : Finset (Fin m)) : (indicator S).count true = S.card := by
  have hnodup := (List.nodup_finRange m).filter fun i => decide (i ∈ S)
  have hset : ((List.finRange m).filter fun i => decide (i ∈ S)).toFinset = S := by
    ext i
    simp
  rw [← length_pick (List.finRange m) (indicator S) (by simp), indicator, pick_map_eq_filter,
    ← List.toFinset_card_of_nodup hnodup, hset]

/-! ## The enumeration -/

theorem nodup_colex (m k : Nat) : (colex m k).Nodup := by
  induction m generalizing k with
  | zero => cases k <;> simp [colex]
  | succ m ih =>
    have hmap : ∀ k b, ((colex m k).map (· ++ [b])).Nodup := fun k b =>
      (ih k).map (List.append_left_injective [b])
    cases k with
    | zero => exact hmap 0 false
    | succ k =>
      refine (hmap _ _).append (hmap _ _) ?_
      intro v hv hv'
      obtain ⟨u, -, rfl⟩ := List.mem_map.mp hv
      obtain ⟨w, -, hw⟩ := List.mem_map.mp hv'
      simp at hw

def colexSets (m k : Nat) : List (Finset (Fin m)) := (colex m k).map (support m)

theorem length_colexSets (m k : Nat) : (colexSets m k).length = m.choose k := by
  rw [colexSets, List.length_map, length_colex]

theorem map_indicator_colexSets (m k : Nat) : (colexSets m k).map indicator = colex m k := by
  rw [colexSets, List.map_map]
  exact (List.map_congr_left fun v hv => indicator_support (mem_colex.mp hv).1).trans (List.map_id _)

theorem nodup_colexSets (m k : Nat) : (colexSets m k).Nodup :=
  List.Nodup.of_map indicator (by rw [map_indicator_colexSets]; exact nodup_colex m k)

theorem mem_colexSets {k : Nat} {S : Finset (Fin m)} : S ∈ colexSets m k ↔ S.card = k := by
  rw [colexSets, List.mem_map]
  constructor
  · rintro ⟨v, hv, rfl⟩
    obtain ⟨hl, hk⟩ := mem_colex.mp hv
    rw [← count_indicator, indicator_support hl, hk]
  · intro hS
    exact ⟨indicator S, mem_colex.mpr ⟨length_indicator S, by rw [count_indicator, hS]⟩,
      support_indicator S⟩

theorem map_pick_colex (l : List α) (k : Nat) :
    (colex l.length k).map (pick l) = (colexSets l.length k).map (elems l) := by
  rw [← map_indicator_colexSets, List.map_map]
  exact List.map_congr_left fun S _ => pick_indicator l S

end SparkFrame.Lib
