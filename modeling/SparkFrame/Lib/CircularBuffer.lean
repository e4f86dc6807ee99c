import Mathlib.Data.List.OfFn
import Mathlib.Data.Nat.ModEq

/-!
# Circular buffers

* `CircularBuffer` : the operations of a buffer with a capacity, on values of a type of its own;
* `Documented` : what they do to the contents. A full buffer overwrites its oldest element;
* `CellRing` : cells in a circle, and `cellRing_documented` : **what they do is what is documented**.
-/

namespace SparkFrame.Lib

variable {α B : Type*}

structure CircularBuffer (α B : Type*) where
  new : Nat → B
  capacity : B → Nat
  contents : B → List α
  size : B → Nat
  full : B → Bool
  empty : B → Bool
  front : B → Option α
  push_back : B → α → B
  pop_front : B → B
  set_capacity : B → Nat → B

/-- **What is documented.** -/
structure CircularBuffer.Documented (c : CircularBuffer α B) : Prop where
  contents_new : ∀ n, c.contents (c.new n) = []
  capacity_new : ∀ n, c.capacity (c.new n) = n
  size_eq : ∀ b, c.size b = (c.contents b).length
  length_le : ∀ b, (c.contents b).length ≤ c.capacity b
  full_iff : ∀ b, c.full b = true ↔ c.size b = c.capacity b
  empty_iff : ∀ b, c.empty b = true ↔ c.contents b = []
  front_eq : ∀ b, c.front b = (c.contents b).head?
  /-- A full buffer overwrites its oldest element. -/
  contents_push_back : ∀ b a, c.contents (c.push_back b a) =
    if c.full b then (c.contents b ++ [a]).tail else c.contents b ++ [a]
  capacity_push_back : ∀ b a, c.capacity (c.push_back b a) = c.capacity b
  contents_pop_front : ∀ b, c.contents b ≠ [] → c.contents (c.pop_front b) = (c.contents b).tail
  capacity_pop_front : ∀ b, c.contents b ≠ [] → c.capacity (c.pop_front b) = c.capacity b
  /-- The contents are kept when there is room for them. -/
  contents_set_capacity : ∀ b n, (c.contents b).length ≤ n → c.contents (c.set_capacity b n) = c.contents b
  capacity_set_capacity : ∀ b n, c.capacity (c.set_capacity b n) = n

/-! ## Cells in a circle -/

/-- The element `i` is in the cell `i` places behind the head. -/
structure CellRing (α : Type*) where
  capacity : Nat
  cells : Nat → Option α
  head : Nat
  size : Nat
  size_le : size ≤ capacity
  written : ∀ i < size, (cells ((head + i) % capacity)).isSome

namespace CellRing

def contents (r : CellRing α) : List α :=
  List.ofFn fun i : Fin r.size => (r.cells ((r.head + i) % r.capacity)).get (r.written i i.isLt)

def empty (capacity : Nat) : CellRing α := ⟨capacity, fun _ => none, 0, 0, Nat.zero_le _, nofun⟩

/-- A ring with these contents, from the first cell on. -/
def ofList (l : List α) (capacity : Nat) (h : l.length ≤ capacity) : CellRing α where
  capacity := capacity
  cells i := l[i]?
  head := 0
  size := l.length
  size_le := h
  written i hi := by
    rw [Nat.zero_add, Nat.mod_eq_of_lt (by omega), List.getElem?_eq_getElem hi]
    rfl

@[simp] theorem length_contents (r : CellRing α) : r.contents.length = r.size := List.length_ofFn

theorem getElem?_contents (r : CellRing α) {i : Nat} (h : i < r.size) :
    r.contents[i]? = r.cells ((r.head + i) % r.capacity) := by
  rw [List.getElem?_eq_getElem (by rwa [length_contents])]
  simp [contents]

/-- Places less than a round apart are in different cells. -/
theorem cell_ne {head capacity i j : Nat} (hi : i < capacity) (hj : j < capacity) (h : i ≠ j) :
    (head + i) % capacity ≠ (head + j) % capacity := by
  intro heq
  have hmod : i ≡ j [MOD capacity] := Nat.ModEq.add_left_cancel' head heq
  rw [Nat.ModEq, Nat.mod_eq_of_lt hi, Nat.mod_eq_of_lt hj] at hmod
  exact h hmod

/-- The cells with the one behind the last element written. -/
def writeNext (r : CellRing α) (a : α) : Nat → Option α :=
  Function.update r.cells ((r.head + r.size) % r.capacity) (some a)

theorem writeNext_of_lt (r : CellRing α) (a : α) {i : Nat} (hi : i < r.size) (hlt : r.size < r.capacity) :
    r.writeNext a ((r.head + i) % r.capacity) = r.cells ((r.head + i) % r.capacity) :=
  Function.update_of_ne (cell_ne (by omega) hlt (by omega)) ..

theorem writeNext_self (r : CellRing α) (a : α) : r.writeNext a ((r.head + r.size) % r.capacity) = some a :=
  Function.update_self ..

theorem writeNext_of_full (r : CellRing α) (a : α) {i : Nat} (hi : i + 1 < r.size) (hfull : r.size = r.capacity) :
    r.writeNext a ((r.head + 1 + i) % r.capacity) = r.cells ((r.head + (i + 1)) % r.capacity) := by
  rw [show r.head + 1 + i = r.head + (i + 1) by omega, writeNext, hfull, Nat.add_mod_right, ← Nat.add_zero r.head,
    Nat.add_assoc, Nat.zero_add]
  exact Function.update_of_ne (cell_ne (by omega) (by omega) (by omega)) ..

def push_back (r : CellRing α) (a : α) : CellRing α :=
  if hcap : r.capacity = 0 then r
  else if hfull : r.size = r.capacity then
    { r with
      cells := r.writeNext a
      head := r.head + 1
      written := by
        intro i hi
        by_cases hlast : i + 1 = r.size
        · rw [show r.head + 1 + i = r.head + r.size by omega, writeNext_self]
          rfl
        · rw [writeNext_of_full r a (by omega) hfull]
          exact r.written (i + 1) (by omega) }
  else
    { r with
      cells := r.writeNext a
      size := r.size + 1
      size_le := by have := r.size_le; omega
      written := by
        have hlt : r.size < r.capacity := by have := r.size_le; omega
        intro i hi
        by_cases hlast : i = r.size
        · rw [hlast, writeNext_self]
          rfl
        · rw [writeNext_of_lt r a (by omega) hlt]
          exact r.written i (by omega) }

def pop_front (r : CellRing α) : CellRing α where
  capacity := r.capacity
  cells := r.cells
  head := r.head + 1
  size := r.size - 1
  size_le := by have := r.size_le; omega
  written i hi := by
    rw [show r.head + 1 + i = r.head + (i + 1) by omega]
    exact r.written (i + 1) (by omega)

/-- The contents are copied to new cells, the oldest first. -/
def set_capacity (r : CellRing α) (capacity : Nat) : CellRing α :=
  ofList (r.contents.take capacity) capacity (List.length_take_le ..)

theorem contents_ofList (l : List α) (capacity : Nat) (h : l.length ≤ capacity) :
    (ofList l capacity h).contents = l := by
  apply List.ext_getElem?
  intro i
  by_cases hi : i < l.length
  · rw [getElem?_contents _ (show i < (ofList l capacity h).size from hi)]
    show l[(0 + i) % capacity]? = l[i]?
    rw [Nat.zero_add, Nat.mod_eq_of_lt (by omega)]
  · have hsize : (ofList l capacity h).size = l.length := rfl
    rw [List.getElem?_eq_none (by rw [length_contents]; omega), List.getElem?_eq_none (by omega)]

theorem contents_push_back_of_lt (r : CellRing α) (a : α) (h : r.size < r.capacity) :
    (r.push_back a).contents = r.contents ++ [a] := by
  have hpush : (r.push_back a).size = r.size + 1 ∧ (r.push_back a).cells = r.writeNext a ∧
      (r.push_back a).head = r.head ∧ (r.push_back a).capacity = r.capacity := by
    unfold push_back
    rw [dif_neg (by omega), dif_neg (by omega)]
    exact ⟨rfl, rfl, rfl, rfl⟩
  obtain ⟨hsize, hcells, hhead, hcap⟩ := hpush
  apply List.ext_getElem?
  intro i
  by_cases hi : i < r.size + 1
  · rw [getElem?_contents _ (hsize ▸ hi), hcells, hhead, hcap]
    by_cases hlast : i = r.size
    · rw [hlast, writeNext_self, List.getElem?_append_right (by rw [length_contents]), length_contents,
        Nat.sub_self]
      rfl
    · rw [writeNext_of_lt r a (by omega) h, List.getElem?_append_left (by rw [length_contents]; omega),
        getElem?_contents _ (by omega)]
  · rw [List.getElem?_eq_none (by rw [length_contents, hsize]; omega),
      List.getElem?_eq_none (by rw [List.length_append, length_contents, List.length_singleton]; omega)]

/-- **A full ring** loses its oldest element. -/
theorem contents_push_back_of_full (r : CellRing α) (a : α) (h : r.size = r.capacity) :
    (r.push_back a).contents = (r.contents ++ [a]).tail := by
  by_cases hcap : r.capacity = 0
  · have hnil : r.contents = [] := List.length_eq_zero_iff.mp (by rw [length_contents]; omega)
    rw [push_back, dif_pos hcap, hnil]
    rfl
  have hpush : (r.push_back a).size = r.size ∧ (r.push_back a).cells = r.writeNext a ∧
      (r.push_back a).head = r.head + 1 ∧ (r.push_back a).capacity = r.capacity := by
    unfold push_back
    rw [dif_neg hcap, dif_pos h]
    exact ⟨rfl, rfl, rfl, rfl⟩
  obtain ⟨hsize, hcells, hhead, hcap'⟩ := hpush
  apply List.ext_getElem?
  intro i
  rw [List.getElem?_tail]
  by_cases hi : i < r.size
  · rw [getElem?_contents _ (hsize ▸ hi), hcells, hhead, hcap']
    by_cases hlast : i + 1 = r.size
    · rw [show r.head + 1 + i = r.head + r.size by omega, writeNext_self, hlast,
        List.getElem?_append_right (by rw [length_contents]), length_contents, Nat.sub_self]
      rfl
    · rw [writeNext_of_full r a (by omega) h, List.getElem?_append_left (by rw [length_contents]; omega),
        getElem?_contents _ (by omega)]
  · rw [List.getElem?_eq_none (by rw [length_contents, hsize]; omega),
      List.getElem?_eq_none (by rw [List.length_append, length_contents, List.length_singleton]; omega)]

theorem contents_pop_front (r : CellRing α) : r.pop_front.contents = r.contents.tail := by
  have hsize : r.pop_front.size = r.size - 1 := rfl
  apply List.ext_getElem?
  intro i
  rw [List.getElem?_tail]
  by_cases hi : i < r.size - 1
  · rw [getElem?_contents _ (hsize ▸ hi), getElem?_contents _ (by omega), pop_front,
      show r.head + 1 + i = r.head + (i + 1) by omega]
  · rw [List.getElem?_eq_none (by rw [length_contents, hsize]; omega),
      List.getElem?_eq_none (by rw [length_contents]; omega)]

theorem capacity_push_back (r : CellRing α) (a : α) : (r.push_back a).capacity = r.capacity := by
  unfold push_back
  split
  · rfl
  · split <;> rfl

end CellRing

/-- The operations on cells in a circle. -/
def cellRing : CircularBuffer α (CellRing α) where
  new := .empty
  capacity := CellRing.capacity
  contents := CellRing.contents
  size := CellRing.size
  full r := r.size = r.capacity
  empty r := r.size = 0
  front r := r.contents.head?
  push_back := CellRing.push_back
  pop_front := CellRing.pop_front
  set_capacity := CellRing.set_capacity

/-- **What they do is what is documented.** -/
theorem cellRing_documented : (cellRing : CircularBuffer α (CellRing α)).Documented where
  contents_new n := List.length_eq_zero_iff.mp (CellRing.length_contents _)
  capacity_new _ := rfl
  size_eq r := (CellRing.length_contents r).symm
  length_le r := (CellRing.length_contents r).le.trans r.size_le
  full_iff r := decide_eq_true_iff
  empty_iff r := by
    rw [← List.length_eq_zero_iff]
    exact decide_eq_true_iff.trans (CellRing.length_contents r ▸ Iff.rfl)
  front_eq _ := rfl
  contents_push_back r a := by
    by_cases h : r.size = r.capacity
    · exact (CellRing.contents_push_back_of_full r a h).trans (if_pos (decide_eq_true h)).symm
    · have hle := r.size_le
      exact (CellRing.contents_push_back_of_lt r a (by omega)).trans (if_neg (by simpa [cellRing] using h)).symm
  capacity_push_back := CellRing.capacity_push_back
  contents_pop_front r _ := CellRing.contents_pop_front r
  capacity_pop_front _ _ := rfl
  contents_set_capacity r n h := by
    rw [show cellRing.set_capacity r n = r.set_capacity n from rfl, CellRing.set_capacity]
    exact (CellRing.contents_ofList ..).trans (List.take_of_length_le h)
  capacity_set_capacity _ _ := rfl

end SparkFrame.Lib
