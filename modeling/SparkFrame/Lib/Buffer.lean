import Mathlib.Data.List.Basic

/-!
# Buffers and what their accesses run into

A buffer is a list of cells. A cell that nothing has been written to holds nothing.

* `Fault` : an access outside a buffer or to a cell that has not been written, or a fault of the
  program's own;
* `alloc`, `read`, `write`, `copy`, `readMany`, `writeMany`, `readUntil` : the accesses;
* `read_map_some`, `readMany_eq`, `readMany_append` : reading inside a buffer;
* `write_append`, `writeMany_append` : writing at the end of what is in front;
* `read_written`, `write_written` : reading and writing in a part that has been written;
* `readUntil_append` : a string is read up to where it stops;
* `readUntil_ne_out_of_bounds` : **a string that ends in its buffer** is read inside it.
-/

namespace SparkFrame.Lib

inductive Fault (ε : Type*) where
  | out_of_bounds
  | uninitialised
  | raised (e : ε)
  deriving DecidableEq, Repr

/-- The value, or else the fault. -/
def orFault {α ε : Type*} (fault : Fault ε) : Option α → Except (Fault ε) α
  | none => .error fault
  | some a => .ok a

abbrev Buffer (α : Type*) := List (Option α)

namespace Buffer

variable {α ε : Type*}

/-! ## Accesses -/

def alloc (size : Nat) : Buffer α := List.replicate size none

def read (buf : Buffer α) (i : Nat) : Except (Fault ε) α :=
  match buf[i]? with
  | none => .error .out_of_bounds
  | some cell => orFault .uninitialised cell

def write (buf : Buffer α) (i : Nat) (c : α) : Except (Fault ε) (Buffer α) :=
  if i < buf.length then .ok (buf.set i (some c)) else .error .out_of_bounds

/-- `n` cells over the first ones of `des`, whether they have been written or not. -/
def copy (des src : Buffer α) (n : Nat) : Except (Fault ε) (Buffer α) :=
  if n ≤ des.length ∧ n ≤ src.length then .ok (src.take n ++ des.drop n) else .error .out_of_bounds

/-- `n` cells from `i` on. -/
def readMany (buf : Buffer α) : Nat → Nat → Except (Fault ε) (List α)
  | _, 0 => .ok []
  | i, n + 1 => do
    let c ← buf.read i
    let cs ← readMany buf (i + 1) n
    return c :: cs

def writeMany : Buffer α → Nat → List α → Except (Fault ε) (Buffer α)
  | buf, _, [] => .ok buf
  | buf, i, c :: cs => do
    let buf ← buf.write i c
    writeMany buf (i + 1) cs

/-- The cells in front of the first one that `stop` holds of. -/
def readUntil (stop : α → Bool) : Buffer α → Except (Fault ε) (List α)
  | [] => .error .out_of_bounds
  | none :: _ => .error .uninitialised
  | some c :: cells => if stop c then .ok [] else (readUntil stop cells).map (c :: ·)

/-! ## Reading -/

theorem read_of_lt {buf : Buffer α} {i : Nat} (h : i < buf.length) :
    buf.read (ε := ε) i = orFault .uninitialised buf[i] := by
  rw [read, List.getElem?_eq_getElem h]

theorem read_map_some (l : List α) {i : Nat} (h : i < l.length) :
    read (ε := ε) (l.map some) i = .ok l[i] := by
  rw [read_of_lt (by rwa [List.length_map]), List.getElem_map]
  rfl

theorem read_written (l : List α) (rest : Buffer α) {i : Nat} (h : i < l.length) :
    read (ε := ε) (l.map some ++ rest) i = .ok l[i] := by
  rw [read, List.getElem?_append_left (by rwa [List.length_map])]
  exact read_map_some l h

theorem readMany_eq {buf : Buffer α} {i n : Nat} (h : i + n ≤ buf.length) :
    buf.readMany (ε := ε) i n = orFault .uninitialised (((buf.drop i).take n).mapM id) := by
  induction n generalizing i with
  | zero => rfl
  | succ n ih =>
    have hi : i < buf.length := by omega
    rw [readMany, read_of_lt hi, ih (by omega), List.drop_eq_getElem_cons hi, List.take_succ_cons,
      List.mapM_cons]
    cases buf[i] with
    | none => rfl
    | some c => cases ((buf.drop (i + 1)).take n).mapM id <;> rfl

/-- Cells that have been written are read from where they are. -/
theorem readMany_append {pre post : Buffer α} {data : List α} {i n : Nat} (hi : pre.length = i)
    (hn : data.length = n) : readMany (ε := ε) (pre ++ (data.map some ++ post)) i n = .ok data := by
  have hdata : (data.map some).mapM id = some data := by
    induction data generalizing n with
    | nil => rfl
    | cons a data ih =>
      rw [List.map_cons, List.mapM_cons, ih rfl]
      rfl
  rw [readMany_eq (by rw [List.length_append, List.length_append, List.length_map]; omega),
    List.drop_left' hi, List.take_left' (by rwa [List.length_map]), hdata]
  rfl

/-! ## Writing -/

theorem write_append (pre : Buffer α) (x : Option α) (post : Buffer α) (c : α) {i : Nat}
    (hi : pre.length = i) : write (ε := ε) (pre ++ x :: post) i c = .ok (pre ++ some c :: post) := by
  subst hi
  rw [write, if_pos (by simp), List.set_append_right _ _ (Nat.le_refl _), Nat.sub_self]
  rfl

theorem writeMany_append (pre xs post : Buffer α) {cs : List α} (h : xs.length = cs.length) {i : Nat}
    (hi : pre.length = i) :
    writeMany (ε := ε) (pre ++ (xs ++ post)) i cs = .ok (pre ++ (cs.map some ++ post)) := by
  induction cs generalizing pre xs i with
  | nil =>
    rw [List.length_eq_zero_iff.mp h]
    rfl
  | cons c cs ih =>
    obtain ⟨x, xs, rfl⟩ := List.exists_cons_of_length_eq_add_one h
    have hpre : (pre ++ [some c]).length = i + 1 := by rw [List.length_append, hi]; rfl
    have hrest := ih (pre ++ [some c]) xs (Nat.succ.inj h) hpre
    rw [List.append_assoc, List.append_assoc] at hrest
    rw [writeMany, List.cons_append, write_append pre x _ c hi]
    exact hrest

theorem write_written (l : List α) (rest : Buffer α) {i : Nat} (h : i < l.length) (c : α) :
    write (ε := ε) (l.map some ++ rest) i c = .ok ((l.set i c).map some ++ rest) := by
  have hi : i < (l.map some).length := by rwa [List.length_map]
  rw [write, if_pos (by rw [List.length_append]; omega), List.set_append_left _ _ hi, List.map_set]

theorem copy_eq {des : Buffer α} {n : Nat} (hdes : n ≤ des.length) {l : Buffer α} (hl : l.length = n)
    (rest : Buffer α) : copy (ε := ε) des (l ++ rest) n = .ok (l ++ des.drop n) := by
  rw [copy, if_pos ⟨hdes, by rw [List.length_append]; omega⟩, List.take_left' hl]

@[simp] theorem read_cons_zero (c : α) (cells : Buffer α) :
    read (ε := ε) (some c :: cells) 0 = .ok c := rfl

@[simp] theorem write_cons_zero (x : Option α) (cells : Buffer α) (c : α) :
    write (ε := ε) (x :: cells) 0 c = .ok (some c :: cells) := write_append [] x cells c rfl

/-! ## Strings -/

/-- A string is read up to where it stops, whatever is behind. -/
theorem readUntil_append {stop : α → Bool} {s : List α} (hs : ∀ c ∈ s, stop c = false) {c : α}
    (hc : stop c = true) (cells : Buffer α) :
    readUntil (ε := ε) stop (s.map some ++ some c :: cells) = .ok s := by
  induction s with
  | nil => rw [List.map_nil, List.nil_append, readUntil, if_pos hc]
  | cons d s ih =>
    have hd : ¬ stop d = true := by rw [hs d List.mem_cons_self]; decide
    rw [List.map_cons, List.cons_append, readUntil, if_neg hd,
      ih fun e he => hs e (List.mem_cons_of_mem d he)]
    rfl

/-- **A string that ends in its buffer** is read inside it. -/
theorem readUntil_ne_out_of_bounds {stop : α → Bool} {buf : Buffer α} {c : α} (hc : some c ∈ buf)
    (hstop : stop c = true) : buf.readUntil (ε := ε) stop ≠ .error .out_of_bounds := by
  induction buf with
  | nil => exact absurd hc List.not_mem_nil
  | cons x cells ih =>
    cases x with
    | none => exact nofun
    | some d =>
      rw [readUntil]
      by_cases hd : stop d = true
      · rw [if_pos hd]
        exact nofun
      · have hmem : some c ∈ cells := (List.mem_cons.mp hc).resolve_left fun heq =>
          hd (Option.some.inj heq ▸ hstop)
        have hne := ih hmem
        rw [if_neg hd]
        intro heq
        cases hr : readUntil (ε := ε) stop cells with
        | ok s => rw [hr] at heq; exact absurd heq nofun
        | error f =>
          rw [hr] at heq
          exact hne (hr.trans heq)

end Buffer

end SparkFrame.Lib
