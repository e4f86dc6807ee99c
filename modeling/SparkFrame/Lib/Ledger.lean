import Mathlib.Algebra.Ring.Int.Defs
import Mathlib.Data.List.InsertIdx

/-!
# Entries that credit each other

A ledger is a list of entries. An entry has a key that stays and an amount that is added to.

* `due f es` : the sum of `f` over the keys of the entries;
* `scan_eq` : a scan that credits `it` and one entry after another, and stops where nothing is left to
  credit;
* `credited low high` : a round for the entry `it`, in which `it` and each other entry get the same
  amount: `low` with an entry in front, `high` with one behind;
* `settled weight` : every entry has been given the sum of its weights with the others;
* `foldl_round_eq_settled` : **one round for each entry settles the ledger**, where each pair is credited
  its weight in two parts, with the round of the first one and with the round of the second one.
-/

namespace SparkFrame.Lib

structure Ledger (E K : Type*) where
  key : E → K
  add : E → Int → E
  key_add : ∀ e n, key (add e n) = key e
  add_add : ∀ e m n, add (add e m) n = add e (m + n)
  add_zero : ∀ e, add e 0 = e

namespace Ledger

variable {E K : Type*} (L : Ledger E K)

/-! ## Sums over the entries -/

def due (f : K → Int) (es : List E) : Int := (es.map fun e => f (L.key e)).sum

@[simp] theorem due_nil (f : K → Int) : L.due f [] = 0 := rfl

@[simp] theorem due_cons (f : K → Int) (e : E) (es : List E) :
    L.due f (e :: es) = f (L.key e) + L.due f es := by
  rw [due, List.map_cons, List.sum_cons, due]

theorem due_append (f : K → Int) (es fs : List E) : L.due f (es ++ fs) = L.due f es + L.due f fs := by
  rw [due, List.map_append, List.sum_append, due, due]

theorem due_congr {f g : K → Int} {es : List E} (h : ∀ e ∈ es, f (L.key e) = g (L.key e)) :
    L.due f es = L.due g es := by rw [due, List.map_congr_left h, due]

theorem due_fun_add (f g : K → Int) (es : List E) :
    L.due (fun k => f k + g k) es = L.due f es + L.due g es := by
  induction es with
  | nil => rfl
  | cons e es ih =>
    rw [due_cons, due_cons, due_cons, ih]
    omega

theorem due_eq_zero {f : K → Int} {es : List E} (h : ∀ e ∈ es, f (L.key e) = 0) : L.due f es = 0 := by
  rw [L.due_congr (g := fun _ => 0) h, due]
  induction es with
  | nil => rfl
  | cons e es ih => exact (Int.zero_add _).trans (ih fun e' he' => h e' (List.mem_cons_of_mem e he'))

theorem due_map_add (f : K → Int) (g : E → Int) (es : List E) :
    L.due f (es.map fun e => L.add e (g e)) = L.due f es := by
  rw [due, List.map_map, due]
  exact congrArg List.sum (List.map_congr_left fun e _ => congrArg f (L.key_add e (g e)))

theorem map_add_zero {g : E → Int} {es : List E} (h : ∀ e ∈ es, g e = 0) :
    es.map (fun e => L.add e (g e)) = es := by
  refine (List.map_congr_left fun e he => ?_).trans (List.map_id es)
  rw [h e he, L.add_zero, id]

theorem map_key_add (g : E → Int) (es : List E) :
    (es.map fun e => L.add e (g e)).map L.key = es.map L.key := by
  rw [List.map_map]
  exact List.map_congr_left fun e _ => L.key_add e (g e)

/-! ## Scans -/

theorem eq_credited_of_zero (it : E) {f : K → Int} {es : List E} (h : ∀ e ∈ es, f (L.key e) = 0) :
    (it, es) = (L.add it (L.due f es), es.map fun e => L.add e (f (L.key e))) := by
  rw [L.due_eq_zero h, L.add_zero, L.map_add_zero h]

/-- **A scan that stops early misses nothing**, if what it stops at is followed by the like only. -/
theorem scan_eq (loop : E → List E → E × List E) (f : K → Int) (k : K) (ok stop : K → Prop)
    [DecidablePred stop] (hnil : ∀ it, loop it [] = (it, []))
    (hcons : ∀ it next rest, L.key it = k → ok (L.key next) → loop it (next :: rest) =
      if stop (L.key next) then (it, next :: rest)
      else ((loop (L.add it (f (L.key next))) rest).1,
        L.add next (f (L.key next)) :: (loop (L.add it (f (L.key next))) rest).2))
    (hstop : ∀ a, stop a → f a = 0) {es : List E} (hok : ∀ e ∈ es, ok (L.key e))
    (hes : es.Pairwise fun d e => stop (L.key d) → stop (L.key e)) (it : E) (hit : L.key it = k) :
    loop it es = (L.add it (L.due f es), es.map fun e => L.add e (f (L.key e))) := by
  induction es generalizing it with
  | nil => exact (hnil it).trans (L.eq_credited_of_zero it fun _ he => absurd he List.not_mem_nil)
  | cons next rest ih =>
    obtain ⟨hnext, hrest⟩ := List.pairwise_cons.mp hes
    rw [hcons it next rest hit (hok next List.mem_cons_self)]
    split
    · next h =>
      refine L.eq_credited_of_zero it (List.forall_mem_cons.mpr ⟨hstop _ h, fun e he => ?_⟩)
      exact hstop _ (hnext e he h)
    · have hloop := ih (fun e he => hok e (List.mem_cons_of_mem next he)) hrest
        (L.add it (f (L.key next))) ((L.key_add _ _).trans hit)
      rw [hloop, L.add_add, due_cons, List.map_cons]

/-! ## Rounds -/

/-- A round for `it`: with each other entry it shares an amount that both are given. -/
def credited (low high : K → K → Int) (before : List E) (it : E) (after : List E) : List E :=
  before.map (fun e => L.add e (low (L.key it) (L.key e))) ++
    L.add it (L.due (high (L.key it)) after + L.due (low (L.key it)) before) ::
      after.map fun e => L.add e (high (L.key it) (L.key e))

/-- Every entry has been given the sum of its weights with the others. -/
def settled (weight : K → K → Int) (es : List E) : List E :=
  es.mapIdx fun i e => L.add e (L.due (weight (L.key e)) (es.eraseIdx i))

theorem map_key_credited (low high : K → K → Int) (before : List E) (it : E) (after : List E) :
    (L.credited low high before it after).map L.key = (before ++ it :: after).map L.key := by
  rw [credited, List.map_append, List.map_cons, map_key_add, map_key_add, L.key_add, List.map_append,
    List.map_cons]

section Rounds

variable {low high weight : K → K → Int} {R : K → K → Prop} {round : List E → Nat → List E}

/-- The rounds that are left, where those for the entries of `before` have been made. -/
theorem foldl_round_eq
    (hround : ∀ before it after, ((before ++ it :: after).map L.key).Pairwise R →
      round (before ++ it :: after) before.length = L.credited low high before it after)
    (hweight : ∀ a b, R a b → weight a b = high a b + low b a ∧ weight b a = weight a b) :
    ∀ (n : Nat) (before rest : List E), rest.length = n → ((before ++ rest).map L.key).Pairwise R →
      (List.range' before.length n).foldl round (before ++ rest) =
        before.map (fun e => L.add e (L.due (low · (L.key e)) rest)) ++
          rest.mapIdx fun i e =>
            L.add e (L.due (low (L.key e)) before + L.due (weight (L.key e)) (rest.eraseIdx i)) := by
  intro n
  induction n with
  | zero =>
    intro before rest hn hR
    obtain rfl := List.length_eq_zero_iff.mp hn
    rw [L.map_add_zero fun _ _ => L.due_nil _]
    rfl
  | succ n ih =>
    intro before rest hn hR
    obtain ⟨it, after, rfl⟩ := List.exists_cons_of_length_eq_add_one hn
    have hafter : ∀ e ∈ after, R (L.key it) (L.key e) := fun e he => by
      rw [List.map_append, List.map_cons] at hR
      exact (List.pairwise_cons.mp (List.pairwise_append.mp hR).2.1).1 _ (List.mem_map_of_mem he)
    have hkeys := L.map_key_credited low high before it after
    have hsplit : L.credited low high before it after =
        (before.map (fun e => L.add e (low (L.key it) (L.key e))) ++
          [L.add it (L.due (high (L.key it)) after + L.due (low (L.key it)) before)]) ++
        after.map fun e => L.add e (high (L.key it) (L.key e)) := by
      rw [credited, List.append_assoc]
      rfl
    rw [hsplit] at hkeys
    have hrest := ih _ _ ((List.length_map _).trans (Nat.succ.inj hn)) (hkeys ▸ hR)
    rw [List.length_append, List.length_map, List.length_singleton] at hrest
    rw [List.range'_succ, List.foldl_cons, hround before it after hR, hsplit, hrest, List.map_append,
      List.map_singleton, List.append_assoc, List.mapIdx_cons]
    congr 1
    · rw [List.map_map]
      refine List.map_congr_left fun e _ => ?_
      simp only [Function.comp, L.add_add, L.key_add, due_map_add, due_cons]
    · rw [List.singleton_append]
      congr 1
      · have hpair : L.due (weight (L.key it)) after =
            L.due (high (L.key it)) after + L.due (low · (L.key it)) after := by
          rw [← due_fun_add]
          exact L.due_congr fun e he => (hweight _ _ (hafter e he)).1
        rw [L.add_add, L.key_add, due_map_add, List.eraseIdx_zero, List.tail_cons, hpair]
        congr 1
        omega
      · refine List.ext_getElem (by simp) fun i hi hi' => ?_
        rw [List.length_mapIdx] at hi'
        have hmem : after[i] ∈ after := List.getElem_mem hi'
        have hw := hweight _ _ (hafter _ hmem)
        rw [List.getElem_mapIdx, List.getElem_mapIdx, List.getElem_map, L.add_add, L.key_add,
          List.eraseIdx_map, due_map_add, due_append, due_map_add, due_cons, due_nil, L.key_add,
          List.eraseIdx_cons_succ, due_cons, hw.2, hw.1]
        congr 1
        omega

/-- **One round for each entry settles the ledger.** -/
theorem foldl_round_eq_settled
    (hround : ∀ before it after, ((before ++ it :: after).map L.key).Pairwise R →
      round (before ++ it :: after) before.length = L.credited low high before it after)
    (hweight : ∀ a b, R a b → weight a b = high a b + low b a ∧ weight b a = weight a b)
    {es : List E} (hR : (es.map L.key).Pairwise R) :
    (List.range es.length).foldl round es = L.settled weight es := by
  have hrounds := L.foldl_round_eq hround hweight es.length [] es rfl hR
  simpa [List.range_eq_range', settled] using hrounds

end Rounds

end Ledger

end SparkFrame.Lib
