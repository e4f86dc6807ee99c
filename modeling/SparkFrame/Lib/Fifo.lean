import Mathlib.Data.List.Basic

/-!
# Queues without a bound

* `Call`, `Reply`, `Step` : the calls of a queue and what they do. A push may be refused; where there
  is nothing, the null value is returned;
* `Run` : calls with their replies, the elements that have been popped and those that are left;
* `Run.conservation` : **what has been accepted is what has been popped and what is left**, in
  order.
-/

namespace SparkFrame.Lib.Fifo

variable {α : Type*}

inductive Call (α : Type*) where
  | push (a : α)
  | pop
  | front
  | is_empty
  deriving DecidableEq, Repr

inductive Reply (α : Type*) where
  | bool (b : Bool)
  | value (a : α)
  deriving DecidableEq, Repr

inductive Step (null : α) : List α → Call α → Reply α → List α → Prop where
  | accept (a : α) (q : List α) : Step null q (.push a) (.bool true) (q ++ [a])
  | refuse (a : α) (q : List α) : Step null q (.push a) (.bool false) q
  | pop_nil : Step null [] .pop (.value null) []
  | pop (a : α) (q : List α) : Step null (a :: q) .pop (.value a) q
  | front_nil : Step null [] .front (.value null) []
  | front (a : α) (q : List α) : Step null (a :: q) .front (.value a) (a :: q)
  | is_empty (q : List α) : Step null q .is_empty (.bool q.isEmpty) q

/-- The elements a call takes out of the queue. -/
def taken (q : List α) : Call α → List α
  | .pop => q.take 1
  | _ => []

/-- The calls on a queue that is empty at first, what has been popped, and what is left. -/
inductive Run (null : α) : List (Call α × Reply α) → List α → List α → Prop where
  | nil : Run null [] [] []
  | snoc {tr : List (Call α × Reply α)} {popped q q' : List α} {call : Call α} {reply : Reply α} :
      Run null tr popped q → Step null q call reply q' →
        Run null (tr ++ [(call, reply)]) (popped ++ taken q call) q'

/-- The elements that have been pushed and not refused. -/
def accepted (tr : List (Call α × Reply α)) : List α :=
  tr.filterMap fun
    | (.push a, .bool true) => some a
    | _ => none

theorem accepted_append_singleton (tr : List (Call α × Reply α)) (x : Call α × Reply α) :
    accepted (tr ++ [x]) = accepted tr ++ accepted [x] := List.filterMap_append ..

/-- A step adds what it accepts at the end and takes what it pops from the front. -/
theorem Step.conservation {null : α} {q q' : List α} {call : Call α} {reply : Reply α}
    (h : Step null q call reply q') : q ++ accepted [(call, reply)] = taken q call ++ q' := by
  cases h with
  | accept => rfl
  | refuse => exact List.append_nil _
  | pop_nil => rfl
  | pop => exact List.append_nil _
  | front_nil => rfl
  | front => exact List.append_nil _
  | is_empty => exact List.append_nil _

/-- **Nothing that is accepted is lost**, doubled or moved. -/
theorem Run.conservation {null : α} {tr : List (Call α × Reply α)} {popped q : List α}
    (h : Run null tr popped q) : accepted tr = popped ++ q := by
  induction h with
  | nil => rfl
  | snoc _ hs ih => rw [accepted_append_singleton, ih, List.append_assoc, hs.conservation, List.append_assoc]

end SparkFrame.Lib.Fifo
