import Mathlib.Tactic.Common

/-!
# One-shot timers with a completion queue

An asynchronous timer has at most one wait. The wait ends by expiring or by being cancelled, which
queues its handler with success or with an error; from then on `cancel` no longer reaches it. The
queued handlers run later, in any order.

* `SteadyTimer` : the wait and the queued handlers; `start`, `cancel`, `expire`, `take`;
* `Silent` : no handler will ever run with success; `Silent.cancel`, `Silent.take`;
* `outstanding` : the handlers still to come; only `start` adds one and only `take` removes one;
* `aborted_of_expire`, `aborted_of_take` : only `cancel` queues a handler with an error.
-/

namespace SparkFrame.Lib

structure SteadyTimer where
  /-- A wait whose handler is not queued yet. -/
  waiting : Bool
  /-- Handlers queued with success. -/
  ready : Nat
  /-- Handlers queued with an error. -/
  aborted : Nat
deriving DecidableEq, Repr

namespace SteadyTimer

def idle : SteadyTimer := ⟨false, 0, 0⟩

def cancel (t : SteadyTimer) : SteadyTimer :=
  if t.waiting then { t with waiting := false, aborted := t.aborted + 1 } else t

/-- `expires_after`, which cancels a wait, followed by `async_wait`. -/
def start (t : SteadyTimer) : SteadyTimer := { t.cancel with waiting := true }

/-- The wait expires. -/
def expire (t : SteadyTimer) : Option SteadyTimer :=
  if t.waiting then some { t with waiting := false, ready := t.ready + 1 } else none

/-- A queued handler is taken out to run, with this error flag. -/
def take (err : Bool) (t : SteadyTimer) : Option SteadyTimer :=
  if err then if 0 < t.aborted then some { t with aborted := t.aborted - 1 } else none
  else if 0 < t.ready then some { t with ready := t.ready - 1 } else none

/-- No handler of the timer will run with success unless it is started again. -/
def Silent (t : SteadyTimer) : Prop := t.waiting = false ∧ t.ready = 0

@[simp] theorem waiting_cancel (t : SteadyTimer) : t.cancel.waiting = false := by
  unfold cancel
  split
  · rfl
  · next h => simpa using h

@[simp] theorem ready_cancel (t : SteadyTimer) : t.cancel.ready = t.ready := by
  unfold cancel
  split <;> rfl

namespace Silent

variable {t : SteadyTimer}

theorem idle : Silent idle := ⟨rfl, rfl⟩

theorem cancel (h : t.ready = 0) : Silent t.cancel := ⟨waiting_cancel t, by rw [ready_cancel, h]⟩

theorem expire (h : Silent t) : t.expire = none := by
  unfold SteadyTimer.expire
  rw [if_neg (by simp [h.1])]

/-- A silent timer runs handlers with an error only. -/
theorem take {err : Bool} {t' : SteadyTimer} (h : Silent t) (ht : t.take err = some t') :
    err = true ∧ Silent t' := by
  unfold SteadyTimer.take at ht
  split at ht
  · next herr =>
    refine ⟨herr, ?_⟩
    split at ht
    · cases ht
      exact h
    · cases ht
  · rw [if_neg (by simp [h.2])] at ht
    cases ht

end Silent

/-! ## Counting handlers -/

/-- The handlers that have not run, queued or not. -/
def outstanding (t : SteadyTimer) : Nat := t.waiting.toNat + t.ready + t.aborted

@[simp] theorem outstanding_idle : outstanding idle = 0 := rfl

@[simp] theorem outstanding_cancel (t : SteadyTimer) : t.cancel.outstanding = t.outstanding := by
  unfold cancel outstanding
  split
  · next h =>
    rw [h]
    simp only [Bool.toNat_false, Bool.toNat_true]
    omega
  · rfl

theorem expire_eq_some {t t' : SteadyTimer} (h : t.expire = some t') :
    t.waiting = true ∧ t'.outstanding = t.outstanding := by
  unfold expire at h
  split at h
  · next hw =>
    cases h
    refine ⟨hw, ?_⟩
    simp only [outstanding, hw, Bool.toNat_false, Bool.toNat_true]
    omega
  · cases h

/-- A handler that runs was outstanding; one that runs with success was ready. -/
theorem take_eq_some {err : Bool} {t t' : SteadyTimer} (h : t.take err = some t') :
    t'.waiting = t.waiting ∧ t'.outstanding + 1 = t.outstanding ∧ (err = false → 0 < t.ready) := by
  unfold take at h
  split at h
  · next herr =>
    split at h
    · cases h
      refine ⟨rfl, ?_, by simp [herr]⟩
      simp only [outstanding]
      omega
    · cases h
  · split at h
    · next hr =>
      cases h
      refine ⟨rfl, ?_, fun _ => hr⟩
      simp only [outstanding]
      omega
    · cases h

/-! ## Handlers with an error -/

theorem aborted_of_expire {t t' : SteadyTimer} (h : t.expire = some t') : t'.aborted = t.aborted := by
  unfold expire at h
  split at h
  · cases h
    rfl
  · cases h

theorem aborted_of_take {err : Bool} {t t' : SteadyTimer} (h : t.take err = some t') :
    t'.aborted ≤ t.aborted ∧ (err = true → 0 < t.aborted) := by
  unfold take at h
  split at h
  · split at h
    · next ha =>
      cases h
      exact ⟨Nat.sub_le .., fun _ => ha⟩
    · cases h
  · next herr =>
    split at h
    · cases h
      exact ⟨Nat.le_refl _, fun h => absurd h herr⟩
    · cases h

end SteadyTimer

end SparkFrame.Lib
