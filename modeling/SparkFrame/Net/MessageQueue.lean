import SparkFrame.Lib.CircularBuffer
import SparkFrame.Lib.Fifo
import SparkFrame.Net.SendQueue

/-!
# The queue on a circular buffer: `libmessage/MessageQueue`

A circular buffer that is full overwrites its oldest element. `push` makes it larger before that, as
long as there are not too many messages.

* `push`, `pop`, `front`, `is_empty` : the member functions, over any buffer; `step` : one call;
* `Grown` : the capacities there are; `push_cases`, `push_refused_iff` : what `push` does;
* `fifoStep_step`, `refines_fifo` : **the queue is a queue without a bound**, but for what it refuses;
* `toQueue`, `toQueue_step`, `toQueue_run` : it is the queue that the sessions send from.
-/

namespace SparkFrame.Net.CircularQueue

open SparkFrame.Lib SparkFrame.Lib.Fifo

variable {α B : Type} (c : CircularBuffer α B)

/-! ## The functions -/

/-- The constructor. -/
def new : B := c.new MessageQueue.INIT_SIZE

/-- `push`: the buffer afterwards and the result. -/
def push (q : B) (msg : α) : B × Bool :=
  let all_size := c.size q
  if c.full q then
    if MessageQueue.MAX_SIZE < all_size then (q, false)
    else (c.push_back (c.set_capacity q (all_size + all_size)) msg, true)
  else (c.push_back q msg, true)

/-- `front`. `null` is `TcpMsgPtr()`. -/
def front (null : α) (q : B) : α :=
  if c.empty q then null else (c.front q).getD null

/-- `pop`: the buffer afterwards and the message. -/
def pop (null : α) (q : B) : B × α :=
  if c.empty q then (q, null)
  else (c.pop_front q, (c.front q).getD null)

def is_empty (q : B) : Bool := c.empty q

def step (null : α) (q : B) : Call α → Option (B × Reply α)
  | .push msg => some ((push c q msg).1, .bool (push c q msg).2)
  | .pop => some ((pop c null q).1, .value (pop c null q).2)
  | .front => some (q, .value (front c null q))
  | .is_empty => some (q, .bool (is_empty c q))

/-! ## What a push does -/

/-- **The invariant**: the capacity has been doubled at most nine times. -/
def Grown (q : B) : Prop := ∃ k ≤ 9, c.capacity q = MessageQueue.INIT_SIZE * 2 ^ k

variable {c}

theorem Grown.pos {q : B} (h : Grown c q) : 0 < c.capacity q := by
  obtain ⟨k, -, hk⟩ := h
  rw [hk]
  exact Nat.mul_pos (by decide) (Nat.two_pow_pos k)

theorem grown_new (hc : c.Documented) : Grown c (new c) := ⟨0, by decide, hc.capacity_new _⟩

theorem size_of_full (hc : c.Documented) {q : B} (hfull : c.full q = true) : c.size q = c.capacity q :=
  (hc.full_iff q).mp hfull

theorem not_full_set_capacity (hc : c.Documented) {q : B} (hpos : 0 < c.capacity q) (hfull : c.full q = true) :
    c.contents (c.set_capacity q (c.size q + c.size q)) = c.contents q ∧
      ¬ c.full (c.set_capacity q (c.size q + c.size q)) = true := by
  have hkeep := hc.contents_set_capacity q (c.size q + c.size q) (by rw [hc.size_eq]; omega)
  refine ⟨hkeep, fun hfull' => ?_⟩
  have hsize := size_of_full hc hfull'
  rw [hc.size_eq, hkeep, ← hc.size_eq, hc.capacity_set_capacity, size_of_full hc hfull] at hsize
  omega

theorem Grown.double {q : B} (h : Grown c q) (hle : c.capacity q ≤ MessageQueue.MAX_SIZE) :
    ∃ k ≤ 9, c.capacity q + c.capacity q = MessageQueue.INIT_SIZE * 2 ^ k := by
  obtain ⟨k, hk, hcap⟩ := h
  refine ⟨k + 1, ?_, by rw [hcap, Nat.pow_succ, ← Nat.mul_assoc, Nat.mul_two]⟩
  by_contra hlarge
  obtain rfl : k = 9 := by omega
  rw [hcap] at hle
  exact absurd hle (by decide)

/-- **A push** adds the message at the end, or is refused and changes nothing. -/
theorem push_cases (hc : c.Documented) {q : B} (h : Grown c q) (msg : α) :
    (∃ q', push c q msg = (q', true) ∧ c.contents q' = c.contents q ++ [msg] ∧ Grown c q') ∨
      push c q msg = (q, false) := by
  unfold push
  by_cases hfull : c.full q = true
  · by_cases hmax : MessageQueue.MAX_SIZE < c.size q
    · exact .inr (by simp only [if_pos hfull, if_pos hmax])
    · obtain ⟨hkeep, hnot⟩ := not_full_set_capacity hc h.pos hfull
      refine .inl ⟨c.push_back (c.set_capacity q (c.size q + c.size q)) msg,
        by simp only [if_pos hfull, if_neg hmax], ?_, ?_⟩
      · rw [hc.contents_push_back, if_neg hnot, hkeep]
      · rw [Grown, hc.capacity_push_back, hc.capacity_set_capacity, size_of_full hc hfull]
        exact h.double (size_of_full hc hfull ▸ Nat.not_lt.mp hmax)
  · refine .inl ⟨c.push_back q msg, by simp only [if_neg hfull], ?_, ?_⟩
    · rw [hc.contents_push_back, if_neg hfull]
    · rw [Grown, hc.capacity_push_back]
      exact h

/-- A push is refused when there are 131072 messages, and only then. -/
theorem push_refused_iff (hc : c.Documented) {q : B} (h : Grown c q) (msg : α) :
    (push c q msg).2 = false ↔ (c.contents q).length = 131072 := by
  have hrefused : (push c q msg).2 = false ↔ c.size q = c.capacity q ∧ MessageQueue.MAX_SIZE < c.size q := by
    rw [← hc.full_iff]
    unfold push
    by_cases hfull : c.full q = true
    · by_cases hmax : MessageQueue.MAX_SIZE < c.size q <;> simp [hfull, hmax]
    · simp [hfull]
  obtain ⟨k, hk, hcap⟩ := h
  have hle := hc.length_le q
  rw [hrefused, hc.size_eq, hcap]
  rw [hcap] at hle
  simp only [MessageQueue.INIT_SIZE, MessageQueue.MAX_SIZE] at hle ⊢
  interval_cases k <;> omega

/-! ## Runs -/

theorem front_eq (hc : c.Documented) (null : α) (q : B) : front c null q = (c.contents q).head?.getD null := by
  unfold front
  rw [hc.front_eq]
  by_cases hempty : c.empty q = true
  · rw [if_pos hempty, (hc.empty_iff q).mp hempty]
    rfl
  · rw [if_neg hempty]

/-- **A pop** returns the first message and removes it. -/
theorem pop_eq (hc : c.Documented) (null : α) (q : B) :
    (pop c null q).2 = (c.contents q).head?.getD null ∧
      c.contents (pop c null q).1 = (c.contents q).tail ∧
      c.capacity (pop c null q).1 = c.capacity q := by
  unfold pop
  rw [hc.front_eq]
  by_cases hempty : c.empty q = true
  · rw [if_pos hempty, (hc.empty_iff q).mp hempty]
    exact ⟨rfl, rfl, rfl⟩
  · have hne : c.contents q ≠ [] := mt (hc.empty_iff q).mpr hempty
    rw [if_neg hempty]
    exact ⟨rfl, hc.contents_pop_front q hne, hc.capacity_pop_front q hne⟩

/-- **One call** is a step of a queue without a bound. -/
theorem fifoStep_step (hc : c.Documented) (null : α) {q q' : B} {call : Call α} {reply : Reply α}
    (h : Grown c q) (hs : step c null q call = some (q', reply)) :
    Fifo.Step null (c.contents q) call reply (c.contents q') ∧ Grown c q' := by
  cases call with
  | push msg =>
    obtain ⟨rfl, rfl⟩ := Prod.mk.inj (Option.some.inj hs)
    obtain ⟨q', hpush, hcontents, hgrown⟩ | hpush := push_cases hc h msg
    · rw [hpush, hcontents]
      exact ⟨.accept msg _, hgrown⟩
    · rw [hpush]
      exact ⟨.refuse msg _, h⟩
  | pop =>
    obtain ⟨rfl, rfl⟩ := Prod.mk.inj (Option.some.inj hs)
    obtain ⟨hvalue, hcontents, hcap⟩ := pop_eq hc null q
    refine ⟨?_, by rw [Grown, hcap]; exact h⟩
    rw [hvalue, hcontents]
    cases c.contents q with
    | nil => exact .pop_nil
    | cons a l => exact .pop a l
  | front =>
    obtain ⟨rfl, rfl⟩ := Prod.mk.inj (Option.some.inj hs)
    refine ⟨?_, h⟩
    rw [front_eq hc]
    cases c.contents q with
    | nil => exact .front_nil
    | cons a l => exact .front a l
  | is_empty =>
    obtain ⟨rfl, rfl⟩ := Prod.mk.inj (Option.some.inj hs)
    have hempty : is_empty c q = (c.contents q).isEmpty := by
      rw [is_empty, Bool.eq_iff_iff, hc.empty_iff, List.isEmpty_iff]
    rw [hempty]
    exact ⟨.is_empty _, h⟩

/-- The calls of a run with their replies. -/
def calls (tr : List (Lib.Step B (Call α) (Reply α))) : List (Call α × Reply α) :=
  tr.map fun x => (x.event, x.out)

/-- **The queue is a queue without a bound.** Every sequence of calls is one of a queue that appends what
it accepts, stays as it is when it refuses, and returns the messages in the order in which they were
accepted; so what has been accepted is what has been popped and what is in the buffer. -/
theorem refines_fifo (c : CircularBuffer α B) (hc : c.Documented) (null : α)
    {tr : List (Lib.Step B (Call α) (Reply α))} {q : B} (hr : Lib.Run (step c null) (new c) tr q) :
    ∃ popped, Fifo.Run null (calls tr) popped (c.contents q) ∧
      accepted (calls tr) = popped ++ c.contents q := by
  have hrun : (∃ popped, Fifo.Run null (calls tr) popped (c.contents q)) ∧ Grown c q := by
    induction hr with
    | nil =>
      refine ⟨⟨[], ?_⟩, grown_new hc⟩
      rw [new, hc.contents_new]
      exact .nil
    | @snoc tr s s' call reply _ hs ih =>
      obtain ⟨⟨popped, hfifo⟩, hgrown⟩ := ih
      obtain ⟨hstep, hgrown'⟩ := fifoStep_step hc null hgrown hs
      refine ⟨⟨popped ++ taken (c.contents s) call, ?_⟩, hgrown'⟩
      rw [calls, List.map_append]
      exact .snoc hfifo hstep
  obtain ⟨⟨popped, hfifo⟩, -⟩ := hrun
  exact ⟨popped, hfifo, hfifo.conservation⟩

/-- A message more than there is room for at first, on cells in a circle. -/
theorem refines_fifo_cellRing :
    ∃ tr q, Lib.Run (step cellRing 0) (new (cellRing : CircularBuffer Nat (CellRing Nat))) tr q ∧
      cellRing.capacity q = 512 ∧ accepted (calls tr) = List.replicate 256 5 ++ [7] ∧
      ∃ popped, Fifo.Run 0 (calls tr) popped (cellRing.contents q) ∧
        accepted (calls tr) = popped ++ cellRing.contents q := by
  have hexec : (exec (step cellRing 0) (new (cellRing : CircularBuffer Nat (CellRing Nat)))
      (List.replicate 256 (.push 5) ++ [.push 7, .front, .pop, .is_empty])).map
        (fun p => (cellRing.capacity p.2, accepted (calls p.1))) =
      some (512, List.replicate 256 5 ++ [7]) := by decide +kernel
  obtain ⟨p, hp, heq⟩ := Option.map_eq_some_iff.mp hexec
  obtain ⟨hcapacity, haccepted⟩ := Prod.mk.inj heq
  have hrun := Lib.Run.of_exec hp
  exact ⟨p.1, p.2, hrun, hcapacity, haccepted, refines_fifo cellRing cellRing_documented 0 hrun⟩

/-! ## The queue of the sessions -/

/-- What the sessions see of the buffer. -/
def toQueue (c : CircularBuffer α B) (q : B) : MessageQueue α := ⟨c.capacity q, c.contents q⟩

theorem toQueue_new (hc : c.Documented) : toQueue c (new c) = .new := by
  rw [toQueue, new, hc.capacity_new, hc.contents_new]
  rfl

theorem toQueue_push (hc : c.Documented) {q : B} (h : Grown c q) (msg : α) :
    (toQueue c q).push msg = (toQueue c (push c q msg).1, (push c q msg).2) := by
  unfold MessageQueue.push push
  simp only [toQueue, ← hc.size_eq]
  by_cases hfull : c.full q = true
  · have hsize := size_of_full hc hfull
    by_cases hmax : MessageQueue.MAX_SIZE < c.size q
    · simp only [if_pos hfull, if_pos hsize, if_pos hmax]
    · obtain ⟨hkeep, hnot⟩ := not_full_set_capacity hc h.pos hfull
      simp only [if_pos hfull, if_pos hsize, if_neg hmax, hc.capacity_push_back, hc.capacity_set_capacity,
        hc.contents_push_back, if_neg hnot, hkeep]
  · have hsize := mt (hc.full_iff q).mpr hfull
    simp only [if_neg hfull, if_neg hsize, hc.capacity_push_back, hc.contents_push_back]

theorem toQueue_pop (hc : c.Documented) (null : α) (q : B) :
    (toQueue c q).pop = toQueue c (pop c null q).1 := by
  obtain ⟨-, hcontents, hcap⟩ := pop_eq hc null q
  rw [MessageQueue.pop, toQueue, toQueue, hcontents, hcap]

theorem front_toQueue (hc : c.Documented) (null : α) (q : B) :
    (toQueue c q).front.getD null = front c null q := (front_eq hc null q).symm

/-- A call of that queue. -/
def queueStep (null : α) (q : MessageQueue α) : Call α → Option (MessageQueue α × Reply α)
  | .push msg => some ((q.push msg).1, .bool (q.push msg).2)
  | .pop => some (q.pop, .value (q.front.getD null))
  | .front => some (q, .value (q.front.getD null))
  | .is_empty => some (q, .bool q.is_empty)

theorem toQueue_step (hc : c.Documented) (null : α) {q q' : B} {call : Call α} {reply : Reply α}
    (h : Grown c q) (hs : step c null q call = some (q', reply)) :
    queueStep null (toQueue c q) call = some (toQueue c q', reply) := by
  cases call with
  | push msg =>
    obtain ⟨rfl, rfl⟩ := Prod.mk.inj (Option.some.inj hs)
    rw [queueStep, toQueue_push hc h]
  | pop =>
    obtain ⟨rfl, rfl⟩ := Prod.mk.inj (Option.some.inj hs)
    rw [queueStep, toQueue_pop hc null, front_toQueue hc, front_eq hc, (pop_eq hc null q).1]
  | front =>
    obtain ⟨rfl, rfl⟩ := Prod.mk.inj (Option.some.inj hs)
    rw [queueStep, front_toQueue hc]
  | is_empty =>
    obtain ⟨rfl, rfl⟩ := Prod.mk.inj (Option.some.inj hs)
    have hempty : (toQueue c q).is_empty = is_empty c q := by
      rw [is_empty, Bool.eq_iff_iff, hc.empty_iff, MessageQueue.is_empty, List.isEmpty_iff]
      rfl
    rw [queueStep, hempty]

/-- **The sessions cannot tell it from their queue**: the same calls get the same replies. -/
theorem toQueue_run (hc : c.Documented) (null : α) {tr : List (Lib.Step B (Call α) (Reply α))} {q : B}
    (hr : Lib.Run (step c null) (new c) tr q) :
    ∃ tr', Lib.Run (queueStep null) .new tr' (toQueue c q) ∧
      (tr'.map fun x => (x.event, x.out)) = calls tr := by
  have hrun : (∃ tr', Lib.Run (queueStep null) .new tr' (toQueue c q) ∧
      (tr'.map fun x => (x.event, x.out)) = calls tr) ∧ Grown c q := by
    induction hr with
    | nil => exact ⟨⟨[], by rw [toQueue_new hc]; exact .nil, rfl⟩, grown_new hc⟩
    | snoc _ hs ih =>
      obtain ⟨⟨tr', hr', hcalls⟩, hgrown⟩ := ih
      refine ⟨⟨_, .snoc hr' (toQueue_step hc null hgrown hs), ?_⟩, (fifoStep_step hc null hgrown hs).2⟩
      rw [List.map_append, hcalls, calls, calls, List.map_append]
      rfl
  exact hrun.1

end SparkFrame.Net.CircularQueue
