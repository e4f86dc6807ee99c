import SparkFrame.Net.MessageQueue

/-!
# The limit of the queue

`MAX_SIZE` is compared with the number of messages only when the buffer is full, and its capacities are
`INIT_SIZE` doubled. The first one above the limit is 131072.

* `Limited` : a call that keeps the limit; `BelowLimit` : a call that is no push at the limit;
* `length_le_of_run` : in every run there are at most 131072 messages;
* `limited_iff_belowLimit` : a push at the limit is accepted, every other call keeps the limit;
* `limited_iff` : **a run keeps the limit exactly if nothing is pushed at the limit**;
* `exists_run_length` : every number of messages up to 131072 is reached.
-/

namespace SparkFrame.Net.CircularQueue

open SparkFrame.Lib SparkFrame.Lib.Fifo

variable {α B : Type}

/-! ## What the limit says -/

/-- No more than `MAX_SIZE` messages are in the queue, and a push on so many is refused. -/
def Limited (c : CircularBuffer α B) (x : Lib.Step B (Call α) (Reply α)) : Prop :=
  (c.contents x.after).length ≤ MessageQueue.MAX_SIZE ∧
    ∀ msg, x.event = .push msg → MessageQueue.MAX_SIZE ≤ (c.contents x.before).length →
      x.out = .bool false

/-- The call is no push on exactly `MAX_SIZE` messages. -/
def BelowLimit (c : CircularBuffer α B) (q : B) (call : Call α) : Prop :=
  ∀ msg, call = .push msg → (c.contents q).length ≠ MessageQueue.MAX_SIZE

variable {c : CircularBuffer α B}

/-! ## One call -/

/-- A call makes the queue longer only if it is a push, and by one message. -/
theorem length_step (hc : c.Documented) (null : α) {q q' : B} {call : Call α} {reply : Reply α}
    (h : Grown c q) (hs : step c null q call = some (q', reply)) :
    (c.contents q').length ≤ (c.contents q).length ∨
      (c.contents q').length = (c.contents q).length + 1 ∧ reply = .bool true ∧
        ∃ msg, call = .push msg := by
  have hstep := (fifoStep_step hc null h hs).1
  generalize c.contents q = l at hstep ⊢
  generalize c.contents q' = l' at hstep ⊢
  cases hstep with
  | accept msg => exact .inr ⟨by rw [List.length_append, List.length_singleton], rfl, msg, rfl⟩
  | refuse => exact .inl (Nat.le_refl _)
  | pop_nil => exact .inl (Nat.le_refl _)
  | pop => exact .inl (Nat.le_succ _)
  | front_nil => exact .inl (Nat.le_refl _)
  | front => exact .inl (Nat.le_refl _)
  | is_empty => exact .inl (Nat.le_refl _)

/-- In front of 131072 messages a push is accepted, also at the limit. -/
theorem step_push (hc : c.Documented) (null : α) {q : B} (h : Grown c q)
    (hlt : (c.contents q).length < 131072) (msg : α) :
    ∃ q', step c null q (.push msg) = some (q', .bool true) ∧ c.contents q' = c.contents q ++ [msg] ∧
      Grown c q' := by
  obtain ⟨q', hpush, hcontents, hgrown⟩ | hpush := push_cases hc h msg
  · exact ⟨q', by rw [step, hpush], hcontents, hgrown⟩
  · have hfull := (push_refused_iff hc h msg).mp (by rw [hpush])
    omega

theorem length_le_of_grown (hc : c.Documented) {q : B} (h : Grown c q) :
    (c.contents q).length ≤ 131072 := by
  obtain ⟨k, hk, hcap⟩ := h
  have hle := hc.length_le q
  have hpow : 2 ^ k ≤ 2 ^ 9 := Nat.pow_le_pow_right (by decide) hk
  rw [hcap, MessageQueue.INIT_SIZE] at hle
  omega

/-- **A call keeps the limit unless it is a push at the limit.** -/
theorem limited_iff_belowLimit (hc : c.Documented) (null : α) {q q' : B} {call : Call α}
    {reply : Reply α} (h : Grown c q) (hle : (c.contents q).length ≤ MessageQueue.MAX_SIZE)
    (hs : step c null q call = some (q', reply)) :
    Limited c ⟨q, call, reply, q'⟩ ↔ BelowLimit c q call := by
  constructor
  · intro hlimited msg hcall hlen
    subst hcall
    obtain ⟨q₁, hpush, -⟩ := step_push hc null h (by rw [hlen]; decide) msg
    have hreply := hlimited.2 msg rfl hlen.ge
    rw [hpush] at hs
    have htrue : Reply.bool true = reply := (Prod.mk.inj (Option.some.inj hs)).2
    exact absurd (htrue.trans hreply) (by simp)
  · intro hbelow
    refine ⟨?_, fun msg hcall hlen => absurd (Nat.le_antisymm hle hlen) (hbelow msg hcall)⟩
    rcases length_step hc null h hs with hshort | ⟨hlong, -, msg, hcall⟩
    · exact hshort.trans hle
    · have hne := hbelow msg hcall
      change (c.contents q').length ≤ _
      omega

/-! ## Runs -/

variable {null : α} {tr : List (Lib.Step B (Call α) (Reply α))} {q : B}

theorem grown_of_run (hc : c.Documented) (hr : Lib.Run (step c null) (new c) tr q) : Grown c q :=
  hr.state_invariant (grown_new hc) fun h hs => (fifoStep_step hc null h hs).2

/-- **What the doubling bounds.** -/
theorem length_le_of_run (hc : c.Documented) (hr : Lib.Run (step c null) (new c) tr q) :
    (c.contents q).length ≤ 131072 := length_le_of_grown hc (grown_of_run hc hr)

/-- **A run keeps the limit exactly if nothing is pushed at the limit.** -/
theorem limited_iff (hc : c.Documented) (hr : Lib.Run (step c null) (new c) tr q) :
    (∀ x ∈ tr, Limited c x) ↔ ∀ x ∈ tr, BelowLimit c x.before x.event := by
  refine Lib.Run.forall_iff
    (I := fun q => Grown c q ∧ (c.contents q).length ≤ MessageQueue.MAX_SIZE)
    ⟨grown_new hc, ?_⟩ (fun h hs => limited_iff_belowLimit hc null h.1 h.2 hs) ?_ hr
  · rw [new, hc.contents_new]
    exact Nat.zero_le _
  · intro s s' call reply h hbelow hs
    have hlimited := (limited_iff_belowLimit hc null h.1 h.2 hs).mpr hbelow
    exact ⟨(fifoStep_step hc null h.1 hs).2, hlimited.1⟩

/-- Nothing but pushes: every number of messages up to 131072 is reached. -/
theorem exists_run_length (hc : c.Documented) (null msg : α) {n : Nat} (hn : n ≤ 131072) :
    ∃ tr q, Lib.Run (step c null) (new c) tr q ∧ (c.contents q).length = n ∧
      ∀ x ∈ tr, (c.contents x.before).length < n := by
  induction n with
  | zero => exact ⟨[], new c, .nil, by rw [new, hc.contents_new]; rfl, List.forall_mem_nil _⟩
  | succ n ih =>
    obtain ⟨tr, q, hr, hlen, hbefore⟩ := ih (Nat.le_of_succ_le hn)
    obtain ⟨q', hs, hcontents, -⟩ := step_push hc null (grown_of_run hc hr) (by omega) msg
    refine ⟨_, q', .snoc hr hs, by rw [hcontents, List.length_append, hlen, List.length_singleton], ?_⟩
    rw [List.forall_mem_append, List.forall_mem_singleton]
    exact ⟨fun x hx => (hbefore x hx).trans (Nat.lt_succ_self n), hlen ▸ Nat.lt_succ_self n⟩

/-- Pushes up to the limit keep it, on cells in a circle. -/
theorem limited_iff_cellRing :
    ∃ tr q, Lib.Run (step cellRing 0) (new (cellRing : CircularBuffer Nat (CellRing Nat))) tr q ∧
      (cellRing.contents q).length = MessageQueue.MAX_SIZE ∧ ∀ x ∈ tr, Limited cellRing x := by
  obtain ⟨tr, q, hr, hlen, hbefore⟩ := exists_run_length cellRing_documented (0 : Nat) 5
    (show MessageQueue.MAX_SIZE ≤ 131072 by decide)
  exact ⟨tr, q, hr, hlen, (limited_iff cellRing_documented hr).mpr fun x hx _ _ => (hbefore x hx).ne⟩

/-- 100001 pushes: the last one is accepted. -/
theorem not_limited :
    ¬ ∀ tr q, Lib.Run (step cellRing 0) (new (cellRing : CircularBuffer Nat (CellRing Nat))) tr q →
      ∀ x ∈ tr, Limited cellRing x := by
  intro h
  obtain ⟨tr, q, hr, hlen, -⟩ := exists_run_length cellRing_documented (0 : Nat) 5
    (show MessageQueue.MAX_SIZE ≤ 131072 by decide)
  obtain ⟨q', hs, hcontents, -⟩ := step_push cellRing_documented 0 (grown_of_run cellRing_documented hr)
    (by rw [hlen]; decide) 5
  have hlast := h _ _ (.snoc hr hs) _ (List.mem_append_right _ (List.mem_singleton_self _))
  have hlong : (cellRing.contents q').length ≤ MessageQueue.MAX_SIZE := hlast.1
  rw [hcontents, List.length_append, hlen] at hlong
  exact absurd hlong (by decide)

end SparkFrame.Net.CircularQueue
