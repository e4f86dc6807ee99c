import SparkFrame.Net.SendQueue

/-!
# What a session sends, and in which order

* `accepted`, `completed` : the messages `do_write` has queued and those whose write has completed;
* `Inv` : the accepted messages are the completed ones and then the queue, the head of the queue is
  the one being written, and while the socket is open it is being written;
* `Inv.step` : **one event**; `writes_in_order` : **whole runs**.
-/

namespace SparkFrame.Net.TcpWriter

open SparkFrame.Lib

variable {M : Type} {wire : Wire M}

/-- What `do_write` takes into the queue. -/
def accepted (x : Step (TcpWriter M) (Event M) (List (Effect M))) : List (Message M) :=
  match x.event with
  | .do_write msg => if (x.before.m_send_queue.push msg).2 then [msg] else []
  | _ => []

/-- The message whose write completes without an error. -/
def completed (x : Step (TcpWriter M) (Event M) (List (Effect M))) : List (Message M) :=
  match x.event with
  | .write_complete index false => (x.before.writing[index]?).toList.map AsyncWrite.msg
  | _ => []

/-- The buffer still holds what the write was given. -/
def Intact (s : TcpWriter M) (w : AsyncWrite M) : Prop :=
  s.m_send_msg_buf.m_buffer.read 0 w.bytes.length = w.bytes

/-- The step encodes a message. -/
def Encodes (o : List (Effect M)) : Prop := ∃ msg spans ok, Effect.encode msg spans ok ∈ o

/-- What is known when `acc` has been accepted and `com` completed. -/
structure Inv (acc com : List (Message M)) (s : TcpWriter M) : Prop where
  balance : acc = com ++ s.m_send_queue.messages
  writing : s.writing = [] ∨
    ∃ w, s.writing = [w] ∧ s.m_send_queue.front = some w.msg ∧ s.Intact w
  busy : s.is_open = true → s.m_send_queue.messages ≠ [] → s.writing ≠ []

theorem Inv.new (memory : Memory) : Inv [] [] (new memory : TcpWriter M) where
  balance := rfl
  writing := .inl rfl
  busy := fun _ h => absurd rfl h

/-! ## The member functions -/

theorem not_encodes_nil : ¬ Encodes ([] : List (Effect M)) := fun ⟨_, _, _, h⟩ => nomatch h

theorem not_encodes_do_close (s : TcpWriter M) : ¬ Encodes s.do_close.2 := by
  unfold do_close
  split
  · rintro ⟨_, _, _, h⟩
    simp at h
  · exact not_encodes_nil

theorem is_open_do_close (s : TcpWriter M) : s.do_close.1.is_open = false := by
  unfold do_close
  split
  · rfl
  · next h => simpa using h

theorem Inv.do_close {acc com : List (Message M)} {s : TcpWriter M}
    (hb : acc = com ++ s.m_send_queue.messages)
    (hw : s.writing = [] ∨
      ∃ w, s.writing = [w] ∧ s.m_send_queue.front = some w.msg ∧ s.Intact w) :
    Inv acc com s.do_close.1 := by
  have hclosed := s.is_open_do_close
  refine ⟨?_, ?_, fun hopen => ?_⟩
  · rw [hb]
    unfold TcpWriter.do_close
    split <;> rfl
  · unfold TcpWriter.do_close
    split <;> exact hw
  · rw [hclosed] at hopen
    cases hopen

theorem Inv.start_write (wire : Wire M) {acc com : List (Message M)} {s : TcpWriter M} {msg : Message M}
    (hb : acc = com ++ s.m_send_queue.messages) (hw : s.writing = [])
    (hf : s.m_send_queue.front = some msg) : Inv acc com (s.start_write wire msg).1 := by
  have hwriting : (s.start_write wire msg).1.writing =
      [.of msg (TcpSession.encode wire msg s.m_send_msg_buf).1] := by
    show s.writing ++ _ = _
    rw [hw]
    rfl
  refine ⟨hb, .inr ⟨_, hwriting, hf, ?_⟩, fun _ _ => ?_⟩
  · show Memory.read _ 0 (Memory.read _ 0 _).length = _
    rw [Memory.length_read]
    rfl
  · rw [hwriting]
    exact List.cons_ne_nil _ _

theorem Inv.queued {acc com : List (Message M)} {s : TcpWriter M} (h : Inv acc com s)
    {msg : Message M} {capacity : Nat}
    (hq : s.m_send_queue.messages ≠ [] ∨ s.is_open = false) :
    Inv (acc ++ [msg]) com
      { s with m_send_queue := ⟨capacity, s.m_send_queue.messages ++ [msg]⟩ } := by
  refine ⟨?_, ?_, fun hopen _ => ?_⟩
  · rw [h.balance, List.append_assoc]
  · rcases h.writing with hw | ⟨w, hw, hf, hi⟩
    · exact .inl hw
    · refine .inr ⟨w, hw, ?_, hi⟩
      show (s.m_send_queue.messages ++ [msg]).head? = some w.msg
      rw [List.head?_append, show s.m_send_queue.messages.head? = some w.msg from hf]
      rfl
  · rcases hq with hq | hq
    · exact h.busy hopen hq
    · rw [hq] at hopen
      cases hopen

theorem Inv.writing_eq_nil {acc com : List (Message M)} {s : TcpWriter M} (h : Inv acc com s)
    (hq : s.m_send_queue.messages = []) : s.writing = [] := by
  rcases h.writing with hw | ⟨w, -, hf, -⟩
  · exact hw
  · rw [MessageQueue.front, hq] at hf
    cases hf

/-! ## Runs -/

theorem Inv.complete (wire : Wire M) {acc com : List (Message M)} {s : TcpWriter M} {w : AsyncWrite M}
    (h : Inv acc com s) (hf : s.m_send_queue.front = some w.msg) :
    Inv acc (com ++ [w.msg]) (on_write_complete wire false { s with writing := [] }).1 := by
  obtain ⟨rest, hq⟩ : ∃ rest, s.m_send_queue.messages = w.msg :: rest :=
    List.head?_eq_some_iff.1 hf
  have hrest : s.m_send_queue.pop.messages = rest := by rw [MessageQueue.pop, hq]; rfl
  have hbalance : acc = com ++ [w.msg] ++ s.m_send_queue.pop.messages := by
    rw [h.balance, hq, hrest, List.append_assoc]
    rfl
  rw [on_write_complete_eq (s := { s with writing := [] }) hq]
  split
  · next next hnext =>
    split
    · refine Inv.start_write wire (s := { s with writing := [], m_send_queue := s.m_send_queue.pop })
        hbalance rfl ?_
      rw [MessageQueue.front, hrest]
      exact hnext
    · next hclosed => exact ⟨hbalance, .inl rfl, fun hopen => absurd hopen hclosed⟩
  · next hnone =>
    refine ⟨hbalance, .inl rfl, fun _ hne => absurd ?_ hne⟩
    exact hrest.trans (List.head?_eq_none_iff.1 hnone)

/-- **One event.** -/
theorem Inv.step {acc com : List (Message M)} {s s' : TcpWriter M} {e : Event M}
    {o : List (Effect M)} (h : Inv acc com s) (hs : step wire s e = some (s', o)) :
    Inv (acc ++ accepted ⟨s, e, o, s'⟩) (com ++ completed ⟨s, e, o, s'⟩) s' ∧
      (Encodes o → s.outstanding e = []) := by
  cases e with
  | do_close =>
    have hs : s.do_close = (s', o) := Option.some.inj hs
    have hinv := Inv.do_close h.balance h.writing
    have hne := not_encodes_do_close s
    rw [hs] at hinv hne
    simp only [accepted, completed, List.append_nil]
    exact ⟨hinv, fun he => absurd he hne⟩
  | do_write msg =>
    have hs : s.do_write wire msg = (s', o) := Option.some.inj hs
    simp only [accepted, completed, List.append_nil, outstanding]
    rcases s.m_send_queue.push_cases msg with ⟨capacity, hp⟩ | hp
    · rw [hp, if_pos rfl]
      by_cases hq : s.m_send_queue.messages ≠ [] ∨ s.is_open = false
      · rw [do_write_queued hp hq] at hs
        cases hs
        exact ⟨h.queued hq, fun he => absurd he not_encodes_nil⟩
      · obtain ⟨hq, hopen⟩ := not_or.1 hq
        have hq := not_not.1 hq
        have hw := h.writing_eq_nil hq
        rw [do_write_started hp hq (Bool.not_eq_false _ ▸ hopen)] at hs
        refine ⟨?_, fun _ => hw⟩
        have hbalance : acc ++ [msg] = com ++ (s.m_send_queue.messages ++ [msg]) := by
          rw [h.balance, List.append_assoc]
        have hinv := Inv.start_write wire
          (s := { s with m_send_queue := ⟨capacity, s.m_send_queue.messages ++ [msg]⟩ }) hbalance hw
          (by rw [MessageQueue.front, hq]; rfl : _ = some msg)
        rwa [hs] at hinv
    · rw [hp, if_neg (by simp)]
      rw [do_write_refused hp] at hs
      have hinv := Inv.do_close h.balance h.writing
      have hne := not_encodes_do_close s
      rw [hs] at hinv hne
      rw [List.append_nil]
      exact ⟨hinv, fun he => absurd he hne⟩
  | write_complete index err_code =>
    simp only [TcpWriter.step] at hs
    split at hs
    case isFalse => cases hs
    next hindex =>
    rcases h.writing with hw | ⟨w, hw, hf, -⟩
    · rw [hw] at hindex
      exact absurd hindex (Nat.not_lt_zero _)
    obtain rfl : index = 0 := by
      rw [hw] at hindex
      exact Nat.lt_one_iff.1 hindex
    have hnone : s.writing.eraseIdx 0 = [] := by rw [hw]; rfl
    have hs := Option.some.inj hs
    rw [hnone] at hs
    refine ⟨?_, fun _ => hnone⟩
    cases err_code with
    | true =>
      have hinv := Inv.do_close (s := { s with writing := [] }) h.balance (.inl rfl)
      simp only [accepted, completed, List.append_nil]
      rwa [show TcpWriter.do_close { s with writing := [] } = (s', o) from hs] at hinv
    | false =>
      have hinv := h.complete wire hf
      rw [hs] at hinv
      have hget : s.writing[0]? = some w := by rw [hw]; rfl
      simp only [accepted, completed, hget, List.append_nil]
      exact hinv

/-- **Messages are sent in order, one at a time.** Over every run from an open socket: at most one
write is outstanding; while the socket is open one is outstanding exactly when the queue is not
empty; a message is encoded only while no write is outstanding, so that a write finds its bytes as
they were; and the messages whose writes have completed are the first of those `do_write` accepted,
in that order. -/
theorem writes_in_order {memory : Memory} {tr : List (Step (TcpWriter M) (Event M) _)}
    {s : TcpWriter M} (hr : Run (step wire) (new memory) tr s) :
    s.writing.length ≤ 1 ∧
      (s.is_open = true → (s.writing ≠ [] ↔ s.m_send_queue.is_empty = false)) ∧
      (∀ x ∈ tr, Encodes x.out → x.before.outstanding x.event = []) ∧
      (∀ w ∈ s.writing, s.Intact w) ∧
      tr.flatMap completed <+: tr.flatMap accepted := by
  obtain ⟨hinv, hquiet⟩ : Inv (tr.flatMap accepted) (tr.flatMap completed) s ∧
      ∀ x ∈ tr, Encodes x.out → x.before.outstanding x.event = [] := by
    refine hr.invariant (fun tr s => Inv (tr.flatMap accepted) (tr.flatMap completed) s ∧
      ∀ x ∈ tr, Encodes x.out → x.before.outstanding x.event = []) (fun _ _ => True)
      ⟨.new memory, List.forall_mem_nil _⟩ ?_ fun _ _ => trivial
    intro tr s s' e o ⟨hinv, hquiet⟩ _ hs
    obtain ⟨hinv', hq⟩ := hinv.step hs
    rw [List.flatMap_append, List.flatMap_append, List.forall_mem_append, List.forall_mem_singleton]
    exact ⟨by simpa using hinv', hquiet, hq⟩
  have hempty : s.m_send_queue.is_empty = false ↔ s.m_send_queue.messages ≠ [] := by
    rw [MessageQueue.is_empty, List.isEmpty_eq_false_iff]
  refine ⟨?_, fun hopen => ?_, hquiet, ?_, ?_⟩
  · rcases hinv.writing with hw | ⟨w, hw, -, -⟩
    · rw [hw]
      exact Nat.zero_le _
    · rw [hw]
      exact Nat.le_refl _
  · rw [hempty]
    exact ⟨fun hw hq => hw (hinv.writing_eq_nil hq), hinv.busy hopen⟩
  · rcases hinv.writing with hw | ⟨w, hw, -, hi⟩
    · rw [hw]
      exact List.forall_mem_nil _
    · rw [hw, List.forall_mem_singleton]
      exact hi
  · rw [hinv.balance]
    exact List.prefix_append _ _

/-- Two messages, the first of which has been written. -/
theorem writes_in_order_two :
    ∃ tr s, Run (step .short) (new fun _ => 0) tr s ∧
      tr.flatMap completed = [⟨.new, [1, 2]⟩] ∧ s.writing.length = 1 ∧
      tr.flatMap completed <+: tr.flatMap accepted := by
  obtain ⟨tr, s, hr, hc, hw⟩ := Run.exists_of_exec (step .short) (new fun _ => 0)
    [.do_write ⟨.new, [1, 2]⟩, .do_write ⟨.new, [3]⟩, .write_complete 0 false]
    (P := fun tr s => tr.flatMap completed = [⟨.new, [1, 2]⟩] ∧ s.writing.length = 1) (by decide)
  exact ⟨tr, s, hr, hc, hw, (writes_in_order hr).2.2.2.2⟩

end SparkFrame.Net.TcpWriter
