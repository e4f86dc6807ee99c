import SparkFrame.Net.SendQueue

/-!
# What a session puts on the wire

The buffer has room for `MSG_BUF_SIZE + HEADER_LENGTH` bytes, the receiver takes frames of up to
`MSG_BUF_SIZE`, and `encode` looks at neither; what it returns is not looked at either.

* `Span.Inside`, `PeerAccepts`, `Framed` : what a step should write and send;
* `taken` : the message a step takes from the queue to write it;
* `framed_start_write_iff` : **one message**; `framed_iff` : **whole runs**; `not_framed_of_long` :
  a body of `2 ^ 17 + 1` bytes.
-/

namespace SparkFrame.Net

open SparkFrame.Lib

/-- The write stays inside `m_send_msg_buf`. -/
def Span.Inside (span : Span) : Prop :=
  span.offset + span.length ≤ (MSG_BUF_SIZE + HEADER_LENGTH).toNat

namespace TcpWriter

variable {M : Type} {wire : Wire M}

/-- The peer's two size checks on a frame with this header: `do_read_head`, `decode_header`. -/
def PeerAccepts (big_endian : Bool) (header : Header) (bytes : List TyByte) : Prop :=
  let buf := ((MsgBuffer.new fun _ => 0).receive 0 bytes).decode_header_length big_endian
  ¬ buf.header_length > MSG_BUF_SIZE ∧
    ¬ { buf with m_msg_length := header.length }.buffer_length > MSG_BUF_SIZE

/-- The effects of a step: `encode` writes inside the buffer, and what is put on the wire is the
whole frame of the message, one that the peer accepts. -/
structure Framed (wire : Wire M) (o : List (Effect M)) : Prop where
  inside : ∀ msg spans ok, Effect.encode msg spans ok ∈ o → ∀ span ∈ spans, span.Inside
  encoded : ∀ msg spans w, Effect.encode msg spans false ∈ o → Effect.async_write w ∉ o
  whole : ∀ w, Effect.async_write w ∈ o → w.bytes = TcpSession.frame wire w.msg ∧
    ∀ big_endian, PeerAccepts big_endian (TcpSession.encoded_header wire w.msg) w.bytes

/-- The message a step takes from the queue to write it. -/
def taken (s : TcpWriter M) : Event M → Option (Message M)
  | .do_write msg =>
    if s.m_send_queue.is_empty && (s.m_send_queue.push msg).2 && s.is_open then some msg else none
  | .write_complete _ false => if s.is_open then s.m_send_queue.pop.front else none
  | _ => none

/-! ## One message -/

theorem start_write_out (msg : Message M) (s : TcpWriter M) :
    (s.start_write wire msg).2 =
      [.encode msg (TcpSession.encode wire msg s.m_send_msg_buf).2.1
          (TcpSession.encode wire msg s.m_send_msg_buf).2.2,
        .async_write (.of msg (TcpSession.encode wire msg s.m_send_msg_buf).1)] := rfl

theorem framed_pair_iff {msg : Message M} {spans : List Span} {ok : Bool} {w : AsyncWrite M} :
    Framed wire [.encode msg spans ok, .async_write w] ↔
      (∀ span ∈ spans, span.Inside) ∧ ok = true ∧ w.bytes = TcpSession.frame wire w.msg ∧
        ∀ big_endian, PeerAccepts big_endian (TcpSession.encoded_header wire w.msg) w.bytes := by
  constructor
  · intro h
    refine ⟨h.inside msg spans ok (List.mem_cons_self ..), ?_, h.whole w (by simp)⟩
    by_contra hok
    rw [Bool.not_eq_true] at hok
    rw [hok] at h
    exact h.encoded msg spans w (List.mem_cons_self ..) (by simp)
  · rintro ⟨hin, rfl, hwhole⟩
    refine ⟨?_, ?_, ?_⟩
    · intro msg' spans' ok' hmem
      simp only [List.mem_cons, Effect.encode.injEq, reduceCtorEq, List.not_mem_nil, or_false] at hmem
      rw [hmem.2.1]
      exact hin
    · intro msg' spans' w' hmem
      simp at hmem
    · intro w' hmem
      simp only [List.mem_cons, reduceCtorEq, Effect.async_write.injEq, List.not_mem_nil, or_false,
        false_or] at hmem
      rw [hmem]
      exact hwhole

theorem framed_of_silent {o : List (Effect M)} (hw : ∀ w, Effect.async_write w ∉ o)
    (he : ∀ msg spans ok, Effect.encode msg spans ok ∉ o) : Framed wire o where
  inside := fun msg spans ok h => absurd h (he msg spans ok)
  encoded := fun _ _ w _ => hw w
  whole := fun w h => absurd h (hw w)

theorem header_length_frame (big_endian : Bool) (msg : Message M) :
    (((MsgBuffer.new fun _ => 0).receive 0 (TcpSession.frame wire msg)).decode_header_length
      big_endian).m_header_length = ByteSize (TcpSession.headerBytes wire msg) := by
  apply ntoh32_load32_of_read
  have hread := Memory.read_write (fun _ => 0) 0 (TcpSession.frame wire msg)
  rw [TcpSession.length_frame, Nat.add_assoc, Memory.read_add, TcpSession.frame,
    List.append_assoc] at hread
  rw [MsgBuffer.m_buffer_receive, TcpSession.frame, List.append_assoc]
  exact List.append_inj_left hread rfl

/-- A frame below 2 GiB passes the size checks exactly when it is within the limit. -/
theorem peerAccepts_frame_iff (big_endian : Bool) {msg : Message M}
    (h : (TcpSession.frame wire msg).length < 2 ^ 31) :
    PeerAccepts big_endian (TcpSession.encoded_header wire msg) (TcpSession.frame wire msg) ↔
      ((TcpSession.frame wire msg).length : Int) ≤ MSG_BUF_SIZE := by
  have hlen := TcpSession.length_frame wire msg
  have hheader := TcpSession.toInt_ByteSize
    (show (TcpSession.headerBytes wire msg).length < 2 ^ 31 by omega)
  have hbody := TcpSession.toInt_ByteSize
    (show (TcpSession.bodyBytes wire msg).length < 2 ^ 31 by omega)
  simp only [PeerAccepts, MsgBuffer.buffer_length_eq_wrap, MsgBuffer.header_length,
    MsgBuffer.body_length, header_length_frame, TcpSession.length_encoded_header, hheader, hbody,
    Int.bmod_def]
  unfold MSG_BUF_SIZE
  omega

theorem bytes_of_encode {msg : Message M} (h : (TcpSession.frame wire msg).length < 2 ^ 31)
    (buf : MsgBuffer) :
    (AsyncWrite.of msg (TcpSession.encode wire msg buf).1).bytes = TcpSession.frame wire msg := by
  have hlen := TcpSession.length_frame wire msg
  have hheader := TcpSession.toInt_ByteSize
    (show (TcpSession.headerBytes wire msg).length < 2 ^ 31 by omega)
  have hbody := TcpSession.toInt_ByteSize
    (show (TcpSession.bodyBytes wire msg).length < 2 ^ 31 by omega)
  rw [TcpSession.encode_eq (by omega) (by omega)]
  have hlength : (⟨ByteSize (TcpSession.headerBytes wire msg), ByteSize (TcpSession.bodyBytes wire msg),
      TcpSession.encodedMemory wire msg buf.m_buffer⟩ : MsgBuffer).buffer_length =
        (TcpSession.frame wire msg).length := by
    rw [MsgBuffer.buffer_length_eq_wrap, MsgBuffer.header_length, MsgBuffer.body_length, hheader,
      hbody, Int.bmod_def]
    omega
  have hsize : toSize (TcpSession.frame wire msg).length = (TcpSession.frame wire msg).length := by
    have := toSize_of_nonneg (i := (TcpSession.frame wire msg).length) (by omega) (by omega)
    omega
  rw [AsyncWrite.of, hlength, hsize]
  exact TcpSession.read_encodedMemory wire msg buf.m_buffer

/-- **One message.** What is written and sent for it is framed exactly when the frame has at most
`MSG_BUF_SIZE` bytes. -/
theorem framed_start_write_iff (msg : Message M) (s : TcpWriter M) :
    Framed wire (s.start_write wire msg).2 ↔
      ((TcpSession.frame wire msg).length : Int) ≤ MSG_BUF_SIZE := by
  have hlen := TcpSession.length_frame wire msg
  rw [start_write_out, framed_pair_iff]
  constructor
  · rintro ⟨hin, hok, hbytes, haccepts⟩
    have hsmall : (TcpSession.headerBytes wire msg).length < 2 ^ 31 ∧
        (TcpSession.bodyBytes wire msg).length < 2 ^ 31 := by
      by_contra hlarge
      rw [TcpSession.encode_fails hlarge] at hok
      cases hok
    rw [TcpSession.encode_eq hsmall.1 hsmall.2] at hin
    have hbody : 4 + (TcpSession.headerBytes wire msg).length +
        (TcpSession.bodyBytes wire msg).length ≤ 131076 :=
      hin ⟨4 + (TcpSession.headerBytes wire msg).length, (TcpSession.bodyBytes wire msg).length⟩
        (by simp)
    rw [hbytes] at haccepts
    exact (peerAccepts_frame_iff false (by omega)).1 (haccepts false)
  · intro h
    have hle : (TcpSession.frame wire msg).length ≤ 131072 := Int.ofNat_le.1 h
    have hlt : (TcpSession.frame wire msg).length < 2 ^ 31 := by omega
    refine ⟨?_, ?_, bytes_of_encode hlt _, fun big_endian => ?_⟩
    · rw [TcpSession.encode_eq (by omega) (by omega)]
      simp only [Span.Inside, List.mem_cons, List.not_mem_nil, or_false, forall_eq_or_imp, forall_eq]
      unfold MSG_BUF_SIZE HEADER_LENGTH
      omega
    · rw [TcpSession.encode_eq (by omega) (by omega)]
    · rw [bytes_of_encode hlt]
      exact (peerAccepts_frame_iff big_endian hlt).2 h

/-! ## Runs -/

theorem framed_nil : Framed wire [] :=
  framed_of_silent (fun _ h => nomatch h) fun _ _ _ h => nomatch h

theorem framed_do_close (s : TcpWriter M) : Framed wire s.do_close.2 := by
  unfold do_close
  split
  · apply framed_of_silent <;> simp
  · exact framed_nil

/-- The frame of every message of `taken` is within the limit. -/
def Fits (wire : Wire M) (taken : Option (Message M)) : Prop :=
  ∀ msg ∈ taken, ((TcpSession.frame wire msg).length : Int) ≤ MSG_BUF_SIZE

theorem fits_none : Fits wire none := fun _ h => nomatch h

theorem framed_start_write_iff_fits (msg : Message M) (s : TcpWriter M) :
    Framed wire (s.start_write wire msg).2 ↔ Fits wire (some msg) := by
  rw [framed_start_write_iff, Fits]
  simp

theorem framed_do_write_iff (msg : Message M) (s : TcpWriter M) :
    Framed wire (s.do_write wire msg).2 ↔ Fits wire (s.taken (.do_write msg)) := by
  rcases s.m_send_queue.push_cases msg with ⟨capacity, hp⟩ | hp
  · by_cases hq : s.m_send_queue.messages ≠ [] ∨ s.is_open = false
    · have ht : s.taken (.do_write msg) = none := by
        rcases hq with hq | hq <;> simp [taken, MessageQueue.is_empty, hq]
      rw [do_write_queued hp hq, ht]
      exact iff_of_true framed_nil fits_none
    · obtain ⟨hq, hopen⟩ := not_or.1 hq
      have hq := not_not.1 hq
      have hopen := Bool.not_eq_false _ ▸ hopen
      have ht : s.taken (.do_write msg) = some msg := by
        simp [taken, MessageQueue.is_empty, hq, hp, hopen]
      rw [do_write_started hp hq hopen, ht]
      exact framed_start_write_iff_fits msg _
  · have ht : s.taken (.do_write msg) = none := by simp [taken, hp]
    rw [do_write_refused hp, ht]
    exact iff_of_true (framed_do_close s) fits_none

theorem framed_on_write_complete_iff (index : Nat) (err_code : Bool) (s : TcpWriter M)
    (writing : List (AsyncWrite M)) :
    Framed wire ({ s with writing := writing }.on_write_complete wire err_code).2 ↔
      Fits wire (s.taken (.write_complete index err_code)) := by
  cases err_code with
  | true => exact iff_of_true (framed_do_close _) fits_none
  | false =>
    cases hq : s.m_send_queue.messages with
    | nil =>
      have ht : s.taken (.write_complete index false) = none := by
        simp [taken, MessageQueue.front, MessageQueue.pop, hq]
      rw [ht]
      refine iff_of_true ?_ fits_none
      simp only [on_write_complete, MessageQueue.front, hq]
      apply framed_of_silent <;> simp
    | cons msg rest =>
      have ht : s.taken (.write_complete index false) = if s.is_open then rest.head? else none := by
        simp [taken, MessageQueue.front, MessageQueue.pop, hq]
      rw [on_write_complete_eq (s := { s with writing := writing }) hq, ht]
      cases hr : rest.head? with
      | none => exact iff_of_true framed_nil (by split <;> exact fits_none)
      | some next =>
        cases hopen : s.is_open with
        | false => exact iff_of_true framed_nil fits_none
        | true => exact framed_start_write_iff_fits next _

/-- **One event.** -/
theorem framed_step_iff {s s' : TcpWriter M} {e : Event M} {o : List (Effect M)}
    (hs : step wire s e = some (s', o)) : Framed wire o ↔ Fits wire (s.taken e) := by
  cases e with
  | do_close =>
    have ho : s.do_close.2 = o := congrArg Prod.snd (Option.some.inj hs)
    rw [← ho]
    exact iff_of_true (framed_do_close s) fits_none
  | do_write msg =>
    have ho : (s.do_write wire msg).2 = o := congrArg Prod.snd (Option.some.inj hs)
    rw [← ho]
    exact framed_do_write_iff msg s
  | write_complete index err_code =>
    simp only [step] at hs
    split at hs
    case isFalse => cases hs
    have ho : _ = o := congrArg Prod.snd (Option.some.inj hs)
    rw [← ho]
    exact framed_on_write_complete_iff index err_code s _

/-- **What is sent is framed exactly when it fits.** Over every run: every message taken from the
queue is written inside the buffer and sent as its whole frame, one the peer accepts, if and only if
the frames of all messages taken have at most `MSG_BUF_SIZE` bytes. -/
theorem framed_iff {memory : Memory} {tr : List (Step (TcpWriter M) (Event M) _)} {s : TcpWriter M}
    (hr : Run (step wire) (new memory) tr s) :
    (∀ x ∈ tr, Framed wire x.out) ↔ ∀ x ∈ tr, Fits wire (x.before.taken x.event) :=
  forall₂_congr fun _ hx => framed_step_iff (hr.step_of_mem hx)

/-- A frame of ten bytes. -/
theorem framed_iff_short :
    ∃ tr s, Run (step .short) (new fun _ => 0) tr s ∧
      (∃ x ∈ tr, x.before.taken x.event = some ⟨.new, [1, 2]⟩) ∧
      ((∀ x ∈ tr, Framed .short x.out) ↔ ∀ x ∈ tr, Fits .short (x.before.taken x.event)) := by
  obtain ⟨tr, s, hr, ht⟩ := Run.exists_of_exec (step .short) (new fun _ => 0)
    [.do_write ⟨.new, [1, 2]⟩]
    (P := fun tr _ => ∃ x ∈ tr, x.before.taken x.event = some ⟨.new, [1, 2]⟩) (by decide)
  exact ⟨tr, s, hr, ht, framed_iff hr⟩

theorem exists_run_first (wire : Wire M) (memory : Memory) (msg : Message M) :
    ∃ tr s s₀, Run (step wire) (new memory) tr s ∧ ∃ x ∈ tr, x.out = (start_write wire msg s₀).2 := by
  have hp : (new memory : TcpWriter M).m_send_queue.push msg = (⟨256, [] ++ [msg]⟩, true) := rfl
  have hw : do_write wire msg _ = _ := do_write_started hp rfl rfl
  have hs : step wire (new memory) (.do_write msg) = some ((new memory).do_write wire msg) := rfl
  have hr : Run (step wire) (new memory) _ ((new memory).do_write wire msg).1 := .snoc .nil hs
  exact ⟨_, _, _, hr, _, List.mem_singleton_self _, congrArg Prod.snd hw⟩

/-- The header of a body of `2 ^ 17 + 1` bytes, nothing else being set. -/
def longWire : Wire (List TyByte) :=
  { big_endian := false
    header_bytes := fun _ => [32, 129, 128, 8, 40, 129, 128, 8]
    message_bytes := id }

/-- A body of `2 ^ 17 + 1` bytes is written past the end of the buffer and sent. -/
theorem not_framed_of_long :
    ∃ tr s, Run (step longWire) (new fun _ => 0) tr s ∧
      ∃ x ∈ tr, ¬ Framed longWire x.out ∧
        ∃ msg spans ok, Effect.encode msg spans ok ∈ x.out ∧ ∃ span ∈ spans, ¬ span.Inside := by
  obtain ⟨body, hlength⟩ : ∃ body : List TyByte, body.length = 131073 :=
    ⟨List.replicate 131073 0, List.length_replicate ..⟩
  have hbody : (TcpSession.bodyBytes longWire ⟨.new, body⟩).length = 131073 := hlength
  have hheader : (TcpSession.headerBytes longWire ⟨.new, body⟩).length = 8 := rfl
  have hframe := TcpSession.length_frame longWire ⟨.new, body⟩
  obtain ⟨tr, s, s₀, hr, x, hx, hout⟩ := exists_run_first longWire (fun _ => 0) ⟨.new, body⟩
  refine ⟨tr, s, hr, x, hx, ?_, ?_⟩
  · rw [hout, framed_start_write_iff]
    unfold MSG_BUF_SIZE
    omega
  · rw [hout, start_write_out, TcpSession.encode_eq (by omega) (by omega), hbody, hheader]
    refine ⟨_, _, true, List.mem_cons_self .., ⟨12, 131073⟩, by simp, ?_⟩
    simp [Span.Inside, MSG_BUF_SIZE, HEADER_LENGTH]

end TcpWriter

end SparkFrame.Net
