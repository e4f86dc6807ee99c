import SparkFrame.Net.Framing
import SparkFrame.Net.ReadBounds

/-!
# From one session's `encode` to another's read loop

The sender encodes message after message into one buffer; the receiver reads length prefix, header
and body of each into another. The platforms of the two may differ in byte order.

* `encodeAll` : the bytes of the frames, one after another; `encodeAll_eq` : they are the `frame`s;
* `FrameFits`, `Readable` : the frame is within the limit, and the receiver's classes parse what the
  sender's serialize;
* `messages`, `delivered`, `readBytes` : the messages handed on, and the bytes read, in a step;
* `read_frame` : **one message**; `delivers_stream` : **a whole stream**.
-/

namespace SparkFrame.Net.TcpSession

open SparkFrame.Lib

variable {M : Type} {wire : Wire M} {env : Env M}

/-- What `encode` produces for each message, in one buffer that is used again and again. -/
def encodeAll (wire : Wire M) : List (Message M) → MsgBuffer → List TyByte
  | [], _ => []
  | msg :: msgs, buf =>
    let buf := (encode wire msg buf).1
    (AsyncWrite.of msg buf).bytes ++ encodeAll wire msgs buf

/-- The frame is within the limit. -/
def FrameFits (wire : Wire M) (msg : Message M) : Prop :=
  ((frame wire msg).length : Int) ≤ MSG_BUF_SIZE

theorem FrameFits.le {msg : Message M} (h : FrameFits wire msg) :
    (frame wire msg).length ≤ 131072 := by
  have h : ((frame wire msg).length : Int) ≤ 1024 * 128 := h
  omega

theorem FrameFits.lt {msg : Message M} (h : FrameFits wire msg) :
    (frame wire msg).length < 2 ^ 31 := Nat.lt_of_le_of_lt h.le (by decide)

/-- The receiver can read the message: its header class parses what the sender's serializes, and the
command is registered with a body class that does. -/
structure Readable (env : Env M) (wire : Wire M) (msg : Message M) : Prop where
  header : ∀ p, p.read 0 (headerBytes wire msg).length = headerBytes wire msg →
    env.ParseFromArray p (headerBytes wire msg).length = some (encoded_header wire msg)
  body : ∃ parse, env.make_message msg.header.type msg.header.cmdtype = some parse ∧
    ∀ p, p.read 0 (bodyBytes wire msg).length = bodyBytes wire msg →
      parse p (bodyBytes wire msg).length = some msg.pbmessage

/-- The messages among some effects that were read from the wire. -/
def messages (o : List (Effect M)) : List (Message M) :=
  o.filterMap fun
    | .handle_message ⟨header, .message m⟩ => some ⟨header, m⟩
    | .asyn_response_come ⟨header, .message m⟩ => some ⟨header, m⟩
    | _ => none

/-- The messages a step hands on. -/
def delivered (x : Step TcpSession Event (List (Effect M))) : List (Message M) := messages x.out

/-- The bytes a step reads. -/
def readBytes (x : Step TcpSession Event (List (Effect M))) : List TyByte :=
  match x.event with
  | .read_complete false bytes => bytes
  | _ => []

/-- The step is a read that succeeds. -/
def IsRead (x : Step TcpSession Event (List (Effect M))) : Prop :=
  ∃ bytes, x.event = .read_complete false bytes

/-- The step closes the socket. -/
def Closes (x : Step TcpSession Event (List (Effect M))) : Prop := .socket_close ∈ x.out

/-- The session waits for the next length prefix. -/
structure Waiting (s : TcpSession) : Prop where
  is_open : s.is_open = true
  reading : s.reading = some ⟨0, 4, .on_read_head_len_complete⟩

/-! ## What is sent -/

theorem encodeAll_eq {msgs : List (Message M)} (h : ∀ msg ∈ msgs, FrameFits wire msg)
    (buf : MsgBuffer) : encodeAll wire msgs buf = msgs.flatMap (frame wire) := by
  induction msgs generalizing buf with
  | nil => rfl
  | cons msg msgs ih =>
    rw [List.forall_mem_cons] at h
    have hlt : (frame wire msg).length < 2 ^ 31 := h.1.lt
    rw [List.flatMap_cons, encodeAll, TcpWriter.bytes_of_encode hlt, ih h.2]

/-! ## One read -/

theorem messages_handle_recv_message (header : Header) (m : M) (r : AsyncRead) :
    messages (handle_recv_message ⟨header, .message m⟩ ++ [.async_read r]) = [⟨header, m⟩] := by
  unfold handle_recv_message
  split <;> rfl

theorem not_closes_handle_recv_message (msg : Message (PbMessage M)) (r : AsyncRead) :
    .socket_close ∉ handle_recv_message msg ++ [.async_read r] := by
  unfold handle_recv_message
  split <;> simp

theorem step_read {s : TcpSession} {r : AsyncRead} {bytes : List TyByte} (hr : s.reading = some r)
    (hlen : bytes.length = r.length) :
    step env s (.read_complete false bytes) =
      some ((s.received r bytes).complete env false r.handler) := by
  simp [step, hr, AsyncRead.Completes, hlen]

theorem length_of_read {s s' : TcpSession} {o : List (Effect M)} {bytes : List TyByte}
    (h : step env s (.read_complete false bytes) = some (s', o)) :
    ∃ r, s.reading = some r ∧ bytes.length = r.length := by
  simp only [step] at h
  split at h
  · cases h
  · next r hr =>
    split at h
    · next hc => exact ⟨r, hr, hc⟩
    · cases h

theorem read_received (s : TcpSession) (r : AsyncRead) (bytes : List TyByte) :
    (s.received r bytes).m_recv_msg_buf.m_buffer.read r.offset bytes.length = bytes :=
  Memory.read_write _ _ _

theorem read_offset (p : Memory) (n len : Nat) : (p.offset n).read 0 len = p.read n len := by
  simp [Memory.read, Memory.offset]

theorem toSize_ByteSize {bytes : List TyByte} (h : bytes.length < 2 ^ 31) :
    toSize (ByteSize bytes).toInt = bytes.length := by
  have := toSize_of_nonneg (i := bytes.length) (by omega) (by omega)
  rw [toInt_ByteSize h]
  omega

/-- The session waits for a header. -/
structure AwaitsHeader (wire : Wire M) (msg : Message M) (s : TcpSession) : Prop where
  is_open : s.is_open = true
  reading : s.reading = some ⟨4, (headerBytes wire msg).length, .on_read_head_complete⟩
  header_length : s.m_recv_msg_buf.m_header_length = ByteSize (headerBytes wire msg)

/-- The session waits for a body. -/
structure AwaitsBody (wire : Wire M) (msg : Message M) (s : TcpSession) : Prop where
  is_open : s.is_open = true
  reading : s.reading = some ⟨4 + (headerBytes wire msg).length, (bodyBytes wire msg).length,
    .on_read_complete⟩
  header_length : s.m_recv_msg_buf.m_header_length = ByteSize (headerBytes wire msg)
  msg_length : s.m_recv_msg_buf.m_msg_length = ByteSize (bodyBytes wire msg)
  header : s.m_cur_msg = encoded_header wire msg

theorem read_head_len {s : TcpSession} {msg : Message M} (hs : Waiting s) (hf : FrameFits wire msg) :
    ∃ s' r, step env s (.read_complete false (bigEndianBytes (ByteSize (headerBytes wire msg)))) =
        some (s', [.async_read r]) ∧ AwaitsHeader wire msg s' := by
  have hlen := length_frame wire msg
  have hle := hf.le
  have hlt : (headerBytes wire msg).length < 2 ^ 31 := by omega
  rw [step_read hs.reading rfl]
  obtain ⟨buf, hbuf⟩ : ∃ buf, buf = MsgBuffer.decode_header_length env.big_endian
      (s.received ⟨0, 4, .on_read_head_len_complete⟩
        (bigEndianBytes (ByteSize (headerBytes wire msg)))).m_recv_msg_buf := ⟨_, rfl⟩
  have hdecode : buf.m_header_length = ByteSize (headerBytes wire msg) := by
    rw [hbuf]
    exact ntoh32_load32_of_read _ (read_received s ⟨0, 4, _⟩ (bigEndianBytes _))
  have hcheck : ¬ buf.header_length > MSG_BUF_SIZE := by
    rw [MsgBuffer.header_length, hdecode, toInt_ByteSize hlt]
    unfold MSG_BUF_SIZE
    omega
  have hsize : toSize buf.header_length = (headerBytes wire msg).length := by
    rw [MsgBuffer.header_length, hdecode, toSize_ByteSize hlt]
  simp only [complete, on_read_head_len_complete, do_read_head, Bool.not_false, if_true, ← hbuf,
    if_neg hcheck, hsize]
  exact ⟨_, _, rfl, hs.is_open, rfl, hdecode⟩

theorem read_head {s : TcpSession} {msg : Message M} (hs : AwaitsHeader wire msg s)
    (hf : FrameFits wire msg) (hr : Readable env wire msg) :
    ∃ s' r, step env s (.read_complete false (headerBytes wire msg)) = some (s', [.async_read r]) ∧
      AwaitsBody wire msg s' := by
  have hlen := length_frame wire msg
  have hle := hf.le
  have hlt : (headerBytes wire msg).length < 2 ^ 31 := by omega
  have hbody := toInt_ByteSize (show (bodyBytes wire msg).length < 2 ^ 31 by omega)
  rw [step_read hs.reading rfl]
  obtain ⟨s₁, hs₁⟩ : ∃ s₁, s₁ = s.received ⟨4, (headerBytes wire msg).length, .on_read_head_complete⟩
      (headerBytes wire msg) := ⟨_, rfl⟩
  have hlength : s₁.m_recv_msg_buf.m_header_length = ByteSize (headerBytes wire msg) := by
    rw [hs₁]
    exact hs.header_length
  have hparse : env.ParseFromArray (s₁.m_recv_msg_buf.m_buffer.offset s₁.m_recv_msg_buf.header_buffer)
      s₁.m_recv_msg_buf.header_length = some (encoded_header wire msg) := by
    rw [MsgBuffer.header_length, hlength, toInt_ByteSize hlt]
    refine hr.header _ ?_
    rw [read_offset, hs₁]
    exact read_received s ⟨4, _, _⟩ (headerBytes wire msg)
  have hsum : (s₁.decoded (encoded_header wire msg)).m_recv_msg_buf.buffer_length =
      (frame wire msg).length := by
    rw [MsgBuffer.buffer_length_eq_wrap, MsgBuffer.header_length, MsgBuffer.body_length, Int.bmod_def]
    simp only [decoded, hlength, length_encoded_header, toInt_ByteSize hlt, hbody]
    omega
  have hoffset : (s₁.decoded (encoded_header wire msg)).m_recv_msg_buf.body_buffer =
      4 + (headerBytes wire msg).length := by
    simp only [MsgBuffer.body_buffer, decoded, hlength, toNat_ByteSize hlt]
    rfl
  have hsize : toSize (s₁.decoded (encoded_header wire msg)).m_recv_msg_buf.body_length =
      (bodyBytes wire msg).length :=
    toSize_ByteSize (show (bodyBytes wire msg).length < 2 ^ 31 by omega)
  simp only [complete, on_read_head_complete, Bool.not_false, if_true, ← hs₁]
  rw [do_read_body_eq hparse, hsum, if_neg (not_lt.2 hf), check_encoded_header,
    if_neg (by simp), hoffset, hsize]
  refine ⟨_, _, rfl, ?_, rfl, hlength, rfl, rfl⟩
  show s₁.is_open = true
  rw [hs₁]
  exact hs.is_open

/-- The body has been read: the message is handed on, and the next prefix is awaited. -/
theorem read_body {s : TcpSession} {msg : Message M} (hs : AwaitsBody wire msg s)
    (hf : FrameFits wire msg) (hr : Readable env wire msg) :
    ∃ s' r, step env s (.read_complete false (bodyBytes wire msg)) =
        some (s', handle_recv_message ⟨encoded_header wire msg, .message msg.pbmessage⟩ ++
          [.async_read r]) ∧ Waiting s' := by
  have hlen := length_frame wire msg
  have hle := hf.le
  have hheader := toNat_ByteSize (show (headerBytes wire msg).length < 2 ^ 31 by omega)
  have hbody := toInt_ByteSize (show (bodyBytes wire msg).length < 2 ^ 31 by omega)
  obtain ⟨parse, hmake, hparse⟩ := hr.body
  rw [step_read hs.reading rfl]
  obtain ⟨s₁, hs₁⟩ : ∃ s₁, s₁ = s.received ⟨4 + (headerBytes wire msg).length,
      (bodyBytes wire msg).length, .on_read_complete⟩ (bodyBytes wire msg) := ⟨_, rfl⟩
  have hcur : s₁.m_cur_msg = encoded_header wire msg := by rw [hs₁]; exact hs.header
  have hmsg : s₁.make_msg env = some ⟨encoded_header wire msg, .message msg.pbmessage⟩ := by
    have hoffset : s₁.m_recv_msg_buf.body_buffer = 4 + (headerBytes wire msg).length := by
      rw [hs₁, MsgBuffer.body_buffer]
      show _ + s.m_recv_msg_buf.m_header_length.toNat = _
      rw [hs.header_length, hheader]
      rfl
    have hlength : s₁.m_recv_msg_buf.body_length = (bodyBytes wire msg).length := by
      rw [hs₁]
      show s.m_recv_msg_buf.m_msg_length.toInt = _
      rw [hs.msg_length, hbody]
    have hdecode : s₁.m_recv_msg_buf.decode_message parse = some msg.pbmessage := by
      rw [MsgBuffer.decode_message, hlength]
      refine hparse _ ?_
      rw [read_offset, hoffset, hs₁]
      exact read_received s ⟨4 + (headerBytes wire msg).length, _, _⟩ (bodyBytes wire msg)
    rw [make_msg, hcur]
    show (do
      let parse ← env.make_message msg.header.type msg.header.cmdtype
      let m ← s₁.m_recv_msg_buf.decode_message parse
      return (⟨encoded_header wire msg, .message m⟩ : Message (PbMessage M))) = _
    rw [hmake]
    simp [hdecode]
  simp only [complete, on_read_complete, Bool.not_false, if_true, ← hs₁, hmsg]
  refine ⟨_, _, rfl, ?_, rfl⟩
  show s₁.is_open = true
  rw [hs₁]
  exact hs.is_open

/-! ## The stream -/

/-- What a run of reads does. -/
structure Reads (env : Env M) (s : TcpSession) (bytes : List TyByte) (msgs : List (Message M))
    (tr : List (Step TcpSession Event (List (Effect M)))) (s' : TcpSession) : Prop where
  run : Run (step env) s tr s'
  reads : ∀ x ∈ tr, IsRead x
  bytes : tr.flatMap readBytes = bytes
  delivered : tr.flatMap delivered = msgs
  stays : ∀ x ∈ tr, ¬ Closes x

/-- The header fields and the body that are handed on for a message. -/
def received_msg (wire : Wire M) (msg : Message M) : Message M :=
  ⟨encoded_header wire msg, msg.pbmessage⟩

/-- **One message.** -/
theorem read_frame {s : TcpSession} {msg : Message M} (hs : Waiting s) (hf : FrameFits wire msg)
    (hr : Readable env wire msg) :
    ∃ tr s', Reads env s (frame wire msg) [received_msg wire msg] tr s' ∧ Waiting s' := by
  obtain ⟨s₁, r₁, hstep₁, hs₁⟩ := @read_head_len _ _ env _ _ hs hf
  obtain ⟨s₂, r₂, hstep₂, hs₂⟩ := read_head hs₁ hf hr
  obtain ⟨s₃, r₃, hstep₃, hs₃⟩ := read_body hs₂ hf hr
  refine ⟨_, s₃, ⟨.snoc (.snoc (.snoc .nil hstep₁) hstep₂) hstep₃, ?_, ?_, ?_, ?_⟩, hs₃⟩
  · simp [IsRead]
  · simp [readBytes, frame]
  · simp only [List.nil_append, List.flatMap_append, List.flatMap_cons, List.flatMap_nil,
      TcpSession.delivered, messages_handle_recv_message]
    rfl
  · have hbody := not_closes_handle_recv_message ⟨encoded_header wire msg, .message msg.pbmessage⟩ r₃
    simp only [List.nil_append, List.forall_mem_append, List.forall_mem_singleton, Closes]
    exact ⟨⟨by simp, by simp⟩, hbody⟩

theorem Reads.append {s s' s'' : TcpSession} {bytes bytes' : List TyByte}
    {msgs msgs' : List (Message M)} {tr tr' : List (Step TcpSession Event (List (Effect M)))}
    (h : Reads env s bytes msgs tr s') (h' : Reads env s' bytes' msgs' tr' s'') :
    Reads env s (bytes ++ bytes') (msgs ++ msgs') (tr ++ tr') s'' where
  run := h.run.append h'.run
  reads := List.forall_mem_append.2 ⟨h.reads, h'.reads⟩
  bytes := by rw [List.flatMap_append, h.bytes, h'.bytes]
  delivered := by rw [List.flatMap_append, h.delivered, h'.delivered]
  stays := List.forall_mem_append.2 ⟨h.stays, h'.stays⟩

theorem read_frames {msgs : List (Message M)} (hf : ∀ msg ∈ msgs, FrameFits wire msg)
    (hr : ∀ msg ∈ msgs, Readable env wire msg) {s : TcpSession}
    (hs : Waiting s) :
    ∃ tr s', Reads env s (msgs.flatMap (frame wire)) (msgs.map (received_msg wire)) tr s' ∧
      Waiting s' := by
  induction msgs generalizing s with
  | nil =>
    exact ⟨[], s, ⟨.nil, List.forall_mem_nil _, rfl, rfl, List.forall_mem_nil _⟩, hs⟩
  | cons msg msgs ih =>
    rw [List.forall_mem_cons] at hf hr
    obtain ⟨tr, s', hreads, hs'⟩ := read_frame hs hf.1 hr.1
    obtain ⟨tr', s'', hreads', hs''⟩ := ih hf.2 hr.2 hs'
    exact ⟨tr ++ tr', s'', hreads.append hreads', hs''⟩

/-- **Reads are determined by the bytes.** A run of reads whose bytes are the first of those of
another one is the beginning of it, if that one ends waiting for more. -/
theorem Reads.beginning {s s' : TcpSession} {bytes : List TyByte} {msgs : List (Message M)}
    {tr : List (Step TcpSession Event (List (Effect M)))} (h : Reads env s bytes msgs tr s')
    (hs' : Waiting s') {tr' : List (Step TcpSession Event (List (Effect M)))} {t : TcpSession}
    (hr : Run (step env) s tr' t) (hreads : ∀ x ∈ tr', IsRead x)
    (hbytes : tr'.flatMap readBytes <+: bytes) : tr' <+: tr := by
  induction hr with
  | nil => exact List.nil_prefix
  | @snoc tr' t t' e o hpre hstep ih =>
    rw [List.forall_mem_append, List.forall_mem_singleton] at hreads
    rw [List.flatMap_append] at hbytes
    obtain ⟨rest, rfl⟩ := ih hreads.1 ((List.prefix_append _ _).trans hbytes)
    obtain ⟨b, rfl⟩ : ∃ b, e = .read_complete false b := hreads.2
    obtain ⟨m, hm, hrest⟩ := h.run.of_append
    obtain rfl : m = t := hm.state_unique hpre
    rw [← h.bytes, List.flatMap_append, List.prefix_append_right_inj] at hbytes
    obtain ⟨r, hr, hlen⟩ := length_of_read hstep
    cases rest with
    | nil =>
      obtain rfl := hrest.nil_inv
      rw [hs'.reading, Option.some.injEq] at hr
      rw [← hr] at hlen
      have hnil : b = [] := by simpa [readBytes] using hbytes
      rw [hnil] at hlen
      cases hlen
    | cons y rest =>
      obtain ⟨hbefore, hy, -⟩ := hrest.cons_inv
      obtain ⟨b', hevent⟩ := h.reads y (by simp)
      rw [hevent] at hy
      obtain ⟨r', hr', hlen'⟩ := length_of_read hy
      rw [hr, Option.some.injEq] at hr'
      have hb : b = b' := by
        simp only [List.flatMap_cons, List.flatMap_nil, List.append_nil, readBytes, hevent] at hbytes
        refine List.IsPrefix.eq_of_length (List.prefix_of_prefix_length_le hbytes
          (List.prefix_append _ _) ?_) ?_
        · rw [hlen, hlen', hr']
        · rw [hlen, hlen', hr']
      rw [← hb, hstep, Option.some.injEq, Prod.mk.injEq] at hy
      have hxy : y = ⟨m, .read_complete false b, o, t'⟩ := by
        rw [hb, hy.1, hy.2, ← hevent, ← hbefore]
      rw [hxy]
      exact ⟨rest, by simp⟩

/-- **A stream is delivered as it was sent.** The frames `encode` produces for any messages within
the limit, one after another from one buffer, make the read loop of a waiting session hand on just
these messages, with their header fields and bodies and in their order, and wait for more: a run of
successful reads of just these bytes does so without closing the socket, and every run of successful
reads of a part of the bytes is the beginning of that run. -/
theorem delivers_stream {msgs : List (Message M)} (hf : ∀ msg ∈ msgs, FrameFits wire msg)
    (hr : ∀ msg ∈ msgs, Readable env wire msg) {s : TcpSession}
    (hs : Waiting s) (buf : MsgBuffer) :
    ∃ tr s', Reads env s (encodeAll wire msgs buf) (msgs.map (received_msg wire)) tr s' ∧
      Waiting s' ∧
      ∀ tr' t, Run (step env) s tr' t → (∀ x ∈ tr', IsRead x) →
        tr'.flatMap readBytes <+: encodeAll wire msgs buf → tr' <+: tr := by
  obtain ⟨tr, s', hreads, hs'⟩ := read_frames hf hr hs
  rw [encodeAll_eq hf]
  exact ⟨tr, s', hreads, hs', fun _ _ hrun hall hbytes => hreads.beginning hs' hrun hall hbytes⟩

/-! ### An example -/

/-- Headers whose sequence id and result are not set and whose other fields are between 1 and 127. -/
def smallWire : Wire (List TyByte) :=
  { big_endian := false
    header_bytes := fun header => [8, header.cmdtype.setWidth 8, 16, header.type.setWidth 8,
      32, header.length.setWidth 8, 40, header.check_result.setWidth 8]
    message_bytes := id }

/-- A receiver of such headers, with every command registered. -/
def smallEnv : Env (List TyByte) :=
  { big_endian := true
    ParseFromArray := fun p size =>
      if size = 8 then
        some ⟨(p 1).setWidth 32, (p 3).setWidth 32, 0, (p 5).setWidth 32, (p 7).setWidth 64, 0⟩
      else none
    make_message := fun _ _ => some fun p size => some (p.read 0 size.toNat)
    has_session_manager := false }

/-- A request with two bytes. -/
def smallRequest : Message (List TyByte) :=
  ⟨{ Header.new with cmdtype := 7, type := REQUEST_TYPE }, [1, 2]⟩

/-- A shorter response, written over what is left of the request. -/
def smallResponse : Message (List TyByte) :=
  ⟨{ Header.new with cmdtype := 9, type := RESPONSE_TYPE }, [3]⟩

/-- What the small fields of a header become on the way. -/
def onWire (header : Header) : Header :=
  ⟨(header.cmdtype.setWidth 8).setWidth 32, (header.type.setWidth 8).setWidth 32, 0,
    (header.length.setWidth 8).setWidth 32, (header.check_result.setWidth 8).setWidth 64, 0⟩

theorem readable_of_onWire {msg : Message (List TyByte)}
    (h : onWire (encoded_header smallWire msg) = encoded_header smallWire msg) :
    Readable smallEnv smallWire msg := by
  refine ⟨fun p hp => ?_, _, rfl, fun p hp => congrArg some hp⟩
  have hbytes : [p 0, p 1, p 2, p 3, p 4, p 5, p 6, p 7] =
      [8, (encoded_header smallWire msg).cmdtype.setWidth 8, 16,
        (encoded_header smallWire msg).type.setWidth 8, 32,
        (encoded_header smallWire msg).length.setWidth 8, 40,
        (encoded_header smallWire msg).check_result.setWidth 8] := hp
  simp only [List.cons.injEq] at hbytes
  obtain ⟨-, h₁, -, h₃, -, h₅, -, h₇, -⟩ := hbytes
  show (if (8 : Int) = 8 then some (⟨(p 1).setWidth 32, (p 3).setWidth 32, 0, (p 5).setWidth 32,
    (p 7).setWidth 64, 0⟩ : Header) else none) = _
  rw [if_pos rfl, h₁, h₃, h₅, h₇]
  exact congrArg some h

/-- Both arrive. -/
theorem delivers_stream_requestResponse :
    ∃ tr s', Reads smallEnv { new true (fun _ => 0) with
        reading := some ⟨0, 4, .on_read_head_len_complete⟩ }
      (encodeAll smallWire [smallRequest, smallResponse] (.new fun _ => 0))
      [⟨⟨7, REQUEST_TYPE, 0, 2, 7, 0⟩, [1, 2]⟩, ⟨⟨9, RESPONSE_TYPE, 0, 1, 11, 0⟩, [3]⟩] tr s' ∧
      Waiting s' := by
  have hfits : ∀ msg ∈ [smallRequest, smallResponse], FrameFits smallWire msg :=
    List.forall_mem_cons.2 ⟨Int.ofNat_le.2 (by decide : 14 ≤ 131072),
      List.forall_mem_singleton.2 (Int.ofNat_le.2 (by decide : 13 ≤ 131072))⟩
  have hread : ∀ msg ∈ [smallRequest, smallResponse], Readable smallEnv smallWire msg :=
    List.forall_mem_cons.2 ⟨readable_of_onWire rfl, List.forall_mem_singleton.2 (readable_of_onWire rfl)⟩
  obtain ⟨tr, s', hreads, hs', -⟩ := delivers_stream
    (s := { new true (fun _ => 0) with reading := some ⟨0, 4, .on_read_head_len_complete⟩ })
    hfits hread ⟨rfl, rfl⟩ (.new fun _ => 0)
  exact ⟨tr, s', hreads, hs'⟩

end SparkFrame.Net.TcpSession
