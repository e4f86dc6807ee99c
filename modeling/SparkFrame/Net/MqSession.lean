import SparkFrame.Net.Encode

/-!
# The message queue: `libserver/MqSession`

The same codec as on the TCP path, put together anew: `do_write` publishes one message to an
exchange, `recv_data` takes what a queue delivers.

* `MqHeader`, `MqMessage`, `MqWire`, `MqEnv` : the messages and the classes both ends are built on;
* `do_write`, `recv_data`, `handle_recv_message` : the member functions;
* `do_write_eq` : `do_write` by what can be serialized; `do_write_publishes_iff` : it publishes when
  the body can **not** be serialized;
* `recv_data_effects` : whatever is received, nothing is handed on;
* `not_delivers` : **no message gets through**.
-/

namespace SparkFrame.Net

/-- `MsgHeader::MqHeader`. -/
structure MqHeader where
  cmdtype : BitVec 32
  type : BitVec 32
  sequenceid : BitVec 64
  length : BitVec 32
  check_result : BitVec 32
  response_result : BitVec 64
  send_routkey : List TyByte
  recv_routkey : List TyByte
  send_exchange : List TyByte
  recv_exchange : List TyByte
deriving DecidableEq, Repr

/-- `Message<MqTag>`. -/
structure MqMessage (M : Type) where
  header : MqHeader
  pbmessage : M
deriving DecidableEq, Repr

/-- The generated classes of the sender, as the bytes they stand for, and its platform. -/
structure MqWire (M : Type) where
  big_endian : Bool
  header_bytes : MqHeader → List TyByte
  message_bytes : M → List TyByte

/-- The generated header class of the receiver, its message maker and its platform. -/
structure MqEnv (M : Type) where
  big_endian : Bool
  ParseFromArray : Parser MqHeader
  make_message : BitVec 32 → BitVec 32 → Option (Parser M)

def MQ_BUF_SIZE : Int := 1024 * 1024 * 10

/-- `MsgConstBuffer::MsgConstBuffer`. -/
def MsgBuffer.const (buffer : Memory) (msg_len : TyUInt32) : MsgBuffer := ⟨0, msg_len, buffer⟩

structure MqSession where
  /-- `m_channel` is set. -/
  m_channel : Bool
  m_send_msg_buf : MsgBuffer

namespace MqSession

variable {M : Type}

/-- What a session does to the outside. -/
inductive Effect (M : Type) where
  | publish (exchange routkey : List TyByte) (data : List TyByte)
  | handle_message (msg : MqMessage M)
  | asyn_response_come (msg : MqMessage M)
deriving DecidableEq, Repr

/-- `Session::handle_recv_message`. -/
def handle_recv_message (msg : MqMessage M) : List (Effect M) :=
  if msg.header.type = REQUEST_TYPE then [.handle_message msg] else [.asyn_response_come msg]

def do_write (wire : MqWire M) (msg : MqMessage M) (s : MqSession) : MqSession × List (Effect M) :=
  let header := wire.header_bytes msg.header
  let pbmsg := wire.message_bytes msg.pbmessage
  if (ByteSize header + ByteSize pbmsg).toInt > MQ_BUF_SIZE then (s, [])
  else
    let (buf, _) := s.m_send_msg_buf.encode_header_length wire.big_endian (ByteSize header)
    match buf.encode_header header msg.header.length with
    | (buf, _, false) => ({ s with m_send_msg_buf := buf }, [])
    | (buf, _, true) =>
      match buf.encode_message pbmsg with
      -- the result is tested without a negation
      | (buf, _, true) => ({ s with m_send_msg_buf := buf }, [])
      | (buf, _, false) =>
        ({ s with m_send_msg_buf := buf },
          if s.m_channel then
            [.publish msg.header.recv_exchange msg.header.recv_routkey
              (buf.m_buffer.read 0 (toSize buf.buffer_length))]
          else [])

/-- `recv_data` on a body of `bodySize` bytes: what it does and its result. -/
def recv_data (env : MqEnv M) (body : Memory) (bodySize : Nat) : List (Effect M) × Bool :=
  let msg_buf := (MsgBuffer.const body (.ofNat 32 bodySize)).decode_header_length env.big_endian
  match msg_buf.decode_header env.ParseFromArray MqHeader.length with
  | (_, none) => ([], false)
  | (msg_buf, some header) =>
    match env.make_message header.type header.cmdtype with
    | none => ([], false)
    | some pbmsg =>
      match msg_buf.decode_message pbmsg with
      | none => ([], false)
      | some m =>
        -- the message is put together, and that is the end of it
        let _cur_msg : MqMessage M := ⟨header, m⟩
        ([], true)

/-! ## What the two functions do -/

theorem do_write_eq (wire : MqWire M) (msg : MqMessage M) (s : MqSession) :
    (do_write wire msg s).2 =
      if (ByteSize (wire.header_bytes msg.header) +
            ByteSize (wire.message_bytes msg.pbmessage)).toInt ≤ MQ_BUF_SIZE ∧
          (wire.header_bytes msg.header).length < 2 ^ 31 ∧
          ¬ (wire.message_bytes msg.pbmessage).length < 2 ^ 31 ∧ s.m_channel = true then
        [.publish msg.header.recv_exchange msg.header.recv_routkey
          ((s.m_send_msg_buf.m_buffer.write 0 (bigEndianBytes
              (ByteSize (wire.header_bytes msg.header)))).write 4 (wire.header_bytes msg.header)
            |>.read 0 (toSize (4#32 + ByteSize (wire.header_bytes msg.header) +
              msg.header.length).toInt))]
      else [] := by
  unfold do_write
  by_cases hover : (ByteSize (wire.header_bytes msg.header) +
      ByteSize (wire.message_bytes msg.pbmessage)).toInt > MQ_BUF_SIZE
  · rw [if_pos hover, if_neg fun h => absurd h.1 (Int.not_le.2 hover)]
  have hfits := Int.not_lt.1 hover
  rw [if_neg hover]
  simp only [MsgBuffer.encode_header_length, MsgBuffer.encode_header, SerializeToArray,
    store32_hton32]
  by_cases hheader : (wire.header_bytes msg.header).length < 2 ^ 31
  · simp only [if_pos hheader, MsgBuffer.encode_message, SerializeToArray]
    by_cases hbody : (wire.message_bytes msg.pbmessage).length < 2 ^ 31
    · rw [if_pos hbody, if_neg fun h => h.2.2.1 hbody]
    · rw [if_neg hbody]
      cases hchannel : s.m_channel
      · rw [if_neg fun h => Bool.false_ne_true h.2.2.2]
        rfl
      · rw [if_pos ⟨hfits, hheader, hbody, rfl⟩]
        rfl
  · rw [if_neg hheader, if_neg fun h => hheader h.2.1]

/-- `do_write` publishes exactly when the body fails to serialize. -/
theorem do_write_publishes_iff (wire : MqWire M) (msg : MqMessage M) (s : MqSession) :
    (do_write wire msg s).2 ≠ [] ↔
      (ByteSize (wire.header_bytes msg.header) +
          ByteSize (wire.message_bytes msg.pbmessage)).toInt ≤ MQ_BUF_SIZE ∧
        (wire.header_bytes msg.header).length < 2 ^ 31 ∧
        ¬ (wire.message_bytes msg.pbmessage).length < 2 ^ 31 ∧ s.m_channel = true := by
  rw [do_write_eq]
  split
  case isTrue h => exact iff_of_true (List.cons_ne_nil _ _) h
  case isFalse h => exact iff_of_false (fun hne => hne rfl) h

/-- Header plus body have at most `MQ_BUF_SIZE` bytes. -/
def InLimit (wire : MqWire M) (msg : MqMessage M) : Prop :=
  ((wire.header_bytes msg.header).length + (wire.message_bytes msg.pbmessage).length : Int) ≤
    MQ_BUF_SIZE

theorem do_write_of_inLimit {wire : MqWire M} {msg : MqMessage M} (h : InLimit wire msg)
    (s : MqSession) : (do_write wire msg s).2 = [] := by
  by_contra hne
  have hbody := ((do_write_publishes_iff wire msg s).1 hne).2.2.1
  have h : ((wire.header_bytes msg.header).length + (wire.message_bytes msg.pbmessage).length : Int) ≤
    1024 * 1024 * 10 := h
  omega

theorem recv_data_effects (env : MqEnv M) (body : Memory) (bodySize : Nat) :
    (recv_data env body bodySize).1 = [] := by
  unfold recv_data
  dsimp only
  split
  · rfl
  · split
    · rfl
    · split <;> rfl

/-! ## Delivery -/

/-- The messages handed to `handle_recv_message`. -/
def handed_on (o : List (Effect M)) : List (MqMessage M) :=
  o.filterMap fun
    | .handle_message m => some m
    | .asyn_response_come m => some m
    | .publish .. => none

/-- The receiver's classes parse what the sender's serialize, and the command is registered. -/
structure Readable (env : MqEnv M) (wire : MqWire M) (msg : MqMessage M) : Prop where
  header : ∀ p, p.read 0 (wire.header_bytes msg.header).length = wire.header_bytes msg.header →
    env.ParseFromArray p (wire.header_bytes msg.header).length = some msg.header
  body : ∃ parse, env.make_message msg.header.type msg.header.cmdtype = some parse ∧
    ∀ p, p.read 0 (wire.message_bytes msg.pbmessage).length = wire.message_bytes msg.pbmessage →
      parse p (wire.message_bytes msg.pbmessage).length = some msg.pbmessage

/-- The received message is the sent one: command, type, sequence id, result and body. -/
structure SameMessage (msg m : MqMessage M) : Prop where
  cmdtype : m.header.cmdtype = msg.header.cmdtype
  type : m.header.type = msg.header.type
  sequenceid : m.header.sequenceid = msg.header.sequenceid
  response_result : m.header.response_result = msg.header.response_result
  pbmessage : m.pbmessage = msg.pbmessage

/-- The message is published once, to the exchange and with the routing key of its header, and the
published bytes make the receiver hand it on, once. -/
def Delivers (wire : MqWire M) (env : MqEnv M) (s : MqSession) (msg : MqMessage M) : Prop :=
  ∃ data, (do_write wire msg s).2 =
      [.publish msg.header.recv_exchange msg.header.recv_routkey data] ∧
    ∀ body : Memory, body.read 0 data.length = data →
      ∃ m, handed_on (recv_data env body data.length).1 = [m] ∧ SameMessage msg m

/-- **No message gets through.** -/
theorem not_delivers (wire : MqWire M) (env : MqEnv M) (s : MqSession) (msg : MqMessage M) :
    ¬ Delivers wire env s msg := by
  rintro ⟨data, -, hreceive⟩
  have hbody : (Memory.write (fun _ => 0) 0 data).read 0 data.length = data :=
    Memory.read_write _ 0 data
  obtain ⟨m, hm, -⟩ := hreceive _ hbody
  rw [recv_data_effects] at hm
  cases hm

/-! ## One message -/

/-- Bodies given as their bytes, and headers of which only the command, the type and the receiver's
keys are set, all of them short. -/
def shortWire : MqWire (List TyByte) :=
  { big_endian := false
    header_bytes := fun header =>
      [8, header.cmdtype.setWidth 8, 16, header.type.setWidth 8, 66, .ofNat 8 header.recv_routkey.length]
        ++ header.recv_routkey ++ [82, .ofNat 8 header.recv_exchange.length] ++ header.recv_exchange
    message_bytes := id }

/-- A request with command 5 to the exchange `x` with the routing key `y`. -/
def shortMessage : MqMessage (List TyByte) := ⟨⟨5, 1, 0, 0, 0, 0, [], [121], [], [120]⟩, []⟩

/-- A receiver that knows this one header and has one class for bodies. -/
def shortEnv : MqEnv (List TyByte) :=
  { big_endian := false
    ParseFromArray := fun p _ =>
      if p.read 0 10 = shortWire.header_bytes shortMessage.header then some shortMessage.header
      else none
    make_message := fun _ _ => some fun p size => some (p.read 0 size.toNat) }


/-- `shortMessage` is within the limit and known to the receiver, yet it is not published, and the
bytes that should have been make the receiver put the message together and drop it. -/
theorem shortMessage_lost :
    InLimit shortWire shortMessage ∧ Readable shortEnv shortWire shortMessage ∧
      ¬ Delivers shortWire shortEnv ⟨true, .new fun _ => 0⟩ shortMessage ∧
      (do_write shortWire shortMessage ⟨true, .new fun _ => 0⟩).2 = [] ∧
      recv_data shortEnv (Memory.write (fun _ => 0) 0
        ([0, 0, 0, 10] ++ shortWire.header_bytes shortMessage.header)) 14 = ([], true) := by
  have hlimit : InLimit shortWire shortMessage := by unfold InLimit; decide
  have hwrite := do_write_of_inLimit hlimit ⟨true, .new fun _ => 0⟩
  refine ⟨hlimit, ⟨?_, ?_⟩, ?_, hwrite, by decide⟩
  · intro p hp
    exact if_pos hp
  · exact ⟨_, rfl, fun p _ => rfl⟩
  · rintro ⟨data, hpublish, -⟩
    rw [hwrite] at hpublish
    cases hpublish

end MqSession

end SparkFrame.Net
