import SparkFrame.Net.Message
import SparkFrame.Net.MessageBuffer

/-!
# Encoding: `MsgMutableBuffer`, `TcpSession::encode`

The encoders write where the lengths say, whatever was allocated there; a `Span` records each write.

* `Memory.read` and its lemmas : the bytes behind a pointer after writes;
* `hton32`, `store32` : the length prefix; `store32_hton32` : the same bytes on either machine;
  `ntoh32_load32_of_read` : it is read back;
* `SerializeToArray` : what the generated classes do;
* `MsgBuffer.encode_header_length`, `encode_header`, `encode_message` : the member functions;
* `encode` : a whole message; `frame` : the bytes it is meant to produce; `encode_eq`,
  `read_encodedMemory` : it does; `encode_fails` : it fails from 2 GiB on.
-/

namespace SparkFrame.Net

/-! ## Reading memory -/

/-- The `len` bytes behind `p + n`. -/
def Memory.read (p : Memory) (n len : Nat) : List TyByte :=
  (List.range len).map fun i => p (n + i)

@[simp] theorem Memory.length_read (p : Memory) (n len : Nat) : (p.read n len).length = len := by
  simp [Memory.read]

theorem Memory.read_add (p : Memory) (n a b : Nat) :
    p.read n (a + b) = p.read n a ++ p.read (n + a) b := by
  simp [Memory.read, List.range_add, Function.comp_def, Nat.add_assoc]

theorem Memory.read_congr {p q : Memory} {n len : Nat} (h : ∀ i < len, p (n + i) = q (n + i)) :
    p.read n len = q.read n len := by
  apply List.map_congr_left
  intro i hi
  exact h i (List.mem_range.1 hi)

theorem Memory.read_write (p : Memory) (n : Nat) (bytes : List TyByte) :
    (p.write n bytes).read n bytes.length = bytes := by
  apply List.ext_getElem
  · simp
  · intro i _ hi
    simp [Memory.read, Memory.write, hi]

theorem Memory.read_write_of_le (p : Memory) {n m len : Nat} (bytes : List TyByte)
    (h : n + len ≤ m) : (p.write m bytes).read n len = p.read n len := by
  apply Memory.read_congr
  intro i hi
  rw [Memory.write, if_pos (by omega)]

/-! ## The length prefix -/

def hton32 (big_endian : Bool) (i : TyUInt32) : TyUInt32 :=
  if big_endian then i else Swap32 i

/-- The bytes of a number, the most significant one first. -/
def bigEndianBytes (i : TyUInt32) : List TyByte :=
  [i.extractLsb' 24 8, i.extractLsb' 16 8, i.extractLsb' 8 8, i.extractLsb' 0 8]

/-- The bytes the machine stores for a number. -/
def store32 (big_endian : Bool) (i : TyUInt32) : List TyByte :=
  if big_endian then bigEndianBytes i else (bigEndianBytes i).reverse

theorem bigEndianBytes_append (a b c d : TyByte) :
    bigEndianBytes (a ++ b ++ c ++ d : TyUInt32) = [a, b, c, d] := by
  simp only [bigEndianBytes, List.cons.injEq, and_true]
  refine ⟨?_, ?_, ?_, ?_⟩ <;>
  · apply BitVec.eq_of_getLsbD_eq
    intro k hk
    simp only [BitVec.getLsbD_append, BitVec.getLsbD_extractLsb']
    interval_cases k <;> simp

theorem exists_bytes (i : TyUInt32) : ∃ a b c d : TyByte, i = a ++ b ++ c ++ d := by
  refine ⟨i.extractLsb' 24 8, i.extractLsb' 16 8, i.extractLsb' 8 8, i.extractLsb' 0 8, ?_⟩
  apply BitVec.eq_of_getLsbD_eq
  intro k hk
  simp only [BitVec.getLsbD_append, BitVec.getLsbD_extractLsb']
  interval_cases k <;> simp

/-- Both kinds of machine store the prefix with its most significant byte first. -/
theorem store32_hton32 (big_endian : Bool) (i : TyUInt32) :
    store32 big_endian (hton32 big_endian i) = bigEndianBytes i := by
  cases big_endian with
  | true => rfl
  | false =>
    obtain ⟨a, b, c, d, rfl⟩ := exists_bytes i
    show (bigEndianBytes (Swap32 (a ++ b ++ c ++ d))).reverse = _
    rw [Swap32_append, bigEndianBytes_append, bigEndianBytes_append]
    rfl

theorem ntoh32_load32_of_read (big_endian : Bool) {p : Memory} {i : TyUInt32}
    (h : p.read 0 4 = bigEndianBytes i) : ntoh32 big_endian (load32 big_endian p) = i := by
  obtain ⟨a, b, c, d, rfl⟩ := exists_bytes i
  rw [bigEndianBytes_append] at h
  have hbytes : [p 0, p 1, p 2, p 3] = [a, b, c, d] := h
  simp only [List.cons.injEq, and_true] at hbytes
  obtain ⟨h₀, h₁, h₂, h₃⟩ := hbytes
  rw [ntoh32_load32, h₀, h₁, h₂, h₃]

/-! ## Encoding -/

/-- Bytes written behind `m_buffer`. -/
structure Span where
  offset : Nat
  length : Nat
deriving DecidableEq, Repr

/-- The generated classes of headers and bodies, as the bytes they stand for, and the platform. -/
structure Wire (M : Type) where
  big_endian : Bool
  header_bytes : Header → List TyByte
  message_bytes : M → List TyByte

/-- Bodies given as their bytes, and headers of which only `length` and `check_result` are set, to a
number below 128. -/
def Wire.short : Wire (List TyByte) :=
  { big_endian := false
    header_bytes := fun header => [32, header.length.setWidth 8, 40, header.length.setWidth 8]
    message_bytes := id }

/-- `ByteSize()`. -/
def ByteSize (bytes : List TyByte) : BitVec 32 := BitVec.ofNat 32 bytes.length

/-- `SerializeToArray(p + offset, ByteSize())`: the memory afterwards, what has been written and the
result. A message of 2 GiB or more is refused. -/
def SerializeToArray (bytes : List TyByte) (offset : Nat) (p : Memory) :
    Memory × List Span × Bool :=
  if bytes.length < 2 ^ 31 then (p.write offset bytes, [⟨offset, bytes.length⟩], true)
  else (p, [], false)

namespace MsgBuffer

def encode_header_length (big_endian : Bool) (length : TyUInt32) (b : MsgBuffer) :
    MsgBuffer × List Span :=
  ({ b with
      m_header_length := length
      m_buffer := b.m_buffer.write 0 (store32 big_endian (hton32 big_endian length)) },
    [⟨0, 4⟩])

/-- `encode_header`; `length` is the header's. -/
def encode_header (header_bytes : List TyByte) (length : BitVec 32) (b : MsgBuffer) :
    MsgBuffer × List Span × Bool :=
  let (buffer, spans, ok) := SerializeToArray header_bytes b.header_buffer b.m_buffer
  ({ b with m_msg_length := length, m_buffer := buffer }, spans, ok)

def encode_message (message_bytes : List TyByte) (b : MsgBuffer) : MsgBuffer × List Span × Bool :=
  let (buffer, spans, ok) := SerializeToArray message_bytes b.body_buffer b.m_buffer
  ({ b with m_buffer := buffer }, spans, ok)

end MsgBuffer

namespace TcpSession

variable {M : Type}

/-- The header of a message when `encode` has set its length and its check word. -/
def encoded_header (wire : Wire M) (msg : Message M) : Header :=
  let header := { msg.header with length := ByteSize (wire.message_bytes msg.pbmessage) }
  { header with check_result := header.check }

/-- `TcpSession::encode` into `m_send_msg_buf`. -/
def encode (wire : Wire M) (msg : Message M) (buf : MsgBuffer) : MsgBuffer × List Span × Bool :=
  let header := encoded_header wire msg
  let (buf, w₀) := buf.encode_header_length wire.big_endian (ByteSize (wire.header_bytes header))
  match buf.encode_header (wire.header_bytes header) header.length with
  | (buf, w₁, false) => (buf, w₀ ++ w₁, false)
  | (buf, w₁, true) =>
    let (buf, w₂, ok) := buf.encode_message (wire.message_bytes msg.pbmessage)
    (buf, w₀ ++ w₁ ++ w₂, ok)

/-! ## Frames -/

/-- The serialized header of a message. -/
def headerBytes (wire : Wire M) (msg : Message M) : List TyByte :=
  wire.header_bytes (encoded_header wire msg)

/-- The serialized body. -/
def bodyBytes (wire : Wire M) (msg : Message M) : List TyByte := wire.message_bytes msg.pbmessage

/-- The frame of a message: length prefix, header, body. -/
def frame (wire : Wire M) (msg : Message M) : List TyByte :=
  bigEndianBytes (ByteSize (headerBytes wire msg)) ++ headerBytes wire msg ++ bodyBytes wire msg

theorem length_frame (wire : Wire M) (msg : Message M) :
    (frame wire msg).length = 4 + (headerBytes wire msg).length + (bodyBytes wire msg).length := by
  simp only [frame, bigEndianBytes, List.length_append, List.length_cons, List.length_nil]

theorem check_encoded_header (wire : Wire M) (msg : Message M) :
    (encoded_header wire msg).check_result = (encoded_header wire msg).check := rfl

theorem length_encoded_header (wire : Wire M) (msg : Message M) :
    (encoded_header wire msg).length = ByteSize (bodyBytes wire msg) := rfl

theorem toNat_ByteSize {bytes : List TyByte} (h : bytes.length < 2 ^ 31) :
    (ByteSize bytes).toNat = bytes.length := by
  rw [ByteSize, BitVec.toNat_ofNat]
  omega

theorem toInt_ByteSize {bytes : List TyByte} (h : bytes.length < 2 ^ 31) :
    (ByteSize bytes).toInt = bytes.length := by
  rw [BitVec.toInt_eq_toNat_cond, toNat_ByteSize h, if_pos (by omega)]

/-- The three writes of `encode`, one after the other. -/
def encodedMemory (wire : Wire M) (msg : Message M) (p : Memory) : Memory :=
  ((p.write 0 (bigEndianBytes (ByteSize (headerBytes wire msg)))).write 4 (headerBytes wire msg)).write
    (4 + (headerBytes wire msg).length) (bodyBytes wire msg)

theorem read_encodedMemory (wire : Wire M) (msg : Message M) (p : Memory) :
    (encodedMemory wire msg p).read 0 (frame wire msg).length = frame wire msg := by
  have hlen : (bigEndianBytes (ByteSize (headerBytes wire msg))).length = 4 := rfl
  have hlead : (encodedMemory wire msg p).read 0 4 =
      bigEndianBytes (ByteSize (headerBytes wire msg)) := by
    rw [encodedMemory, Memory.read_write_of_le _ _ (by omega),
      Memory.read_write_of_le _ _ (by omega), ← hlen, Memory.read_write]
  have hheader : (encodedMemory wire msg p).read 4 (headerBytes wire msg).length =
      headerBytes wire msg := by
    rw [encodedMemory, Memory.read_write_of_le _ _ (by omega), Memory.read_write]
  rw [length_frame, Memory.read_add, Memory.read_add, Nat.zero_add, Nat.zero_add, hlead, hheader,
    encodedMemory, Memory.read_write, frame]

theorem encode_eq {wire : Wire M} {msg : Message M} (hh : (headerBytes wire msg).length < 2 ^ 31)
    (hb : (bodyBytes wire msg).length < 2 ^ 31) (buf : MsgBuffer) :
    encode wire msg buf =
      (⟨ByteSize (headerBytes wire msg), ByteSize (bodyBytes wire msg),
          encodedMemory wire msg buf.m_buffer⟩,
        [⟨0, 4⟩, ⟨4, (headerBytes wire msg).length⟩,
          ⟨4 + (headerBytes wire msg).length, (bodyBytes wire msg).length⟩], true) := by
  have hbody : (wire.message_bytes msg.pbmessage).length < 2 ^ 31 := hb
  have hheader : (wire.header_bytes (encoded_header wire msg)).length < 2 ^ 31 := hh
  have hoffset : 4 + (ByteSize (wire.header_bytes (encoded_header wire msg))).toNat =
      4 + (wire.header_bytes (encoded_header wire msg)).length := by rw [toNat_ByteSize hheader]
  simp only [encode, MsgBuffer.encode_header_length, MsgBuffer.encode_header,
    MsgBuffer.encode_message, SerializeToArray, if_pos hheader, if_pos hbody, store32_hton32]
  simp only [MsgBuffer.header_buffer, MsgBuffer.body_buffer, show HEADER_LENGTH.toNat = 4 from rfl,
    hoffset]
  rfl

theorem encode_fails {wire : Wire M} {msg : Message M}
    (h : ¬ ((headerBytes wire msg).length < 2 ^ 31 ∧ (bodyBytes wire msg).length < 2 ^ 31))
    (buf : MsgBuffer) : (encode wire msg buf).2.2 = false := by
  by_cases hh : (wire.header_bytes (encoded_header wire msg)).length < 2 ^ 31
  · have hb : ¬ (wire.message_bytes msg.pbmessage).length < 2 ^ 31 := fun hb => h ⟨hh, hb⟩
    simp only [encode, MsgBuffer.encode_header_length, MsgBuffer.encode_header,
      MsgBuffer.encode_message, SerializeToArray, if_pos hh, if_neg hb]
  · simp only [encode, MsgBuffer.encode_header_length, MsgBuffer.encode_header, SerializeToArray,
      if_neg hh]

end TcpSession

end SparkFrame.Net
