import Mathlib.Data.List.Basic
import Mathlib.Tactic.IntervalCases

/-!
# Message buffers: `libmessage/MessageBuffer`, `libmessage/MessageType`, `libtools/BigEndLittleEnd`

Machine integers are bit vectors; a signed one is read with `toInt`. A buffer is the memory that
starts at `m_buffer`, whatever was allocated there, so that an access past the end can be stated.

* `Swap32`, `ntoh32`, `load32` : byte order; `toNat_ntoh32_load32` : the value of a stored prefix,
  the same on either kind of machine;
* `MsgBuffer` : the two lengths and the memory, with the accessors and decoders;
* `toSize` : the conversion of an `int` to `std::size_t`; `toSize_of_nonneg`, `le_toSize_of_neg`;
* `MsgBuffer.buffer_length_eq_wrap` : the mixed-sign sum of the lengths.
-/

namespace SparkFrame.Net

/-- `TY_UINT32`. -/
abbrev TyUInt32 := BitVec 32

/-- `TY_BYTE`. -/
abbrev TyByte := BitVec 8

/-- The memory behind a pointer. -/
abbrev Memory := Nat → TyByte

/-- The memory behind `p + n`. -/
def Memory.offset (p : Memory) (n : Nat) : Memory := fun i => p (n + i)

/-- `p` with `bytes` written at `p + n`. -/
def Memory.write (p : Memory) (n : Nat) (bytes : List TyByte) : Memory :=
  fun i => if i < n then p i else (bytes[i - n]?).getD (p i)

def MSG_BUF_SIZE : Int := 1024 * 128

def HEADER_LENGTH : Int := 4

/-- `ParseFromArray(data, size)` of a generated protobuf class. -/
abbrev Parser (M : Type) := Memory → Int → Option M

/-! ## Byte order -/

def Swap32 (l : TyUInt32) : TyUInt32 :=
  (l >>> 24) ||| ((l &&& 0x00ff0000#32) >>> 8) ||| ((l &&& 0x0000ff00#32) <<< 8) ||| (l <<< 24)

def ntoh32 (big_endian : Bool) (i : TyUInt32) : TyUInt32 :=
  if big_endian then i else Swap32 i

/-- The machine's load of the four bytes behind a pointer. -/
def load32 (big_endian : Bool) (p : Memory) : TyUInt32 :=
  if big_endian then p 0 ++ p 1 ++ p 2 ++ p 3 else p 3 ++ p 2 ++ p 1 ++ p 0

theorem Swap32_append (a b c d : TyByte) :
    Swap32 (d ++ c ++ b ++ a : TyUInt32) = a ++ b ++ c ++ d := by
  unfold Swap32
  apply BitVec.eq_of_getLsbD_eq
  intro i hi
  simp only [BitVec.getLsbD_or, BitVec.getLsbD_ushiftRight, BitVec.getLsbD_append,
    BitVec.getLsbD_shiftLeft, BitVec.getLsbD_and]
  interval_cases i <;> simp

theorem ntoh32_load32 (big_endian : Bool) (p : Memory) :
    ntoh32 big_endian (load32 big_endian p) = p 0 ++ p 1 ++ p 2 ++ p 3 := by
  cases big_endian
  · exact Swap32_append _ _ _ _
  · rfl

/-- The four bytes behind a pointer, as a big-endian number. -/
def bigEndianValue (p : Memory) : Nat :=
  (p 0).toNat * 2 ^ 24 + (p 1).toNat * 2 ^ 16 + (p 2).toNat * 2 ^ 8 + (p 3).toNat

theorem toNat_append_byte {w : Nat} (x : BitVec w) (b : TyByte) :
    (x ++ b).toNat = x.toNat * 2 ^ 8 + b.toNat := by
  rw [BitVec.toNat_append, ← Nat.shiftLeft_add_eq_or_of_lt b.isLt, Nat.shiftLeft_eq]

theorem toNat_ntoh32_load32 (big_endian : Bool) (p : Memory) :
    (ntoh32 big_endian (load32 big_endian p)).toNat = bigEndianValue p := by
  rw [ntoh32_load32]
  simp only [toNat_append_byte, bigEndianValue]
  omega

/-! ## `int` to `std::size_t` -/

/-- The conversion of an `int` to `std::size_t`. -/
def toSize (i : Int) : Nat := (BitVec.ofInt 64 i).toNat

theorem toSize_of_nonneg {i : Int} (h₀ : 0 ≤ i) (h : i < 2 ^ 31) : (toSize i : Int) = i := by
  unfold toSize
  rw [BitVec.toNat_ofInt]
  omega

theorem le_toSize_of_neg {i : Int} (h₀ : i < 0) (h : -2 ^ 31 ≤ i) : 2 ^ 63 ≤ toSize i := by
  unfold toSize
  rw [BitVec.toNat_ofInt]
  omega

/-! ## The buffer -/

/-- `MsgBuffer`. -/
structure MsgBuffer where
  m_header_length : TyUInt32
  m_msg_length : TyUInt32
  m_buffer : Memory

namespace MsgBuffer

/-- `MsgMutableBuffer::MsgMutableBuffer`, on whatever `new` leaves in the memory. -/
def new (memory : Memory) : MsgBuffer := ⟨0, 0, memory⟩

def buffer_length (b : MsgBuffer) : Int :=
  (BitVec.ofInt 32 HEADER_LENGTH + b.m_header_length + b.m_msg_length).toInt

def header_length (b : MsgBuffer) : Int := b.m_header_length.toInt

def body_length (b : MsgBuffer) : Int := b.m_msg_length.toInt

/-- `body_buffer() - buffer()`. -/
def body_buffer (b : MsgBuffer) : Nat := HEADER_LENGTH.toNat + b.m_header_length.toNat

/-- `header_buffer() - buffer()`. -/
def header_buffer (_ : MsgBuffer) : Nat := HEADER_LENGTH.toNat

def decode_header_length (big_endian : Bool) (b : MsgBuffer) : MsgBuffer :=
  { b with m_header_length := ntoh32 big_endian (load32 big_endian b.m_buffer) }

/-- `decode_header`: the buffer afterwards and the header, if it parses. `length` is the generated
accessor of the header class. -/
def decode_header {H : Type} (parse : Parser H) (length : H → BitVec 32) (b : MsgBuffer) :
    MsgBuffer × Option H :=
  match parse (b.m_buffer.offset b.header_buffer) b.header_length with
  | none => (b, none)
  | some header => ({ b with m_msg_length := length header }, some header)

def decode_message {M : Type} (parse : Parser M) (b : MsgBuffer) : Option M :=
  parse (b.m_buffer.offset b.body_buffer) b.body_length

/-- The bytes a completed read has put at `m_buffer + n`. -/
def receive (b : MsgBuffer) (n : Nat) (bytes : List TyByte) : MsgBuffer :=
  { b with m_buffer := b.m_buffer.write n bytes }

@[simp] theorem m_buffer_receive (b : MsgBuffer) (n : Nat) (bytes : List TyByte) :
    (b.receive n bytes).m_buffer = b.m_buffer.write n bytes := rfl

theorem toNat_m_header_length_decode (big_endian : Bool) (b : MsgBuffer) :
    (b.decode_header_length big_endian).m_header_length.toNat = bigEndianValue b.m_buffer :=
  toNat_ntoh32_load32 _ _

/-- The length as an `int` is the `uint32` one or lies `2 ^ 32` below it. -/
theorem header_length_eq (b : MsgBuffer) :
    b.header_length = if b.m_header_length.toNat < 2 ^ 31 then (b.m_header_length.toNat : Int)
      else b.m_header_length.toNat - 2 ^ 32 := by
  unfold header_length
  rw [BitVec.toInt_eq_toNat_cond]
  split <;> split <;> omega

/-- The sum of the lengths wraps at `2 ^ 32` and is then read as an `int`. -/
theorem buffer_length_eq_wrap (b : MsgBuffer) :
    b.buffer_length = (4 + b.header_length + b.body_length).bmod (2 ^ 32) := by
  unfold buffer_length header_length body_length
  rw [BitVec.toInt_add, BitVec.toInt_add, Int.bmod_add_bmod]
  rfl

end MsgBuffer

end SparkFrame.Net
