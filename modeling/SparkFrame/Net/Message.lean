import Mathlib.Data.BitVec

/-!
# Messages: `libmessage/Message`, `message/MsgHeader.proto`, `message/SystemCmd.proto`

* `Header` : the TCP header; `Header.check` : the value its `check_result` has to match;
* `Message` : a header with a body.
-/

namespace SparkFrame.Net

/-- `MsgHeader::Header`. -/
structure Header where
  cmdtype : BitVec 32
  type : BitVec 32
  sequenceid : BitVec 64
  length : BitVec 32
  check_result : BitVec 64
  response_result : BitVec 32
deriving DecidableEq, Repr

/-- A default-constructed header. -/
def Header.new : Header := ⟨0, 0, 0, 0, 0, 0⟩

/-- The expression `check_result` is compared with: the `int32` fields widen with their sign. -/
def Header.check (h : Header) : BitVec 64 :=
  (h.cmdtype ||| h.type).signExtend 64 ||| h.sequenceid ||| h.length.signExtend 64
    ||| h.response_result.signExtend 64

def REQUEST_TYPE : BitVec 32 := 1

def RESPONSE_TYPE : BitVec 32 := 2

def CMD_SESSION_OPEN : BitVec 32 := 2

def CMD_SESSION_CLOSE : BitVec 32 := 3

/-- `Message<TcpTag>`. -/
structure Message (P : Type) where
  header : Header
  pbmessage : P
deriving DecidableEq, Repr

end SparkFrame.Net
