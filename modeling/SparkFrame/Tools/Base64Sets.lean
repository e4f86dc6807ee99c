import SparkFrame.Tools.Base64

/-!
# Base64 with two alphabets: `libtools/Base64`

The functions that take a character set. The encoder collects three `char`s in an `unsigned long`, and
a `char` above 127 comes with its sign.

* `extend`, `codeChars`, `Base64Encode` : the encoder;
* `nextCode`, `decodeLoop`, `Base64Decode` : the decoder, with what it can run into;
* `getElem_extend`, `unitChars` : a sign reaches the bytes of the unit that are before it;
* `comesBack`, `decode_encode` : **what is decoded**, for every string;
* `Survives`, `decode_encode_iff` : **the strings that come back**.
-/

namespace SparkFrame.Tools

/-- The values of `chSet`. -/
inductive BASE64_CH_SET where
  | BASE64_CH_NORMAL
  | BASE64_CH_SECRET
  deriving DecidableEq, Repr

namespace Base64Sets

open BASE64_CH_SET

/-! ## Tables -/

def base64o : Bytes := bytes "ABCDEFGHIJKLMNOPQRSTUVWXYZabcdefghijklmnopqrstuvwxyz0123456789+/"

def base64i : List Int8 := [
  -1, -1, -1, -1, -1, -1, -1, -1, -1, -1, -1, -1, -1, -1, -1, -1,
  -1, -1, -1, -1, -1, -1, -1, -1, -1, -1, -1, -1, -1, -1, -1, -1,
  -1, -1, -1, -1, -1, -1, -1, -1, -1, -1, -1, 62, -1, -1, -1, 63,
  52, 53, 54, 55, 56, 57, 58, 59, 60, 61, -1, -1, -1, -1, -1, -1,
  -1, 0, 1, 2, 3, 4, 5, 6, 7, 8, 9, 10, 11, 12, 13, 14,
  15, 16, 17, 18, 19, 20, 21, 22, 23, 24, 25, -1, -1, -1, -1, -1,
  -1, 26, 27, 28, 29, 30, 31, 32, 33, 34, 35, 36, 37, 38, 39, 40,
  41, 42, 43, 44, 45, 46, 47, 48, 49, 50, 51, -1, -1, -1, -1, -1]

def base64o_ex : Bytes := bytes "Tiger_xu1984206bz#5%3$WwpIQ7*&[,]mNoYEs@!XUHBaZCqRtOcD<fGF+>.hjJ"

def base64i_ex : List Int8 := [
  -1, -1, -1, -1, -1, -1, -1, -1, -1, -1,
  -1, -1, -1, -1, -1, -1, -1, -1, -1, -1,
  -1, -1, -1, -1, -1, -1, -1, -1, -1, -1,
  -1, -1, -1, 40, -1, 17, 21, 19, 29, -1,
  -1, -1, 28, 58, 31, -1, 60, -1, 13, 8,
  12, 20, 11, 18, 14, 27, 10, 9, -1, -1,
  54, -1, 59, -1, 39, -1, 44, 47, 53, 37,
  57, 56, 43, 25, 63, -1, -1, -1, 34, 51,
  -1, 26, 49, -1, 0, 42, -1, 22, 41, 36,
  46, 30, -1, 32, -1, 5, -1, 45, 15, 52,
  -1, 3, 55, 2, 61, 1, 62, -1, -1, 33,
  -1, 35, 24, 48, 4, 38, 50, 7, -1, 23,
  6, -1, 16, -1, -1, -1, -1, -1]

def local_base64o : BASE64_CH_SET → Bytes
  | BASE64_CH_SECRET => base64o_ex
  | BASE64_CH_NORMAL => base64o

def local_base64i : BASE64_CH_SET → List Int8
  | BASE64_CH_SECRET => base64i_ex
  | BASE64_CH_NORMAL => base64i

/-- The character `#` or `=`. -/
def local_end : BASE64_CH_SET → UInt8
  | BASE64_CH_SECRET => 35
  | BASE64_CH_NORMAL => 61

/-! ## The encoder -/

/-- A `char` in an `unsigned long`: the bits above it are its sign. -/
def extend (c : UInt8) : UInt64 := c.toInt8.toInt64.toUInt64

/-- `local_base64o[code]`. -/
def codeChar (chSet : BASE64_CH_SET) (code : Nat) : UInt8 := (local_base64o chSet).getD code 0

/-- `for (; i > 0; m >>= 6) d[--i] = local_base64o[m & 0x3F]`. -/
def codeChars (chSet : BASE64_CH_SET) : Nat → UInt64 → Bytes → Bytes
  | 0, _, d => d
  | i + 1, m, d => codeChars chSet i (m >>> 6) (codeChar chSet (m &&& 0x3F).toNat :: d)

/-- `Base64Encode` of as many bytes as there are. -/
def Base64Encode (chSet : BASE64_CH_SET) : Bytes → Bytes
  | s₀ :: s₁ :: s₂ :: s =>
    codeChars chSet 4 ((((extend s₀ <<< 8) ||| extend s₁) <<< 8) ||| extend s₂) [] ++ Base64Encode chSet s
  | [s₀, s₁] =>
    (codeChars chSet 4 ((((extend s₀ <<< 8) ||| extend s₁)) <<< 8) []).take 3 ++ [local_end chSet]
  | [s₀] =>
    (codeChars chSet 4 ((extend s₀ <<< 8) <<< 8) []).take 2 ++ [local_end chSet, local_end chSet]
  | [] => []

/-! ## The decoder -/

/-- How a call of the decoder ends. -/
inductive Decoded where
  /-- The value 0, and the bytes that have been written. -/
  | returned (buf : Bytes)
  /-- The value -1. -/
  | failed
  /-- What `at` throws. -/
  | out_of_range
  /-- A place behind the table or behind the buffer. -/
  | undefined
  deriving DecidableEq, Repr

/-- One of the four loops that read a code, from what is left of the string and the number of positions
up to `iStrLen`. The first two do not look for the end, and the second never reads again: what it tests
is the first code. -/
def nextCode (chSet : BASE64_CH_SET) (ends again : Bool) (buf : Bytes) :
    Bytes → Nat → Except Decoded (Int8 × Bytes × Nat)
  | [], _ => .error .out_of_range
  | ch :: strEn, left =>
    if ends = true ∧ ch = local_end chSet then .error (.returned buf)
    else match (local_base64i chSet)[ch.toNat]? with
      | none => .error .undefined
      | some c =>
        if again = true ∧ 1 < left ∧ c = -1 then nextCode chSet ends again buf strEn (left - 1)
        -- the length is reset to 0, and the loop is left
        else if c = -1 then .error .failed
        else .ok (c, strEn, left - 1)

/-- `buf[length++] = c`. -/
def push (iBuffLen : Nat) (buf : Bytes) (c : UInt8) : Except Decoded Bytes :=
  if buf.length < iBuffLen then .ok (buf ++ [c]) else .error .undefined

/-- The rounds of the loop, no more than there are positions. -/
def decodeLoop (chSet : BASE64_CH_SET) (iBuffLen : Nat) : Nat → Bytes → Nat → Bytes → Except Decoded Bytes
  | 0, _, _, buf => .ok buf
  | round + 1, strEn, left, buf =>
    if left = 0 then .ok buf
    else do
      let (c₁, strEn, left) ← nextCode chSet false true buf strEn left
      let (c₂, strEn, left) ← nextCode chSet false false buf strEn left
      let buf ← push iBuffLen buf ((c₁.toUInt8 <<< 2) ||| ((c₂.toUInt8 &&& 0x30) >>> 4))
      let (c₃, strEn, left) ← nextCode chSet true true buf strEn left
      let buf ← push iBuffLen buf (((c₂.toUInt8 &&& 0xF) <<< 4) ||| ((c₃.toUInt8 &&& 0x3C) >>> 2))
      let (c₄, strEn, left) ← nextCode chSet true true buf strEn left
      let buf ← push iBuffLen buf (((c₃.toUInt8 &&& 0x03) <<< 6) ||| c₄.toUInt8)
      decodeLoop chSet iBuffLen round strEn left buf

/-- What follows the loop. -/
def finish : Except Decoded Bytes → Decoded
  | .error e => e
  | .ok buf => if buf.length = 0 then .failed else .returned buf

/-- The `int` with the lowest 32 bits of a size. -/
def intOfSize (size : Nat) : Int := (size : Int).bmod 4294967296

/-- `Base64Decode` into a new buffer. -/
def Base64Decode (strEn : Bytes) (chSet : BASE64_CH_SET) : Decoded :=
  let iStrLen := intOfSize strEn.length
  let iBuffLen := iStrLen.tdiv 4 * 3 + 1
  if iBuffLen ≤ 1 then .failed
  else finish (decodeLoop chSet iBuffLen.toNat iStrLen.toNat strEn iStrLen.toNat [])

/-! ## Signs -/

/-- What a `char` is preceded by. -/
def signByte (c : UInt8) : UInt8 := if c < 128 then 0 else 0xFF

theorem getElem_extend (c : UInt8) (i : Nat) (hi : i < 64) :
    (extend c).toBitVec[i] = if h : i < 8 then c.toBitVec[i] else c.toBitVec[7] := by
  have heq : (extend c).toBitVec = c.toBitVec.signExtend 64 := by simp [extend]
  simp only [heq, BitVec.getElem_signExtend, BitVec.msb_eq_getLsbD_last]
  rfl

theorem getElem_signByte (c : UInt8) (i : Nat) (hi : i < 8) :
    (signByte c).toBitVec[i] = c.toBitVec[7] := by
  have hmsb : c.toBitVec[7] = decide (128 ≤ c.toNat) := c.toBitVec.msb_eq_decide
  rw [hmsb, signByte]
  by_cases h : c < 128
  · have hlt : c.toNat < 128 := UInt8.lt_iff_toNat_lt.mp h
    simp [h, hlt]
  · have hle : 128 ≤ c.toNat := Nat.not_lt.mp fun hlt => h (UInt8.lt_iff_toNat_lt.mpr hlt)
    rw [if_neg h, decide_eq_true hle]
    interval_cases i <;> simp

@[simp] theorem signByte_zero : signByte 0 = 0 := by decide

@[simp] theorem extend_zero : extend 0 = 0 := by decide

/-- The first and the second byte of a unit, with the signs of those after them. -/
def carry₀ (c₀ c₁ c₂ : UInt8) : UInt8 := c₀ ||| signByte c₁ ||| signByte c₂

def carry₁ (c₁ c₂ : UInt8) : UInt8 := c₁ ||| signByte c₂

/-- The word of a unit. -/
def unitWord (c₀ c₁ c₂ : UInt8) : UInt64 := (((extend c₀ <<< 8) ||| extend c₁) <<< 8) ||| extend c₂

section
variable (c₀ c₁ c₂ : UInt8)

theorem unitWord_code₀ : ((unitWord c₀ c₁ c₂ >>> 6 >>> 6 >>> 6) &&& 0x3F).toUInt8 =
    code₀ (carry₀ c₀ c₁ c₂) := by
  apply UInt8.toBitVec_inj.mp
  apply BitVec.eq_of_getLsbD_eq
  intro i hi
  interval_cases i <;> simp [unitWord, code₀, carry₀, getElem_extend, getElem_signByte]

theorem unitWord_code₁ : ((unitWord c₀ c₁ c₂ >>> 6 >>> 6) &&& 0x3F).toUInt8 =
    code₁ (carry₀ c₀ c₁ c₂) (carry₁ c₁ c₂) := by
  apply UInt8.toBitVec_inj.mp
  apply BitVec.eq_of_getLsbD_eq
  intro i hi
  interval_cases i <;> simp [unitWord, code₁, carry₀, carry₁, getElem_extend, getElem_signByte]

theorem unitWord_code₂ : ((unitWord c₀ c₁ c₂ >>> 6) &&& 0x3F).toUInt8 = code₂ (carry₁ c₁ c₂) c₂ := by
  apply UInt8.toBitVec_inj.mp
  apply BitVec.eq_of_getLsbD_eq
  intro i hi
  interval_cases i <;> simp [unitWord, code₂, carry₁, getElem_extend, getElem_signByte]

theorem unitWord_code₃ : (unitWord c₀ c₁ c₂ &&& 0x3F).toUInt8 = code₃ c₂ := by
  apply UInt8.toBitVec_inj.mp
  apply BitVec.eq_of_getLsbD_eq
  intro i hi
  interval_cases i <;> simp [unitWord, code₃, getElem_extend]

end

theorem toNat_code (m : UInt64) : (m &&& 0x3F).toNat = ((m &&& 0x3F).toUInt8).toNat := by
  have hlt : (m &&& 0x3F).toNat < 64 := by
    rw [UInt64.toNat_and]
    exact Nat.and_lt_two_pow (n := 6) _ (by decide)
  rw [UInt64.toNat_toUInt8, Nat.mod_eq_of_lt (by omega)]

/-- **The characters of a unit** are those of its bytes with the signs. -/
theorem unitChars (chSet : BASE64_CH_SET) (c₀ c₁ c₂ : UInt8) :
    codeChars chSet 4 (unitWord c₀ c₁ c₂) [] =
      [codeChar chSet (code₀ (carry₀ c₀ c₁ c₂)).toNat,
        codeChar chSet (code₁ (carry₀ c₀ c₁ c₂) (carry₁ c₁ c₂)).toNat,
        codeChar chSet (code₂ (carry₁ c₁ c₂) c₂).toNat, codeChar chSet (code₃ c₂).toNat] := by
  simp only [codeChars, toNat_code, unitWord_code₀, unitWord_code₁, unitWord_code₂, unitWord_code₃]

/-! ## One unit -/

variable {chSet : BASE64_CH_SET}

/-- The code that has the character that ends a string. -/
def Ends (chSet : BASE64_CH_SET) (code : UInt8) : Prop := chSet = BASE64_CH_SECRET ∧ code = 17

instance (code : UInt8) : Decidable (Ends chSet code) := inferInstanceAs (Decidable (_ ∧ _))

theorem tables : ∀ chSet, ∀ i < 64,
    (local_base64i chSet)[(codeChar chSet i).toNat]? = some (UInt8.ofNat i).toInt8 ∧
      (UInt8.ofNat i).toInt8 ≠ -1 ∧
      (codeChar chSet i = local_end chSet ↔ Ends chSet (UInt8.ofNat i)) := by
  intro chSet
  cases chSet <;> decide +kernel

theorem codeChar_eq_local_end {code : UInt8} (h : code.toNat < 64) :
    codeChar chSet code.toNat = local_end chSet ↔ Ends chSet code := by
  rw [(tables chSet code.toNat h).2.2, UInt8.ofNat_toNat]

/-- **A character is looked up again**, unless it ends the string. -/
theorem nextCode_codeChar {code : UInt8} (h : code.toNat < 64) {ends : Bool}
    (hends : ends = true → ¬ Ends chSet code) (again : Bool) (buf strEn : Bytes) (left : Nat) :
    nextCode chSet ends again buf (codeChar chSet code.toNat :: strEn) left =
      .ok (code.toInt8, strEn, left - 1) := by
  have htable := tables chSet code.toNat h
  rw [UInt8.ofNat_toNat] at htable
  have hnot : ¬ (ends = true ∧ codeChar chSet code.toNat = local_end chSet) := by
    rintro ⟨he, hchar⟩
    exact hends he (htable.2.2.mp hchar)
  simp only [nextCode, if_neg hnot, htable.1, htable.2.1, and_false, if_false]

theorem nextCode_local_end (again : Bool) (buf strEn : Bytes) (left : Nat) :
    nextCode chSet true again buf (local_end chSet :: strEn) left = .error (.returned buf) := by
  simp only [nextCode, true_and, if_true]

theorem nextCode_of_ends {code : UInt8} (h : code.toNat < 64) (hends : Ends chSet code) (again : Bool)
    (buf strEn : Bytes) (left : Nat) :
    nextCode chSet true again buf (codeChar chSet code.toNat :: strEn) left = .error (.returned buf) := by
  rw [(codeChar_eq_local_end h).mpr hends]
  exact nextCode_local_end again buf strEn left

theorem push_of_lt {iBuffLen : Nat} {buf : Bytes} (h : buf.length < iBuffLen) (c : UInt8) :
    push iBuffLen buf c = .ok (buf ++ [c]) := if_pos h

theorem decode_masked₀ (c₀ c₁ : UInt8) :
    ((code₀ c₀) <<< 2) ||| (((code₁ c₀ c₁) &&& 0x30) >>> 4) = c₀ := by
  apply UInt8.toBitVec_inj.mp
  ext i hi
  interval_cases i <;> simp [code₀, code₁]

theorem decode_masked₁ (c₀ c₁ c₂ : UInt8) :
    (((code₁ c₀ c₁) &&& 0xF) <<< 4) ||| (((code₂ c₁ c₂) &&& 0x3C) >>> 2) = c₁ := by
  apply UInt8.toBitVec_inj.mp
  ext i hi
  interval_cases i <;> simp [code₁, code₂]

theorem decode_masked₂ (c₁ c₂ : UInt8) : (((code₂ c₁ c₂) &&& 0x03) <<< 6) ||| (code₃ c₂) = c₂ := by
  apply UInt8.toBitVec_inj.mp
  ext i hi
  interval_cases i <;> simp [code₂, code₃]

section
variable {iBuffLen round left : Nat} {buf : Bytes}

theorem decodeLoop_begin (hleft : 0 < left) (hbuf : buf.length < iBuffLen) (c₀ c₁ : UInt8) (strEn : Bytes) :
    decodeLoop chSet iBuffLen (round + 1)
        (codeChar chSet (code₀ c₀).toNat :: codeChar chSet (code₁ c₀ c₁).toNat :: strEn) left buf = (do
      let (c₃, strEn, left) ← nextCode chSet true true (buf ++ [c₀]) strEn (left - 2)
      let buf ← push iBuffLen (buf ++ [c₀])
        (((code₁ c₀ c₁ &&& 0xF) <<< 4) ||| ((c₃.toUInt8 &&& 0x3C) >>> 2))
      let (c₄, strEn, left) ← nextCode chSet true true buf strEn left
      let buf ← push iBuffLen buf (((c₃.toUInt8 &&& 0x03) <<< 6) ||| c₄.toUInt8)
      decodeLoop chSet iBuffLen round strEn left buf) := by
  rw [decodeLoop, if_neg (by omega), nextCode_codeChar (code₀_lt c₀) (absurd · Bool.false_ne_true)]
  simp only [bind, Except.bind]
  rw [nextCode_codeChar (code₁_lt c₀ c₁) (absurd · Bool.false_ne_true)]
  simp only [UInt8.toUInt8_toInt8, decode_masked₀, push_of_lt hbuf]
  rfl

theorem push_second (hbuf : buf.length + 1 < iBuffLen) (c₀ c₁ c₂ : UInt8) :
    push iBuffLen (buf ++ [c₀])
        (((code₁ c₀ c₁ &&& 0xF) <<< 4) ||| (((code₂ c₁ c₂).toInt8.toUInt8 &&& 0x3C) >>> 2)) =
      .ok (buf ++ [c₀, c₁]) := by
  rw [UInt8.toUInt8_toInt8, decode_masked₁,
    push_of_lt (by rw [List.length_append, List.length_singleton]; exact hbuf), List.append_assoc]
  rfl

/-- **A round that reads a unit**: its third or its fourth character can end the string. -/
theorem decodeLoop_unit (hleft : 0 < left) (hbuf : buf.length + 3 ≤ iBuffLen) (c₀ c₁ c₂ : UInt8) (strEn : Bytes) :
    decodeLoop chSet iBuffLen (round + 1) (codeChar chSet (code₀ c₀).toNat ::
        codeChar chSet (code₁ c₀ c₁).toNat :: codeChar chSet (code₂ c₁ c₂).toNat ::
        codeChar chSet (code₃ c₂).toNat :: strEn) left buf =
      if Ends chSet (code₂ c₁ c₂) then .error (.returned (buf ++ [c₀]))
      else if Ends chSet (code₃ c₂) then .error (.returned (buf ++ [c₀, c₁]))
      else decodeLoop chSet iBuffLen round strEn (left - 4) (buf ++ [c₀, c₁, c₂]) := by
  rw [decodeLoop_begin hleft (by omega)]
  by_cases h₂ : Ends chSet (code₂ c₁ c₂)
  · rw [nextCode_of_ends (code₂_lt c₁ c₂) h₂, if_pos h₂]
    rfl
  rw [nextCode_codeChar (code₂_lt c₁ c₂) fun _ => h₂, if_neg h₂]
  simp only [bind, Except.bind, push_second (by omega : buf.length + 1 < iBuffLen)]
  by_cases h₃ : Ends chSet (code₃ c₂)
  · rw [nextCode_of_ends (code₃_lt c₂) h₃, if_pos h₃]
  have hthird : push iBuffLen (buf ++ [c₀, c₁]) c₂ = .ok (buf ++ [c₀, c₁, c₂]) := by
    rw [push_of_lt (by rw [List.length_append, List.length_cons, List.length_singleton]; omega),
      List.append_assoc]
    rfl
  rw [nextCode_codeChar (code₃_lt c₂) fun _ => h₃, if_neg h₃]
  simp only [UInt8.toUInt8_toInt8, decode_masked₂, hthird]
  rfl

/-- No unit of two bytes has the character that ends the string for a code. -/
theorem not_ends_code₂_zero (c₁ : UInt8) : ¬ Ends chSet (code₂ c₁ 0) := by
  rintro ⟨-, h⟩
  have hbit := congrArg (fun c => c.toBitVec.getLsbD 0) h
  simp [code₂] at hbit

theorem decodeLoop_two (hleft : 0 < left) (hbuf : buf.length + 2 ≤ iBuffLen) (c₀ c₁ : UInt8) :
    decodeLoop chSet iBuffLen (round + 1) [codeChar chSet (code₀ c₀).toNat,
        codeChar chSet (code₁ c₀ c₁).toNat, codeChar chSet (code₂ c₁ 0).toNat, local_end chSet] left buf =
      .error (.returned (buf ++ [c₀, c₁])) := by
  rw [decodeLoop_begin hleft (by omega),
    nextCode_codeChar (code₂_lt c₁ 0) fun _ => not_ends_code₂_zero c₁]
  simp only [bind, Except.bind, push_second (by omega : buf.length + 1 < iBuffLen), nextCode_local_end]

theorem decodeLoop_one (hleft : 0 < left) (hbuf : buf.length + 1 ≤ iBuffLen) (c₀ : UInt8) :
    decodeLoop chSet iBuffLen (round + 1) [codeChar chSet (code₀ c₀).toNat,
        codeChar chSet (code₁ c₀ 0).toNat, local_end chSet, local_end chSet] left buf =
      .error (.returned (buf ++ [c₀])) := by
  rw [decodeLoop_begin hleft (by omega), nextCode_local_end]
  rfl

end

/-! ## Strings -/

theorem Base64Encode_unit (s₀ s₁ s₂ : UInt8) (s : Bytes) :
    Base64Encode chSet (s₀ :: s₁ :: s₂ :: s) =
      codeChar chSet (code₀ (carry₀ s₀ s₁ s₂)).toNat ::
        codeChar chSet (code₁ (carry₀ s₀ s₁ s₂) (carry₁ s₁ s₂)).toNat ::
        codeChar chSet (code₂ (carry₁ s₁ s₂) s₂).toNat :: codeChar chSet (code₃ s₂).toNat ::
        Base64Encode chSet s := by
  rw [Base64Encode, show (((extend s₀ <<< 8) ||| extend s₁) <<< 8) ||| extend s₂ = unitWord s₀ s₁ s₂ from rfl,
    unitChars]
  rfl

theorem Base64Encode_two (s₀ s₁ : UInt8) :
    Base64Encode chSet [s₀, s₁] =
      [codeChar chSet (code₀ (carry₀ s₀ s₁ 0)).toNat, codeChar chSet (code₁ (carry₀ s₀ s₁ 0) s₁).toNat,
        codeChar chSet (code₂ s₁ 0).toNat, local_end chSet] := by
  have hword : ((extend s₀ <<< 8) ||| extend s₁) <<< 8 = unitWord s₀ s₁ 0 := by
    rw [unitWord, extend_zero, UInt64.or_zero]
  have hcarry : carry₁ s₁ 0 = s₁ := by rw [carry₁, signByte_zero, UInt8.or_zero]
  rw [Base64Encode, hword, unitChars, hcarry]
  rfl

theorem Base64Encode_one (s₀ : UInt8) :
    Base64Encode chSet [s₀] =
      [codeChar chSet (code₀ s₀).toNat, codeChar chSet (code₁ s₀ 0).toNat, local_end chSet,
        local_end chSet] := by
  have hword : (extend s₀ <<< 8) <<< 8 = unitWord s₀ 0 0 := by
    rw [unitWord, extend_zero, UInt64.or_zero, UInt64.or_zero]
  have hcarry₀ : carry₀ s₀ 0 0 = s₀ := by rw [carry₀, signByte_zero, UInt8.or_zero, UInt8.or_zero]
  have hcarry₁ : carry₁ 0 0 = 0 := by decide
  rw [Base64Encode, hword, unitChars, hcarry₀, hcarry₁]
  rfl

theorem length_Base64Encode (s : Bytes) :
    (Base64Encode chSet s).length = 4 * ((s.length + 2) / 3) := by
  fun_induction Base64Encode chSet s with
  | case1 s₀ s₁ s₂ s ih =>
    rw [List.length_append, ih]
    simp only [codeChars, List.length_cons, List.length_nil]
    omega
  | case2 s₀ s₁ => simp [codeChars]
  | case3 s₀ => simp [codeChars]
  | case4 => rfl

/-- **What comes back**: the bytes with the signs of those after them, up to a code that ends the
string. -/
def comesBack (chSet : BASE64_CH_SET) : Bytes → Bytes
  | s₀ :: s₁ :: s₂ :: s =>
    if Ends chSet (code₂ (carry₁ s₁ s₂) s₂) then [carry₀ s₀ s₁ s₂]
    else if Ends chSet (code₃ s₂) then [carry₀ s₀ s₁ s₂, carry₁ s₁ s₂]
    else carry₀ s₀ s₁ s₂ :: carry₁ s₁ s₂ :: s₂ :: comesBack chSet s
  | [s₀, s₁] => [carry₀ s₀ s₁ 0, s₁]
  | [s₀] => [s₀]
  | [] => []

theorem finish_ok {buf : Bytes} (h : buf ≠ []) : finish (.ok buf) = .returned buf :=
  if_neg (mt List.length_eq_zero_iff.mp h)

theorem exists_round {s : Bytes} (hs : s ≠ []) {round : Nat}
    (hround : (Base64Encode chSet s).length ≤ round) :
    0 < (Base64Encode chSet s).length ∧ ∃ r, round = r + 1 := by
  have hpos := List.length_pos_iff.mpr hs
  rw [length_Base64Encode] at hround ⊢
  exact ⟨by omega, round - 1, by omega⟩

/-- **The loop reads what is left of the code.** -/
theorem finish_decodeLoop {iBuffLen : Nat} (s : Bytes) {buf : Bytes} {round : Nat}
    (hround : (Base64Encode chSet s).length ≤ round) (hbuf : buf.length + s.length ≤ iBuffLen)
    (hne : s ≠ [] ∨ buf ≠ []) :
    finish (decodeLoop chSet iBuffLen round (Base64Encode chSet s) (Base64Encode chSet s).length buf) =
      .returned (buf ++ comesBack chSet s) := by
  fun_induction comesBack chSet s generalizing buf round with
  | case1 s₀ s₁ s₂ s h₂ =>
    obtain ⟨hpos, round, rfl⟩ := exists_round (List.cons_ne_nil _ _) hround
    simp only [List.length_cons] at hbuf
    rw [Base64Encode_unit] at hpos ⊢
    rw [decodeLoop_unit hpos (by omega), if_pos h₂]
    rfl
  | case2 s₀ s₁ s₂ s h₂ h₃ =>
    obtain ⟨hpos, round, rfl⟩ := exists_round (List.cons_ne_nil _ _) hround
    simp only [List.length_cons] at hbuf
    rw [Base64Encode_unit] at hpos ⊢
    rw [decodeLoop_unit hpos (by omega), if_neg h₂, if_pos h₃]
    rfl
  | case3 s₀ s₁ s₂ s h₂ h₃ ih =>
    obtain ⟨hpos, round, rfl⟩ := exists_round (List.cons_ne_nil _ _) hround
    simp only [List.length_cons] at hbuf
    rw [Base64Encode_unit] at hpos hround ⊢
    rw [decodeLoop_unit hpos (by omega), if_neg h₂, if_neg h₃]
    have hunit : (buf ++ [carry₀ s₀ s₁ s₂, carry₁ s₁ s₂, s₂]).length = buf.length + 3 := List.length_append
    have hrest := @ih (buf ++ [carry₀ s₀ s₁ s₂, carry₁ s₁ s₂, s₂]) round
      (by simp only [List.length_cons] at hround; omega) (by omega) (.inr (by simp))
    rw [List.append_assoc] at hrest
    exact hrest
  | case4 s₀ s₁ =>
    obtain ⟨hpos, round, rfl⟩ := exists_round (List.cons_ne_nil _ _) hround
    rw [Base64Encode_two] at hpos ⊢
    rw [decodeLoop_two hpos hbuf]
    rfl
  | case5 s₀ =>
    obtain ⟨hpos, round, rfl⟩ := exists_round (List.cons_ne_nil _ _) hround
    rw [Base64Encode_one] at hpos ⊢
    rw [decodeLoop_one hpos hbuf]
    rfl
  | case6 =>
    have hok : decodeLoop chSet iBuffLen round [] 0 buf = .ok buf := by cases round <;> rfl
    rw [List.append_nil, Base64Encode, List.length_nil, hok]
    exact finish_ok (hne.resolve_left fun h => h rfl)

theorem intOfSize_of_lt {size : Nat} (h : size < 2 ^ 31) : intOfSize size = size := by
  apply Int.bmod_eq_of_le <;> omega

theorem intOfSize_nonpos {size : Nat} (hlow : 2 ^ 31 ≤ size) (hhigh : size < 2 ^ 32) :
    intOfSize size ≤ 0 := by
  have hmod : (size : Int) % (4294967296 : Nat) = size := by omega
  have hdef := Int.bmod_eq_emod (size : Int) 4294967296
  rw [hmod, if_pos (by omega)] at hdef
  have hint : intOfSize size = size - 4294967296 := hdef
  omega

/-- **What is decoded** from the code of a string, if its size is an `int`. -/
theorem Base64Decode_Base64Encode {s : Bytes} (hs : s ≠ [])
    (hsize : 4 * ((s.length + 2) / 3) < 2 ^ 31) :
    Base64Decode (Base64Encode chSet s) chSet = .returned (comesBack chSet s) := by
  have hpos := List.length_pos_iff.mpr hs
  have hlength : (Base64Encode chSet s).length = 4 * ((s.length + 2) / 3) := length_Base64Encode s
  have hcapacity : s.length ≤ (((Base64Encode chSet s).length : Int) / 4 * 3 + 1).toNat := by omega
  simp only [Base64Decode, intOfSize_of_lt (hlength ▸ hsize), Int.natCast_tdiv_eq_ediv, Int.toNat_natCast]
  rw [if_neg (by omega), finish_decodeLoop s le_rfl ?_ (.inl hs), List.nil_append]
  rw [List.length_nil, Nat.zero_add]
  exact hcapacity

theorem Base64Decode_of_size {strEn : Bytes} (hlow : 2 ^ 31 ≤ strEn.length)
    (hhigh : strEn.length < 2 ^ 32) : Base64Decode strEn chSet = .failed := by
  have hquot := Int.tdiv_le_tdiv (c := 4) (by decide) (intOfSize_nonpos hlow hhigh)
  rw [Int.zero_tdiv] at hquot
  simp only [Base64Decode]
  rw [if_pos (by omega)]

/-! ## The strings that come back -/

theorem or_ones (c : UInt8) : c ||| 0xFF = 0xFF := by
  apply UInt8.toBitVec_inj.mp
  ext i hi
  interval_cases i <;> simp

theorem carry₁_eq_iff (c₁ c₂ : UInt8) : carry₁ c₁ c₂ = c₁ ↔ (128 ≤ c₂ → c₁ = 0xFF) := by
  rw [carry₁, signByte]
  by_cases h : c₂ < 128
  · rw [if_pos h, UInt8.or_zero]
    exact iff_of_true rfl fun hle => absurd h (UInt8.not_lt.mpr hle)
  · rw [if_neg h, or_ones]
    exact ⟨fun heq _ => heq.symm, fun himp => (himp (UInt8.not_lt.mp h)).symm⟩

theorem carry₀_eq_iff (c₀ c₁ c₂ : UInt8) :
    carry₀ c₀ c₁ c₂ = c₀ ↔ (128 ≤ c₁ → c₀ = 0xFF) ∧ (128 ≤ c₂ → c₀ = 0xFF) := by
  rw [show carry₀ c₀ c₁ c₂ = carry₁ (carry₁ c₀ c₁) c₂ from rfl, ← carry₁_eq_iff c₀ c₁]
  constructor
  · intro h
    by_cases h₂ : c₂ < 128
    · rw [carry₁, signByte, if_pos h₂, UInt8.or_zero] at h
      exact ⟨h, fun hle => absurd h₂ (UInt8.not_lt.mpr hle)⟩
    · rw [carry₁, signByte, if_neg h₂, or_ones] at h
      exact ⟨(carry₁_eq_iff c₀ c₁).mpr fun _ => h.symm, fun _ => h.symm⟩
  · rintro ⟨h₁, h₂⟩
    rw [h₁, carry₁_eq_iff]
    exact h₂

/-- The third code of a unit is made of four bits of its second byte and two of its third. -/
theorem code₂_eq_iff (c₁ c₂ : UInt8) : code₂ c₁ c₂ = 17 ↔ c₁ &&& 0xF = 4 ∧ c₂ >>> 6 = 1 := by
  have hhigh : code₂ c₁ c₂ >>> 2 = c₁ &&& 0xF := by
    apply UInt8.toBitVec_inj.mp
    ext i hi
    interval_cases i <;> simp [code₂]
  have hlow : code₂ c₁ c₂ &&& (3 : UInt8) = c₂ >>> 6 := by
    apply UInt8.toBitVec_inj.mp
    ext i hi
    interval_cases i <;> simp [code₂]
  have hboth : code₂ c₁ c₂ = ((c₁ &&& 0xF) <<< 2) ||| (c₂ >>> 6) := by
    apply UInt8.toBitVec_inj.mp
    ext i hi
    interval_cases i <;> simp [code₂]
  constructor
  · intro h
    rw [← hhigh, ← hlow, h]
    decide
  · rintro ⟨h₁, h₂⟩
    rw [hboth, h₁, h₂]
    decide

/-- **The strings that come back**: before a byte above 127 the others of its unit are 255, and in the
secret alphabet no unit of three bytes has 17 for its third or its fourth code. -/
def Survives (chSet : BASE64_CH_SET) : Bytes → Prop
  | s₀ :: s₁ :: s₂ :: s =>
    (128 ≤ s₁ → s₀ = 0xFF) ∧ (128 ≤ s₂ → s₀ = 0xFF ∧ s₁ = 0xFF) ∧
      (chSet = BASE64_CH_SECRET → ¬ (s₁ &&& 0xF = 4 ∧ s₂ >>> 6 = 1) ∧ s₂ &&& 0x3F ≠ 17) ∧
      Survives chSet s
  | [s₀, s₁] => 128 ≤ s₁ → s₀ = 0xFF
  | _ => True

/-- **Strings that come back** are those that `Survives` says. -/
theorem comesBack_eq_iff (s : Bytes) : comesBack chSet s = s ↔ Survives chSet s := by
  fun_induction comesBack chSet s with
  | case1 s₀ s₁ s₂ s h₂ =>
    refine iff_of_false (by simp) ?_
    rintro ⟨-, hsign, hset, -⟩
    rw [Ends, (carry₁_eq_iff s₁ s₂).mpr fun hle => (hsign hle).2, code₂_eq_iff] at h₂
    exact (hset h₂.1).1 h₂.2
  | case2 s₀ s₁ s₂ s h₂ h₃ =>
    refine iff_of_false (by simp) ?_
    rintro ⟨-, -, hset, -⟩
    exact (hset h₃.1).2 h₃.2
  | case3 s₀ s₁ s₂ s h₂ h₃ ih =>
    simp only [List.cons.injEq, true_and, ih, carry₀_eq_iff, carry₁_eq_iff, Survives]
    constructor
    · rintro ⟨⟨h₀₁, h₀₂⟩, h₁₂, hrest⟩
      refine ⟨h₀₁, fun hle => ⟨h₀₂ hle, h₁₂ hle⟩, fun hset => ⟨fun hcode => h₂ ⟨hset, ?_⟩, ?_⟩, hrest⟩
      · rw [(carry₁_eq_iff s₁ s₂).mpr h₁₂, code₂_eq_iff]
        exact hcode
      · exact fun hcode => h₃ ⟨hset, hcode⟩
    · rintro ⟨h₀₁, hsign, -, hrest⟩
      exact ⟨⟨h₀₁, fun hle => (hsign hle).1⟩, fun hle => (hsign hle).2, hrest⟩
  | case4 s₀ s₁ =>
    simp only [List.cons.injEq, and_true, carry₀_eq_iff, Survives]
    exact and_iff_left fun hle => absurd hle (by decide)
  | case5 s₀ => exact iff_of_true rfl trivial
  | case6 => exact iff_of_true rfl trivial

/-- **What the encoder writes is decoded**, for either set and every string that is as long as an `int`
can say, exactly when the string `Survives` and the size of its code is an `int` too. -/
theorem decode_encode_iff (chSet : BASE64_CH_SET) (s : Bytes) (hs : s ≠ []) (hn : s.length < 2 ^ 31) :
    Base64Decode (Base64Encode chSet s) chSet = .returned s ↔
      Survives chSet s ∧ 4 * ((s.length + 2) / 3) < 2 ^ 31 := by
  by_cases hsize : 4 * ((s.length + 2) / 3) < 2 ^ 31
  · rw [Base64Decode_Base64Encode hs hsize, Decoded.returned.injEq, comesBack_eq_iff]
    exact (and_iff_left hsize).symm
  · have hlength : (Base64Encode chSet s).length = 4 * ((s.length + 2) / 3) := length_Base64Encode s
    rw [Base64Decode_of_size (by omega) (by omega)]
    exact iff_of_false nofun fun h => hsize h.2

/-- `Tiger` comes back from the secret alphabet. -/
theorem decode_encode_tiger :
    Base64Encode BASE64_CH_SECRET (bytes "Tiger") = bytes "$xE@Iw1#" ∧
      Base64Decode (Base64Encode BASE64_CH_SECRET (bytes "Tiger")) BASE64_CH_SECRET =
        .returned (bytes "Tiger") :=
  ⟨by decide, (decode_encode_iff BASE64_CH_SECRET (bytes "Tiger") (by decide) (by decide)).mpr
    ⟨⟨by decide, by decide, fun _ => by decide, fun hle => absurd hle (by decide)⟩, by decide⟩⟩

/-- The letter `é` in two bytes does not come back, nor does `abQ` from the secret alphabet. -/
theorem not_decode_encode :
    Base64Decode (Base64Encode BASE64_CH_NORMAL [0xC3, 0xA9]) BASE64_CH_NORMAL = .returned [0xFF, 0xA9] ∧
      Base64Decode (Base64Encode BASE64_CH_SECRET (bytes "abQ")) BASE64_CH_SECRET = .returned (bytes "ab") ∧
      ¬ ∀ chSet s, s ≠ [] → s.length < 2 ^ 31 →
        Base64Decode (Base64Encode chSet s) chSet = .returned s := by
  have hletter : Base64Decode (Base64Encode BASE64_CH_NORMAL [0xC3, 0xA9]) BASE64_CH_NORMAL =
      .returned [0xFF, 0xA9] := by decide
  refine ⟨hletter, by decide, fun h => ?_⟩
  have hback := h BASE64_CH_NORMAL [0xC3, 0xA9] (by decide) (by decide)
  rw [hletter] at hback
  exact absurd hback (by decide)

end Base64Sets

end SparkFrame.Tools
