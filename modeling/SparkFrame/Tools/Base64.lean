import Mathlib.Data.List.TakeWhile
import Mathlib.Tactic.IntervalCases
import SparkFrame.Tools.Json

/-!
# Base64 in units of three bytes: `libtools/Base64`

The functions that code with `BASE64_TAB`. A buffer that is filled piece by piece is a list of cells,
where those that nothing has been written to hold nothing.

* `Unit_Code`, `Fill_Code`, `Base64Encode` : the encoder;
* `Base64ChPos`, `Unit_Decode`, `Base64Decode` : the decoder;
* `length_Base64Encode` : four characters for each unit that is begun;
* `Base64Decode_Base64Encode` : **what is encoded is decoded**, with its length;
* `base64_roundTrip` : the overloads on strings.
-/

namespace SparkFrame.Tools

/-! ## The encoder -/

def BASE64_TAB : Bytes :=
  bytes "ABCDEFGHIJKLMNOPQRSTUVWXYZabcdefghijklmnopqrstuvwxyz0123456789+/"

/-- `BASE64_TAB[code]`. -/
def base64Char (code : UInt8) : UInt8 := BASE64_TAB.getD code.toNat 0

/-- The character `=`. -/
def base64EndChar : UInt8 := 61

/-- The four codes of three bytes. -/
def code₀ (c₀ : UInt8) : UInt8 := c₀ >>> 2

def code₁ (c₀ c₁ : UInt8) : UInt8 := ((c₀ <<< 4) &&& (0x3F : UInt8)) ||| (c₁ >>> 4)

def code₂ (c₁ c₂ : UInt8) : UInt8 := ((c₁ <<< 2) &&& (0x3F : UInt8)) ||| (c₂ >>> 6)

def code₃ (c₂ : UInt8) : UInt8 := c₂ &&& 0x3F

def Unit_Code (c₀ c₁ c₂ : UInt8) : Bytes :=
  [base64Char (code₀ c₀), base64Char (code₁ c₀ c₁), base64Char (code₂ c₁ c₂), base64Char (code₃ c₂)]

/-- One or two bytes that are left. -/
def Fill_Code : Bytes → Bytes
  | [c₀, c₁] =>
    [base64Char (code₀ c₀), base64Char (code₁ c₀ c₁), base64Char (code₂ c₁ 0), base64EndChar]
  | [c₀] => [base64Char (code₀ c₀), base64Char (code₁ c₀ 0), base64EndChar, base64EndChar]
  | _ => []

def Base64Encode : Bytes → Bytes
  | c₀ :: c₁ :: c₂ :: src => Unit_Code c₀ c₁ c₂ ++ Base64Encode src
  | [c₀, c₁] => Fill_Code [c₀, c₁]
  | [c₀] => Fill_Code [c₀]
  | [] => []

/-- The overload that returns a string: what is in the buffer up to the zero behind the code. -/
def Base64EncodeString (src : Bytes) : Bytes := (Base64Encode src ++ [0]).takeWhile (· ≠ 0)

/-! ## The decoder -/

/-- A byte of a buffer, if it has been written. -/
abbrev Cell := Option UInt8

/-- `strchr` also finds the zero at the end. Where it finds nothing there is no position. -/
def Base64ChPos (ch : UInt8) : Option UInt8 :=
  ((BASE64_TAB ++ [0]).findIdx? (· = ch)).map .ofNat

/-- The three bytes of the buffer that belong to the unit. -/
def Unit_Decode (c₀ c₁ c₂ c₃ : UInt8) : Option (List Cell) :=
  if c₃ ≠ base64EndChar then do
    let code₀ ← Base64ChPos c₀
    let code₁ ← Base64ChPos c₁
    let code₂ ← Base64ChPos c₂
    let code₃ ← Base64ChPos c₃
    return [some ((code₀ <<< 2) ||| (code₁ >>> 4)), some ((code₁ <<< 4) ||| (code₂ >>> 2)),
      some ((code₂ <<< 6) ||| code₃)]
  else if c₂ = base64EndChar then do
    let code₀ ← Base64ChPos c₀
    let code₁ ← Base64ChPos c₁
    return [some ((code₀ <<< 2) ||| (code₁ >>> 4)), none, none]
  else do
    let code₀ ← Base64ChPos c₀
    let code₁ ← Base64ChPos c₁
    let code₂ ← Base64ChPos c₂
    return [some ((code₀ <<< 2) ||| (code₁ >>> 4)), some ((code₁ <<< 4) ||| (code₂ >>> 2)), none]

/-- The units, without the characters that are left. -/
def decodeUnits : Bytes → Option (List Cell)
  | c₀ :: c₁ :: c₂ :: c₃ :: src => do
    let unit ← Unit_Decode c₀ c₁ c₂ c₃
    let units ← decodeUnits src
    return unit ++ units
  | _ => some []

/-- How many of the last two characters stand for nothing. -/
def padding (src : Bytes) : Nat :=
  match src.reverse with
  | c :: d :: _ => if c = base64EndChar then (if d = base64EndChar then 2 else 1) else 0
  | _ => 0

/-- `Base64Decode` into a new buffer, with the length from before the call. -/
def Base64Decode (strEn : Bytes) (length : Nat) : Option (List Cell × Nat) :=
  if strEn.isEmpty then some ([], 0)
  else if strEn.length < 4 then some ([], length)
  else (decodeUnits strEn).map fun buf => (buf, strEn.length / 4 * 3 - padding strEn)

/-! ## Codes -/

theorem code₀_lt (c₀ : UInt8) : (code₀ c₀).toNat < 64 := by
  have hlt := c₀.toNat_lt
  have hdiv : (code₀ c₀).toNat = c₀.toNat / 4 := by simp [code₀, Nat.shiftRight_eq_div_pow]
  omega

theorem code₁_lt (c₀ c₁ : UInt8) : (code₁ c₀ c₁).toNat < 64 := by
  have hlt := c₁.toNat_lt
  have hdiv : (c₁ >>> 4).toNat = c₁.toNat / 16 := by simp [Nat.shiftRight_eq_div_pow]
  rw [code₁, UInt8.toNat_or, UInt8.toNat_and]
  apply Nat.or_lt_two_pow (n := 6)
  · exact Nat.and_lt_two_pow _ (by decide)
  · omega

theorem code₂_lt (c₁ c₂ : UInt8) : (code₂ c₁ c₂).toNat < 64 := by
  have hlt := c₂.toNat_lt
  have hdiv : (c₂ >>> 6).toNat = c₂.toNat / 64 := by simp [Nat.shiftRight_eq_div_pow]
  rw [code₂, UInt8.toNat_or, UInt8.toNat_and]
  apply Nat.or_lt_two_pow (n := 6)
  · exact Nat.and_lt_two_pow _ (by decide)
  · omega

theorem code₃_lt (c₂ : UInt8) : (code₃ c₂).toNat < 64 := by
  rw [code₃, UInt8.toNat_and]
  exact Nat.and_lt_two_pow (n := 6) _ (by decide)

theorem decode_code₀ (c₀ c₁ : UInt8) : ((code₀ c₀) <<< 2) ||| ((code₁ c₀ c₁) >>> 4) = c₀ := by
  apply UInt8.toBitVec_inj.1
  ext i hi
  interval_cases i <;> simp [code₀, code₁]

theorem decode_code₁ (c₀ c₁ c₂ : UInt8) :
    ((code₁ c₀ c₁) <<< 4) ||| ((code₂ c₁ c₂) >>> 2) = c₁ := by
  apply UInt8.toBitVec_inj.1
  ext i hi
  interval_cases i <;> simp [code₁, code₂]

theorem decode_code₂ (c₁ c₂ : UInt8) : ((code₂ c₁ c₂) <<< 6) ||| (code₃ c₂) = c₂ := by
  apply UInt8.toBitVec_inj.1
  ext i hi
  interval_cases i <;> simp [code₂, code₃]

theorem base64ChPos_tab : ∀ i < 64, Base64ChPos (BASE64_TAB.getD i 0) = some (.ofNat i) ∧
    BASE64_TAB.getD i 0 ≠ base64EndChar ∧ BASE64_TAB.getD i 0 ≠ 0 := by
  decide +kernel

theorem base64ChPos_base64Char {code : UInt8} (h : code.toNat < 64) :
    Base64ChPos (base64Char code) = some code := by
  rw [base64Char, (base64ChPos_tab code.toNat h).1, UInt8.ofNat_toNat]

theorem base64Char_ne {code : UInt8} (h : code.toNat < 64) : base64Char code ≠ base64EndChar :=
  (base64ChPos_tab code.toNat h).2.1

theorem base64Char_ne_zero {code : UInt8} (h : code.toNat < 64) : 0 ≠ base64Char code :=
  (base64ChPos_tab code.toNat h).2.2.symm

/-! ## Units -/

theorem Unit_Decode_Unit_Code (c₀ c₁ c₂ : UInt8) :
    Unit_Decode (base64Char (code₀ c₀)) (base64Char (code₁ c₀ c₁)) (base64Char (code₂ c₁ c₂))
      (base64Char (code₃ c₂)) = some [some c₀, some c₁, some c₂] := by
  rw [Unit_Decode, if_pos (base64Char_ne (code₃_lt c₂))]
  simp only [base64ChPos_base64Char, code₀_lt, code₁_lt, code₂_lt, code₃_lt, Option.bind_eq_bind,
    Option.bind_some, decode_code₀, decode_code₁, decode_code₂]
  rfl

theorem decodeUnits_Fill_Code_one (c₀ : UInt8) :
    decodeUnits (Fill_Code [c₀]) = some [some c₀, none, none] := by
  simp only [Fill_Code, decodeUnits, Unit_Decode, base64ChPos_base64Char, code₀_lt, code₁_lt,
    Option.bind_eq_bind, Option.bind_some, decode_code₀, ne_eq, not_true_eq_false, if_false, if_true]
  rfl

theorem decodeUnits_Fill_Code_two (c₀ c₁ : UInt8) :
    decodeUnits (Fill_Code [c₀, c₁]) = some [some c₀, some c₁, none] := by
  simp only [Fill_Code, decodeUnits, Unit_Decode, base64ChPos_base64Char, code₀_lt, code₁_lt,
    code₂_lt, Option.bind_eq_bind, Option.bind_some, decode_code₀, decode_code₁, ne_eq,
    not_true_eq_false, if_false, base64Char_ne]
  rfl

/-- **What is encoded is decoded.** -/
theorem decodeUnits_Base64Encode (src : Bytes) :
    decodeUnits (Base64Encode src) =
      some (src.map some ++ List.replicate ((3 - src.length % 3) % 3) none) := by
  fun_induction Base64Encode src with
  | case1 c₀ c₁ c₂ src ih =>
    simp only [Unit_Code, List.cons_append, List.nil_append, decodeUnits, Unit_Decode_Unit_Code, ih,
      Option.bind_eq_bind, Option.bind_some, List.length_cons, List.map_cons]
    rw [show src.length + 1 + 1 + 1 = src.length + 3 from rfl, Nat.add_mod_right]
    rfl
  | case2 c₀ c₁ => exact decodeUnits_Fill_Code_two c₀ c₁
  | case3 c₀ => exact decodeUnits_Fill_Code_one c₀
  | case4 => rfl

theorem zero_notMem_Base64Encode (src : Bytes) : 0 ∉ Base64Encode src := by
  have hend : (0 : UInt8) ≠ base64EndChar := by decide
  fun_induction Base64Encode src with
  | case1 c₀ c₁ c₂ src ih =>
    simp [Unit_Code, ih, base64Char_ne_zero, code₀_lt, code₁_lt, code₂_lt, code₃_lt]
  | case2 c₀ c₁ => simp [Fill_Code, hend, base64Char_ne_zero, code₀_lt, code₁_lt, code₂_lt]
  | case3 c₀ => simp [Fill_Code, hend, base64Char_ne_zero, code₀_lt, code₁_lt]
  | case4 => exact List.not_mem_nil

/-! ## Lengths -/

theorem length_Base64Encode (src : Bytes) :
    (Base64Encode src).length = (src.length / 3 + if src.length % 3 = 0 then 0 else 1) * 4 := by
  fun_induction Base64Encode src with
  | case1 c₀ c₁ c₂ src ih =>
    simp only [List.length_append, Unit_Code, List.length_cons, List.length_nil, ih]
    split_ifs <;> omega
  | case2 c₀ c₁ => simp [Fill_Code]
  | case3 c₀ => simp [Fill_Code]
  | case4 => rfl

theorem padding_append (unit : Bytes) {src : Bytes} (h : 2 ≤ src.length) :
    padding (unit ++ src) = padding src := by
  have hlength : 2 ≤ src.reverse.length := by rwa [List.length_reverse]
  unfold padding
  rw [List.reverse_append]
  match src.reverse, hlength with
  | c :: d :: _, _ => rfl

theorem padding_Base64Encode (src : Bytes) :
    padding (Base64Encode src) = (3 - src.length % 3) % 3 := by
  fun_induction Base64Encode src with
  | case1 c₀ c₁ c₂ src ih =>
    rw [show (c₀ :: c₁ :: c₂ :: src).length = src.length + 3 from rfl, Nat.add_mod_right]
    by_cases hsrc : src = []
    · rw [hsrc]
      simp only [Base64Encode, Unit_Code, padding, List.append_nil, List.reverse_cons,
        List.reverse_nil, List.nil_append, List.cons_append, if_neg (base64Char_ne (code₃_lt c₂))]
      rfl
    · rw [padding_append _ ?_, ih]
      rw [length_Base64Encode]
      have hpos : 0 < src.length := List.length_pos_iff.2 hsrc
      split_ifs <;> omega
  | case2 c₀ c₁ =>
    simp only [Fill_Code, padding, List.reverse_cons, List.reverse_nil, List.nil_append,
      List.cons_append, if_true, if_neg (base64Char_ne (code₂_lt c₁ 0))]
    rfl
  | case3 c₀ => rfl
  | case4 => rfl

/-- **What is encoded is decoded**, and the length is the one it had. -/
theorem Base64Decode_Base64Encode (src : Bytes) (length : Nat) :
    Base64Decode (Base64Encode src) length =
      some (src.map some ++ List.replicate ((3 - src.length % 3) % 3) none, src.length) := by
  by_cases hsrc : src = []
  · rw [hsrc]
    rfl
  have hpos : 0 < src.length := List.length_pos_iff.2 hsrc
  have hlength := length_Base64Encode src
  have hnot : (Base64Encode src).isEmpty = false := by
    rw [List.isEmpty_eq_false_iff, ← List.length_pos_iff]
    split_ifs at hlength <;> omega
  have hfour : ¬ (Base64Encode src).length < 4 := by split_ifs at hlength <;> omega
  have hcount : (Base64Encode src).length / 4 * 3 - padding (Base64Encode src) = src.length := by
    rw [padding_Base64Encode]
    split_ifs at hlength <;> omega
  rw [Base64Decode, hnot, if_neg Bool.false_ne_true, if_neg hfour, decodeUnits_Base64Encode,
    Option.map_some, hcount]

theorem Base64EncodeString_eq (src : Bytes) : Base64EncodeString src = Base64Encode src := by
  rw [Base64EncodeString, List.takeWhile_append_of_pos]
  · simp
  · intro c hc
    exact decide_eq_true (ne_of_mem_of_not_mem hc (zero_notMem_Base64Encode src))

/-- **The standard alphabet**: four characters for every three bytes begun, and the decoder writes the
bytes back into a buffer of three bytes for every four characters, and reports how many they are. -/
theorem base64_roundTrip (b : Bytes) (length : Nat) :
    (Base64EncodeString b).length = 4 * ((b.length + 2) / 3) ∧
      ∃ buf, Base64Decode (Base64EncodeString b) length = some (buf, b.length) ∧
        buf.length = (Base64EncodeString b).length / 4 * 3 ∧ buf.take b.length = b.map some := by
  rw [Base64EncodeString_eq]
  have hlength : (Base64Encode b).length = 4 * ((b.length + 2) / 3) := by
    rw [length_Base64Encode]
    split_ifs <;> omega
  refine ⟨hlength, _, Base64Decode_Base64Encode b length, ?_, ?_⟩
  · rw [List.length_append, List.length_map, List.length_replicate, hlength]
    omega
  · exact List.take_left' (List.length_map ..)

end SparkFrame.Tools
