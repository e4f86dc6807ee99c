import Mathlib.Data.Fintype.Basic
import Mathlib.Data.List.GetD
import Mathlib.Data.List.TakeWhile
import SparkFrame.Tools.Base64

/-!
# Strings under a block cipher: `libtools/AesBt`

* `AesCore` : the cipher and the digest, of which nothing is assumed but `AesCore.Inverts`;
* `encryptBuffer`, `decryptBuffer` : `AES_ecb128_encrypt` and `AES_ecb128_decrypt` on buffers;
* `AES_ecb128_encrypt`, `AES_ecb128_decrypt` : the same on strings, coded in base 64;
* `encryptBuffer_eq_rounds` : the bytes that are left are a block filled up with zeros;
* `decryptRounds_encryptRounds` : **blocks come back**; `decrypt_encrypt` : **strings come back**,
  unless there is a zero in them;
* `decrypt_undoes_encrypt` : both pairs of overloads.
-/

namespace SparkFrame.Tools

/-- `AES_BLOCK_SIZE` bytes. -/
abbrev Block := Fin 16 → UInt8

/-- `AES_encrypt`, `AES_decrypt` and `MD5_32`. A key is as long as a block. -/
structure AesCore where
  MD5_32 : Bytes → Bytes
  AES_encrypt : Block → Block → Block
  AES_decrypt : Block → Block → Block

/-- Decryption undoes encryption under the same key. -/
def AesCore.Inverts (core : AesCore) : Prop :=
  ∀ key block, core.AES_decrypt key (core.AES_encrypt key block) = block

namespace AesBt

variable (core : AesCore)

/-! ## Buffers -/

/-- The block at the start of a buffer. What the buffer does not hold is zero. -/
def loadBlock (p : Bytes) : Block := fun i => p.getD i 0

def storeBlock (block : Block) : Bytes := List.ofFn block

def encryptRounds (key : Block) : Nat → Bytes → Bytes
  | 0, _ => []
  | round + 1, p => storeBlock (core.AES_encrypt key (loadBlock p)) ++ encryptRounds key round (p.drop 16)

/-- `AES_ecb128_encrypt` of a buffer. What is left is copied into a block of zeros. -/
def encryptBuffer (key : Block) (p : Bytes) : Bytes :=
  let round := p.length / 16
  encryptRounds core key round p ++
    if p.length % 16 = 0 then [] else storeBlock (core.AES_encrypt key (loadBlock (p.drop (16 * round))))

/-- The bytes of cells that have all been written. -/
def written : List Cell → Option Bytes
  | [] => some []
  | c :: cells => do
    let byte ← c
    let rest ← written cells
    return byte :: rest

def decryptRounds (key : Block) : Nat → List Cell → Option (List Cell)
  | 0, _ => some []
  | round + 1, cells => do
    let p ← written (cells.take 16)
    let out ← decryptRounds key round (cells.drop 16)
    return (storeBlock (core.AES_decrypt key (loadBlock p))).map some ++ out

/-- `AES_ecb128_decrypt` of a buffer. Of what is left, nothing is written. -/
def decryptBuffer (key : Block) (cells : List Cell) (length : Nat) : Option (List Cell) := do
  let out ← decryptRounds core key (length / 16) cells
  return out ++ List.replicate (length % 16) none

/-- `std::string` of what is in a buffer, up to the first zero. -/
def readString : List Cell → Option Bytes
  | [] => none
  | none :: _ => none
  | some c :: cells => if c = 0 then some [] else (readString cells).map (c :: ·)

/-! ## Strings -/

def get_key (key_seed : Bytes) : Bytes := (core.MD5_32 key_seed).take 16

/-- The seed of the functions that are not given one. -/
def seed : Bytes := bytes "safsdfsdfkjl-s-123lkfls"

def AES_ecb128_encrypt (s key_seed : Bytes) : Bytes :=
  Base64Encode (encryptBuffer core (loadBlock (get_key core key_seed)) s)

/-- `in.c_str()` ends at the first zero. -/
def AES_ecb128_decrypt (s key_seed : Bytes) : Option Bytes := do
  let (bin_in, length) ← Base64Decode (s.takeWhile (· ≠ 0)) 0
  let bin_out ← decryptBuffer core (loadBlock (get_key core key_seed)) bin_in length
  readString (bin_out ++ [some 0])

/-- The overloads that are not given a seed. -/
def AES_ecb128_encryptFixed (s : Bytes) : Bytes := AES_ecb128_encrypt core s seed

def AES_ecb128_decryptFixed (s : Bytes) : Option Bytes := AES_ecb128_decrypt core s seed

variable {core}

/-! ## Blocks come back -/

@[simp] theorem length_storeBlock (block : Block) : (storeBlock block).length = 16 :=
  List.length_ofFn

theorem loadBlock_storeBlock_append (block : Block) (p : Bytes) :
    loadBlock (storeBlock block ++ p) = block := by
  funext i
  have hi : i.val < (storeBlock block).length := by rw [length_storeBlock]; exact i.isLt
  rw [loadBlock, List.getD_append _ _ _ _ hi, List.getD_eq_getElem _ _ hi]
  exact List.getElem_ofFn hi

theorem storeBlock_loadBlock (p : Bytes) :
    storeBlock (loadBlock p) = p.take 16 ++ List.replicate (16 - p.length) 0 := by
  apply List.ext_getElem
  · rw [length_storeBlock, List.length_append, List.length_take, List.length_replicate]
    omega
  · intro i hi hi'
    rw [length_storeBlock] at hi
    simp only [storeBlock, List.getElem_ofFn, loadBlock]
    by_cases hlt : i < p.length
    · rw [List.getD_eq_getElem _ _ hlt, List.getElem_append_left (by rw [List.length_take]; omega),
        List.getElem_take]
    · rw [List.getD_eq_default _ _ (by omega), List.getElem_append_right (by rw [List.length_take]; omega),
        List.getElem_replicate]

@[simp] theorem written_map_some (p : Bytes) : written (p.map some) = some p := by
  induction p with
  | nil => rfl
  | cons c p ih =>
    rw [List.map_cons, written, ih]
    rfl

theorem length_encryptRounds (key : Block) (round : Nat) (p : Bytes) :
    (encryptRounds core key round p).length = 16 * round := by
  induction round generalizing p with
  | zero => rfl
  | succ round ih =>
    rw [encryptRounds, List.length_append, length_storeBlock, ih]
    omega

theorem encryptRounds_succ (key : Block) (round : Nat) (p : Bytes) :
    encryptRounds core key (round + 1) p = encryptRounds core key round p ++
      storeBlock (core.AES_encrypt key (loadBlock (p.drop (16 * round)))) := by
  induction round generalizing p with
  | zero => simp [encryptRounds]
  | succ round ih =>
    rw [encryptRounds, ih, encryptRounds, List.append_assoc, List.drop_drop,
      show 16 + 16 * round = 16 * (round + 1) by omega]

theorem encryptBuffer_eq_rounds (key : Block) (p : Bytes) :
    encryptBuffer core key p = encryptRounds core key ((p.length + 15) / 16) p := by
  simp only [encryptBuffer]
  by_cases hleft : p.length % 16 = 0
  · rw [if_pos hleft, List.append_nil, show (p.length + 15) / 16 = p.length / 16 by omega]
  · rw [if_neg hleft, show (p.length + 15) / 16 = p.length / 16 + 1 by omega, encryptRounds_succ]

theorem take_append_zeros (p : Bytes) (n : Nat) :
    p.take 16 ++ List.replicate (16 - p.length) 0 ++
      ((p.drop 16).take n ++ List.replicate (n - (p.drop 16).length) 0) =
    p.take (16 + n) ++ List.replicate (16 + n - p.length) 0 := by
  rw [List.length_drop]
  by_cases hp : 16 ≤ p.length
  · rw [show 16 - p.length = 0 by omega, List.replicate_zero, List.append_nil, List.take_add,
      List.append_assoc, show n - (p.length - 16) = 16 + n - p.length by omega]
  · rw [List.drop_eq_nil_of_le (by omega), List.take_nil, List.nil_append,
      List.take_of_length_le (by omega), List.take_of_length_le (by omega), List.append_assoc,
      List.replicate_append_replicate, show 16 - p.length + (n - (p.length - 16)) = 16 + n - p.length by omega]

/-- **Blocks come back**, the last one filled up with zeros. -/
theorem decryptRounds_encryptRounds (hcore : core.Inverts) (key : Block) (round : Nat) (p : Bytes)
    (cells : List Cell) :
    decryptRounds core key round ((encryptRounds core key round p).map some ++ cells) =
      some ((p.take (16 * round) ++ List.replicate (16 * round - p.length) 0).map some) := by
  induction round generalizing p with
  | zero => simp [decryptRounds]
  | succ round ih =>
    have htake : ((encryptRounds core key (round + 1) p).map some ++ cells).take 16 =
        (storeBlock (core.AES_encrypt key (loadBlock p))).map some := by
      rw [encryptRounds, List.map_append, List.append_assoc]
      exact List.take_left' (by rw [List.length_map, length_storeBlock])
    have hdrop : ((encryptRounds core key (round + 1) p).map some ++ cells).drop 16 =
        (encryptRounds core key round (p.drop 16)).map some ++ cells := by
      rw [encryptRounds, List.map_append, List.append_assoc]
      exact List.drop_left' (by rw [List.length_map, length_storeBlock])
    have hload : loadBlock (storeBlock (core.AES_encrypt key (loadBlock p))) =
        core.AES_encrypt key (loadBlock p) := by
      have h := loadBlock_storeBlock_append (core.AES_encrypt key (loadBlock p)) []
      rwa [List.append_nil] at h
    simp only [decryptRounds, htake, hdrop, written_map_some, ih, Option.bind_eq_bind,
      Option.bind_some, hload, hcore key, storeBlock_loadBlock]
    rw [show 16 * (round + 1) = 16 + 16 * round by omega, ← take_append_zeros]
    simp only [List.map_append]
    rfl

theorem readString_map_some {s : Bytes} (hs : 0 ∉ s) (cells : List Cell) :
    readString (s.map some ++ some 0 :: cells) = some s := by
  induction s with
  | nil => rfl
  | cons c s ih =>
    rw [List.mem_cons, not_or] at hs
    rw [List.map_cons, List.cons_append, readString, if_neg (Ne.symm hs.1), ih hs.2]
    rfl

theorem readString_zeros {s : Bytes} (hs : 0 ∉ s) (n : Nat) :
    readString ((s ++ List.replicate n 0).map some ++ [some 0]) = some s := by
  rw [List.map_append, List.append_assoc, List.map_replicate]
  cases n with
  | zero => exact readString_map_some hs []
  | succ n => exact readString_map_some hs _

/-- **Strings come back**, under every seed. -/
theorem decrypt_encrypt (hcore : core.Inverts) {s : Bytes} (hs : 0 ∉ s) (key_seed : Bytes) :
    AES_ecb128_decrypt core (AES_ecb128_encrypt core s key_seed) key_seed = some s := by
  have hlength : (encryptBuffer core (loadBlock (get_key core key_seed)) s).length =
      16 * ((s.length + 15) / 16) := by rw [encryptBuffer_eq_rounds, length_encryptRounds]
  have htext : (AES_ecb128_encrypt core s key_seed).takeWhile (· ≠ 0) =
      AES_ecb128_encrypt core s key_seed := by
    rw [List.takeWhile_eq_self_iff]
    intro c hc
    exact decide_eq_true (ne_of_mem_of_not_mem hc (zero_notMem_Base64Encode _))
  have hbuffer : decryptBuffer core (loadBlock (get_key core key_seed))
      ((encryptBuffer core (loadBlock (get_key core key_seed)) s).map some ++
        List.replicate ((3 - 16 * ((s.length + 15) / 16) % 3) % 3) none)
      (16 * ((s.length + 15) / 16)) =
      some ((s ++ List.replicate (16 * ((s.length + 15) / 16) - s.length) 0).map some) := by
    rw [decryptBuffer, Nat.mul_div_cancel_left _ (by decide), Nat.mul_mod_right,
      encryptBuffer_eq_rounds, decryptRounds_encryptRounds hcore, List.take_of_length_le (by omega)]
    exact congrArg some (List.append_nil _)
  rw [AES_ecb128_decrypt, htext, AES_ecb128_encrypt, Base64Decode_Base64Encode, hlength]
  simp only [Option.bind_eq_bind, Option.bind_some, hbuffer]
  exact readString_zeros hs _

/-- **Decryption undoes encryption**, with a seed and without one. -/
theorem decrypt_undoes_encrypt (core : AesCore) (hcore : core.Inverts) (s : Bytes) (hs : 0 ∉ s) :
    (∀ key_seed, AES_ecb128_decrypt core (AES_ecb128_encrypt core s key_seed) key_seed = some s) ∧
      AES_ecb128_decryptFixed core (AES_ecb128_encryptFixed core s) = some s :=
  ⟨decrypt_encrypt hcore hs, decrypt_encrypt hcore hs seed⟩

end AesBt

end SparkFrame.Tools
