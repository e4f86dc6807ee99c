import Mathlib.Algebra.BigOperators.Fin
import Mathlib.Algebra.Group.Fin.Basic
import Mathlib.Data.Fin.VecNotation
import Mathlib.Data.Matrix.Mul
import SparkFrame.Lib.BinPoly
import SparkFrame.Lib.KeyAlternating

/-!
# The block cipher, on squares of bytes

* `GF` : bytes as polynomials modulo `x ^ 8 + x ^ 4 + x ^ 3 + x + 1`;
* `subByte` : a byte by the table; `substitution` : that in every place, and the rows shifted;
* `mixColumns` : the columns multiplied by a matrix, `mixMatrix_mul` : which has an inverse;
* `keyWord`, `roundKey` : the words a key is expanded to, four of them for each round;
* `encrypt`, `decrypt` : the cipher and its inverse, `decrypt_encrypt`, `encrypt_decrypt`.
-/

namespace SparkFrame.Tools.Rijndael

open Lib (BinPoly cipher inverseKeys)

/-! ## Bytes -/

abbrev GF := BinPoly 8 0x1b#8

def gf (b : UInt8) : GF := ⟨b.toBitVec⟩

def ofGF (a : GF) : UInt8 := ⟨a.bits⟩

@[simp] theorem ofGF_gf (b : UInt8) : ofGF (gf b) = b := rfl

@[simp] theorem gf_ofGF (a : GF) : gf (ofGF a) = a := rfl

@[simp] theorem gf_zero : gf 0 = 0 := rfl

theorem gf_injective : Function.Injective gf :=
  Function.LeftInverse.injective ofGF_gf

theorem forall_gf {p : GF → Prop} (h : ∀ i : Fin 256, p ⟨⟨i⟩⟩) (a : GF) : p a :=
  h a.bits.toFin

def sBox : List (List (BitVec 8)) :=
  [[0x63, 0x7c, 0x77, 0x7b, 0xf2, 0x6b, 0x6f, 0xc5, 0x30, 0x01, 0x67, 0x2b, 0xfe, 0xd7, 0xab, 0x76],
   [0xca, 0x82, 0xc9, 0x7d, 0xfa, 0x59, 0x47, 0xf0, 0xad, 0xd4, 0xa2, 0xaf, 0x9c, 0xa4, 0x72, 0xc0],
   [0xb7, 0xfd, 0x93, 0x26, 0x36, 0x3f, 0xf7, 0xcc, 0x34, 0xa5, 0xe5, 0xf1, 0x71, 0xd8, 0x31, 0x15],
   [0x04, 0xc7, 0x23, 0xc3, 0x18, 0x96, 0x05, 0x9a, 0x07, 0x12, 0x80, 0xe2, 0xeb, 0x27, 0xb2, 0x75],
   [0x09, 0x83, 0x2c, 0x1a, 0x1b, 0x6e, 0x5a, 0xa0, 0x52, 0x3b, 0xd6, 0xb3, 0x29, 0xe3, 0x2f, 0x84],
   [0x53, 0xd1, 0x00, 0xed, 0x20, 0xfc, 0xb1, 0x5b, 0x6a, 0xcb, 0xbe, 0x39, 0x4a, 0x4c, 0x58, 0xcf],
   [0xd0, 0xef, 0xaa, 0xfb, 0x43, 0x4d, 0x33, 0x85, 0x45, 0xf9, 0x02, 0x7f, 0x50, 0x3c, 0x9f, 0xa8],
   [0x51, 0xa3, 0x40, 0x8f, 0x92, 0x9d, 0x38, 0xf5, 0xbc, 0xb6, 0xda, 0x21, 0x10, 0xff, 0xf3, 0xd2],
   [0xcd, 0x0c, 0x13, 0xec, 0x5f, 0x97, 0x44, 0x17, 0xc4, 0xa7, 0x7e, 0x3d, 0x64, 0x5d, 0x19, 0x73],
   [0x60, 0x81, 0x4f, 0xdc, 0x22, 0x2a, 0x90, 0x88, 0x46, 0xee, 0xb8, 0x14, 0xde, 0x5e, 0x0b, 0xdb],
   [0xe0, 0x32, 0x3a, 0x0a, 0x49, 0x06, 0x24, 0x5c, 0xc2, 0xd3, 0xac, 0x62, 0x91, 0x95, 0xe4, 0x79],
   [0xe7, 0xc8, 0x37, 0x6d, 0x8d, 0xd5, 0x4e, 0xa9, 0x6c, 0x56, 0xf4, 0xea, 0x65, 0x7a, 0xae, 0x08],
   [0xba, 0x78, 0x25, 0x2e, 0x1c, 0xa6, 0xb4, 0xc6, 0xe8, 0xdd, 0x74, 0x1f, 0x4b, 0xbd, 0x8b, 0x8a],
   [0x70, 0x3e, 0xb5, 0x66, 0x48, 0x03, 0xf6, 0x0e, 0x61, 0x35, 0x57, 0xb9, 0x86, 0xc1, 0x1d, 0x9e],
   [0xe1, 0xf8, 0x98, 0x11, 0x69, 0xd9, 0x8e, 0x94, 0x9b, 0x1e, 0x87, 0xe9, 0xce, 0x55, 0x28, 0xdf],
   [0x8c, 0xa1, 0x89, 0x0d, 0xbf, 0xe6, 0x42, 0x68, 0x41, 0x99, 0x2d, 0x0f, 0xb0, 0x54, 0xbb, 0x16]]

def invSBox : List (List (BitVec 8)) :=
  [[0x52, 0x09, 0x6a, 0xd5, 0x30, 0x36, 0xa5, 0x38, 0xbf, 0x40, 0xa3, 0x9e, 0x81, 0xf3, 0xd7, 0xfb],
   [0x7c, 0xe3, 0x39, 0x82, 0x9b, 0x2f, 0xff, 0x87, 0x34, 0x8e, 0x43, 0x44, 0xc4, 0xde, 0xe9, 0xcb],
   [0x54, 0x7b, 0x94, 0x32, 0xa6, 0xc2, 0x23, 0x3d, 0xee, 0x4c, 0x95, 0x0b, 0x42, 0xfa, 0xc3, 0x4e],
   [0x08, 0x2e, 0xa1, 0x66, 0x28, 0xd9, 0x24, 0xb2, 0x76, 0x5b, 0xa2, 0x49, 0x6d, 0x8b, 0xd1, 0x25],
   [0x72, 0xf8, 0xf6, 0x64, 0x86, 0x68, 0x98, 0x16, 0xd4, 0xa4, 0x5c, 0xcc, 0x5d, 0x65, 0xb6, 0x92],
   [0x6c, 0x70, 0x48, 0x50, 0xfd, 0xed, 0xb9, 0xda, 0x5e, 0x15, 0x46, 0x57, 0xa7, 0x8d, 0x9d, 0x84],
   [0x90, 0xd8, 0xab, 0x00, 0x8c, 0xbc, 0xd3, 0x0a, 0xf7, 0xe4, 0x58, 0x05, 0xb8, 0xb3, 0x45, 0x06],
   [0xd0, 0x2c, 0x1e, 0x8f, 0xca, 0x3f, 0x0f, 0x02, 0xc1, 0xaf, 0xbd, 0x03, 0x01, 0x13, 0x8a, 0x6b],
   [0x3a, 0x91, 0x11, 0x41, 0x4f, 0x67, 0xdc, 0xea, 0x97, 0xf2, 0xcf, 0xce, 0xf0, 0xb4, 0xe6, 0x73],
   [0x96, 0xac, 0x74, 0x22, 0xe7, 0xad, 0x35, 0x85, 0xe2, 0xf9, 0x37, 0xe8, 0x1c, 0x75, 0xdf, 0x6e],
   [0x47, 0xf1, 0x1a, 0x71, 0x1d, 0x29, 0xc5, 0x89, 0x6f, 0xb7, 0x62, 0x0e, 0xaa, 0x18, 0xbe, 0x1b],
   [0xfc, 0x56, 0x3e, 0x4b, 0xc6, 0xd2, 0x79, 0x20, 0x9a, 0xdb, 0xc0, 0xfe, 0x78, 0xcd, 0x5a, 0xf4],
   [0x1f, 0xdd, 0xa8, 0x33, 0x88, 0x07, 0xc7, 0x31, 0xb1, 0x12, 0x10, 0x59, 0x27, 0x80, 0xec, 0x5f],
   [0x60, 0x51, 0x7f, 0xa9, 0x19, 0xb5, 0x4a, 0x0d, 0x2d, 0xe5, 0x7a, 0x9f, 0x93, 0xc9, 0x9c, 0xef],
   [0xa0, 0xe0, 0x3b, 0x4d, 0xae, 0x2a, 0xf5, 0xb0, 0xc8, 0xeb, 0xbb, 0x3c, 0x83, 0x53, 0x99, 0x61],
   [0x17, 0x2b, 0x04, 0x7e, 0xba, 0x77, 0xd6, 0x26, 0xe1, 0x69, 0x14, 0x63, 0x55, 0x21, 0x0c, 0x7d]]

/-- The byte in a row and a column of a table. -/
def lookup (table : List (List (BitVec 8))) (b : BitVec 8) : BitVec 8 :=
  (table.getD (b.toNat / 16) []).getD (b.toNat % 16) 0

/-- The substitution of a byte. -/
def subByte : Equiv.Perm GF where
  toFun a := ⟨lookup sBox a.bits⟩
  invFun a := ⟨lookup invSBox a.bits⟩
  left_inv := forall_gf (by decide +kernel)
  right_inv := forall_gf (by decide +kernel)

/-! ## Squares of bytes -/

/-- The byte in a row and a column. -/
abbrev State := Matrix (Fin 4) (Fin 4) GF

/-- Every byte is substituted, then row `r` is moved to the left by `r` places. -/
def substitution : Equiv.Perm State where
  toFun s := fun r c => subByte (s r (c + r))
  invFun s := fun r c => subByte.symm (s r (c - r))
  left_inv s := by
    funext r c
    have hc : c - r + r = c := sub_add_cancel c r
    show subByte.symm (subByte (s r (c - r + r))) = s r c
    rw [Equiv.symm_apply_apply, hc]
  right_inv s := by
    funext r c
    have hc : c + r - r = c := add_sub_cancel_right c r
    show subByte (subByte.symm (s r (c + r - r))) = s r c
    rw [Equiv.apply_symm_apply, hc]

theorem substitution_apply (s : State) (r c : Fin 4) : substitution s r c = subByte (s r (c + r)) := rfl

theorem substitution_symm_apply (s : State) (r c : Fin 4) :
    substitution.symm s r c = subByte.symm (s r (c - r)) := rfl

/-- A row of the matrix is the one above, moved to the right. -/
def mixMatrix : State := fun r c => ![⟨0x02⟩, ⟨0x03⟩, ⟨0x01⟩, ⟨0x01⟩] (c - r)

def unmixMatrix : State := fun r c => ![⟨0x0e⟩, ⟨0x0b⟩, ⟨0x0d⟩, ⟨0x09⟩] (c - r)

theorem unmixMatrix_mul : unmixMatrix * mixMatrix = 1 := by
  have h : ∀ r c : Fin 4, (unmixMatrix r 0 * mixMatrix 0 c + unmixMatrix r 1 * mixMatrix 1 c +
      unmixMatrix r 2 * mixMatrix 2 c + unmixMatrix r 3 * mixMatrix 3 c : GF) = if r = c then 1 else 0 := by
    decide +kernel
  funext r c
  rw [Matrix.mul_apply, Fin.sum_univ_four, Matrix.one_apply]
  exact h r c

theorem mixMatrix_mul : mixMatrix * unmixMatrix = 1 := by
  have h : ∀ r c : Fin 4, (mixMatrix r 0 * unmixMatrix 0 c + mixMatrix r 1 * unmixMatrix 1 c +
      mixMatrix r 2 * unmixMatrix 2 c + mixMatrix r 3 * unmixMatrix 3 c : GF) = if r = c then 1 else 0 := by
    decide +kernel
  funext r c
  rw [Matrix.mul_apply, Fin.sum_univ_four, Matrix.one_apply]
  exact h r c

/-- The columns multiplied by the matrix. -/
def mixColumns : State ≃+ State where
  toFun s := mixMatrix * s
  invFun s := unmixMatrix * s
  left_inv s := by
    show unmixMatrix * (mixMatrix * s) = s
    rw [← Matrix.mul_assoc, unmixMatrix_mul, Matrix.one_mul]
  right_inv s := by
    show mixMatrix * (unmixMatrix * s) = s
    rw [← Matrix.mul_assoc, mixMatrix_mul, Matrix.one_mul]
  map_add' s t := Matrix.mul_add mixMatrix s t

theorem mixColumns_apply (s : State) : mixColumns s = mixMatrix * s := rfl

theorem mixColumns_symm_apply (s : State) : mixColumns.symm s = unmixMatrix * s := rfl

/-! ## Keys -/

/-- A column of a square. -/
abbrev Column := Fin 4 → GF

/-- A word is turned and substituted. -/
def subWord (t : Column) : Column := fun r => subByte (t r)

def rotWord (t : Column) : Column := fun r => t (r + 1)

/-- A power of `x` in the first place. -/
def roundConstant (n : Nat) : Column := fun r => if r = 0 then (⟨0x02⟩ : GF) ^ n else 0

/-- What word `i` differs by from the one a key's length before it, after `t`. -/
def keyStep (Nk i : Nat) (t : Column) : Column :=
  if i % Nk = 0 then subWord (rotWord t) + roundConstant (i / Nk - 1)
  else if 6 < Nk ∧ i % Nk = 4 then subWord t else t

/-- Word `i` of the expansion of a key of `Nk` words. -/
def keyWord (Nk : Nat) (key : Nat → Column) (i : Nat) : Column :=
  if i < Nk ∨ Nk = 0 then key i
  else keyWord Nk key (i - Nk) + keyStep Nk i (keyWord Nk key (i - 1))
termination_by i
decreasing_by all_goals omega

theorem keyWord_lt {Nk i : Nat} (key : Nat → Column) (hi : i < Nk) : keyWord Nk key i = key i := by
  rw [keyWord, if_pos (Or.inl hi)]

theorem keyWord_add {Nk : Nat} (key : Nat → Column) (hNk : 0 < Nk) (i : Nat) :
    keyWord Nk key (i + Nk) = keyWord Nk key i + keyStep Nk (i + Nk) (keyWord Nk key (i + Nk - 1)) := by
  rw [keyWord, if_neg (by omega), Nat.add_sub_cancel]

/-- The words of a round, as columns. -/
def roundKey (word : Nat → Column) (n : Nat) : State := fun r c => word (4 * n + c.val) r

/-! ## The cipher -/

def encrypt (key : Nat → State) (rounds : Nat) (s : State) : State :=
  cipher substitution mixColumns key (rounds - 1) s

/-- The inverse, under the keys it is given. -/
def decrypt (key : Nat → State) (rounds : Nat) (s : State) : State :=
  cipher substitution.symm mixColumns.symm key (rounds - 1) s

/-- The keys from the last to the first, unmixed but for those two. -/
def decryptKeys (key : Nat → State) (rounds : Nat) (n : Nat) : State :=
  if n = 0 ∨ n = rounds then key (rounds - n) else mixColumns.symm (key (rounds - n))

theorem inverseKeys_eq (key : Nat → State) {rounds : Nat} (hrounds : 0 < rounds) :
    inverseKeys mixColumns key (rounds - 1) = decryptKeys key rounds := by
  funext n
  rw [inverseKeys, decryptKeys, Nat.sub_add_cancel hrounds]
  rfl

theorem decrypt_encrypt (key : Nat → State) {rounds : Nat} (hrounds : 0 < rounds) (s : State) :
    decrypt (decryptKeys key rounds) rounds (encrypt key rounds s) = s := by
  rw [decrypt, encrypt, ← inverseKeys_eq key hrounds]
  exact Lib.cipher_inverse substitution mixColumns key (rounds - 1) s

theorem encrypt_decrypt (key : Nat → State) {rounds : Nat} (hrounds : 0 < rounds) (s : State) :
    encrypt key rounds (decrypt (decryptKeys key rounds) rounds s) = s := by
  rw [decrypt, encrypt, ← inverseKeys_eq key hrounds]
  exact Lib.inverse_cipher substitution mixColumns key (rounds - 1) s

end SparkFrame.Tools.Rijndael
