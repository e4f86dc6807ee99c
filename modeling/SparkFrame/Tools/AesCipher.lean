import Mathlib.Tactic.FinCases
import SparkFrame.Tools.AesCore
import SparkFrame.Tools.Rijndael

/-!
# The words of `libtools/AesCore` as columns of bytes

* `column`, `columns`, `square` : the bytes of a word, of four words and of a block;
* `column_Te0` and so on : what the tables hold, an entry of a matrix times a substituted byte;
* `columns_encryptRound`, `columns_decryptRound` : a round of the source is a round on squares of bytes;
* `roundLoop_eq` : the rounds that the loop takes two at a time;
* `square_AES_encrypt`, `square_AES_decrypt` : **the functions on words are the cipher and its inverse**.
-/

namespace SparkFrame.Tools.Aes

open Rijndael

/-! ## Words -/

/-- The bytes of a word, the most significant first. -/
def column (w : UInt32) : Column := fun r => ⟨w.toBitVec.extractLsb' (24 - 8 * r.val) 8⟩

theorem column_xor (a b : UInt32) : column (a ^^^ b) = column a + column b := by
  funext r
  exact Lib.BinPoly.ext BitVec.extractLsb'_xor

theorem column_and (a m : UInt32) (r : Fin 4) :
    column (a &&& m) r = ⟨(column a r).bits &&& (column m r).bits⟩ :=
  Lib.BinPoly.ext BitVec.extractLsb'_and

theorem column_and_mask (a m : UInt32) (i : Fin 4)
    (hm : ∀ r, (column m r).bits = if r = i then BitVec.allOnes 8 else 0#8) (r : Fin 4) :
    column (a &&& m) r = if r = i then column a r else 0 := by
  rw [column_and, hm]
  by_cases h : r = i
  · rw [if_pos h, if_pos h, BitVec.and_allOnes]
  · rw [if_neg h, if_neg h, BitVec.and_zero]
    rfl

theorem column_and_top (a : UInt32) (r : Fin 4) :
    column (a &&& 0xff000000) r = if r = 0 then column a r else 0 :=
  column_and_mask a _ 0 (by decide) r

theorem column_and_second (a : UInt32) (r : Fin 4) :
    column (a &&& 0x00ff0000) r = if r = 1 then column a r else 0 :=
  column_and_mask a _ 1 (by decide) r

theorem column_and_third (a : UInt32) (r : Fin 4) :
    column (a &&& 0x0000ff00) r = if r = 2 then column a r else 0 :=
  column_and_mask a _ 2 (by decide) r

theorem column_and_low (a : UInt32) (r : Fin 4) :
    column (a &&& 0x000000ff) r = if r = 3 then column a r else 0 :=
  column_and_mask a _ 3 (by decide) r

theorem extract_shl (b : BitVec 8) (i r : Fin 4) :
    (b.setWidth 32 <<< (24 - 8 * i.val)).extractLsb' (24 - 8 * r.val) 8 = if r = i then b else 0#8 := by
  apply BitVec.eq_of_getLsbD_eq
  intro k hk
  have hi := i.isLt
  have hr := r.isLt
  rw [BitVec.getLsbD_extractLsb', BitVec.getLsbD_shiftLeft, BitVec.getLsbD_setWidth]
  by_cases h : r = i
  · subst h
    rw [if_pos rfl, Nat.add_sub_cancel_left]
    simp only [hk, decide_true, Bool.true_and, show 24 - 8 * r.val + k < 32 by omega,
      show ¬ 24 - 8 * r.val + k < 24 - 8 * r.val by omega, decide_false, Bool.not_false,
      show k < 32 by omega]
  · rw [if_neg h, BitVec.getLsbD_zero]
    have hne : r.val ≠ i.val := fun hval => h (Fin.ext hval)
    by_cases hlt : 24 - 8 * r.val + k < 24 - 8 * i.val
    · simp only [hlt, decide_true, Bool.not_true, Bool.and_false, Bool.false_and]
    · rw [BitVec.getLsbD_of_ge b _ (by omega)]
      simp only [Bool.and_false]

theorem column_shl (b : UInt8) (i r : Fin 4) (n : UInt32)
    (hn : n.toBitVec % 32 = BitVec.ofNat 32 (24 - 8 * i.val)) :
    column (b.toUInt32 <<< n) r = if r = i then gf b else 0 := by
  have hshift : (b.toUInt32 <<< n).toBitVec = b.toBitVec.setWidth 32 <<< (24 - 8 * i.val) := by
    rw [UInt32.toBitVec_shiftLeft, hn, UInt8.toBitVec_toUInt32, BitVec.shiftLeft_eq']
    congr 1
    rw [BitVec.toNat_ofNat]
    omega
  rw [column, hshift, extract_shl]
  by_cases h : r = i
  · rw [if_pos h, if_pos h]
    rfl
  · rw [if_neg h, if_neg h]
    rfl

theorem column_low (b : UInt8) (r : Fin 4) : column b.toUInt32 r = if r = 3 then gf b else 0 := by
  have h := column_shl b 3 r 0 (by decide)
  rwa [UInt32.shiftLeft_zero] at h

theorem column_GETU32 (p : Fin 4 → UInt8) (r : Fin 4) :
    column (GETU32 (p 0) (p 1) (p 2) (p 3)) r = gf (p r) := by
  simp only [GETU32, column_xor, Pi.add_apply, column_low, column_shl _ 0 r 24 (by decide),
    column_shl _ 1 r 16 (by decide), column_shl _ 2 r 8 (by decide)]
  revert r
  simp [Fin.forall_fin_succ]

@[simp] theorem gf_shr24 (w : UInt32) : (⟨⟨shr24 w⟩⟩ : GF) = column w 0 := by
  apply Lib.BinPoly.ext
  apply BitVec.eq_of_toNat_eq
  show (w >>> 24).toNat = (w.toBitVec.extractLsb' 24 8).toNat
  rw [BitVec.extractLsb'_toNat, UInt32.toNat_shiftRight]
  exact (Nat.mod_eq_of_lt (shr24 w).isLt).symm

theorem gf_shrAnd (w n : UInt32) (r : Fin 4) (hn : n.toNat % 32 = 24 - 8 * r.val) :
    (⟨⟨shrAnd w n⟩⟩ : GF) = column w r := by
  apply Lib.BinPoly.ext
  apply BitVec.eq_of_toNat_eq
  show ((w >>> n) &&& 0xff).toNat = (w.toBitVec.extractLsb' (24 - 8 * r.val) 8).toNat
  rw [BitVec.extractLsb'_toNat, UInt32.toNat_and, UInt32.toNat_shiftRight, hn]
  exact Nat.and_two_pow_sub_one_eq_mod _ 8

@[simp] theorem gf_shrAnd_16 (w : UInt32) : (⟨⟨shrAnd w 16⟩⟩ : GF) = column w 1 :=
  gf_shrAnd w 16 1 (by decide)

@[simp] theorem gf_shrAnd_8 (w : UInt32) : (⟨⟨shrAnd w 8⟩⟩ : GF) = column w 2 :=
  gf_shrAnd w 8 2 (by decide)

@[simp] theorem gf_shrAnd_0 (w : UInt32) : (⟨⟨shrAnd w 0⟩⟩ : GF) = column w 3 :=
  gf_shrAnd w 0 3 (by decide)

theorem gf_toUInt8_shr (w n : UInt32) (r : Fin 4) (hn : n.toNat % 32 = 24 - 8 * r.val) :
    gf (w >>> n).toUInt8 = column w r := by
  apply Lib.BinPoly.ext
  apply BitVec.eq_of_toNat_eq
  show (w >>> n).toUInt8.toNat = (w.toBitVec.extractLsb' (24 - 8 * r.val) 8).toNat
  rw [BitVec.extractLsb'_toNat, UInt32.toNat_toUInt8, UInt32.toNat_shiftRight, hn]
  rfl

theorem gf_PUTU32 (w : UInt32) (r : Fin 4) : gf ((PUTU32 w).getD r 0) = column w r := by
  have h3 := gf_toUInt8_shr w 0 3 (by decide)
  rw [UInt32.shiftRight_zero] at h3
  revert r
  rw [Fin.forall_fin_succ, Fin.forall_fin_succ, Fin.forall_fin_succ, Fin.forall_fin_succ]
  exact ⟨gf_toUInt8_shr w 24 0 (by decide), gf_toUInt8_shr w 16 1 (by decide),
    gf_toUInt8_shr w 8 2 (by decide), h3, fun i => i.elim0⟩

/-! ## Tables -/

/-- The product of a byte with `x`. -/
def x2 (b : BitVec 8) : BitVec 8 := Lib.xtime 0x1b#8 b

theorem two_mul_bits (b : BitVec 8) : (⟨0x02⟩ : GF) * ⟨b⟩ = ⟨x2 b⟩ := Lib.BinPoly.x_mul ⟨b⟩

/-- A word of `Te0`. -/
def te0Word (b : BitVec 8) : UInt32 := GETU32 ⟨x2 b⟩ ⟨b⟩ ⟨b⟩ ⟨x2 b ^^^ b⟩

theorem column_te0Word (b : BitVec 8) (r : Fin 4) : column (te0Word b) r = mixMatrix r 0 * ⟨b⟩ := by
  have h3 : (⟨0x03⟩ : GF) = ⟨0x02⟩ + 1 := rfl
  have h := column_GETU32 ![⟨x2 b⟩, ⟨b⟩, ⟨b⟩, ⟨x2 b ^^^ b⟩] r
  refine h.trans ?_
  fin_cases r
  · exact (two_mul_bits b).symm
  · exact (one_mul (⟨b⟩ : GF)).symm
  · exact (one_mul (⟨b⟩ : GF)).symm
  · show (⟨x2 b⟩ : GF) + ⟨b⟩ = ⟨0x03⟩ * ⟨b⟩
    rw [h3, add_mul, two_mul_bits, one_mul]

/-- A word of `Td0`. -/
def td0Word (b : BitVec 8) : UInt32 :=
  GETU32 ⟨x2 (x2 (x2 b ^^^ b) ^^^ b)⟩ ⟨x2 (x2 (x2 b)) ^^^ b⟩ ⟨x2 (x2 (x2 b ^^^ b)) ^^^ b⟩
    ⟨x2 (x2 (x2 b) ^^^ b) ^^^ b⟩

theorem times_x {c : GF} {b e : BitVec 8} (h : c * ⟨b⟩ = ⟨e⟩) : ⟨0x02⟩ * c * ⟨b⟩ = (⟨x2 e⟩ : GF) := by
  rw [mul_assoc, h, two_mul_bits]

theorem plus_one {c : GF} {b e : BitVec 8} (h : c * ⟨b⟩ = ⟨e⟩) : (c + 1) * ⟨b⟩ = (⟨e ^^^ b⟩ : GF) := by
  rw [add_mul, one_mul, h]
  rfl

theorem column_td0Word (b : BitVec 8) (r : Fin 4) : column (td0Word b) r = unmixMatrix r 0 * ⟨b⟩ := by
  have h0e : (⟨0x0e⟩ : GF) = ⟨0x02⟩ * (⟨0x02⟩ * (⟨0x02⟩ + 1) + 1) := by decide
  have h09 : (⟨0x09⟩ : GF) = ⟨0x02⟩ * (⟨0x02⟩ * ⟨0x02⟩) + 1 := by decide
  have h0d : (⟨0x0d⟩ : GF) = ⟨0x02⟩ * (⟨0x02⟩ * (⟨0x02⟩ + 1)) + 1 := by decide
  have h0b : (⟨0x0b⟩ : GF) = ⟨0x02⟩ * (⟨0x02⟩ * ⟨0x02⟩ + 1) + 1 := by decide
  have h := column_GETU32 ![⟨x2 (x2 (x2 b ^^^ b) ^^^ b)⟩, ⟨x2 (x2 (x2 b)) ^^^ b⟩,
    ⟨x2 (x2 (x2 b ^^^ b)) ^^^ b⟩, ⟨x2 (x2 (x2 b) ^^^ b) ^^^ b⟩] r
  have h2 := two_mul_bits b
  refine h.trans (Eq.symm ?_)
  fin_cases r
  · exact (congrArg (· * _) h0e).trans (times_x (plus_one (times_x (plus_one h2))))
  · exact (congrArg (· * _) h09).trans (plus_one (times_x (times_x h2)))
  · exact (congrArg (· * _) h0d).trans (plus_one (times_x (times_x (plus_one h2))))
  · exact (congrArg (· * _) h0b).trans (plus_one (times_x (plus_one (times_x h2))))

theorem getD_flatten {α : Type} (d : α) {n : Nat} (hn : 0 < n) (rows : List (List α))
    (hrows : ∀ row ∈ rows, row.length = n) (i : Nat) :
    rows.flatten.getD i d = (rows.getD (i / n) []).getD (i % n) d := by
  induction rows generalizing i with
  | nil => simp
  | cons row rows ih =>
    have hrow := hrows row List.mem_cons_self
    rw [List.flatten_cons]
    by_cases hi : i < n
    · rw [Nat.div_eq_of_lt hi, Nat.mod_eq_of_lt hi, List.getD_append _ _ _ _ (by omega)]
      rfl
    · have hdiv : i / n = (i - n) / n + 1 := by
        rw [← Nat.add_div_right _ hn, Nat.sub_add_cancel (by omega)]
      rw [List.getD_append_right _ _ _ _ (by omega), hrow,
        ih (fun r hr => hrows r (List.mem_cons_of_mem _ hr)), hdiv, List.getD_cons_succ,
        Nat.mod_eq_sub_mod (by omega : n ≤ i)]

theorem rows_sBox : ∀ row ∈ sBox, row.length = 16 := by decide

theorem rows_invSBox : ∀ row ∈ invSBox, row.length = 16 := by decide

theorem getD_table {α : Type} {words : List α} {box : List (List (BitVec 8))} (f : BitVec 8 → α) (d : α)
    (hwords : words = box.flatten.map f) (hrows : ∀ row ∈ box, row.length = 16)
    (hlength : box.flatten.length = 256) (i : Fin 256) : words.getD i d = f (lookup box ⟨i⟩) := by
  have hi : i.val < box.flatten.length := by rw [hlength]; exact i.isLt
  have hlookup := getD_flatten 0 (by decide) box hrows i
  rw [List.getD_eq_getElem _ _ hi] at hlookup
  subst hwords
  rw [List.getD_eq_getElem _ _ (by rwa [List.length_map]), List.getElem_map, hlookup]
  rfl

/-- A word that is turned by a byte. -/
def turn (w : UInt32) : UInt32 := ⟨w.toBitVec.rotateRight 8⟩

theorem column_turn (w : UInt32) (r : Fin 4) : column (turn w) r = column w (r + 3) := by
  apply Lib.BinPoly.ext
  apply BitVec.eq_of_getLsbD_eq
  intro k hk
  simp only [column, turn, BitVec.getLsbD_extractLsb', BitVec.getLsbD_rotateRight, hk, decide_true,
    Bool.true_and]
  fin_cases r
  · simp
    omega
  · simp [show 16 + k < 24 by omega, ← Nat.add_assoc]
  · simp [show 8 + k < 24 by omega, ← Nat.add_assoc]
  · simp [show k < 24 by omega]

/-- The first tables are columns of the matrices, and each of the others is the one before, turned. -/
theorem tables_eq :
    (Te0Words = sBox.flatten.map te0Word ∧ Te1Words = Te0Words.map turn ∧
      Te2Words = Te1Words.map turn ∧ Te3Words = Te2Words.map turn) ∧
    (Td0Words = invSBox.flatten.map td0Word ∧ Td1Words = Td0Words.map turn ∧
      Td2Words = Td1Words.map turn ∧ Td3Words = Td2Words.map turn) ∧
    Td4Bytes = invSBox.flatten.map UInt8.ofBitVec ∧
    sBox.flatten.length = 256 ∧ invSBox.flatten.length = 256 := by
  decide +kernel

theorem column_turned {words words' : List UInt32} {M : State} {j : Fin 4} {s : GF} {i : Fin 256}
    (hturn : words' = words.map turn) (hM : ∀ r, M (r + 3) j = M r (j + 1))
    (h : ∀ r, column (words.getD i 0) r = M r j * s) (r : Fin 4) :
    column (words'.getD i 0) r = M r (j + 1) * s := by
  have hzero : turn 0 = 0 := by decide
  have hget : (words.map turn).getD i 0 = turn (words.getD i 0) := by
    conv_lhs => rw [← hzero]
    exact List.getD_map words 0 turn
  rw [hturn, hget, column_turn, h, hM]

theorem column_Te0 (i : Fin 256) (r : Fin 4) : column (Te0 i) r = mixMatrix r 0 * subByte ⟨⟨i⟩⟩ := by
  rw [Te0, getD_table _ 0 tables_eq.1.1 rows_sBox tables_eq.2.2.2.1, column_te0Word]
  rfl

theorem column_Te1 (i : Fin 256) (r : Fin 4) :
    column (Te1 i) r = mixMatrix r 1 * subByte ⟨⟨i⟩⟩ := by
  rw [Te1]
  exact column_turned tables_eq.1.2.1 (j := 0) (by decide) (column_Te0 i) r

theorem column_Te2 (i : Fin 256) (r : Fin 4) :
    column (Te2 i) r = mixMatrix r 2 * subByte ⟨⟨i⟩⟩ := by
  rw [Te2]
  exact column_turned tables_eq.1.2.2.1 (j := 1) (by decide) (column_Te1 i) r

theorem column_Te3 (i : Fin 256) (r : Fin 4) :
    column (Te3 i) r = mixMatrix r 3 * subByte ⟨⟨i⟩⟩ := by
  rw [Te3]
  exact column_turned tables_eq.1.2.2.2 (j := 2) (by decide) (column_Te2 i) r

theorem column_Td0 (i : Fin 256) (r : Fin 4) :
    column (Td0 i) r = unmixMatrix r 0 * subByte.symm ⟨⟨i⟩⟩ := by
  rw [Td0, getD_table _ 0 tables_eq.2.1.1 rows_invSBox tables_eq.2.2.2.2, column_td0Word]
  rfl

theorem column_Td1 (i : Fin 256) (r : Fin 4) :
    column (Td1 i) r = unmixMatrix r 1 * subByte.symm ⟨⟨i⟩⟩ := by
  rw [Td1]
  exact column_turned tables_eq.2.1.2.1 (j := 0) (by decide) (column_Td0 i) r

theorem column_Td2 (i : Fin 256) (r : Fin 4) :
    column (Td2 i) r = unmixMatrix r 2 * subByte.symm ⟨⟨i⟩⟩ := by
  rw [Td2]
  exact column_turned tables_eq.2.1.2.2.1 (j := 1) (by decide) (column_Td1 i) r

theorem column_Td3 (i : Fin 256) (r : Fin 4) :
    column (Td3 i) r = unmixMatrix r 3 * subByte.symm ⟨⟨i⟩⟩ := by
  rw [Td3]
  exact column_turned tables_eq.2.1.2.2.2 (j := 2) (by decide) (column_Td2 i) r

theorem gf_Td4 (i : Fin 256) : gf (Td4 i) = subByte.symm ⟨⟨i⟩⟩ := by
  rw [Td4, getD_table _ 0 tables_eq.2.2.1 rows_invSBox tables_eq.2.2.2.2]
  rfl

/-! ## Squares -/

/-- Four words side by side. -/
def columns (s : Words) : State := fun r c => column (![s.s0, s.s1, s.s2, s.s3] c) r

/-- The bytes of a block, from top to bottom and then from left to right. -/
def square (block : Block) : State := fun r c => gf (block ⟨4 * c.val + r.val, by omega⟩)

theorem square_injective : Function.Injective square := by
  intro a b h
  funext i
  have hplace := congrFun (congrFun h ⟨i.val % 4, by omega⟩) ⟨i.val / 4, by omega⟩
  have hi : 4 * (i.val / 4) + i.val % 4 = i.val := Nat.div_add_mod i.val 4
  simp only [square, hi] at hplace
  exact gf_injective hplace

/-- The round keys of a schedule. -/
def keys (rk : Nat → UInt32) : Nat → State := roundKey fun i => column (rk i)

theorem columns_eq {s : Words} {t : State} (h0 : ∀ r, column s.s0 r = t r 0)
    (h1 : ∀ r, column s.s1 r = t r 1) (h2 : ∀ r, column s.s2 r = t r 2)
    (h3 : ∀ r, column s.s3 r = t r 3) : columns s = t := by
  funext r c
  fin_cases c
  · exact h0 r
  · exact h1 r
  · exact h2 r
  · exact h3 r

theorem columns_loadWords (block : Block) (rk : Nat → UInt32) :
    columns (loadWords block rk) = square block + keys rk 0 := by
  have hword : ∀ (c r : Fin 4), column (GETU32 (block ⟨4 * c.val + (0 : Fin 4).val, by omega⟩)
      (block ⟨4 * c.val + (1 : Fin 4).val, by omega⟩) (block ⟨4 * c.val + (2 : Fin 4).val, by omega⟩)
      (block ⟨4 * c.val + (3 : Fin 4).val, by omega⟩)) r = square block r c :=
    fun c r => column_GETU32 (fun r => block ⟨4 * c.val + r.val, by omega⟩) r
  apply columns_eq <;> intro r <;> rw [loadWords, column_xor, Pi.add_apply, Matrix.add_apply]
  · exact congrArg (· + _) (hword 0 r)
  · exact congrArg (· + _) (hword 1 r)
  · exact congrArg (· + _) (hword 2 r)
  · exact congrArg (· + _) (hword 3 r)

theorem square_storeWords (s : Words) : square (storeWords s) = columns s := by
  symm
  apply columns_eq <;> intro r <;> rw [← gf_PUTU32] <;> fin_cases r <;> rfl

/-! ## Rounds -/

theorem columns_encryptRound (rk : Nat → UInt32) (n : Nat) (s : Words) :
    columns (encryptRound rk (4 * n) s) = mixColumns (substitution (columns s)) + keys rk n := by
  apply columns_eq <;> intro r <;>
    rw [Matrix.add_apply, mixColumns_apply, Matrix.mul_apply, Fin.sum_univ_four] <;>
    simp only [encryptRound, column_xor, Pi.add_apply, column_Te0, column_Te1, column_Te2, column_Te3,
      gf_shr24, gf_shrAnd_16, gf_shrAnd_8, gf_shrAnd_0] <;>
    rfl

theorem columns_decryptRound (rk : Nat → UInt32) (n : Nat) (s : Words) :
    columns (decryptRound rk (4 * n) s) =
      mixColumns.symm (substitution.symm (columns s)) + keys rk n := by
  apply columns_eq <;> intro r <;>
    rw [Matrix.add_apply, mixColumns_symm_apply, Matrix.mul_apply, Fin.sum_univ_four] <;>
    simp only [decryptRound, column_xor, Pi.add_apply, column_Td0, column_Td1, column_Td2, column_Td3,
      gf_shr24, gf_shrAnd_16, gf_shrAnd_8, gf_shrAnd_0] <;>
    rfl

/-- Each table where its entry of the matrix is one. -/
theorem column_subBytes (i0 i1 i2 i3 : Fin 256) (r : Fin 4) :
    column ((Te2 i0 &&& 0xff000000) ^^^ (Te3 i1 &&& 0x00ff0000) ^^^ (Te0 i2 &&& 0x0000ff00) ^^^
      (Te1 i3 &&& 0x000000ff)) r = subByte ⟨⟨![i0, i1, i2, i3] r⟩⟩ := by
  have h0 : mixMatrix 0 2 = 1 := rfl
  have h1 : mixMatrix 1 3 = 1 := rfl
  have h2 : mixMatrix 2 0 = 1 := rfl
  have h3 : mixMatrix 3 1 = 1 := rfl
  simp only [column_xor, Pi.add_apply, column_and_top, column_and_second, column_and_third,
    column_and_low, column_Te0, column_Te1, column_Te2, column_Te3]
  fin_cases r
  · simp [h0]
  · simp [h1]
  · simp [h2]
  · simp [h3]

theorem column_encryptLastWord (t0 t1 t2 t3 k : UInt32) (r : Fin 4) :
    column (encryptLastWord t0 t1 t2 t3 k) r = subByte (column (![t0, t1, t2, t3] r) r) + column k r := by
  rw [encryptLastWord, column_xor, Pi.add_apply, column_subBytes]
  congr 2
  fin_cases r
  · exact gf_shr24 t0
  · exact gf_shrAnd_16 t1
  · exact gf_shrAnd_8 t2
  · exact gf_shrAnd_0 t3

theorem columns_encryptLast (rk : Nat → UInt32) (n : Nat) (t : Words) :
    columns (encryptLast rk (4 * n) t) = substitution (columns t) + keys rk n := by
  apply columns_eq <;> intro r <;>
    rw [Matrix.add_apply, substitution_apply, encryptLast, column_encryptLastWord] <;>
    fin_cases r <;> rfl

theorem column_decryptLastWord (t0 t3 t2 t1 k : UInt32) (r : Fin 4) :
    column (decryptLastWord t0 t3 t2 t1 k) r =
      subByte.symm (column (![t0, t3, t2, t1] r) r) + column k r := by
  rw [decryptLastWord, column_xor, Pi.add_apply]
  congr 1
  simp only [column_xor, Pi.add_apply, column_low, column_shl _ 0 r 24 (by decide),
    column_shl _ 1 r 16 (by decide), column_shl _ 2 r 8 (by decide), gf_Td4, gf_shr24, gf_shrAnd_16,
    gf_shrAnd_8, gf_shrAnd_0]
  fin_cases r <;> simp

theorem columns_decryptLast (rk : Nat → UInt32) (n : Nat) (t : Words) :
    columns (decryptLast rk (4 * n) t) = substitution.symm (columns t) + keys rk n := by
  apply columns_eq <;> intro r <;>
    rw [Matrix.add_apply, substitution_symm_apply, decryptLast, column_decryptLastWord] <;>
    fin_cases r <;> rfl

/-! ## The loop -/

/-- **The loop takes the rounds two at a time**: from the state after `i` rounds, `r + 1` turns reach
the state after `2 * r + 1` more, and the last round key is the next. -/
theorem roundLoop_eq {σ μ : State → State} {round : Nat → Words → Words} {rk : Nat → UInt32}
    (hround : ∀ n s, columns (round (4 * n) s) = μ (σ (columns s)) + keys rk n) (b : State) (r : Nat) :
    ∀ i s, columns s = Lib.cipherState σ μ (keys rk) b i →
      columns (roundLoop round (r + 1) (4 * i) s).1 = Lib.cipherState σ μ (keys rk) b (i + 2 * r + 1) ∧
        (roundLoop round (r + 1) (4 * i) s).2 = 4 * (i + 2 * r + 2) := by
  induction r with
  | zero =>
    intro i s hs
    rw [roundLoop, if_pos rfl]
    exact ⟨by rw [Lib.cipherState, ← hs]; exact hround (i + 1) s, by omega⟩
  | succ r ih =>
    intro i s hs
    have ht : columns (round (4 * (i + 1)) s) = Lib.cipherState σ μ (keys rk) b (i + 1) := by
      rw [hround, hs, Lib.cipherState]
    have hs' : columns (round (4 * (i + 2)) (round (4 * (i + 1)) s)) =
        Lib.cipherState σ μ (keys rk) b (i + 2) := by
      rw [hround, ht]
      rfl
    rw [roundLoop, if_neg (Nat.succ_ne_zero r)]
    have h := ih (i + 2) _ hs'
    rw [show i + 2 + 2 * r = i + 2 * (r + 1) by omega] at h
    exact h

theorem square_rounds {σ μ : State → State} {round last : Nat → Words → Words} {rk : Nat → UInt32}
    (hround : ∀ n s, columns (round (4 * n) s) = μ (σ (columns s)) + keys rk n)
    (hlast : ∀ n t, columns (last (4 * n) t) = σ (columns t) + keys rk n) (block : Block)
    {rounds r : Nat} (hrounds : rounds = 2 * (r + 1)) :
    square (storeWords (last (roundLoop round (rounds / 2) 0 (loadWords block rk)).2
        (roundLoop round (rounds / 2) 0 (loadWords block rk)).1)) =
      Lib.cipher σ μ (keys rk) (rounds - 1) (square block) := by
  have hhalf : rounds / 2 = r + 1 := by omega
  obtain ⟨hstate, hp⟩ :=
    roundLoop_eq hround (square block) r 0 (loadWords block rk) (columns_loadWords block rk)
  rw [Nat.mul_zero, ← hhalf] at hstate hp
  rw [hp, square_storeWords, hlast, hstate, Lib.cipher, show rounds - 1 = 0 + 2 * r + 1 by omega]

/-! ## Blocks -/

/-- **`AES_encrypt` is the cipher**, under the round keys of its schedule. -/
theorem square_AES_encrypt (block : Block) (key : AES_KEY) {r : Nat} (hrounds : key.rounds = 2 * (r + 1)) :
    square (AES_encrypt block key) = encrypt (keys (rd key.rd_key)) key.rounds (square block) :=
  square_rounds (columns_encryptRound _) (columns_encryptLast _) block hrounds

/-- **`AES_decrypt` is the inverse.** -/
theorem square_AES_decrypt (block : Block) (key : AES_KEY) {r : Nat} (hrounds : key.rounds = 2 * (r + 1)) :
    square (AES_decrypt block key) = decrypt (keys (rd key.rd_key)) key.rounds (square block) :=
  square_rounds (columns_decryptRound _) (columns_decryptLast _) block hrounds

end SparkFrame.Tools.Aes
