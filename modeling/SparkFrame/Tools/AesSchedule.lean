import SparkFrame.Tools.AesCipher

/-!
# The key schedules of `libtools/AesCore`

* `Expanded` : the words of a schedule that are computed; `Expanded.chain` : four more of them;
* `expanded_128`, `expanded_192`, `expanded_256` : what the loops of `AES_set_encrypt_key` leave;
* `keys_invertKeys`, `keys_unmixKeys` : what the loops of `AES_set_decrypt_key` do to the round keys;
* `AES_encrypt_expands`, `AES_decrypt_expands` : a block under a key, whatever was in the schedule before;
* `blocks_under_key` : **both functions are the cipher**, for keys of every size;
* `AES_decrypt_AES_encrypt` : **they undo each other**.
-/

namespace SparkFrame.Tools.Aes

open Rijndael

/-! ## Cells -/

theorem rd_wr (rk : RdKey) {i : Nat} (hi : i < 60) (w : UInt32) (j : Nat) :
    rd (wr rk i w) j = if j = i then w else rd rk j := by
  rw [rd, wr, Vector.getElem?_setIfInBounds]
  by_cases h : i = j
  · subst h
    simp [hi]
  · rw [if_neg h, if_neg (Ne.symm h), rd]

/-! ## Expansion -/

/-- The words of the key. -/
def keyColumns (userKey : Nat → UInt8) (i : Nat) : Column := fun r => gf (userKey (4 * i + r.val))

/-- The first `m` words are those of the expansion. -/
def Expanded (Nk : Nat) (key : Nat → Column) (rk : RdKey) (m : Nat) : Prop :=
  ∀ i < m, column (rd rk i) = keyWord Nk key i

variable {Nk : Nat} {key : Nat → Column} {rk : RdKey} {m : Nat}

theorem Expanded.snoc (h : Expanded Nk key rk m) (hm : m < 60) {w : UInt32}
    (hw : column w = keyWord Nk key m) : Expanded Nk key (wr rk m w) (m + 1) := by
  intro i hi
  rw [rd_wr rk hm]
  by_cases him : i = m
  · rw [if_pos him, hw, him]
  · rw [if_neg him, h i (by omega)]

/-- A word from the one a key's length before it. -/
theorem Expanded.next {p : Nat} (h : Expanded Nk key rk m) (hm : m < 60) (hp : m = p + Nk)
    (hNk : 0 < Nk) {x : UInt32} (hx : column x = keyStep Nk m (keyWord Nk key (m - 1))) :
    Expanded Nk key (wr rk m (rd rk p ^^^ x)) (m + 1) := by
  apply h.snoc hm
  rw [column_xor, hx, h p (by omega), hp, keyWord_add key hNk]

/-- Where the word before is added as it is. -/
def Plain (Nk i : Nat) : Prop := i % Nk ≠ 0 ∧ ¬ (6 < Nk ∧ i % Nk = 4)

theorem Expanded.next_plain {p : Nat} (h : Expanded Nk key rk (m + 1)) (hm : m + 1 < 60)
    (hp : m + 1 = p + Nk) (hNk : 0 < Nk) (hplain : Plain Nk (m + 1)) :
    Expanded Nk key (wr rk (m + 1) (rd rk p ^^^ rd rk m)) (m + 2) := by
  apply h.next hm hp hNk
  rw [Nat.add_sub_cancel, h m (Nat.lt_succ_self m), keyStep, if_neg hplain.1, if_neg hplain.2]

/-- Four words, of which only the first is from a word that is changed. -/
theorem Expanded.chain {p : Nat} (h : Expanded Nk key rk m) (hm : m + 3 < 60) (hp : m = p + Nk)
    (hNk : 0 < Nk) {x : UInt32} (hx : column x = keyStep Nk m (keyWord Nk key (m - 1)))
    (hplain : ∀ i, m < i → i ≤ m + 3 → Plain Nk i) :
    Expanded Nk key (chain rk p m x) (m + 4) := by
  have h1 := h.next (by omega) hp hNk hx
  have h2 := h1.next_plain (p := p + 1) (by omega) (by omega) hNk (hplain _ (by omega) (by omega))
  have h3 := h2.next_plain (p := p + 2) (by omega) (by omega) hNk (hplain _ (by omega) (by omega))
  exact h3.next_plain (by omega) (by omega) hNk (hplain _ (by omega) (by omega))

/-! ## The words that are changed -/

theorem column_subRot (temp : UInt32) : column (subRot temp) = subWord (rotWord (column temp)) := by
  funext r
  rw [subRot, column_subBytes]
  fin_cases r
  · exact congrArg subByte (gf_shrAnd_16 temp)
  · exact congrArg subByte (gf_shrAnd_8 temp)
  · exact congrArg subByte (gf_shrAnd_0 temp)
  · exact congrArg subByte (gf_shr24 temp)

theorem column_sub (temp : UInt32) : column (sub temp) = subWord (column temp) := by
  funext r
  rw [sub, column_subBytes]
  fin_cases r
  · exact congrArg subByte (gf_shr24 temp)
  · exact congrArg subByte (gf_shrAnd_16 temp)
  · exact congrArg subByte (gf_shrAnd_8 temp)
  · exact congrArg subByte (gf_shrAnd_0 temp)

theorem column_rcon {i : Nat} (hi : i < 10) : column (rcon i) = roundConstant i := by
  have h : ∀ i < 10, ∀ r, column (rcon i) r = roundConstant i r := by decide +kernel
  funext r
  exact h i hi r

theorem column_first (h : Expanded Nk key rk m) (i : Nat) (hi : i < 10) (hm : m = Nk * (i + 1))
    (hNk : 0 < Nk) {p : Nat} (hp : p + 1 = m) :
    column (subRot (rd rk p) ^^^ rcon i) = keyStep Nk m (keyWord Nk key (m - 1)) := by
  rw [column_xor, column_subRot, column_rcon hi, h p (by omega), keyStep, hm, Nat.mul_mod_right,
    if_pos rfl, Nat.mul_div_cancel_left _ hNk, ← hm, ← hp, Nat.add_sub_cancel, Nat.add_sub_cancel]

/-! ## The loops -/

theorem expanded_loadKey (userKey : Nat → UInt8) (rk : RdKey) (hNk : Nk ≤ 8) {n : Nat} (hn : n ≤ Nk) :
    Expanded Nk (keyColumns userKey) (loadKey userKey rk n) n := by
  induction n with
  | zero => exact fun i hi => absurd hi (Nat.not_lt_zero i)
  | succ n ih =>
    apply (ih (by omega)).snoc (by omega)
    rw [keyWord_lt _ (by omega)]
    funext r
    exact column_GETU32 (fun r => userKey (4 * n + r.val)) r

theorem expanded_128 (h : Expanded 4 key rk 4) {i : Nat} (hi : i ≤ 10) :
    Expanded 4 key (expand128 rk i) (4 * i + 4) := by
  induction i with
  | zero => exact h
  | succ i ih =>
    have hi' := ih (by omega)
    apply hi'.chain (by omega) rfl (by omega) (column_first hi' i (by omega) (by omega) (by omega) rfl)
    intro j hj hj'
    exact ⟨by omega, by omega⟩

theorem expanded_192 (h : Expanded 6 key rk 6) {i : Nat} (hi : i ≤ 8) :
    Expanded 6 key (expand192 rk i) (min (6 * i + 6) 52) := by
  induction i with
  | zero => exact h
  | succ i ih =>
    have hi' := ih (by omega)
    rw [show min (6 * i + 6) 52 = 6 * i + 6 by omega] at hi'
    have hplain : ∀ j, 6 * i + 6 < j → j < 6 * i + 12 → Plain 6 j := fun j hj hj' => ⟨by omega, by omega⟩
    have hchain : Expanded 6 key (chain (expand192 rk i) (6 * i) (6 * i + 6)
        (subRot (rd (expand192 rk i) (6 * i + 5)) ^^^ rcon i)) (6 * i + 6 + 4) := by
      apply hi'.chain (by omega) rfl (by omega) (column_first hi' i (by omega) (by omega) (by omega) rfl)
      exact fun j hj hj' => hplain j hj (by omega)
    simp only [expand192]
    by_cases hlast : i + 1 = 8
    · rw [if_pos hlast, show min (6 * (i + 1) + 6) 52 = 6 * i + 6 + 4 by omega]
      exact hchain
    · rw [if_neg hlast, show min (6 * (i + 1) + 6) 52 = 6 * i + 12 by omega]
      have h10 := hchain.next_plain (p := 6 * i + 4) (by omega) (by omega) (by omega) (hplain _ (by omega) (by omega))
      exact h10.next_plain (by omega) (by omega) (by omega) (hplain _ (by omega) (by omega))

theorem expanded_256 (h : Expanded 8 key rk 8) {i : Nat} (hi : i ≤ 7) :
    Expanded 8 key (expand256 rk i) (min (8 * i + 8) 60) := by
  induction i with
  | zero => exact h
  | succ i ih =>
    have hi' := ih (by omega)
    rw [show min (8 * i + 8) 60 = 8 * i + 8 by omega] at hi'
    have hchain : Expanded 8 key (chain (expand256 rk i) (8 * i) (8 * i + 8)
        (subRot (rd (expand256 rk i) (8 * i + 7)) ^^^ rcon i)) (8 * i + 8 + 4) := by
      apply hi'.chain (by omega) rfl (by omega) (column_first hi' i (by omega) (by omega) (by omega) rfl)
      exact fun j hj hj' => ⟨by omega, by omega⟩
    simp only [expand256]
    by_cases hlast : i + 1 = 7
    · rw [if_pos hlast, show min (8 * (i + 1) + 8) 60 = 8 * i + 8 + 4 by omega]
      exact hchain
    · rw [if_neg hlast, show min (8 * (i + 1) + 8) 60 = 8 * i + 16 by omega]
      apply hchain.chain (by omega) (by omega) (by omega)
      · rw [column_sub, hchain _ (by omega), keyStep, if_neg (by omega), if_pos (by omega)]
        rfl
      · exact fun j hj hj' => ⟨by omega, by omega⟩

/-! ## The schedule for decryption -/

theorem rd_swapWords (rk : RdKey) {i j : Nat} (hi : i < 60) (hj : j < 60) (k : Nat) :
    rd (swapWords rk i j) k = if k = j then rd rk i else if k = i then rd rk j else rd rk k := by
  rw [swapWords, rd_wr _ hj, rd_wr _ hi]

/-- The first `t` words from `i` and from `j` on have changed places. -/
def Swapped (rk rk' : RdKey) (i j t : Nat) : Prop :=
  ∀ k, rd rk' k = if j ≤ k ∧ k < j + t then rd rk (i + (k - j))
    else if i ≤ k ∧ k < i + t then rd rk (j + (k - i)) else rd rk k

theorem Swapped.step {rk rk' : RdKey} {i j t : Nat} (h : Swapped rk rk' i j t) (hij : i + t < j)
    (hj : j + t < 60) : Swapped rk (swapWords rk' (i + t) (j + t)) i j (t + 1) := by
  intro k
  rw [rd_swapWords _ (by omega) hj]
  by_cases hkj : k = j + t
  · rw [if_pos hkj, if_pos (by omega), h, if_neg (by omega), if_neg (by omega)]
    congr 1
    omega
  · rw [if_neg hkj]
    by_cases hki : k = i + t
    · rw [if_pos hki, if_neg (by omega), if_pos (by omega), h, if_neg (by omega), if_neg (by omega)]
      congr 1
      omega
    · have hj' : j ≤ k ∧ k < j + (t + 1) ↔ j ≤ k ∧ k < j + t := by omega
      have hi' : i ≤ k ∧ k < i + (t + 1) ↔ i ≤ k ∧ k < i + t := by omega
      rw [if_neg hki, h]
      simp only [hj', hi']

theorem swapped_swapKeys (rk : RdKey) {i j : Nat} (hij : i + 4 ≤ j) (hj : j + 4 ≤ 60) :
    Swapped rk (swapKeys rk i j) i j 4 := by
  have h0 : Swapped rk rk i j 0 := fun k => by rw [if_neg (by omega), if_neg (by omega)]
  have h1 := h0.step (by omega) (by omega)
  have h2 := h1.step (by omega) (by omega)
  have h3 := h2.step (by omega) (by omega)
  exact h3.step (by omega) (by omega)

theorem keys_swapKeys (rk : RdKey) {a b : Nat} (hab : a < b) (hb : b ≤ 14) (n : Nat) :
    keys (rd (swapKeys rk (4 * a) (4 * b))) n =
      keys (rd rk) (if n = b then a else if n = a then b else n) := by
  funext r c
  have hc := c.isLt
  simp only [keys, roundKey]
  rw [swapped_swapKeys rk (by omega) (by omega)]
  by_cases hnb : n = b
  · rw [if_pos (by omega), if_pos hnb, hnb, Nat.add_sub_cancel_left]
  · rw [if_neg (by omega), if_neg hnb]
    by_cases hna : n = a
    · rw [if_pos (by omega), if_pos hna, hna, Nat.add_sub_cancel_left]
    · rw [if_neg (by omega), if_neg hna]

/-- **The order is inverted**, between the two places. -/
theorem keys_invertKeys {a b : Nat} (hb : b ≤ 14) (rk : RdKey) (n : Nat) :
    keys (rd (invertKeys rk (4 * a) (4 * b))) n = keys (rd rk) (if a ≤ n ∧ n ≤ b then a + b - n else n) := by
  induction hd : b - a using Nat.strong_induction_on generalizing a b rk with
  | _ d ih =>
    rw [invertKeys]
    by_cases hab : a < b
    · have hstep := ih (b - 1 - (a + 1)) (by omega) (a := a + 1) (b := b - 1) (by omega)
        (swapKeys rk (4 * a) (4 * b)) rfl
      rw [if_pos (by omega), show 4 * a + 4 = 4 * (a + 1) by omega, show 4 * b - 4 = 4 * (b - 1) by omega,
        hstep, keys_swapKeys rk hab hb]
      congr 1
      split_ifs <;> omega
    · rw [if_neg (by omega)]
      congr 1
      split_ifs <;> omega

theorem column_unmixWord (w : UInt32) (r : Fin 4) :
    column (unmixWord w) r = unmixMatrix r 0 * column w 0 + unmixMatrix r 1 * column w 1 +
      unmixMatrix r 2 * column w 2 + unmixMatrix r 3 * column w 3 := by
  have hTe1 : ∀ i, (⟨⟨shrAnd (Te1 i) 0⟩⟩ : GF) = subByte ⟨⟨i⟩⟩ := fun i => by
    rw [gf_shrAnd_0, column_Te1, show mixMatrix 3 1 = 1 from rfl, one_mul]
  simp only [unmixWord, column_xor, Pi.add_apply, column_Td0, column_Td1, column_Td2, column_Td3, hTe1,
    Equiv.symm_apply_apply, gf_shr24, gf_shrAnd_16, gf_shrAnd_8, gf_shrAnd_0]

/-- The first `t` words from `p` on are unmixed. -/
def Unmixed (rk rk' : RdKey) (p t : Nat) : Prop :=
  ∀ k, rd rk' k = if p ≤ k ∧ k < p + t then unmixWord (rd rk k) else rd rk k

theorem Unmixed.step {rk rk' : RdKey} {p t : Nat} (h : Unmixed rk rk' p t) (hp : p + t < 60) :
    Unmixed rk (wr rk' (p + t) (unmixWord (rd rk' (p + t)))) p (t + 1) := by
  intro k
  rw [rd_wr _ hp]
  by_cases hk : k = p + t
  · rw [if_pos hk, if_pos (by omega), h, if_neg (by omega), hk]
  · have hlt : p ≤ k ∧ k < p + (t + 1) ↔ p ≤ k ∧ k < p + t := by omega
    rw [if_neg hk, h]
    simp only [hlt]

theorem unmixed_unmixKey (rk : RdKey) {p : Nat} (hp : p + 4 ≤ 60) : Unmixed rk (unmixKey rk p) p 4 := by
  have h0 : Unmixed rk rk p 0 := fun k => by rw [if_neg (by omega)]
  have h1 := h0.step (by omega)
  have h2 := h1.step (by omega)
  have h3 := h2.step (by omega)
  exact h3.step (by omega)

theorem keys_unmixKey (rk : RdKey) {a : Nat} (ha : a ≤ 14) (n : Nat) :
    keys (rd (unmixKey rk (4 * a))) n =
      if n = a then mixColumns.symm (keys (rd rk) n) else keys (rd rk) n := by
  funext r c
  have hc := c.isLt
  simp only [keys, roundKey]
  rw [unmixed_unmixKey rk (by omega)]
  by_cases hna : n = a
  · rw [if_pos (by omega), if_pos hna, column_unmixWord, mixColumns_symm_apply, Matrix.mul_apply,
      Fin.sum_univ_four]
    rfl
  · rw [if_neg (by omega), if_neg hna]
    rfl

/-- **All round keys but the first and the last are unmixed.** -/
theorem keys_unmixKeys (rk : RdKey) {m : Nat} (hm : m ≤ 14) (n : Nat) :
    keys (rd (unmixKeys rk m)) n =
      if 1 ≤ n ∧ n ≤ m then mixColumns.symm (keys (rd rk) n) else keys (rd rk) n := by
  induction m with
  | zero => rw [unmixKeys, if_neg (by omega)]
  | succ m ih =>
    rw [unmixKeys, keys_unmixKey _ hm, ih (by omega)]
    by_cases hn : n = m + 1
    · rw [if_pos hn, if_neg (by omega), if_pos (by omega)]
    · have hlt : 1 ≤ n ∧ n ≤ m + 1 ↔ 1 ≤ n ∧ n ≤ m := by omega
      rw [if_neg hn]
      simp only [hlt]

/-! ## What the two functions leave -/

/-- **The schedule of a key of any size.** -/
theorem AES_set_encrypt_key_spec {userKey : Nat → UInt8} {bits : Int} {key ek : AES_KEY}
    (h : AES_set_encrypt_key (some userKey) bits (some key) = (0, some ek)) :
    (bits = 128 ∨ bits = 192 ∨ bits = 256) ∧ ek.rounds = bits.toNat / 32 + 6 ∧
      Expanded (bits.toNat / 32) (keyColumns userKey) ek.rd_key (4 * (ek.rounds + 1)) := by
  simp only [AES_set_encrypt_key] at h
  split_ifs at h with hbits h128 h192
  · simp at h
  · obtain rfl : _ = ek := Option.some.inj (Prod.ext_iff.mp h).2
    subst h128
    exact ⟨Or.inl rfl, rfl, expanded_128 (expanded_loadKey userKey _ (by omega) (by omega)) (by omega)⟩
  · obtain rfl : _ = ek := Option.some.inj (Prod.ext_iff.mp h).2
    subst h192
    exact ⟨Or.inr (Or.inl rfl), rfl,
      expanded_192 (expanded_loadKey userKey _ (by omega) (by omega)) (by omega)⟩
  · obtain rfl : _ = ek := Option.some.inj (Prod.ext_iff.mp h).2
    obtain rfl : bits = 256 := by omega
    exact ⟨Or.inr (Or.inr rfl), rfl,
      expanded_256 (expanded_loadKey userKey _ (by omega) (by omega)) (by omega)⟩

/-- The round keys, whatever the schedule held before. -/
theorem keys_AES_set_encrypt_key {userKey : Nat → UInt8} {bits : Int} {key ek : AES_KEY}
    (h : AES_set_encrypt_key (some userKey) bits (some key) = (0, some ek)) {n : Nat} (hn : n ≤ ek.rounds) :
    keys (rd ek.rd_key) n = roundKey (keyWord (bits.toNat / 32) (keyColumns userKey)) n := by
  funext r c
  have hc := c.isLt
  exact congrFun ((AES_set_encrypt_key_spec h).2.2 (4 * n + c.val) (by omega)) r

theorem rounds_even {userKey : Nat → UInt8} {bits : Int} {key ek : AES_KEY}
    (h : AES_set_encrypt_key (some userKey) bits (some key) = (0, some ek)) :
    ek.rounds ≤ 14 ∧ ∃ r, ek.rounds = 2 * (r + 1) := by
  obtain ⟨hbits, hrounds, -⟩ := AES_set_encrypt_key_spec h
  obtain rfl | rfl | rfl := hbits
  · exact ⟨by omega, 4, hrounds⟩
  · exact ⟨by omega, 5, hrounds⟩
  · exact ⟨by omega, 6, hrounds⟩

/-- **The schedule for decryption** is that for encryption, inverted and unmixed. -/
theorem AES_set_decrypt_key_spec {userKey : Nat → UInt8} {bits : Int} {key dk : AES_KEY}
    (h : AES_set_decrypt_key (some userKey) bits (some key) = (0, some dk)) :
    ∃ ek, AES_set_encrypt_key (some userKey) bits (some key) = (0, some ek) ∧ dk.rounds = ek.rounds ∧
      ∀ n ≤ ek.rounds, keys (rd dk.rd_key) n = decryptKeys (keys (rd ek.rd_key)) ek.rounds n := by
  obtain ⟨status, ek, hek, hstatus⟩ : ∃ status ek,
      AES_set_encrypt_key (some userKey) bits (some key) = (status, some ek) ∧ (status = 0 ∨ status = -2) := by
    simp only [AES_set_encrypt_key]
    split_ifs
    · exact ⟨_, _, rfl, Or.inr rfl⟩
    all_goals exact ⟨_, _, rfl, Or.inl rfl⟩
  obtain rfl | rfl := hstatus
  · obtain ⟨h14, r, hrounds⟩ := rounds_even hek
    simp only [AES_set_decrypt_key, hek] at h
    obtain rfl : _ = dk := Option.some.inj (Prod.ext_iff.mp h).2
    refine ⟨ek, hek, rfl, fun n hn => ?_⟩
    have hinvert := keys_invertKeys (a := 0) h14 ek.rd_key n
    rw [Nat.mul_zero, if_pos (by omega), Nat.zero_add] at hinvert
    rw [keys_unmixKeys _ (by omega), hinvert, decryptKeys]
    by_cases hends : n = 0 ∨ n = ek.rounds
    · rw [if_pos hends, if_neg (by omega)]
    · rw [if_neg hends, if_pos (by omega)]
  · simp only [AES_set_decrypt_key, hek] at h
    rw [if_pos (by decide)] at h
    exact absurd (Prod.ext_iff.mp h).1 (show (-2 : Int) ≠ 0 by decide)

/-! ## Blocks under a key -/

/-- **A block under a key**, whatever the schedule held before. -/
theorem AES_encrypt_expands {userKey : Nat → UInt8} {bits : Int} {key ek : AES_KEY}
    (h : AES_set_encrypt_key (some userKey) bits (some key) = (0, some ek)) (block : Block) :
    square (AES_encrypt block ek) = encrypt (roundKey (keyWord (bits.toNat / 32) (keyColumns userKey)))
      (bits.toNat / 32 + 6) (square block) := by
  obtain ⟨-, r, hr⟩ := rounds_even h
  rw [square_AES_encrypt block ek hr, ← (AES_set_encrypt_key_spec h).2.1]
  exact Lib.cipher_congr _ (fun i hi => keys_AES_set_encrypt_key h (by omega))

theorem AES_decrypt_expands {userKey : Nat → UInt8} {bits : Int} {key dk : AES_KEY}
    (h : AES_set_decrypt_key (some userKey) bits (some key) = (0, some dk)) (block : Block) :
    square (AES_decrypt block dk) =
      decrypt (decryptKeys (roundKey (keyWord (bits.toNat / 32) (keyColumns userKey))) (bits.toNat / 32 + 6))
        (bits.toNat / 32 + 6) (square block) := by
  obtain ⟨ek, hek, hrounds, hkeys⟩ := AES_set_decrypt_key_spec h
  obtain ⟨-, r, hr⟩ := rounds_even hek
  rw [square_AES_decrypt block dk (hrounds.trans hr), hrounds, ← (AES_set_encrypt_key_spec hek).2.1]
  apply Lib.cipher_congr
  intro n hn
  rw [hkeys n (by omega), decryptKeys, decryptKeys]
  rw [keys_AES_set_encrypt_key hek (by omega)]

/-- The sixteen bytes that count up, a block, and what is on the stack. -/
def countingKey (i : Nat) : UInt8 := UInt8.ofNat i

def countingBlock : Block := fun i => 0x11 * UInt8.ofNat i.val

def zeroKey : AES_KEY := ⟨Vector.replicate 60 0, 0⟩

/-- **Both functions are the cipher**, for keys of every size and whatever the two schedules held before. -/
theorem blocks_under_key {userKey : Nat → UInt8} {bits : Int} {key key' ek dk : AES_KEY}
    (hek : AES_set_encrypt_key (some userKey) bits (some key) = (0, some ek))
    (hdk : AES_set_decrypt_key (some userKey) bits (some key') = (0, some dk)) (block : Block) :
    square (AES_encrypt block ek) = encrypt (roundKey (keyWord (bits.toNat / 32) (keyColumns userKey)))
      (bits.toNat / 32 + 6) (square block) ∧
    square (AES_decrypt block dk) =
      decrypt (decryptKeys (roundKey (keyWord (bits.toNat / 32) (keyColumns userKey))) (bits.toNat / 32 + 6))
        (bits.toNat / 32 + 6) (square block) :=
  ⟨AES_encrypt_expands hek block, AES_decrypt_expands hdk block⟩

theorem blocks_under_key_counting :
    AesBt.storeBlock (AES_encrypt countingBlock
        ⟨expand128 (loadKey countingKey (Vector.replicate 60 0) 4) 10, 10⟩) =
      [0x69, 0xc4, 0xe0, 0xd8, 0x6a, 0x7b, 0x04, 0x30, 0xd8, 0xcd, 0xb7, 0x80, 0x70, 0xb4, 0xc5, 0x5a] ∧
    square (AES_encrypt countingBlock ⟨expand128 (loadKey countingKey (Vector.replicate 60 0) 4) 10, 10⟩) =
      encrypt (roundKey (keyWord 4 (keyColumns countingKey))) 10 (square countingBlock) := by
  have hek : AES_set_encrypt_key (some countingKey) 128 (some zeroKey) =
      (0, some ⟨expand128 (loadKey countingKey (Vector.replicate 60 0) 4) 10, 10⟩) := rfl
  have hdk : ∃ dk, AES_set_decrypt_key (some countingKey) 128 (some zeroKey) = (0, some dk) := ⟨_, rfl⟩
  obtain ⟨dk, hdk⟩ := hdk
  exact ⟨by decide +kernel, (blocks_under_key hek hdk countingBlock).1⟩

/-- **The two functions undo each other**, for keys of every size and whatever the two schedules held
before. -/
theorem AES_decrypt_AES_encrypt {userKey : Nat → UInt8} {bits : Int} {key key' ek dk : AES_KEY}
    (hek : AES_set_encrypt_key (some userKey) bits (some key) = (0, some ek))
    (hdk : AES_set_decrypt_key (some userKey) bits (some key') = (0, some dk)) (block : Block) :
    AES_decrypt (AES_encrypt block ek) dk = block ∧ AES_encrypt (AES_decrypt block dk) ek = block := by
  constructor
  · apply square_injective
    rw [AES_decrypt_expands hdk, AES_encrypt_expands hek]
    exact decrypt_encrypt _ (Nat.succ_pos _) _
  · apply square_injective
    rw [AES_encrypt_expands hek, AES_decrypt_expands hdk]
    exact encrypt_decrypt _ (Nat.succ_pos _) _

/-- A key of 256 bits. -/
theorem AES_decrypt_AES_encrypt_counting :
    ∃ dk, AES_set_decrypt_key (some countingKey) 256 (some zeroKey) = (0, some dk) ∧
      AES_decrypt (AES_encrypt countingBlock
        ⟨expand256 (loadKey countingKey (Vector.replicate 60 0) 8) 7, 14⟩) dk = countingBlock := by
  have hek : AES_set_encrypt_key (some countingKey) 256 (some zeroKey) =
      (0, some ⟨expand256 (loadKey countingKey (Vector.replicate 60 0) 8) 7, 14⟩) := rfl
  have hdk : ∃ dk, AES_set_decrypt_key (some countingKey) 256 (some zeroKey) = (0, some dk) := ⟨_, rfl⟩
  obtain ⟨dk, hdk⟩ := hdk
  exact ⟨dk, hdk, (AES_decrypt_AES_encrypt hek hdk countingBlock).1⟩

end SparkFrame.Tools.Aes
