import SparkFrame.Tools.AesSchedule
import SparkFrame.Tools.MD5
import SparkFrame.Tools.TokenBuffers

/-!
# Strings under the cipher and the digest of `libtools`

`AesBt` takes the cipher and the digest as they come. Here they are those of `AesCore` and `MD5`.

* `Stack` : what the functions find in their own variables;
* `AES_ecb128_encryptTo`, `AES_ecb128_decryptTo` : a buffer into another, with every access;
* `AES_ecb128_encrypt`, `AES_ecb128_decrypt` : strings;
* `libtools` : the cipher and the digest; `libtools_inverts` : **nothing is assumed of them**;
* `AES_ecb128_encrypt_eq` : a string is encrypted without a fault, to the same text on every stack;
* `AES_ecb128_decrypt_eq`, `ne_out_of_bounds` : any text is decrypted inside the buffers;
* `ecb128_roundTrip` : **strings come back up to their first zero**.
-/

namespace SparkFrame.Tools.AesEcb

open SparkFrame.Lib
open SparkFrame.Tools.AesBt (loadBlock storeBlock)

/-! ## The code -/

/-- The variables that nothing is written to before they are used: `MD5_CTX ctx` and `AES_KEY aes_key`. -/
structure Stack where
  ctx : Md5.MD5_CTX
  length_inp : ctx.inp.length = 64
  aes_key : Aes.AES_KEY

/-- The digest raises nothing of its own. -/
def lift {α : Type} : Except (Fault Empty) α → Except (Fault Unit) α
  | .ok a => .ok a
  | .error .out_of_bounds => .error .out_of_bounds
  | .error .uninitialised => .error .uninitialised
  | .error (.raised e) => e.elim

def get_key (stack : Stack) (seed : Bytes) : Except (Fault Unit) Bytes := do
  let key ← lift (Md5.MD5_32 stack.ctx seed)
  return key.take 16

/-- `round` blocks, the first of which is the block `i`. Both loops are this one. -/
def blockLoop (cipher : Block → Block) (inp : Buffer UInt8) :
    Nat → Nat → Buffer UInt8 → Except (Fault Unit) (Buffer UInt8)
  | 0, _, out => .ok out
  | round + 1, i, out => do
    let block ← inp.readMany (16 * i) 16
    let out ← out.writeMany (16 * i) (storeBlock (cipher (loadBlock block)))
    blockLoop cipher inp round (i + 1) out

/-- `AES_set_encrypt_key((unsigned char*)key, 128, &aes_key)` -/
def encryptKey (stack : Stack) (userKey : Bytes) : Aes.AES_KEY :=
  (Aes.AES_set_encrypt_key (some fun i => userKey.getD i 0) 128 (some stack.aes_key)).2.getD stack.aes_key

/-- `AES_set_decrypt_key((unsigned char*)key, 128, &aes_key)` -/
def decryptKey (stack : Stack) (userKey : Bytes) : Aes.AES_KEY :=
  (Aes.AES_set_decrypt_key (some fun i => userKey.getD i 0) 128 (some stack.aes_key)).2.getD stack.aes_key

/-- The overload for buffers. What is left is copied into a block of zeros. -/
def AES_ecb128_encryptTo (stack : Stack) (inp : Buffer UInt8) (length : Nat) (out key : Buffer UInt8) :
    Except (Fault Unit) (Buffer UInt8) := do
  let userKey ← key.readMany 0 16
  let aes_key := encryptKey stack userKey
  let round := length / 16
  let out ← blockLoop (Aes.AES_encrypt · aes_key) inp round 0 out
  let left := length % 16
  if left = 0 then return out
  else
    let bytes ← inp.readMany (16 * round) left
    let buf ← Buffer.writeMany (List.replicate 16 (some 0)) 0 bytes
    let block ← buf.readMany 0 16
    out.writeMany (16 * round) (storeBlock (Aes.AES_encrypt (loadBlock block) aes_key))

def AES_ecb128_decryptTo (stack : Stack) (inp : Buffer UInt8) (length : Nat) (out key : Buffer UInt8) :
    Except (Fault Unit) (Buffer UInt8) := do
  let userKey ← key.readMany 0 16
  blockLoop (Aes.AES_decrypt · (decryptKey stack userKey)) inp (length / 16) 0 out

/-- The overload for strings, which has both of them end with a zero. -/
def AES_ecb128_encrypt (stack : Stack) (s key_seed : Bytes) : Except (Fault Unit) Bytes := do
  let key ← get_key stack key_seed
  let encode_length := (s.length / 16 + if s.length % 16 = 0 then 0 else 1) * 16
  let buffer ← AES_ecb128_encryptTo stack ((s ++ [0]).map some) s.length (Buffer.alloc encode_length)
    ((key ++ [0]).map some)
  let bytes ← buffer.readMany 0 encode_length
  return Base64EncodeString bytes

def AES_ecb128_decrypt (stack : Stack) (s key_seed : Bytes) : Except (Fault Unit) Bytes := do
  let key ← get_key stack key_seed
  let (bin_in, length) ← TokenBuffers.Base64Decode (s.takeWhile (· ≠ 0)) 0
  let bin_out ← AES_ecb128_decryptTo stack bin_in length (Buffer.alloc (length + 1)) ((key ++ [0]).map some)
  let bin_out ← bin_out.write length 0
  bin_out.readUntil (· = 0)

/-! ## The cipher and the digest -/

/-- What the functions compute, where the stack does not matter. -/
def libtools : AesCore where
  MD5_32 data := BaseTool.hexString (Md5.digest (data.take (data.length % 2 ^ 32)))
  AES_encrypt key block := Aes.AES_encrypt block
    ⟨Aes.expand128 (Aes.loadKey (fun i => (storeBlock key).getD i 0) Aes.zeroKey.rd_key 4) 10, 10⟩
  AES_decrypt key block := Aes.AES_decrypt block
    ((Aes.AES_set_decrypt_key (some fun i => (storeBlock key).getD i 0) 128 (some Aes.zeroKey)).2.getD Aes.zeroKey)

theorem set_encrypt_key_128 (userKey : Nat → UInt8) (key : Aes.AES_KEY) :
    Aes.AES_set_encrypt_key (some userKey) 128 (some key) =
      (0, some ⟨Aes.expand128 (Aes.loadKey userKey key.rd_key 4) 10, 10⟩) := rfl

theorem set_decrypt_key_128 (userKey : Nat → UInt8) (key : Aes.AES_KEY) :
    ∃ dk, Aes.AES_set_decrypt_key (some userKey) 128 (some key) = (0, some dk) := ⟨_, rfl⟩

/-- **Decryption undoes encryption.** -/
theorem libtools_inverts : libtools.Inverts := by
  intro key block
  obtain ⟨dk, hdk⟩ := set_decrypt_key_128 (fun i => (storeBlock key).getD i 0) Aes.zeroKey
  apply Aes.square_injective
  simp only [libtools, hdk, Option.getD_some]
  rw [Aes.AES_decrypt_expands hdk, Aes.AES_encrypt_expands (set_encrypt_key_128 _ Aes.zeroKey)]
  exact Rijndael.decrypt_encrypt _ (Nat.succ_pos _) _

theorem storeBlock_key {userKey : Bytes} (h : userKey.length = 16) :
    storeBlock (loadBlock userKey) = userKey := by
  rw [AesBt.storeBlock_loadBlock, h, List.take_of_length_le h.le, Nat.sub_self]
  exact List.append_nil userKey

/-- What the schedule held before does not matter. -/
theorem AES_encrypt_encryptKey (stack : Stack) {userKey : Bytes} (h : userKey.length = 16) (block : Block) :
    Aes.AES_encrypt block (encryptKey stack userKey) = libtools.AES_encrypt (loadBlock userKey) block := by
  apply Aes.square_injective
  simp only [encryptKey, libtools, storeBlock_key h, set_encrypt_key_128, Option.getD_some]
  rw [Aes.AES_encrypt_expands (set_encrypt_key_128 _ stack.aes_key),
    Aes.AES_encrypt_expands (set_encrypt_key_128 _ Aes.zeroKey)]

theorem AES_decrypt_decryptKey (stack : Stack) {userKey : Bytes} (h : userKey.length = 16) (block : Block) :
    Aes.AES_decrypt block (decryptKey stack userKey) = libtools.AES_decrypt (loadBlock userKey) block := by
  obtain ⟨dk, hdk⟩ := set_decrypt_key_128 (fun i => userKey.getD i 0) stack.aes_key
  obtain ⟨dk', hdk'⟩ := set_decrypt_key_128 (fun i => userKey.getD i 0) Aes.zeroKey
  apply Aes.square_injective
  simp only [decryptKey, libtools, storeBlock_key h, hdk, hdk', Option.getD_some]
  rw [Aes.AES_decrypt_expands hdk, Aes.AES_decrypt_expands hdk']

theorem get_key_eq (stack : Stack) (seed : Bytes) :
    get_key stack seed = .ok (AesBt.get_key libtools seed) := by
  rw [get_key, Md5.MD5_32_eq stack.ctx stack.length_inp]
  rfl

theorem length_get_key (seed : Bytes) : (AesBt.get_key libtools seed).length = 16 := by
  rw [AesBt.get_key, libtools, List.length_take, BaseTool.length_hexString, Md5.length_digest]
  rfl

/-! ## Blocks -/

theorem readMany_key (key : Bytes) (h : key.length = 16) :
    Buffer.readMany (ε := Unit) ((key ++ [0]).map some) 0 16 = .ok key := by
  rw [List.map_append]
  exact Buffer.readMany_append List.length_nil h

theorem blockLoop_eq {core : AesCore} {key : Block} {cipher : Block → Block}
    (hcipher : ∀ block, cipher block = core.AES_decrypt key block) (inp : Buffer UInt8) (round i : Nat)
    (out : Buffer UInt8) :
    blockLoop cipher inp round i out = TokenBuffers.decryptLoop core key inp round i out := by
  induction round generalizing i out with
  | zero => rfl
  | succ round ih =>
    rw [blockLoop, TokenBuffers.decryptLoop]
    simp only [hcipher, ih]

/-- **The loop** over blocks that have been written. -/
theorem blockLoop_encrypt (core : AesCore) (key : Block) (p : Bytes) (rest : Buffer UInt8) {round i : Nat}
    (hp : 16 * (i + round) ≤ p.length) {pre : Buffer UInt8} (post : Buffer UInt8)
    (hpre : pre.length = 16 * i) :
    blockLoop (core.AES_encrypt key) (p.map some ++ rest) round i (pre ++ (Buffer.alloc (16 * round) ++ post)) =
      .ok (pre ++ ((AesBt.encryptRounds core key round (p.drop (16 * i))).map some ++ post)) := by
  induction round generalizing i pre with
  | zero => rfl
  | succ round ih =>
    have hsplit : p.map some ++ rest = (p.take (16 * i)).map some ++
        (((p.drop (16 * i)).take 16).map some ++ ((p.drop (16 * i + 16)).map some ++ rest)) := by
      rw [← List.drop_drop, ← List.append_assoc, ← List.append_assoc, ← List.map_append, ← List.map_append,
        List.append_assoc, List.take_append_drop, List.take_append_drop]
    have hread : Buffer.readMany (ε := Unit) (p.map some ++ rest) (16 * i) 16 =
        .ok ((p.drop (16 * i)).take 16) := by
      rw [hsplit]
      exact Buffer.readMany_append (by rw [List.length_map, List.length_take]; omega)
        (by rw [List.length_take, List.length_drop]; omega)
    have hload : loadBlock ((p.drop (16 * i)).take 16) = loadBlock (p.drop (16 * i)) := by
      funext k
      rw [loadBlock, loadBlock, List.getD_eq_getElem?_getD, List.getD_eq_getElem?_getD,
        List.getElem?_take_of_lt k.isLt]
    have halloc : Buffer.alloc (16 * (round + 1)) ++ post =
        (Buffer.alloc 16 ++ (Buffer.alloc (16 * round) ++ post) : Buffer UInt8) := by
      rw [← List.append_assoc, Buffer.alloc, Buffer.alloc, Buffer.alloc,
        List.replicate_append_replicate, Nat.mul_succ, Nat.add_comm]
    have hwrite := Buffer.writeMany_append (ε := Unit) pre (Buffer.alloc 16)
      (Buffer.alloc (16 * round) ++ post)
      (AesBt.length_storeBlock (core.AES_encrypt key (loadBlock (p.drop (16 * i))))).symm hpre
    have hpre' : (pre ++ (storeBlock (core.AES_encrypt key (loadBlock (p.drop (16 * i))))).map some).length =
        16 * (i + 1) := by
      rw [List.length_append, List.length_map, AesBt.length_storeBlock, hpre]
      omega
    have hloop := ih (by omega) hpre'
    rw [List.append_assoc] at hloop
    rw [blockLoop, hread]
    simp only [bind, Except.bind, hload, halloc, hwrite, hloop]
    rw [AesBt.encryptRounds, List.drop_drop, Nat.mul_succ]
    simp only [List.map_append, List.append_assoc]

/-! ## Encryption -/

theorem loadBlock_append_zeros (p : Bytes) (n : Nat) : loadBlock (p ++ List.replicate n 0) = loadBlock p := by
  funext k
  simp only [loadBlock, List.getD_eq_getElem?_getD, List.getElem?_append]
  split_ifs with hk
  · rfl
  · rw [List.getElem?_eq_none (Nat.le_of_not_lt hk), List.getElem?_replicate]
    split_ifs <;> rfl

theorem copy_left {left : Bytes} (h : left.length ≤ 16) :
    ∃ buf, Buffer.writeMany (ε := Unit) (List.replicate 16 (some 0)) 0 left = .ok buf ∧
      Buffer.readMany (ε := Unit) buf 0 16 = .ok (left ++ List.replicate (16 - left.length) 0) := by
  have hzeros : List.replicate 16 (some (0 : UInt8)) =
      List.replicate left.length (some 0) ++ List.replicate (16 - left.length) (some 0) := by
    rw [List.replicate_append_replicate, Nat.add_sub_cancel' h]
  have hread : Buffer.readMany (ε := Unit)
      ([] ++ ((left ++ List.replicate (16 - left.length) 0).map some ++ [])) 0 16 =
        .ok (left ++ List.replicate (16 - left.length) 0) :=
    Buffer.readMany_append rfl (by rw [List.length_append, List.length_replicate]; omega)
  rw [List.map_append, List.map_replicate, List.append_nil] at hread
  refine ⟨_, ?_, hread⟩
  rw [hzeros]
  exact Buffer.writeMany_append [] _ _ (by rw [List.length_replicate]) rfl

/-- **Every byte of the buffer is written**, and nothing that has not been written is read. -/
theorem AES_ecb128_encryptTo_eq (stack : Stack) (s : Bytes) {key : Bytes} (hkey : key.length = 16) :
    AES_ecb128_encryptTo stack ((s ++ [0]).map some) s.length
        (Buffer.alloc ((s.length / 16 + if s.length % 16 = 0 then 0 else 1) * 16)) ((key ++ [0]).map some) =
      .ok ((AesBt.encryptBuffer libtools (loadBlock key) s).map some) := by
  have hcipher := AES_encrypt_encryptKey stack hkey
  have hloop : ∀ post : Buffer UInt8,
      blockLoop (fun block => libtools.AES_encrypt (loadBlock key) block) (s.map some ++ [some 0])
          (s.length / 16) 0 (Buffer.alloc (16 * (s.length / 16)) ++ post) =
        .ok ((AesBt.encryptRounds libtools (loadBlock key) (s.length / 16) s).map some ++ post) :=
    fun post => blockLoop_encrypt libtools (loadBlock key) s [some 0] (i := 0) (by omega) post List.length_nil
  rw [AES_ecb128_encryptTo, readMany_key key hkey, AesBt.encryptBuffer, List.map_append]
  simp only [bind, Except.bind, List.map_cons, List.map_nil]
  by_cases hleft : s.length % 16 = 0
  · have hout : Buffer.alloc ((s.length / 16 + 0) * 16) =
        (Buffer.alloc (16 * (s.length / 16)) ++ [] : Buffer UInt8) := by
      rw [List.append_nil, Nat.add_zero, Nat.mul_comm]
    simp only [if_pos hleft, hout, hcipher, hloop []]
    rw [List.append_nil, List.append_nil]
    rfl
  · have hout : Buffer.alloc ((s.length / 16 + 1) * 16) =
        (Buffer.alloc (16 * (s.length / 16)) ++ (Buffer.alloc 16 ++ []) : Buffer UInt8) := by
      rw [List.append_nil, Buffer.alloc, Buffer.alloc, Buffer.alloc, List.replicate_append_replicate]
      congr 1
      omega
    have hlast : s.map some ++ [some 0] = (s.take (16 * (s.length / 16))).map some ++
        ((s.drop (16 * (s.length / 16))).map some ++ [some 0]) := by
      rw [← List.append_assoc, ← List.map_append, List.take_append_drop]
    have hread : Buffer.readMany (ε := Unit) (s.map some ++ [some 0]) (16 * (s.length / 16)) (s.length % 16) =
        .ok (s.drop (16 * (s.length / 16))) := by
      rw [hlast]
      exact Buffer.readMany_append (by rw [List.length_map, List.length_take]; omega)
        (by rw [List.length_drop]; omega)
    have hleft' : (s.drop (16 * (s.length / 16))).length ≤ 16 := by
      rw [List.length_drop]
      omega
    obtain ⟨buf, hbuf, hblock⟩ := copy_left hleft'
    have hwrite := Buffer.writeMany_append (ε := Unit)
      ((AesBt.encryptRounds libtools (loadBlock key) (s.length / 16) s).map some) (Buffer.alloc 16) []
      (AesBt.length_storeBlock
        (libtools.AES_encrypt (loadBlock key) (loadBlock (s.drop (16 * (s.length / 16)))))).symm
      (i := 16 * (s.length / 16)) (by rw [List.length_map, AesBt.length_encryptRounds])
    rw [List.append_nil, List.append_nil] at hwrite
    simp only [if_neg hleft, hout, List.append_nil, hcipher, hloop (Buffer.alloc 16), hread, hbuf, hblock,
      loadBlock_append_zeros, hwrite, List.map_append]

/-- **A string is encrypted** without a fault, to the same text on every stack. -/
theorem AES_ecb128_encrypt_eq (stack : Stack) (s key_seed : Bytes) :
    AES_ecb128_encrypt stack s key_seed = .ok (AesBt.AES_ecb128_encrypt libtools s key_seed) := by
  have hlength : (AesBt.encryptBuffer libtools (loadBlock (AesBt.get_key libtools key_seed)) s).length =
      (s.length / 16 + if s.length % 16 = 0 then 0 else 1) * 16 := by
    rw [AesBt.encryptBuffer_eq_rounds, AesBt.length_encryptRounds]
    split_ifs <;> omega
  set buffer := AesBt.encryptBuffer libtools (loadBlock (AesBt.get_key libtools key_seed)) s with hbuffer
  have hread : Buffer.readMany (ε := Unit) ([] ++ (buffer.map some ++ [])) 0
      ((s.length / 16 + if s.length % 16 = 0 then 0 else 1) * 16) = .ok buffer :=
    Buffer.readMany_append List.length_nil hlength
  rw [List.nil_append, List.append_nil] at hread
  simp only [AES_ecb128_encrypt, get_key_eq, bind, Except.bind,
    AES_ecb128_encryptTo_eq stack s (length_get_key key_seed), ← hbuffer, hread, Base64EncodeString_eq]
  rfl

/-! ## Decryption -/

/-- **The blocks are decrypted**, if they have been written. -/
theorem AES_ecb128_decryptTo_eq (stack : Stack) {key : Bytes} (hkey : key.length = 16) {inp : Buffer UInt8}
    {length : Nat} (hle : length ≤ inp.length) :
    AES_ecb128_decryptTo stack inp length (Buffer.alloc (length + 1)) ((key ++ [0]).map some) =
      (orFault .uninitialised (AesBt.decryptBuffer libtools (loadBlock key) inp length)).map
        (· ++ [none]) := by
  have halloc : Buffer.alloc (length + 1) =
      (Buffer.alloc (16 * (length / 16)) ++ (Buffer.alloc (length % 16) ++ [none]) : Buffer UInt8) := by
    rw [← List.append_assoc, Buffer.alloc, Buffer.alloc, Buffer.alloc, List.replicate_append_replicate,
      Nat.div_add_mod, List.replicate_succ']
  have hloop : TokenBuffers.decryptLoop libtools (loadBlock key) inp (length / 16) 0
      ([] ++ (Buffer.alloc (16 * (length / 16)) ++ (Buffer.alloc (length % 16) ++ [none]))) = _ :=
    TokenBuffers.decryptLoop_eq (by omega) _ rfl
  rw [List.nil_append, ← halloc, Nat.mul_zero, List.drop_zero] at hloop
  rw [AES_ecb128_decryptTo, readMany_key key hkey]
  refine (blockLoop_eq (AES_decrypt_decryptKey stack hkey) ..).trans (hloop.trans ?_)
  rw [AesBt.decryptBuffer]
  cases AesBt.decryptRounds libtools (loadBlock key) (length / 16) inp with
  | none => rfl
  | some out => exact congrArg Except.ok (List.append_assoc out _ [none]).symm

/-- **Any text**: what is decoded, decrypted and read, and where that stops. -/
theorem AES_ecb128_decrypt_eq (stack : Stack) (token key_seed : Bytes) :
    AES_ecb128_decrypt stack token key_seed = (do
      let (bin_in, length) ← orFault TokenBuffers.not_found (Tools.Base64Decode (token.takeWhile (· ≠ 0)) 0)
      let out ← orFault .uninitialised
        (AesBt.decryptBuffer libtools (loadBlock (AesBt.get_key libtools key_seed)) bin_in length)
      Buffer.readUntil (· = 0) (out ++ [some 0])) := by
  simp only [AES_ecb128_decrypt, get_key_eq, TokenBuffers.Base64Decode_eq, bind, Except.bind]
  cases hdecode : Tools.Base64Decode (token.takeWhile (· ≠ 0)) 0 with
  | none => rfl
  | some p =>
  obtain ⟨bin_in, length⟩ := p
  have hle := TokenBuffers.length_le_of_Base64Decode hdecode
  simp only [orFault, AES_ecb128_decryptTo_eq stack (length_get_key key_seed) hle]
  cases hbuffer : AesBt.decryptBuffer libtools (loadBlock (AesBt.get_key libtools key_seed)) bin_in length with
  | none => rfl
  | some out =>
  obtain ⟨blocks, hblocks, rfl⟩ := TokenBuffers.decryptBuffer_eq_some.mp hbuffer
  have hlength : (blocks ++ List.replicate (length % 16) none).length = length := by
    rw [List.length_append, TokenBuffers.length_decryptRounds hblocks, List.length_replicate]
    exact Nat.div_add_mod ..
  simp only [Except.map, Buffer.write_append _ none [] 0 hlength]

/-- **No access is outside a buffer**, whatever the text and the seed. -/
theorem ne_out_of_bounds (stack : Stack) (token key_seed : Bytes) :
    AES_ecb128_decrypt stack token key_seed ≠ .error .out_of_bounds := by
  rw [AES_ecb128_decrypt_eq]
  intro hfault
  cases hdecode : Tools.Base64Decode (token.takeWhile (· ≠ 0)) 0 with
  | none =>
    rw [hdecode] at hfault
    cases hfault
  | some p =>
  obtain ⟨bin_in, length⟩ := p
  simp only [hdecode, orFault, bind, Except.bind] at hfault
  cases hbuffer : AesBt.decryptBuffer libtools (loadBlock (AesBt.get_key libtools key_seed)) bin_in length with
  | none =>
    rw [hbuffer] at hfault
    cases hfault
  | some out =>
    rw [hbuffer] at hfault
    exact Buffer.readUntil_ne_out_of_bounds (List.mem_append_right out List.mem_cons_self) rfl hfault

/-! ## There and back -/

theorem readUntil_zeros (s : Bytes) (n : Nat) :
    Buffer.readUntil (ε := Unit) (· = 0) ((s ++ List.replicate n 0).map some ++ [some 0]) =
      .ok (s.takeWhile (· ≠ 0)) := by
  induction s with
  | nil => cases n <;> rfl
  | cons c s ih =>
    rw [List.cons_append, List.map_cons, List.cons_append, Buffer.readUntil]
    by_cases hc : c = 0
    · rw [if_pos (decide_eq_true hc), hc]
      rfl
    · rw [if_neg (by simpa using hc), ih, List.takeWhile_cons, if_pos (decide_eq_true hc)]
      rfl

/-- **Strings come back up to their first zero**, under every seed and on every two stacks. -/
theorem ecb128_roundTrip (stack stack' : Stack) (s key_seed : Bytes) :
    (do let token ← AES_ecb128_encrypt stack s key_seed; AES_ecb128_decrypt stack' token key_seed) =
      .ok (s.takeWhile (· ≠ 0)) := by
  set key := loadBlock (AesBt.get_key libtools key_seed) with hkey
  have hlength : (AesBt.encryptBuffer libtools key s).length = 16 * ((s.length + 15) / 16) := by
    rw [AesBt.encryptBuffer_eq_rounds, AesBt.length_encryptRounds]
  have htext : (Base64Encode (AesBt.encryptBuffer libtools key s)).takeWhile (· ≠ 0) =
      Base64Encode (AesBt.encryptBuffer libtools key s) := by
    rw [List.takeWhile_eq_self_iff]
    exact fun c hc => decide_eq_true (ne_of_mem_of_not_mem hc (zero_notMem_Base64Encode _))
  have hrounds := AesBt.decryptRounds_encryptRounds libtools_inverts key ((s.length + 15) / 16) s
    (List.replicate ((3 - 16 * ((s.length + 15) / 16) % 3) % 3) none)
  rw [List.take_of_length_le (by omega)] at hrounds
  have hbuffer : AesBt.decryptBuffer libtools key
      ((AesBt.encryptBuffer libtools key s).map some ++
        List.replicate ((3 - 16 * ((s.length + 15) / 16) % 3) % 3) none) (16 * ((s.length + 15) / 16)) =
      some ((s ++ List.replicate (16 * ((s.length + 15) / 16) - s.length) 0).map some) := by
    rw [AesBt.decryptBuffer, Nat.mul_div_cancel_left _ (by decide), Nat.mul_mod_right,
      AesBt.encryptBuffer_eq_rounds, hrounds]
    exact congrArg some (List.append_nil _)
  simp only [AES_ecb128_encrypt_eq, bind, Except.bind, AES_ecb128_decrypt_eq, AesBt.AES_ecb128_encrypt, ← hkey,
    htext, Base64Decode_Base64Encode, orFault, hlength, hbuffer]
  exact readUntil_zeros s _

/-- The string `user 1` with the seed `key`, and without one. -/
theorem decrypt_undoes_encrypt_user :
    AesBt.AES_ecb128_encrypt libtools (bytes "user 1") (bytes "key") = bytes "F92afVL1gQdph0iNAVFYuQ==" ∧
      AesBt.AES_ecb128_encryptFixed libtools (bytes "user 1") = bytes "fP65XRIBSyzsrSi0eHNFlw==" ∧
      AesBt.AES_ecb128_decrypt libtools (AesBt.AES_ecb128_encrypt libtools (bytes "user 1") (bytes "key"))
        (bytes "key") = some (bytes "user 1") ∧
      AesBt.AES_ecb128_decryptFixed libtools (AesBt.AES_ecb128_encryptFixed libtools (bytes "user 1")) =
        some (bytes "user 1") := by
  have h := AesBt.decrypt_undoes_encrypt libtools libtools_inverts (bytes "user 1") (by decide)
  exact ⟨by decide +kernel, by decide +kernel, h.1 (bytes "key"), h.2⟩

end SparkFrame.Tools.AesEcb
