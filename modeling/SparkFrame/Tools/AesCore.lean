import SparkFrame.Tools.AesBt
import SparkFrame.Tools.AesTables

/-!
# The block cipher on words: `libtools/AesCore`

* `AES_KEY` : round keys and how many rounds there are;
* `AES_set_encrypt_key`, `AES_set_decrypt_key` : the two key schedules;
* `AES_encrypt`, `AES_decrypt` : a block, two rounds at a time.
-/

namespace SparkFrame.Tools.Aes

/-! ## Words and bytes -/

/-- `GETU32` -/
def GETU32 (p0 p1 p2 p3 : UInt8) : UInt32 :=
  (p0.toUInt32 <<< 24) ^^^ (p1.toUInt32 <<< 16) ^^^ (p2.toUInt32 <<< 8) ^^^ p3.toUInt32

/-- `PUTU32` -/
def PUTU32 (st : UInt32) : Bytes :=
  [(st >>> 24).toUInt8, (st >>> 16).toUInt8, (st >>> 8).toUInt8, st.toUInt8]

/-- `w >> 24` -/
def shr24 (w : UInt32) : Fin 256 :=
  ⟨(w >>> 24).toNat, by
    rw [UInt32.toNat_shiftRight, Nat.shiftRight_eq_div_pow]
    have := w.toNat_lt
    exact Nat.div_lt_of_lt_mul this⟩

/-- `(w >> n) & 0xff` -/
def shrAnd (w n : UInt32) : Fin 256 :=
  ⟨((w >>> n) &&& 0xff).toNat, by
    rw [UInt32.toNat_and]
    exact Nat.lt_succ_of_le Nat.and_le_right⟩

/-! ## Key schedules -/

/-- `rd_key[4 * (AES_MAXNR + 1)]` -/
abbrev RdKey := Vector UInt32 60

def rd (rk : RdKey) (i : Nat) : UInt32 := rk[i]?.getD 0

def wr (rk : RdKey) (i : Nat) (w : UInt32) : RdKey := rk.setIfInBounds i w

structure AES_KEY where
  rd_key : RdKey
  rounds : Nat

/-- `SubWord` of a word that is turned by a byte. -/
def subRot (temp : UInt32) : UInt32 :=
  (Te2 (shrAnd temp 16) &&& 0xff000000) ^^^ (Te3 (shrAnd temp 8) &&& 0x00ff0000) ^^^
    (Te0 (shrAnd temp 0) &&& 0x0000ff00) ^^^ (Te1 (shr24 temp) &&& 0x000000ff)

/-- Halfway through a key of 256 bits a word is not turned. -/
def sub (temp : UInt32) : UInt32 :=
  (Te2 (shr24 temp) &&& 0xff000000) ^^^ (Te3 (shrAnd temp 16) &&& 0x00ff0000) ^^^
    (Te0 (shrAnd temp 8) &&& 0x0000ff00) ^^^ (Te1 (shrAnd temp 0) &&& 0x000000ff)

/-- Four words from `q` on: the first differs from that at `p` by `x`, each of the others from its
own by the one before it. -/
def chain (rk : RdKey) (p q : Nat) (x : UInt32) : RdKey :=
  let rk := wr rk q (rd rk p ^^^ x)
  let rk := wr rk (q + 1) (rd rk (p + 1) ^^^ rd rk q)
  let rk := wr rk (q + 2) (rd rk (p + 2) ^^^ rd rk (q + 1))
  wr rk (q + 3) (rd rk (p + 3) ^^^ rd rk (q + 2))

/-- The schedule after `i` turns of the loop for 128 bits, at `rk = 4 * i`. -/
def expand128 (rk : RdKey) : Nat → RdKey
  | 0 => rk
  | i + 1 =>
    let rk := expand128 rk i
    let p := 4 * i
    chain rk p (p + 4) (subRot (rd rk (p + 3)) ^^^ rcon i)

/-- The loop for 192 bits ends in the middle of its last turn. -/
def expand192 (rk : RdKey) : Nat → RdKey
  | 0 => rk
  | i + 1 =>
    let rk := expand192 rk i
    let p := 6 * i
    let rk := chain rk p (p + 6) (subRot (rd rk (p + 5)) ^^^ rcon i)
    if i + 1 = 8 then rk
    else
      let rk := wr rk (p + 10) (rd rk (p + 4) ^^^ rd rk (p + 9))
      wr rk (p + 11) (rd rk (p + 5) ^^^ rd rk (p + 10))

/-- So does the loop for 256 bits. -/
def expand256 (rk : RdKey) : Nat → RdKey
  | 0 => rk
  | i + 1 =>
    let rk := expand256 rk i
    let p := 8 * i
    let rk := chain rk p (p + 8) (subRot (rd rk (p + 7)) ^^^ rcon i)
    if i + 1 = 7 then rk else chain rk (p + 4) (p + 12) (sub (rd rk (p + 11)))

/-- The first `n` words are those of the key. -/
def loadKey (userKey : Nat → UInt8) (rk : RdKey) : Nat → RdKey
  | 0 => rk
  | n + 1 => wr (loadKey userKey rk n) n
      (GETU32 (userKey (4 * n)) (userKey (4 * n + 1)) (userKey (4 * n + 2)) (userKey (4 * n + 3)))

/-- A status, and what the key is then. A null pointer is `none`. -/
def AES_set_encrypt_key (userKey : Option (Nat → UInt8)) (bits : Int) (key : Option AES_KEY) :
    Int × Option AES_KEY :=
  match userKey, key with
  | some userKey, some key =>
    if bits ≠ 128 ∧ bits ≠ 192 ∧ bits ≠ 256 then (-2, some key)
    else if bits = 128 then (0, some ⟨expand128 (loadKey userKey key.rd_key 4) 10, 10⟩)
    else if bits = 192 then (0, some ⟨expand192 (loadKey userKey key.rd_key 6) 8, 12⟩)
    else (0, some ⟨expand256 (loadKey userKey key.rd_key 8) 7, 14⟩)
  | _, key => (-1, key)

/-- `temp = rk[i]; rk[i] = rk[j]; rk[j] = temp;` -/
def swapWords (rk : RdKey) (i j : Nat) : RdKey :=
  let temp := rd rk i
  wr (wr rk i (rd rk j)) j temp

def swapKeys (rk : RdKey) (i j : Nat) : RdKey :=
  let rk := swapWords rk i j
  let rk := swapWords rk (i + 1) (j + 1)
  let rk := swapWords rk (i + 2) (j + 2)
  swapWords rk (i + 3) (j + 3)

/-- The order of the round keys is inverted. -/
def invertKeys (rk : RdKey) (i j : Nat) : RdKey :=
  if i < j then invertKeys (swapKeys rk i j) (i + 4) (j - 4) else rk
termination_by j - i

/-- The inverse `MixColumn` of a word: the two substitutions cancel. -/
def unmixWord (w : UInt32) : UInt32 :=
  Td0 (shrAnd (Te1 (shr24 w)) 0) ^^^ Td1 (shrAnd (Te1 (shrAnd w 16)) 0) ^^^
    Td2 (shrAnd (Te1 (shrAnd w 8)) 0) ^^^ Td3 (shrAnd (Te1 (shrAnd w 0)) 0)

def unmixKey (rk : RdKey) (p : Nat) : RdKey :=
  let rk := wr rk p (unmixWord (rd rk p))
  let rk := wr rk (p + 1) (unmixWord (rd rk (p + 1)))
  let rk := wr rk (p + 2) (unmixWord (rd rk (p + 2)))
  wr rk (p + 3) (unmixWord (rd rk (p + 3)))

/-- The schedule after `n` turns of the loop over the round keys, from the second on. -/
def unmixKeys (rk : RdKey) : Nat → RdKey
  | 0 => rk
  | n + 1 => unmixKey (unmixKeys rk n) (4 * (n + 1))

def AES_set_decrypt_key (userKey : Option (Nat → UInt8)) (bits : Int) (key : Option AES_KEY) :
    Int × Option AES_KEY :=
  match AES_set_encrypt_key userKey bits key with
  | (status, some key) =>
    if status < 0 then (status, some key)
    else (0, some { key with rd_key := unmixKeys (invertKeys key.rd_key 0 (4 * key.rounds)) (key.rounds - 1) })
  | (status, none) => (status, none)

/-! ## Blocks -/

/-- `s0` to `s3`, or `t0` to `t3`. -/
structure Words where
  s0 : UInt32
  s1 : UInt32
  s2 : UInt32
  s3 : UInt32

/-- `in`, and the first round key. -/
def loadWords (block : Block) (rk : Nat → UInt32) : Words where
  s0 := GETU32 (block 0) (block 1) (block 2) (block 3) ^^^ rk 0
  s1 := GETU32 (block 4) (block 5) (block 6) (block 7) ^^^ rk 1
  s2 := GETU32 (block 8) (block 9) (block 10) (block 11) ^^^ rk 2
  s3 := GETU32 (block 12) (block 13) (block 14) (block 15) ^^^ rk 3

/-- `out` -/
def storeWords (s : Words) : Block :=
  AesBt.loadBlock (PUTU32 s.s0 ++ PUTU32 s.s1 ++ PUTU32 s.s2 ++ PUTU32 s.s3)

/-- A round, with the round key at `p`. -/
def encryptRound (rk : Nat → UInt32) (p : Nat) (s : Words) : Words where
  s0 := Te0 (shr24 s.s0) ^^^ Te1 (shrAnd s.s1 16) ^^^ Te2 (shrAnd s.s2 8) ^^^ Te3 (shrAnd s.s3 0) ^^^ rk p
  s1 := Te0 (shr24 s.s1) ^^^ Te1 (shrAnd s.s2 16) ^^^ Te2 (shrAnd s.s3 8) ^^^ Te3 (shrAnd s.s0 0) ^^^ rk (p + 1)
  s2 := Te0 (shr24 s.s2) ^^^ Te1 (shrAnd s.s3 16) ^^^ Te2 (shrAnd s.s0 8) ^^^ Te3 (shrAnd s.s1 0) ^^^ rk (p + 2)
  s3 := Te0 (shr24 s.s3) ^^^ Te1 (shrAnd s.s0 16) ^^^ Te2 (shrAnd s.s1 8) ^^^ Te3 (shrAnd s.s2 0) ^^^ rk (p + 3)

/-- A word of the last round. -/
def encryptLastWord (t0 t1 t2 t3 k : UInt32) : UInt32 :=
  (Te2 (shr24 t0) &&& 0xff000000) ^^^ (Te3 (shrAnd t1 16) &&& 0x00ff0000) ^^^
    (Te0 (shrAnd t2 8) &&& 0x0000ff00) ^^^ (Te1 (shrAnd t3 0) &&& 0x000000ff) ^^^ k

def encryptLast (rk : Nat → UInt32) (p : Nat) (t : Words) : Words where
  s0 := encryptLastWord t.s0 t.s1 t.s2 t.s3 (rk p)
  s1 := encryptLastWord t.s1 t.s2 t.s3 t.s0 (rk (p + 1))
  s2 := encryptLastWord t.s2 t.s3 t.s0 t.s1 (rk (p + 2))
  s3 := encryptLastWord t.s3 t.s0 t.s1 t.s2 (rk (p + 3))

/-- The round of `AES_decrypt`, which takes the rows the other way. -/
def decryptRound (rk : Nat → UInt32) (p : Nat) (s : Words) : Words where
  s0 := Td0 (shr24 s.s0) ^^^ Td1 (shrAnd s.s3 16) ^^^ Td2 (shrAnd s.s2 8) ^^^ Td3 (shrAnd s.s1 0) ^^^ rk p
  s1 := Td0 (shr24 s.s1) ^^^ Td1 (shrAnd s.s0 16) ^^^ Td2 (shrAnd s.s3 8) ^^^ Td3 (shrAnd s.s2 0) ^^^ rk (p + 1)
  s2 := Td0 (shr24 s.s2) ^^^ Td1 (shrAnd s.s1 16) ^^^ Td2 (shrAnd s.s0 8) ^^^ Td3 (shrAnd s.s3 0) ^^^ rk (p + 2)
  s3 := Td0 (shr24 s.s3) ^^^ Td1 (shrAnd s.s2 16) ^^^ Td2 (shrAnd s.s1 8) ^^^ Td3 (shrAnd s.s0 0) ^^^ rk (p + 3)

def decryptLastWord (t0 t3 t2 t1 k : UInt32) : UInt32 :=
  ((Td4 (shr24 t0)).toUInt32 <<< 24) ^^^ ((Td4 (shrAnd t3 16)).toUInt32 <<< 16) ^^^
    ((Td4 (shrAnd t2 8)).toUInt32 <<< 8) ^^^ (Td4 (shrAnd t1 0)).toUInt32 ^^^ k

def decryptLast (rk : Nat → UInt32) (p : Nat) (t : Words) : Words where
  s0 := decryptLastWord t.s0 t.s3 t.s2 t.s1 (rk p)
  s1 := decryptLastWord t.s1 t.s0 t.s3 t.s2 (rk (p + 1))
  s2 := decryptLastWord t.s2 t.s1 t.s0 t.s3 (rk (p + 2))
  s3 := decryptLastWord t.s3 t.s2 t.s1 t.s0 (rk (p + 3))

/-- The loop of both functions, at `rk = p`: a round, `rk += 8`, and another unless `r` is zero by
then. It returns where the last round key is. -/
def roundLoop (round : Nat → Words → Words) : Nat → Nat → Words → Words × Nat
  | 0, p, s => (s, p)
  | r + 1, p, s =>
    let t := round (p + 4) s
    let p := p + 8
    if r = 0 then (t, p) else roundLoop round r p (round p t)

def AES_encrypt (block : Block) (key : AES_KEY) : Block :=
  let rk := rd key.rd_key
  let (t, p) := roundLoop (encryptRound rk) (key.rounds / 2) 0 (loadWords block rk)
  storeWords (encryptLast rk p t)

def AES_decrypt (block : Block) (key : AES_KEY) : Block :=
  let rk := rd key.rd_key
  let (t, p) := roundLoop (decryptRound rk) (key.rounds / 2) 0 (loadWords block rk)
  storeWords (decryptLast rk p t)

end SparkFrame.Tools.Aes
