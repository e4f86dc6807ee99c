import SparkFrame.Lib.BlockStream
import SparkFrame.Tools.BaseTool

/-!
# The digest of `libtools/MD5`

* `MD5Transform` : a block of sixteen words; `MD5Init`, `MD5Update`, `MD5Final` : a digest in pieces, in a
  context whose block is a buffer with every access it makes;
* `MD5_16`, `MD5_32`, `Md5_Check` : the functions that are called;
* `pad`, `digest` : the digest of all the data at once;
* `Holds` : what a context says of the data so far; `MD5Update_spec`, `MD5Final_spec` : a step and the end;
* `digest_of_pieces` : **the digest does not depend on how the data is cut**;
* `MD5_16_eq`, `MD5_32_eq` : what the functions return, whatever the data.
-/

namespace SparkFrame.Tools.Md5

open SparkFrame.Lib

/-! ## A block -/

/-- `buf[4]` -/
structure Words where
  a : UInt32
  b : UInt32
  c : UInt32
  d : UInt32
deriving DecidableEq

/-- `F1` is optimized somewhat. -/
def F1 (x y z : UInt32) : UInt32 := z ^^^ (x &&& (y ^^^ z))

def F2 (x y z : UInt32) : UInt32 := F1 z x y

def F3 (x y z : UInt32) : UInt32 := x ^^^ y ^^^ z

def F4 (x y z : UInt32) : UInt32 := y ^^^ (x ||| ~~~z)

def MD5STEP (f : UInt32 → UInt32 → UInt32 → UInt32) (w x y z data s : UInt32) : UInt32 :=
  let w := w + (f x y z + data)
  let w := (w <<< s) ||| (w >>> (32 - s))
  w + x

/-- The sixteen steps with `F1`. -/
def round1 (inw : Nat → UInt32) (buf : Words) : Words :=
  let a := buf.a
  let b := buf.b
  let c := buf.c
  let d := buf.d
  let a := MD5STEP F1 a b c d (inw 0 + 0xd76aa478) 7
  let d := MD5STEP F1 d a b c (inw 1 + 0xe8c7b756) 12
  let c := MD5STEP F1 c d a b (inw 2 + 0x242070db) 17
  let b := MD5STEP F1 b c d a (inw 3 + 0xc1bdceee) 22
  let a := MD5STEP F1 a b c d (inw 4 + 0xf57c0faf) 7
  let d := MD5STEP F1 d a b c (inw 5 + 0x4787c62a) 12
  let c := MD5STEP F1 c d a b (inw 6 + 0xa8304613) 17
  let b := MD5STEP F1 b c d a (inw 7 + 0xfd469501) 22
  let a := MD5STEP F1 a b c d (inw 8 + 0x698098d8) 7
  let d := MD5STEP F1 d a b c (inw 9 + 0x8b44f7af) 12
  let c := MD5STEP F1 c d a b (inw 10 + 0xffff5bb1) 17
  let b := MD5STEP F1 b c d a (inw 11 + 0x895cd7be) 22
  let a := MD5STEP F1 a b c d (inw 12 + 0x6b901122) 7
  let d := MD5STEP F1 d a b c (inw 13 + 0xfd987193) 12
  let c := MD5STEP F1 c d a b (inw 14 + 0xa679438e) 17
  let b := MD5STEP F1 b c d a (inw 15 + 0x49b40821) 22
  ⟨a, b, c, d⟩

/-- The sixteen steps with `F2`. -/
def round2 (inw : Nat → UInt32) (buf : Words) : Words :=
  let a := buf.a
  let b := buf.b
  let c := buf.c
  let d := buf.d
  let a := MD5STEP F2 a b c d (inw 1 + 0xf61e2562) 5
  let d := MD5STEP F2 d a b c (inw 6 + 0xc040b340) 9
  let c := MD5STEP F2 c d a b (inw 11 + 0x265e5a51) 14
  let b := MD5STEP F2 b c d a (inw 0 + 0xe9b6c7aa) 20
  let a := MD5STEP F2 a b c d (inw 5 + 0xd62f105d) 5
  let d := MD5STEP F2 d a b c (inw 10 + 0x02441453) 9
  let c := MD5STEP F2 c d a b (inw 15 + 0xd8a1e681) 14
  let b := MD5STEP F2 b c d a (inw 4 + 0xe7d3fbc8) 20
  let a := MD5STEP F2 a b c d (inw 9 + 0x21e1cde6) 5
  let d := MD5STEP F2 d a b c (inw 14 + 0xc33707d6) 9
  let c := MD5STEP F2 c d a b (inw 3 + 0xf4d50d87) 14
  let b := MD5STEP F2 b c d a (inw 8 + 0x455a14ed) 20
  let a := MD5STEP F2 a b c d (inw 13 + 0xa9e3e905) 5
  let d := MD5STEP F2 d a b c (inw 2 + 0xfcefa3f8) 9
  let c := MD5STEP F2 c d a b (inw 7 + 0x676f02d9) 14
  let b := MD5STEP F2 b c d a (inw 12 + 0x8d2a4c8a) 20
  ⟨a, b, c, d⟩

/-- The sixteen steps with `F3`. -/
def round3 (inw : Nat → UInt32) (buf : Words) : Words :=
  let a := buf.a
  let b := buf.b
  let c := buf.c
  let d := buf.d
  let a := MD5STEP F3 a b c d (inw 5 + 0xfffa3942) 4
  let d := MD5STEP F3 d a b c (inw 8 + 0x8771f681) 11
  let c := MD5STEP F3 c d a b (inw 11 + 0x6d9d6122) 16
  let b := MD5STEP F3 b c d a (inw 14 + 0xfde5380c) 23
  let a := MD5STEP F3 a b c d (inw 1 + 0xa4beea44) 4
  let d := MD5STEP F3 d a b c (inw 4 + 0x4bdecfa9) 11
  let c := MD5STEP F3 c d a b (inw 7 + 0xf6bb4b60) 16
  let b := MD5STEP F3 b c d a (inw 10 + 0xbebfbc70) 23
  let a := MD5STEP F3 a b c d (inw 13 + 0x289b7ec6) 4
  let d := MD5STEP F3 d a b c (inw 0 + 0xeaa127fa) 11
  let c := MD5STEP F3 c d a b (inw 3 + 0xd4ef3085) 16
  let b := MD5STEP F3 b c d a (inw 6 + 0x04881d05) 23
  let a := MD5STEP F3 a b c d (inw 9 + 0xd9d4d039) 4
  let d := MD5STEP F3 d a b c (inw 12 + 0xe6db99e5) 11
  let c := MD5STEP F3 c d a b (inw 15 + 0x1fa27cf8) 16
  let b := MD5STEP F3 b c d a (inw 2 + 0xc4ac5665) 23
  ⟨a, b, c, d⟩

/-- The sixteen steps with `F4`. -/
def round4 (inw : Nat → UInt32) (buf : Words) : Words :=
  let a := buf.a
  let b := buf.b
  let c := buf.c
  let d := buf.d
  let a := MD5STEP F4 a b c d (inw 0 + 0xf4292244) 6
  let d := MD5STEP F4 d a b c (inw 7 + 0x432aff97) 10
  let c := MD5STEP F4 c d a b (inw 14 + 0xab9423a7) 15
  let b := MD5STEP F4 b c d a (inw 5 + 0xfc93a039) 21
  let a := MD5STEP F4 a b c d (inw 12 + 0x655b59c3) 6
  let d := MD5STEP F4 d a b c (inw 3 + 0x8f0ccc92) 10
  let c := MD5STEP F4 c d a b (inw 10 + 0xffeff47d) 15
  let b := MD5STEP F4 b c d a (inw 1 + 0x85845dd1) 21
  let a := MD5STEP F4 a b c d (inw 8 + 0x6fa87e4f) 6
  let d := MD5STEP F4 d a b c (inw 15 + 0xfe2ce6e0) 10
  let c := MD5STEP F4 c d a b (inw 6 + 0xa3014314) 15
  let b := MD5STEP F4 b c d a (inw 13 + 0x4e0811a1) 21
  let a := MD5STEP F4 a b c d (inw 4 + 0xf7537e82) 6
  let d := MD5STEP F4 d a b c (inw 11 + 0xbd3af235) 10
  let c := MD5STEP F4 c d a b (inw 2 + 0x2ad7d2bb) 15
  let b := MD5STEP F4 b c d a (inw 9 + 0xeb86d391) 21
  ⟨a, b, c, d⟩

def MD5Transform (buf : Words) (inw : Nat → UInt32) : Words :=
  let r := round4 inw (round3 inw (round2 inw (round1 inw buf)))
  ⟨buf.a + r.a, buf.b + r.b, buf.c + r.c, buf.d + r.d⟩

/-! ## Bytes and words, the lowest byte first -/

/-- `(uint32_t *) in` -/
def longs (bytes : Bytes) (i : Nat) : UInt32 :=
  (bytes.getD (4 * i) 0).toUInt32 ||| ((bytes.getD (4 * i + 1) 0).toUInt32 <<< 8) |||
    ((bytes.getD (4 * i + 2) 0).toUInt32 <<< 16) ||| ((bytes.getD (4 * i + 3) 0).toUInt32 <<< 24)

def longBytes (w : UInt32) : Bytes :=
  [w.toUInt8, (w >>> 8).toUInt8, (w >>> 16).toUInt8, (w >>> 24).toUInt8]

/-! ## A digest in pieces -/

/-- `inp` is `in[64]`, and `bits0` and `bits1` are `bits[2]`. -/
structure MD5_CTX where
  buf : Words
  bits0 : UInt32
  bits1 : UInt32
  inp : Buffer UInt8

/-- `in` is left as it is. -/
def MD5Init (ctx : MD5_CTX) : MD5_CTX :=
  { ctx with
    buf := ⟨0x67452301, 0xefcdab89, 0x98badcfe, 0x10325476⟩
    bits0 := 0
    bits1 := 0 }

/-- `MD5Transform(ctx->buf, (uint32_t *) ctx->in)` -/
def transform (ctx : MD5_CTX) : Except (Fault Empty) MD5_CTX := do
  let bytes ← ctx.inp.readMany 0 64
  return { ctx with buf := MD5Transform ctx.buf (longs bytes) }

/-- `memcpy(ctx->in + off, buf + i, len)` -/
def copyIn (ctx : MD5_CTX) (off : Nat) (buf : Buffer UInt8) (i len : Nat) : Except (Fault Empty) MD5_CTX := do
  let bytes ← buf.readMany i len
  let inp ← ctx.inp.writeMany off bytes
  return { ctx with inp := inp }

/-- The data in blocks of 64 bytes, and any remaining bytes. -/
def chunks (ctx : MD5_CTX) (buf : Buffer UInt8) (i len : Nat) : Except (Fault Empty) MD5_CTX :=
  if 64 ≤ len then do
    let ctx ← copyIn ctx 0 buf i 64
    let ctx ← transform ctx
    chunks ctx buf (i + 64) (len - 64)
  else copyIn ctx 0 buf i len
termination_by len

/-- The number of bits is kept in two words, with a carry from low to high. -/
def countBits (ctx : MD5_CTX) (len : UInt32) : MD5_CTX :=
  let t := ctx.bits0
  let bits0 := t + (len <<< 3)
  let bits1 := if bits0 < t then ctx.bits1 + 1 else ctx.bits1
  { ctx with bits0 := bits0, bits1 := bits1 + (len >>> 29) }

def MD5Update (ctx : MD5_CTX) (buf : Buffer UInt8) (len : UInt32) : Except (Fault Empty) MD5_CTX :=
  -- bytes that are already in `in`
  let t := ((ctx.bits0 >>> 3) &&& 0x3f).toNat
  let ctx := countBits ctx len
  if t ≠ 0 then
    if len.toNat < 64 - t then copyIn ctx t buf 0 len.toNat
    else do
      let ctx ← copyIn ctx t buf 0 (64 - t)
      let ctx ← transform ctx
      chunks ctx buf (64 - t) (len.toNat - (64 - t))
  else chunks ctx buf 0 len.toNat

/-- `memset(ctx->in + off, 0, len)` -/
def zeroIn (ctx : MD5_CTX) (off len : Nat) : Except (Fault Empty) MD5_CTX := do
  let inp ← ctx.inp.writeMany off (List.replicate len 0)
  return { ctx with inp := inp }

def MD5Final (ctx : MD5_CTX) : Except (Fault Empty) Bytes := do
  let count := ((ctx.bits0 >>> 3) &&& 0x3f).toNat
  let inp ← ctx.inp.write count 0x80
  let ctx := { ctx with inp := inp }
  let p := count + 1
  let count := 64 - 1 - count
  let ctx ←
    if count < 8 then do
      let ctx ← zeroIn ctx p count
      let ctx ← transform ctx
      zeroIn ctx 0 56
    else zeroIn ctx p (count - 8)
  let inp ← ctx.inp.writeMany 56 (longBytes ctx.bits0 ++ longBytes ctx.bits1)
  let ctx ← transform { ctx with inp := inp }
  return longBytes ctx.buf.a ++ longBytes ctx.buf.b ++ longBytes ctx.buf.c ++ longBytes ctx.buf.d

/-! ## The functions that are called -/

/-- What the functions do with a context on the stack. A length is cut down to 32 bits. -/
def MD5_16 (ctx : MD5_CTX) (msg : Bytes) : Except (Fault Empty) Bytes := do
  let ctx ← MD5Update (MD5Init ctx) (msg.map some) (UInt32.ofNat msg.length)
  MD5Final ctx

/-- The overload that writes to a buffer. -/
def MD5_32To (ctx : MD5_CTX) (data : Bytes) (out_put : Buffer UInt8) :
    Except (Fault Empty) (Buffer UInt8) := do
  let hash ← MD5_16 ctx data
  BaseTool.bin2hexTo out_put 0 hash

/-- The overload that returns a string, up to the zero behind the digits. -/
def MD5_32 (ctx : MD5_CTX) (data : Bytes) : Except (Fault Empty) Bytes := do
  let out_put ← MD5_32To ctx data (List.replicate 33 (some 0))
  out_put.readUntil (· = 0)

/-- The loop over the sixteen bytes. -/
def Md5_Check (pSrc pDst : Buffer UInt8) : Except (Fault Empty) Bool :=
  go 16 0
where
  go : Nat → Nat → Except (Fault Empty) Bool
    | 0, _ => .ok true
    | k + 1, i => do
      let a ← pSrc.read i
      let b ← pDst.read i
      if a ≠ b then return false
      go k (i + 1)

/-! ## All the data at once -/

def compress (buf : Words) (block : Bytes) : Words := MD5Transform buf (longs block)

def initWords : Words := ⟨0x67452301, 0xefcdab89, 0x98badcfe, 0x10325476⟩

/-- A number of 64 bits. -/
def lengthBytes (n : Nat) : Bytes := longBytes (UInt32.ofNat n) ++ longBytes (UInt32.ofNat (n / 2 ^ 32))

/-- A one, zeros, and how many bits there are. -/
def padding (length : Nat) : Bytes :=
  0x80 :: (List.replicate ((119 - length % 64) % 64) 0 ++ lengthBytes (8 * length))

def pad (m : Bytes) : Bytes := m ++ padding m.length

def digestBytes (w : Words) : Bytes := longBytes w.a ++ longBytes w.b ++ longBytes w.c ++ longBytes w.d

def digest (m : Bytes) : Bytes := digestBytes (absorb compress 64 initWords (pad m)).1

/-! ## Accesses -/

theorem copyIn_eq {ctx : MD5_CTX} {pre xs post src : Buffer UInt8} (src' : Buffer UInt8) {data : Bytes}
    {off i len : Nat}
    (hinp : ctx.inp = pre ++ (xs ++ post)) (hoff : pre.length = off) (hxs : xs.length = len)
    (hi : src.length = i) (hlen : data.length = len) :
    copyIn ctx off (src ++ (data.map some ++ src')) i len =
      .ok { ctx with inp := pre ++ (data.map some ++ post) } := by
  rw [copyIn, Buffer.readMany_append hi hlen, hinp]
  simp only [bind, Except.bind, Buffer.writeMany_append pre xs post (hxs.trans hlen.symm) hoff]
  rfl

theorem zeroIn_eq (ctx : MD5_CTX) {pre xs post : Buffer UInt8} {off len : Nat}
    (hinp : ctx.inp = pre ++ (xs ++ post)) (hoff : pre.length = off) (hxs : xs.length = len) :
    zeroIn ctx off len =
      .ok { ctx with inp := pre ++ ((List.replicate len 0).map some ++ post) } := by
  have hlen : xs.length = (List.replicate len (0 : UInt8)).length := by rw [List.length_replicate, hxs]
  rw [zeroIn, hinp, Buffer.writeMany_append pre xs post hlen hoff]
  rfl

theorem transform_eq {ctx : MD5_CTX} {block : Bytes} (hinp : ctx.inp = block.map some)
    (hblock : block.length = 64) : transform ctx = .ok { ctx with buf := compress ctx.buf block } := by
  have hread : Buffer.readMany (ε := Empty) ([] ++ (block.map some ++ [])) 0 64 = .ok block :=
    Buffer.readMany_append List.length_nil hblock
  rw [List.nil_append, List.append_nil] at hread
  rw [transform, hinp, hread]
  rfl

/-! ## The loop over the blocks -/

/-- What the context holds of data that is taken in. -/
structure Taken (ctx : MD5_CTX) (st : Words × Bytes) : Prop where
  buf : ctx.buf = st.1
  length : ctx.inp.length = 64
  inp : ∃ rest, ctx.inp = st.2.map some ++ rest

theorem taken_chunks (ctx : MD5_CTX) (hlength : ctx.inp.length = 64) (src : Buffer UInt8) (data : Bytes)
    (src' : Buffer UInt8) {i len : Nat} (hi : src.length = i) (hlen : data.length = len) :
    ∃ ctx', chunks ctx (src ++ (data.map some ++ src')) i len = .ok ctx' ∧
      Taken ctx' (absorb compress 64 ctx.buf data) ∧ ctx'.bits0 = ctx.bits0 ∧ ctx'.bits1 = ctx.bits1 := by
  induction len using Nat.strongRecOn generalizing ctx src data i with
  | _ len ih =>
    obtain hlt | ⟨block, rest, rfl, hblock⟩ := absorb_cases 64 data
    · have hinp : ctx.inp = [] ++ (ctx.inp.take len ++ ctx.inp.drop len) := by
        rw [List.nil_append, List.take_append_drop]
      have htake : (ctx.inp.take len).length = len := by rw [List.length_take]; omega
      rw [chunks, if_neg (by omega), copyIn_eq _ hinp List.length_nil htake hi hlen, absorb_of_lt compress _ hlt]
      refine ⟨_, rfl, ⟨rfl, ?_, ⟨_, rfl⟩⟩, rfl, rfl⟩
      simp only [List.nil_append, List.length_append, List.length_map, List.length_drop]
      omega
    · rw [List.length_append, hblock] at hlen
      have hinp : ctx.inp = [] ++ (ctx.inp ++ []) := by rw [List.nil_append, List.append_nil]
      have hcopy : copyIn ctx 0 (src ++ (block.map some ++ (rest.map some ++ src'))) i 64 =
          .ok { ctx with inp := [] ++ (block.map some ++ []) } :=
        copyIn_eq _ hinp List.length_nil hlength hi hblock
      rw [List.nil_append, List.append_nil] at hcopy
      have hnext : ∃ ctx', chunks { ctx with inp := block.map some, buf := compress ctx.buf block }
          (src ++ block.map some ++ (rest.map some ++ src')) (i + 64) (len - 64) = .ok ctx' ∧
          Taken ctx' (absorb compress 64 (compress ctx.buf block) rest) ∧
          ctx'.bits0 = ctx.bits0 ∧ ctx'.bits1 = ctx.bits1 :=
        ih (len - 64) (by omega) _ (by rw [List.length_map, hblock]) _ _
          (by rw [List.length_append, List.length_map, hi, hblock]) (by omega)
      rw [List.append_assoc] at hnext
      rw [chunks, if_pos (by omega), List.map_append, List.append_assoc, hcopy,
        absorb_block compress (by decide) _ hblock]
      simp only [bind, Except.bind]
      rw [transform_eq rfl hblock]
      exact hnext

/-! ## What a context says of the data so far -/

/-- The bits that are counted are those of the data, up to 64 bits of them. -/
structure Holds (ctx : MD5_CTX) (m : Bytes) : Prop where
  taken : Taken ctx (absorb compress 64 initWords m)
  bits : ctx.bits0.toNat + 2 ^ 32 * ctx.bits1.toNat = 8 * m.length % 2 ^ 64

theorem holds_MD5Init {ctx : MD5_CTX} (hlength : ctx.inp.length = 64) : Holds (MD5Init ctx) [] where
  taken := by
    rw [absorb_of_lt compress _ (by decide)]
    exact ⟨rfl, hlength, ctx.inp, rfl⟩
  bits := rfl

theorem Holds.count {ctx : MD5_CTX} {m : Bytes} (h : Holds ctx m) :
    ((ctx.bits0 >>> 3) &&& 0x3f).toNat = m.length % 64 := by
  have hbits := h.bits
  have hand : ((ctx.bits0 >>> 3) &&& 0x3f).toNat = ctx.bits0.toNat / 8 % 64 := by
    rw [UInt32.toNat_and, UInt32.toNat_shiftRight, Nat.shiftRight_eq_div_pow]
    exact Nat.and_two_pow_sub_one_eq_mod _ 6
  have h0 := ctx.bits0.toNat_lt
  have h1 := ctx.bits1.toNat_lt
  omega

theorem length_pending (m : Bytes) : (absorb compress 64 initWords m).2.length = m.length % 64 :=
  length_absorb compress (by decide) initWords m

/-- **The carry keeps the number of bits.** -/
theorem countBits_eq (ctx : MD5_CTX) (len : UInt32) {n : Nat}
    (h : ctx.bits0.toNat + 2 ^ 32 * ctx.bits1.toNat = 8 * n % 2 ^ 64) :
    (countBits ctx len).bits0.toNat + 2 ^ 32 * (countBits ctx len).bits1.toNat =
      8 * (n + len.toNat) % 2 ^ 64 := by
  have hlen := len.toNat_lt
  have h0 := ctx.bits0.toNat_lt
  have h1 := ctx.bits1.toNat_lt
  have hshl : (len <<< 3).toNat = len.toNat * 8 % 2 ^ 32 := by
    rw [UInt32.toNat_shiftLeft, Nat.shiftLeft_eq]
    rfl
  have hshr : (len >>> 29).toNat = len.toNat / 2 ^ 29 := by
    rw [UInt32.toNat_shiftRight, Nat.shiftRight_eq_div_pow]
    rfl
  have hlow : (ctx.bits0 + (len <<< 3)).toNat = (ctx.bits0.toNat + len.toNat * 8 % 2 ^ 32) % 2 ^ 32 := by
    rw [UInt32.toNat_add, hshl]
  simp only [countBits]
  by_cases hcarry : ctx.bits0 + (len <<< 3) < ctx.bits0
  · rw [if_pos hcarry, hlow, UInt32.toNat_add, UInt32.toNat_add, hshr]
    rw [UInt32.lt_iff_toNat_lt, hlow] at hcarry
    have hone : (1 : UInt32).toNat = 1 := rfl
    omega
  · rw [if_neg hcarry, hlow, UInt32.toNat_add, hshr]
    rw [UInt32.lt_iff_toNat_lt, hlow] at hcarry
    omega

/-- **A step**: data of any length under four gigabytes, wherever the data so far ended. -/
theorem MD5Update_spec {ctx : MD5_CTX} {m : Bytes} (h : Holds ctx m) (data : Bytes) (rest : Buffer UInt8)
    (len : UInt32) (hlen : data.length = len.toNat) :
    ∃ ctx', MD5Update ctx (data.map some ++ rest) len = .ok ctx' ∧ Holds ctx' (m ++ data) := by
  have hbits : ∀ ctx' : MD5_CTX, ctx'.bits0 = (countBits ctx len).bits0 →
      ctx'.bits1 = (countBits ctx len).bits1 →
      ctx'.bits0.toNat + 2 ^ 32 * ctx'.bits1.toNat = 8 * (m ++ data).length % 2 ^ 64 := by
    intro ctx' h0 h1
    rw [h0, h1, List.length_append, hlen]
    exact countBits_eq ctx len h.bits
  obtain ⟨hbuf, hlength, tail, hinp⟩ := h.taken
  have hpending := length_pending m
  have habsorb := absorb_append compress (by decide : 0 < 64) initWords m data
  simp only [MD5Update, h.count]
  generalize absorb compress 64 initWords m = st at hbuf hinp hpending habsorb
  by_cases ht : m.length % 64 = 0
  · -- nothing is left over
    have hnil : st.2 = [] := List.eq_nil_of_length_eq_zero (hpending.trans ht)
    rw [hnil, List.nil_append] at habsorb
    obtain ⟨ctx', hrun, htaken, h0, h1⟩ :=
      taken_chunks (countBits ctx len) hlength [] data rest List.length_nil hlen
    rw [if_neg (not_not.mpr ht)]
    refine ⟨ctx', hrun, ?_, hbits ctx' h0 h1⟩
    rw [habsorb, ← hbuf]
    exact htaken
  · have htail : tail.length = 64 - m.length % 64 := by
      have := congrArg List.length hinp
      rw [hlength, List.length_append, List.length_map, hpending] at this
      omega
    have hoff : (st.2.map some).length = m.length % 64 := by rw [List.length_map, hpending]
    rw [if_pos ht]
    by_cases hlt : len.toNat < 64 - m.length % 64
    · -- the block is not filled
      have hsplit : (countBits ctx len).inp =
          st.2.map some ++ (tail.take len.toNat ++ tail.drop len.toNat) := by
        rw [List.take_append_drop]
        exact hinp
      have htake : (tail.take len.toNat).length = len.toNat := by rw [List.length_take]; omega
      rw [if_pos hlt]
      refine ⟨_, copyIn_eq rest hsplit hoff htake List.length_nil hlen, ?_, hbits _ rfl rfl⟩
      rw [habsorb, absorb_of_lt compress _ (by rw [List.length_append]; omega)]
      refine ⟨hbuf, ?_, tail.drop len.toNat, by rw [List.map_append, List.append_assoc]⟩
      simp only [List.length_append, List.length_map, List.length_drop]
      omega
    · -- the block is filled, and what is left of the data follows
      obtain ⟨d, data, rfl, hd⟩ : ∃ d data', data = d ++ data' ∧ d.length = 64 - m.length % 64 :=
        ⟨_, _, (List.take_append_drop (64 - m.length % 64) data).symm, by rw [List.length_take]; omega⟩
      rw [List.length_append, hd] at hlen
      have hsplit : (countBits ctx len).inp = st.2.map some ++ (tail ++ []) := by
        rw [List.append_nil]
        exact hinp
      have hcopy := copyIn_eq (data.map some ++ rest) hsplit hoff htail List.length_nil hd
      rw [List.append_nil, ← List.map_append] at hcopy
      have hblock : (st.2 ++ d).length = 64 := by
        rw [List.length_append, hpending, hd]
        omega
      obtain ⟨ctx', hrun, htaken, h0, h1⟩ := taken_chunks
        { countBits ctx len with inp := (st.2 ++ d).map some, buf := compress ctx.buf (st.2 ++ d) }
        (by rw [List.length_map, hblock]) (d.map some) data rest
        (by rw [List.length_map, hd]) (by omega : data.length = len.toNat - (64 - m.length % 64))
      rw [← List.append_assoc st.2, absorb_block compress (by decide) _ hblock] at habsorb
      rw [if_neg hlt, List.map_append, List.append_assoc, ← List.nil_append (d.map some ++ _), hcopy]
      simp only [bind, Except.bind]
      rw [transform_eq rfl hblock]
      refine ⟨ctx', hrun, ?_, hbits ctx' h0 h1⟩
      rw [habsorb, ← hbuf]
      exact htaken

theorem Holds.lengthBytes_eq {ctx : MD5_CTX} {m : Bytes} (h : Holds ctx m) :
    longBytes ctx.bits0 ++ longBytes ctx.bits1 = lengthBytes (8 * m.length) := by
  have hbits := h.bits
  have h0 := ctx.bits0.toNat_lt
  have h1 := ctx.bits1.toNat_lt
  have hlow : ctx.bits0 = UInt32.ofNat (8 * m.length) := by
    apply UInt32.toNat_inj.mp
    rw [UInt32.toNat_ofNat']
    omega
  have hhigh : ctx.bits1 = UInt32.ofNat (8 * m.length / 2 ^ 32) := by
    apply UInt32.toNat_inj.mp
    rw [UInt32.toNat_ofNat']
    omega
  rw [lengthBytes, ← hlow, ← hhigh]

theorem finish_eq (ctx : MD5_CTX) {block : Bytes} {xs : Buffer UInt8} (hinp : ctx.inp = block.map some ++ xs)
    (hblock : block.length = 56) (hxs : xs.length = 8) :
    (do
      let inp ← ctx.inp.writeMany 56 (longBytes ctx.bits0 ++ longBytes ctx.bits1)
      let ctx ← transform { ctx with inp := inp }
      return longBytes ctx.buf.a ++ longBytes ctx.buf.b ++ longBytes ctx.buf.c ++ longBytes ctx.buf.d :
        Except (Fault Empty) Bytes) =
      .ok (digestBytes (compress ctx.buf (block ++ (longBytes ctx.bits0 ++ longBytes ctx.bits1)))) := by
  have hwrite : Buffer.writeMany (ε := Empty) (block.map some ++ (xs ++ [])) 56
      (longBytes ctx.bits0 ++ longBytes ctx.bits1) =
      .ok (block.map some ++ ((longBytes ctx.bits0 ++ longBytes ctx.bits1).map some ++ [])) :=
    Buffer.writeMany_append _ xs [] (hxs.trans rfl) ((List.length_map _).trans hblock)
  rw [List.append_nil, List.append_nil, ← List.map_append] at hwrite
  rw [hinp, hwrite]
  simp only [bind, Except.bind]
  rw [transform_eq rfl (by rw [List.length_append, hblock]; rfl)]
  rfl

theorem absorb_last {block : Bytes} (s : Words) (hblock : block.length = 64) :
    (absorb compress 64 s block).1 = compress s block := by
  have h := absorb_block compress (by decide) s hblock []
  rw [List.append_nil, absorb_of_lt compress (compress s block) (by decide : ([] : Bytes).length < 64)] at h
  rw [h]

/-- **The end**: the padding is taken in like any data. -/
theorem MD5Final_spec {ctx : MD5_CTX} {m : Bytes} (h : Holds ctx m) : MD5Final ctx = .ok (digest m) := by
  obtain ⟨hbuf, hlength, tail, hinp⟩ := h.taken
  have hpending := length_pending m
  have hlengthBytes := h.lengthBytes_eq
  have habsorb := absorb_append compress (by decide : 0 < 64) initWords m (padding m.length)
  rw [digest, pad, habsorb, padding, ← hlengthBytes]
  simp only [MD5Final, h.count]
  generalize absorb compress 64 initWords m = st at hbuf hinp hpending
  have htail : tail.length = 64 - m.length % 64 := by
    have := congrArg List.length hinp
    rw [hlength, List.length_append, List.length_map, hpending] at this
    omega
  obtain ⟨x, tail, rfl⟩ := List.exists_cons_of_length_pos (by omega : 0 < tail.length)
  rw [List.length_cons] at htail
  have hone : Buffer.write (ε := Empty) ctx.inp (m.length % 64) 0x80 =
      .ok ((st.2 ++ [0x80]).map some ++ tail) := by
    rw [hinp, Buffer.write_append _ x tail _ ((List.length_map _).trans hpending), List.map_append,
      List.append_assoc]
    rfl
  have hoff : ((st.2 ++ [0x80]).map some).length = m.length % 64 + 1 := by
    rw [List.length_map, List.length_append, hpending]
    rfl
  rw [hone]
  simp only [bind, Except.bind]
  by_cases hcount : 64 - 1 - m.length % 64 < 8
  · -- two lots of padding
    have hfirst : (st.2 ++ [0x80] ++ List.replicate (64 - 1 - m.length % 64) 0).length = 64 := by
      simp only [List.length_append, hpending, List.length_replicate, List.length_cons, List.length_nil]
      omega
    have hzero : zeroIn { ctx with inp := (st.2 ++ [0x80]).map some ++ tail } (m.length % 64 + 1)
        (64 - 1 - m.length % 64) = .ok { ctx with inp := (st.2 ++ [0x80]).map some ++
          ((List.replicate (64 - 1 - m.length % 64) 0).map some ++ []) } :=
      zeroIn_eq _ (by rw [List.append_nil]) hoff (by omega : tail.length = 64 - 1 - m.length % 64)
    rw [List.append_nil, ← List.map_append] at hzero
    generalize hblock : st.2 ++ [0x80] ++ List.replicate (64 - 1 - m.length % 64) 0 = block
      at hfirst hzero
    have hhead : zeroIn { ctx with inp := block.map some, buf := compress ctx.buf block } 0 56 =
        .ok { ctx with inp := [] ++ ((List.replicate 56 0).map some ++ (block.map some).drop 56)
                       buf := compress ctx.buf block } :=
      zeroIn_eq _ (by rw [List.nil_append]; exact (List.take_append_drop 56 _).symm) List.length_nil
        (by rw [List.length_take, List.length_map, hfirst]; rfl)
    have hdata : st.2 ++ 0x80 :: (List.replicate ((119 - m.length % 64) % 64) 0 ++
        (longBytes ctx.bits0 ++ longBytes ctx.bits1)) =
        block ++ (List.replicate 56 0 ++ (longBytes ctx.bits0 ++ longBytes ctx.bits1)) := by
      rw [← hblock, show (119 - m.length % 64) % 64 = 64 - 1 - m.length % 64 + 56 by omega,
        List.replicate_add]
      simp only [List.append_assoc, List.cons_append, List.nil_append]
    have hfinish := finish_eq { ctx with
        inp := (List.replicate 56 (0 : UInt8)).map some ++ (block.map some).drop 56
        buf := compress ctx.buf block } rfl List.length_replicate
      (by rw [List.length_drop, List.length_map, hfirst])
    rw [if_pos hcount, hzero]
    simp only
    rw [transform_eq rfl hfirst]
    simp only
    rw [hhead, hdata, absorb_block compress (by decide) _ hfirst, absorb_last _ rfl, ← hbuf]
    exact hfinish
  · -- one lot of padding
    obtain ⟨ys, zs, rfl, hys⟩ : ∃ ys zs, tail = ys ++ zs ∧ ys.length = 64 - 1 - m.length % 64 - 8 :=
      ⟨_, _, (List.take_append_drop (64 - 1 - m.length % 64 - 8) tail).symm,
        by rw [List.length_take]; omega⟩
    rw [List.length_append, hys] at htail
    have hblock : (st.2 ++ [0x80] ++ List.replicate (64 - 1 - m.length % 64 - 8) 0).length = 56 := by
      simp only [List.length_append, hpending, List.length_replicate, List.length_cons, List.length_nil]
      omega
    have hzero : zeroIn { ctx with inp := (st.2 ++ [0x80]).map some ++ (ys ++ zs) } (m.length % 64 + 1)
        (64 - 1 - m.length % 64 - 8) = .ok { ctx with inp :=
          (st.2 ++ [0x80] ++ List.replicate (64 - 1 - m.length % 64 - 8) 0).map some ++ zs } := by
      have hzeros := zeroIn_eq { ctx with inp := (st.2 ++ [0x80]).map some ++ (ys ++ zs) } rfl hoff hys
      rwa [← List.append_assoc (List.map some _) (List.map some _) zs, ← List.map_append] at hzeros
    have hdata : st.2 ++ 0x80 :: (List.replicate ((119 - m.length % 64) % 64) 0 ++
        (longBytes ctx.bits0 ++ longBytes ctx.bits1)) =
        st.2 ++ [0x80] ++ List.replicate (64 - 1 - m.length % 64 - 8) 0 ++
          (longBytes ctx.bits0 ++ longBytes ctx.bits1) := by
      rw [show (119 - m.length % 64) % 64 = 64 - 1 - m.length % 64 - 8 by omega]
      simp only [List.append_assoc, List.cons_append, List.nil_append]
    generalize st.2 ++ [0x80] ++ List.replicate (64 - 1 - m.length % 64 - 8) 0 = block
      at hblock hzero hdata
    have hfinish := finish_eq { ctx with inp := block.map some ++ zs } rfl hblock (by omega)
    rw [if_neg hcount, hzero, hdata, absorb_last _ (by rw [List.length_append, hblock]; rfl), ← hbuf]
    exact hfinish

/-! ## The functions that are called -/

/-- The pieces one after another, and the end. -/
def digestOf (ctx : MD5_CTX) (pieces : List Bytes) : Except (Fault Empty) Bytes := do
  let ctx ← pieces.foldlM (fun ctx data => MD5Update ctx (data.map some) (UInt32.ofNat data.length))
    (MD5Init ctx)
  MD5Final ctx

theorem holds_pieces {ctx : MD5_CTX} {m : Bytes} (h : Holds ctx m) (pieces : List Bytes)
    (hpieces : ∀ data ∈ pieces, data.length < 2 ^ 32) :
    ∃ ctx', pieces.foldlM (m := Except (Fault Empty))
        (fun ctx data => MD5Update ctx (data.map some) (UInt32.ofNat data.length)) ctx = .ok ctx' ∧
      Holds ctx' (m ++ pieces.flatten) := by
  induction pieces generalizing ctx m with
  | nil =>
    refine ⟨ctx, rfl, ?_⟩
    rwa [List.flatten_nil, List.append_nil]
  | cons data pieces ih =>
    have hlen : data.length = (UInt32.ofNat data.length).toNat := by
      rw [UInt32.toNat_ofNat']
      exact (Nat.mod_eq_of_lt (hpieces data List.mem_cons_self)).symm
    obtain ⟨ctx', hstep, h'⟩ := MD5Update_spec h data [] _ hlen
    obtain ⟨ctx'', hrun, h''⟩ := ih h' fun d hd => hpieces d (List.mem_cons_of_mem _ hd)
    rw [List.append_nil] at hstep
    refine ⟨ctx'', ?_, ?_⟩
    · rw [List.foldlM_cons, hstep]
      exact hrun
    · rwa [List.flatten_cons, ← List.append_assoc]

/-- **The digest does not depend on how the data is cut**, nor on what was in the context. No access
leaves the block, and none finds a byte that was not written. -/
theorem digest_of_pieces (ctx : MD5_CTX) (hlength : ctx.inp.length = 64) (pieces : List Bytes)
    (hpieces : ∀ data ∈ pieces, data.length < 2 ^ 32) :
    digestOf ctx pieces = .ok (digest pieces.flatten) := by
  obtain ⟨ctx', hrun, h⟩ := holds_pieces (holds_MD5Init hlength) pieces hpieces
  rw [digestOf, hrun]
  exact MD5Final_spec h

/-- A context that nothing has been written to. -/
def freshContext : MD5_CTX := ⟨initWords, 0, 0, Buffer.alloc 64⟩

theorem digest_of_pieces_abc :
    digestOf freshContext [bytes "ab", bytes "c"] = .ok (digest (bytes "abc")) ∧
      digest (bytes "abc") = [0x90, 0x01, 0x50, 0x98, 0x3c, 0xd2, 0x4f, 0xb0, 0xd6, 0x96, 0x3f, 0x7d, 0x28,
        0xe1, 0x7f, 0x72] := by
  refine ⟨digest_of_pieces freshContext rfl [bytes "ab", bytes "c"] (by decide), ?_⟩
  have hpad : (pad (bytes "abc")).length = 64 := rfl
  rw [digest, ← List.append_nil (pad (bytes "abc")), absorb_block compress (by decide) initWords hpad,
    absorb_of_lt _ _ (by decide)]
  decide +kernel

/-- What is left out of a message of `2 ^ 32` bytes and more is whole multiples of `2 ^ 32`. -/
theorem MD5_16_eq (ctx : MD5_CTX) (hlength : ctx.inp.length = 64) (msg : Bytes) :
    MD5_16 ctx msg = .ok (digest (msg.take (msg.length % 2 ^ 32))) := by
  have hlen : (msg.take (msg.length % 2 ^ 32)).length = (UInt32.ofNat msg.length).toNat := by
    have hle := Nat.mod_le msg.length (2 ^ 32)
    rw [UInt32.toNat_ofNat', List.length_take]
    omega
  have hcells : msg.map some = (msg.take (msg.length % 2 ^ 32)).map some ++
      (msg.drop (msg.length % 2 ^ 32)).map some := by
    rw [← List.map_append, List.take_append_drop]
  obtain ⟨ctx', hstep, h'⟩ := MD5Update_spec (holds_MD5Init hlength) _
    ((msg.drop (msg.length % 2 ^ 32)).map some) _ hlen
  rw [MD5_16, hcells, hstep]
  exact MD5Final_spec h'

theorem length_digest (m : Bytes) : (digest m).length = 16 := rfl

/-- **The text is the digits of the digest**, 32 of them, whatever was on the stack. -/
theorem MD5_32_eq (ctx : MD5_CTX) (hlength : ctx.inp.length = 64) (data : Bytes) :
    MD5_32 ctx data = .ok (BaseTool.hexString (digest (data.take (data.length % 2 ^ 32)))) := by
  have hcells : List.replicate 33 (some (0 : UInt8)) =
      [] ++ (List.replicate 32 (some 0) ++ [some 0]) := rfl
  have hdigits : (List.replicate 32 (some (0 : UInt8))).length =
      (BaseTool.hexString (digest (data.take (data.length % 2 ^ 32)))).length := by
    rw [List.length_replicate, BaseTool.length_hexString, length_digest]
  have hwrite := Buffer.writeMany_append (ε := Empty) [] _ [some 0] hdigits (i := 0) rfl
  have hread : Buffer.readUntil (ε := Empty) (· = 0)
      ((BaseTool.hexString (digest (data.take (data.length % 2 ^ 32)))).map some ++ [some 0]) =
        .ok (BaseTool.hexString (digest (data.take (data.length % 2 ^ 32)))) :=
    Buffer.readUntil_append (fun c hc => decide_eq_false (BaseTool.ne_zero_of_mem_hexString hc))
      (decide_eq_true rfl) []
  simp only [MD5_32, MD5_32To, MD5_16_eq ctx hlength, bind, Except.bind,
    BaseTool.bin2hexTo_eq_writeMany, hcells, hwrite]
  exact hread

theorem Md5_Check_go {pSrc pDst : Bytes} (hsrc : pSrc.length = 16) (hdst : pDst.length = 16)
    (rest rest' : Buffer UInt8) (k i : Nat) (hi : i + k = 16) :
    Md5_Check.go (pSrc.map some ++ rest) (pDst.map some ++ rest') k i =
      .ok (decide (pSrc.drop i = pDst.drop i)) := by
  induction k generalizing i with
  | zero =>
    have hs : pSrc.drop i = [] := List.drop_eq_nil_of_le (by omega)
    have hd : pDst.drop i = [] := List.drop_eq_nil_of_le (by omega)
    rw [hs, hd]
    rfl
  | succ k ih =>
    have his : i < pSrc.length := by omega
    have hid : i < pDst.length := by omega
    have hcons : pSrc.drop i = pDst.drop i ↔ pSrc[i] = pDst[i] ∧ pSrc.drop (i + 1) = pDst.drop (i + 1) := by
      rw [List.drop_eq_getElem_cons his, List.drop_eq_getElem_cons hid, List.cons_eq_cons]
    rw [Md5_Check.go, Buffer.read_written _ _ his, Buffer.read_written _ _ hid]
    simp only [bind, Except.bind, pure, Except.pure, hcons]
    by_cases heq : pSrc[i] = pDst[i]
    · rw [if_neg (not_not.mpr heq), ih (i + 1) (by omega)]
      simp only [heq, true_and]
    · rw [if_pos heq]
      simp only [heq, false_and, decide_false]

/-- **Two digests are compared as a whole**, and nothing behind them. -/
theorem Md5_Check_eq {pSrc pDst : Bytes} (hsrc : pSrc.length = 16) (hdst : pDst.length = 16)
    (rest rest' : Buffer UInt8) :
    Md5_Check (pSrc.map some ++ rest) (pDst.map some ++ rest') = .ok (decide (pSrc = pDst)) :=
  Md5_Check_go hsrc hdst rest rest' 16 0 rfl

end SparkFrame.Tools.Md5
