import Mathlib.Tactic.IntervalCases
import SparkFrame.Lib.Buffer
import SparkFrame.Lib.Reindex
import SparkFrame.Tools.Json

/-!
# The simple cipher of `libtools/BaseTool`

`SimpLeSiftencode` copies the first `shiftBit` bytes and the last `shiftBit` bytes over each other, and
rotates the first byte and the last one. `SimpLeSiftdecode` rotates back and copies again.

* `exchangeLoop` : the loop of both; `exchangeLoop_eq` : it reads every byte from the unchanged copy;
* `SimpLeSiftencode_eq`, `SimpLeSiftdecode_eq` : the two functions on a text with any buffer behind it;
* `SimpLeSift_roundTrip` : the rotations cancel, also on a single byte, and **the copies are made twice**;
* `SimpLeSift_roundTrip_iff` : the texts that come back.
-/

namespace SparkFrame.Tools.SimpLeSift

open SparkFrame.Lib

/-! ## The code -/

def TEMP_BUF_SIZE : Nat := 1024 * 128

def SimpleEncShift (srcByte : UInt8) : UInt8 := (srcByte >>> 6) ||| (srcByte <<< 2)

def SimpleDecShift (srcByte : UInt8) : UInt8 := (srcByte <<< 6) ||| (srcByte >>> 2)

/-- `buf[i]`. The index is an `int`. -/
def readAt (buf : Buffer UInt8) : Int → Except (Fault Empty) UInt8
  | .ofNat i => buf.read i
  | .negSucc _ => .error .out_of_bounds

/-- `buf[i] = c`. -/
def writeAt (buf : Buffer UInt8) : Int → UInt8 → Except (Fault Empty) (Buffer UInt8)
  | .ofNat i, c => buf.write i c
  | .negSucc _, _ => .error .out_of_bounds

/-- A negative number of bytes is a very large one. -/
def memcpy (des src : Buffer UInt8) : Int → Except (Fault Empty) (Buffer UInt8)
  | .ofNat n => des.copy src n
  | .negSucc _ => .error .out_of_bounds

/-- `des[i] = shift(des[i])`. -/
def shiftAt (shift : UInt8 → UInt8) (des : Buffer UInt8) (i : Int) :
    Except (Fault Empty) (Buffer UInt8) := do
  let c ← readAt des i
  writeAt des i (shift c)

/-- The first `m` rounds of `des[i + shift] = src[i]; des[i] = src[i + shift];`. -/
def exchangeLoop (src : Buffer UInt8) (shift : Int) : Nat → Buffer UInt8 →
    Except (Fault Empty) (Buffer UInt8)
  | 0, des => .ok des
  | i + 1, des => do
    let des ← exchangeLoop src shift i des
    let des ← writeAt des (i + shift) (← readAt src i)
    writeAt des i (← readAt src (i + shift))

def SimpLeSiftencode (src : Buffer UInt8) (srcLen shiftBit : Int) (des : Buffer UInt8) :
    Except (Fault Empty) (Buffer UInt8) := do
  let des ← memcpy des src srcLen
  let rightShift := srcLen - shiftBit
  let des ← exchangeLoop src rightShift shiftBit.toNat des
  let des ← shiftAt SimpleEncShift des 0
  shiftAt SimpleEncShift des (srcLen - 1)

def SimpLeSiftdecode (src : Buffer UInt8) (srcLen shiftBit : Int) (des : Buffer UInt8) :
    Except (Fault Empty) (Buffer UInt8) := do
  let tempBuf : Buffer UInt8 := List.replicate TEMP_BUF_SIZE (some 0)
  let tempBuf ← memcpy tempBuf src srcLen
  let tempBuf ← shiftAt SimpleDecShift tempBuf 0
  let tempBuf ← shiftAt SimpleDecShift tempBuf (srcLen - 1)
  let des ← memcpy des tempBuf srcLen
  let leftShift := srcLen - shiftBit
  exchangeLoop tempBuf leftShift shiftBit.toNat des

/-! ## Accesses inside a text -/

theorem SimpleDecShift_SimpleEncShift (c : UInt8) : SimpleDecShift (SimpleEncShift c) = c := by
  apply UInt8.toBitVec_inj.1
  ext i hi
  interval_cases i <;> simp [SimpleDecShift, SimpleEncShift]

theorem readAt_written (s : Bytes) (rest : Buffer UInt8) {i : Nat} (h : i < s.length) :
    readAt (s.map some ++ rest) i = .ok s[i] := Buffer.read_written s rest h

theorem writeAt_written (s : Bytes) (rest : Buffer UInt8) {i : Nat} (h : i < s.length) (c : UInt8) :
    writeAt (s.map some ++ rest) i c = .ok ((s.set i c).map some ++ rest) :=
  Buffer.write_written s rest h c

theorem memcpy_eq (des : Buffer UInt8) (s : Bytes) (hdes : s.length ≤ des.length) (rest : Buffer UInt8) :
    memcpy des (s.map some ++ rest) s.length = .ok (s.map some ++ des.drop s.length) :=
  Buffer.copy_eq hdes (List.length_map some) rest

theorem shiftAt_eq (shift : UInt8 → UInt8) (s : Bytes) (rest : Buffer UInt8) {i : Nat}
    (h : i < s.length) :
    shiftAt shift (s.map some ++ rest) i = .ok ((s.modify i shift).map some ++ rest) := by
  simp only [shiftAt, readAt_written s rest h, writeAt_written s rest h, bind, Except.bind]
  rw [List.modify_eq_set, List.getElem?_eq_getElem h]
  rfl

theorem exchangeLoop_eq (s : Bytes) {m r : Nat} (h : m + r ≤ s.length) (rest rest' : Buffer UInt8) :
    exchangeLoop (s.map some ++ rest) r m (s.map some ++ rest') =
      .ok ((reindex (partner m r) s).map some ++ rest') := by
  induction m with
  | zero => rw [exchangeLoop, reindex_partner_zero]
  | succ m ih =>
    have hlt : m + r < s.length := by omega
    have hfirst : m + r < (reindex (partner m r) s).length := by rwa [length_reindex]
    have hsecond : m < ((reindex (partner m r) s).set (m + r) s[m]).length := by
      rw [List.length_set, length_reindex]
      omega
    simp only [exchangeLoop, ih (by omega), bind, Except.bind, readAt_written s rest (by omega : m < s.length),
      ← Nat.cast_add, writeAt_written _ rest' hfirst, readAt_written s rest hlt,
      writeAt_written _ rest' hsecond, reindex_partner_succ hlt]

/-! ## The two functions -/

/-- The first byte and the last one are rotated, which may be the same one. -/
def shiftEnds (shift : UInt8 → UInt8) (s : Bytes) : Bytes :=
  (s.modify 0 shift).modify (s.length - 1) shift

/-- The first `shiftBit` bytes and the last `shiftBit` bytes have been copied over each other. -/
def exchanged (shiftBit : Nat) (s : Bytes) : Bytes :=
  reindex (partner shiftBit (s.length - shiftBit)) s

@[simp] theorem length_shiftEnds (shift : UInt8 → UInt8) (s : Bytes) :
    (shiftEnds shift s).length = s.length := by simp [shiftEnds]

@[simp] theorem length_exchanged (shiftBit : Nat) (s : Bytes) :
    (exchanged shiftBit s).length = s.length := length_reindex _ s

theorem shiftAt_first (shift : UInt8 → UInt8) {s : Bytes} (hs : 1 ≤ s.length) (rest : Buffer UInt8) :
    shiftAt shift (s.map some ++ rest) 0 = .ok ((s.modify 0 shift).map some ++ rest) :=
  shiftAt_eq shift s rest (i := 0) hs

theorem shiftAt_last (shift : UInt8 → UInt8) {s : Bytes} (hs : 1 ≤ s.length) (rest : Buffer UInt8) :
    shiftAt shift ((s.modify 0 shift).map some ++ rest) (s.length - 1) =
      .ok ((shiftEnds shift s).map some ++ rest) := by
  have hlast := shiftAt_eq shift (s.modify 0 shift) rest (i := s.length - 1)
    (by rw [List.length_modify]; omega)
  rwa [Nat.cast_sub hs] at hlast

theorem exchangeLoop_exchanged (s : Bytes) (shiftBit : Nat) (hk : shiftBit ≤ s.length)
    (rest rest' : Buffer UInt8) :
    exchangeLoop (s.map some ++ rest) (s.length - shiftBit) (shiftBit : Int).toNat (s.map some ++ rest') =
      .ok ((exchanged shiftBit s).map some ++ rest') := by
  have hloop := exchangeLoop_eq s (m := shiftBit) (r := s.length - shiftBit) (by omega) rest rest'
  rw [Nat.cast_sub hk] at hloop
  exact hloop

theorem SimpLeSiftencode_eq (s : Bytes) (hs : 1 ≤ s.length) (shiftBit : Nat) (hk : shiftBit ≤ s.length)
    (rest des : Buffer UInt8) (hdes : s.length ≤ des.length) :
    SimpLeSiftencode (s.map some ++ rest) s.length shiftBit des =
      .ok ((shiftEnds SimpleEncShift (exchanged shiftBit s)).map some ++ des.drop s.length) := by
  have hx : 1 ≤ (exchanged shiftBit s).length := by rwa [length_exchanged]
  have hlast := shiftAt_last SimpleEncShift hx (des.drop s.length)
  rw [length_exchanged] at hlast
  simp only [SimpLeSiftencode, memcpy_eq des s hdes rest, exchangeLoop_exchanged s shiftBit hk rest,
    shiftAt_first SimpleEncShift hx, hlast, bind, Except.bind]

theorem SimpLeSiftdecode_eq (s : Bytes) (hs : 1 ≤ s.length) (htemp : s.length ≤ TEMP_BUF_SIZE)
    (shiftBit : Nat) (hk : shiftBit ≤ s.length) (rest des : Buffer UInt8)
    (hdes : s.length ≤ des.length) :
    SimpLeSiftdecode (s.map some ++ rest) s.length shiftBit des =
      .ok ((exchanged shiftBit (shiftEnds SimpleDecShift s)).map some ++ des.drop s.length) := by
  have hcopy := memcpy_eq (List.replicate TEMP_BUF_SIZE (some 0)) s
    (by rwa [List.length_replicate]) rest
  generalize hbehind : (List.replicate TEMP_BUF_SIZE (some (0 : UInt8))).drop s.length = behind at hcopy
  have hback := memcpy_eq des (shiftEnds SimpleDecShift s) (by rwa [length_shiftEnds]) behind
  have hloop := exchangeLoop_exchanged (shiftEnds SimpleDecShift s) shiftBit (by rwa [length_shiftEnds]) behind (des.drop s.length)
  rw [length_shiftEnds] at hback hloop
  simp only [SimpLeSiftdecode, hcopy, shiftAt_first SimpleDecShift hs, shiftAt_last SimpleDecShift hs,
    hback, hloop, bind, Except.bind]

theorem shiftEnds_cancel (s : Bytes) : shiftEnds SimpleDecShift (shiftEnds SimpleEncShift s) = s := by
  rw [shiftEnds, length_shiftEnds]
  exact modify_modify_cancel SimpleDecShift_SimpleEncShift 0 (s.length - 1) s

/-! ## Which texts come back -/

/-- **Encoding and decoding copy twice.** The buffers are as long as the text at least. -/
theorem SimpLeSift_roundTrip (src : Bytes) (k : Nat) (code des : Buffer UInt8) (hn : 1 ≤ src.length)
    (hn' : src.length ≤ TEMP_BUF_SIZE) (hk : k ≤ src.length) (hcode : src.length ≤ code.length)
    (hdes : src.length ≤ des.length) :
    (do let code ← SimpLeSiftencode (src.map some) src.length k code
        SimpLeSiftdecode code src.length k des) =
      .ok ((exchanged k (exchanged k src)).map some ++ des.drop src.length) := by
  have henc := SimpLeSiftencode_eq src hn k hk [] code hcode
  rw [List.append_nil] at henc
  have hlen : (shiftEnds SimpleEncShift (exchanged k src)).length = src.length := by simp
  have hdec := SimpLeSiftdecode_eq (shiftEnds SimpleEncShift (exchanged k src)) (by rwa [hlen])
    (by rwa [hlen]) k (by rwa [hlen]) (code.drop src.length) des (by rwa [hlen])
  rw [hlen, shiftEnds_cancel] at hdec
  simp only [henc, bind, Except.bind]
  exact hdec

/-- **A text comes back exactly where it repeats itself in the overlap of its two parts.** Without an
overlap, and where the two parts are the whole text, it always does. -/
theorem SimpLeSift_roundTrip_iff (src : Bytes) (k : Nat) (code des : Buffer UInt8) (hn : 1 ≤ src.length)
    (hn' : src.length ≤ TEMP_BUF_SIZE) (hk : k ≤ src.length) (hcode : src.length ≤ code.length)
    (hdes : src.length ≤ des.length) :
    (do let code ← SimpLeSiftencode (src.map some) src.length k code
        SimpLeSiftdecode code src.length k des) = .ok (src.map some ++ des.drop src.length) ↔
      ∀ j, j + 2 * (src.length - k) < src.length → src[j + 2 * (src.length - k)]? = src[j]? := by
  rw [SimpLeSift_roundTrip src k code des hn hn' hk hcode hdes, Except.ok.injEq, List.append_left_inj,
    List.map_inj_right fun _ _ => Option.some.inj, exchanged, length_exchanged]
  exact reindex_partner_twice_iff (by omega)

/-- Two of three bytes, with a text that repeats itself. -/
theorem SimpLeSift_roundTrip_iff_three :
    (do let code ← SimpLeSiftencode ([1, 2, 1].map some) 3 2 (Buffer.alloc 3)
        SimpLeSiftdecode code 3 2 (Buffer.alloc 3)) = .ok (([1, 2, 1] : Bytes).map some) :=
  (SimpLeSift_roundTrip_iff [1, 2, 1] 2 (Buffer.alloc 3) (Buffer.alloc 3) (by decide) (by decide)
    (by decide) (by decide) (by decide)).mpr fun j hj => by
      obtain rfl : j = 0 := by
        have : j + 2 * 1 < 3 := hj
        omega
      rfl

/-- Two of three bytes: the first one is lost. -/
theorem SimpLeSift_not_roundTrip :
    ¬ ∀ (src : Bytes) (k : Nat) (code des : Buffer UInt8), 1 ≤ src.length →
      src.length ≤ TEMP_BUF_SIZE → k ≤ src.length → src.length ≤ code.length →
      src.length ≤ des.length →
      (do let code ← SimpLeSiftencode (src.map some) src.length k code
          SimpLeSiftdecode code src.length k des) = .ok (src.map some ++ des.drop src.length) := by
  intro h
  have hback := h [1, 2, 3] 2 (Buffer.alloc 3) (Buffer.alloc 3) (by decide) (by decide) (by decide)
    (by decide) (by decide)
  rw [SimpLeSift_roundTrip _ _ _ _ (by decide) (by decide) (by decide) (by decide) (by decide)] at hback
  exact absurd (Except.ok.inj hback) (by decide)

end SparkFrame.Tools.SimpLeSift
