import SparkFrame.Lib.Buffer
import SparkFrame.Tools.Json

/-!
# Bytes as digits: `libtools/BaseTool`

`bin2hex` writes two hexadecimal digits for each byte. `hex2bin` is there to read them back.

* `bin2hexTo`, `bin2hex` : the writers;
* `hexValue`, `hex2bin` : the reader, with every access it makes;
* `bin2hex_eq` : the digits of the bytes, one after another;
* `hex2bin_map_some`, `hex2bin_reads_string` : **all that is written is the first byte**, and all that is
  read is the string with its zero;
* `writesBack_iff` : the byte strings that are written back.
-/

namespace SparkFrame.Tools.BaseTool

open SparkFrame.Lib

/-! ## The code -/

/-- `hex[nibble]`. -/
def hexChar (nibble : UInt8) : UInt8 := (bytes "0123456789abcdef").getD nibble.toNat 0

/-- The overload that writes to a buffer, here from its cell `i` on. -/
def bin2hexTo : Buffer UInt8 → Nat → Bytes → Except (Fault Empty) (Buffer UInt8)
  | out, _, [] => .ok out
  | out, i, b :: p => do
    let out ← out.write i (hexChar (b >>> 4))
    let out ← out.write (i + 1) (hexChar (b &&& 0x0f))
    bin2hexTo out (i + 2) p

/-- The overload that returns a string: the same loop into a buffer of its own, and a zero. -/
def bin2hex (p : Bytes) : Except (Fault Empty) Bytes := do
  let buf ← bin2hexTo (Buffer.alloc (2 * p.length + 1)) 0 p
  let buf ← buf.write (2 * p.length) 0
  buf.readUntil (· = 0)

/-- `*p > 'a' ? (*p - 'a' + 10) : (*p - '\0')`, where a `char` is signed. -/
def hexValue (c : UInt8) : UInt8 := if 97 < c.toInt8 then c - 97 + 10 else c - 0

/-- `hex2bin`, with the cells from `p` on. The output pointer stays where it is, and `p` moves by one
digit in each round. -/
def hex2bin (out : Buffer UInt8) : Buffer UInt8 → Except (Fault Empty) (Buffer UInt8)
  | [] => .error .out_of_bounds
  | none :: _ => .error .uninitialised
  | some c :: p =>
    if c = 0 then .ok out
    else do
      let out ← out.write 0 (hexValue c)
      let out ← out.write 0 ((← out.read 0) <<< 4)
      let d ← Buffer.read p 0
      let out ← out.write 0 ((← out.read 0) ||| hexValue d)
      hex2bin out p

/-! ## What is written as digits -/

/-- The digits of the bytes, one after another. -/
def hexString (p : Bytes) : Bytes :=
  p.flatMap fun (b : UInt8) => [hexChar (b >>> 4), hexChar (b &&& 0x0f)]

theorem length_hexString (p : Bytes) : (hexString p).length = 2 * p.length := by
  simp [hexString, Nat.mul_comm]

theorem hexChar_ne_zero_of_lt : ∀ n < 16, hexChar (.ofNat n) ≠ 0 := by decide +kernel

theorem high_lt (b : UInt8) : (b >>> 4).toNat < 16 := by
  have hlt := b.toNat_lt
  have hdiv : (b >>> 4).toNat = b.toNat / 16 := by simp [Nat.shiftRight_eq_div_pow]
  omega

theorem low_lt (b : UInt8) : (b &&& 0x0f).toNat < 16 := by
  rw [UInt8.toNat_and]
  exact Nat.and_lt_two_pow (n := 4) _ (by decide)

theorem hexChar_ne_zero {nibble : UInt8} (h : nibble.toNat < 16) : hexChar nibble ≠ 0 := by
  have hne := hexChar_ne_zero_of_lt nibble.toNat h
  rwa [UInt8.ofNat_toNat] at hne

theorem ne_zero_of_mem_hexString {p : Bytes} {c : UInt8} (hc : c ∈ hexString p) : c ≠ 0 := by
  obtain ⟨b, -, hb⟩ := List.mem_flatMap.mp hc
  rcases List.mem_cons.mp hb with rfl | hb
  · exact hexChar_ne_zero (high_lt b)
  · obtain rfl := List.mem_singleton.mp hb
    exact hexChar_ne_zero (low_lt b)

theorem bin2hexTo_eq_writeMany (out : Buffer UInt8) (i : Nat) (p : Bytes) :
    bin2hexTo out i p = out.writeMany i (hexString p) := by
  induction p generalizing out i with
  | nil => rfl
  | cons b p ih =>
    simp only [bin2hexTo, ih]
    rfl

/-- **The string is the digits of the bytes.** -/
theorem bin2hex_eq (p : Bytes) : bin2hex p = .ok (hexString p) := by
  have halloc : Buffer.alloc (2 * p.length + 1) =
      Buffer.alloc (hexString p).length ++ [(none : Option UInt8)] := by
    rw [length_hexString]
    exact List.replicate_succ'
  have hdigits : Buffer.writeMany (ε := Empty) (Buffer.alloc (hexString p).length ++ [none]) 0
      (hexString p) = .ok ((hexString p).map some ++ [none]) :=
    Buffer.writeMany_append [] _ [none] List.length_replicate rfl
  have hzero := Buffer.write_append (ε := Empty) ((hexString p).map some) none [] (0 : UInt8)
    (i := 2 * p.length) (by rw [List.length_map, length_hexString])
  simp only [bin2hex, bin2hexTo_eq_writeMany, halloc, hdigits, bind, Except.bind, hzero]
  exact Buffer.readUntil_append
    (fun c hc => decide_eq_false (ne_zero_of_mem_hexString hc)) (decide_eq_true rfl) []

/-! ## What is read back -/

theorem hex2bin_zero (out cells : Buffer UInt8) : hex2bin out (some 0 :: cells) = .ok out := by
  rw [hex2bin, if_pos rfl]

/-- One round: two digits are read, and `p` stands at the second one afterwards. -/
theorem hex2bin_round {c : UInt8} (hc : c ≠ 0) (x : Option UInt8) (out : Buffer UInt8) (d : UInt8)
    (cells : Buffer UInt8) : hex2bin (x :: out) (some c :: some d :: cells) =
      hex2bin (some ((hexValue c <<< 4) ||| hexValue d) :: out) (some d :: cells) := by
  rw [hex2bin, if_neg hc]
  simp only [Buffer.write_cons_zero, Buffer.read_cons_zero, bind, Except.bind]

/-- **All that is written is the first byte**, in the end from the last digit and the zero. What is
behind the zero does not matter. -/
theorem hex2bin_map_some {s : Bytes} {c : UInt8} (hs : ∀ d ∈ s ++ [c], d ≠ 0) (x : Option UInt8)
    (out cells : Buffer UInt8) : hex2bin (x :: out) ((s ++ [c]).map some ++ some 0 :: cells) =
      .ok (some (hexValue c <<< 4) :: out) := by
  induction s generalizing x with
  | nil =>
    have hlast : (hexValue c <<< 4) ||| hexValue 0 = hexValue c <<< 4 := UInt8.or_zero
    exact (hex2bin_round (hs c List.mem_cons_self) x out 0 cells).trans
      (by rw [hlast, hex2bin_zero])
  | cons d s ih =>
    have hd : d ≠ 0 := hs d List.mem_cons_self
    have hrest := ih fun e he => hs e (List.mem_cons_of_mem d he)
    obtain ⟨e, t, het⟩ : ∃ e t, s ++ [c] = e :: t := List.exists_cons_of_ne_nil (by simp)
    rw [List.cons_append, het, List.map_cons, List.map_cons, List.cons_append, List.cons_append,
      hex2bin_round hd]
    rw [het] at hrest
    exact hrest _

/-- **No character behind the zero is read**, whatever the string is. -/
theorem hex2bin_reads_string {out : Buffer UInt8} (hout : out ≠ []) (s : Bytes) :
    ∃ out', hex2bin out ((s ++ [0]).map some) = .ok out' := by
  obtain ⟨x, out, rfl⟩ := List.exists_cons_of_ne_nil hout
  induction s generalizing x with
  | nil => exact ⟨_, hex2bin_zero _ _⟩
  | cons c s ih =>
    by_cases hc : c = 0
    · exact ⟨_, by rw [hc]; exact hex2bin_zero _ _⟩
    · obtain ⟨d, t, hdt⟩ : ∃ d t, s ++ [0] = d :: t := List.exists_cons_of_ne_nil (by simp)
      have hrest := fun y => ih y (List.cons_ne_nil _ _)
      rw [hdt] at hrest
      rw [List.cons_append, hdt, List.map_cons, List.map_cons, hex2bin_round hc]
      exact hrest _

/-! ## Which byte strings come back -/

/-- `hex2bin(bin2hex(b))` fills the cells from the first one on with exactly `b`, whatever was there,
and leaves the others. The source ends with the zero, so it is not read beyond it. -/
def WritesBack (b : Bytes) : Prop :=
  ∀ out : Buffer UInt8, b.length ≤ out.length →
    (do let s ← bin2hex b; hex2bin out ((s ++ [0]).map some)) = .ok (b.map some ++ out.drop b.length)

/-- What the last byte becomes. -/
def lastNibble (c : UInt8) : UInt8 := hexValue (hexChar (c &&& 0x0f)) <<< 4

theorem lastNibble_eq_self_of_lt : ∀ n < 256, lastNibble (.ofNat n) = .ofNat n ↔ UInt8.ofNat n = 0 := by
  decide +kernel

/-- Where the last nibble stands in the byte that is written, it stood in the other half before. -/
theorem lastNibble_eq_self {c : UInt8} : lastNibble c = c ↔ c = 0 := by
  have hiff := lastNibble_eq_self_of_lt c.toNat c.toNat_lt
  rwa [UInt8.ofNat_toNat] at hiff

theorem hex2bin_bin2hex_nil (out : Buffer UInt8) :
    (do let s ← bin2hex []; hex2bin out ((s ++ [0]).map some)) = .ok out := by
  rw [bin2hex_eq]
  exact hex2bin_zero out []

theorem hex2bin_bin2hex (b : Bytes) (c : UInt8) (x : Option UInt8) (out : Buffer UInt8) :
    (do let s ← bin2hex (b ++ [c]); hex2bin (x :: out) ((s ++ [0]).map some)) =
      .ok (some (lastNibble c) :: out) := by
  have hsplit : hexString (b ++ [c]) =
      (hexString b ++ [hexChar (c >>> 4)]) ++ [hexChar (c &&& 0x0f)] := by
    simp [hexString]
  have hdigits : ∀ d ∈ hexString (b ++ [c]), d ≠ 0 := fun d hd => ne_zero_of_mem_hexString hd
  have hread := hex2bin_map_some (hsplit ▸ hdigits) x out []
  rw [bin2hex_eq]
  simp only [bind, Except.bind]
  rw [List.map_append, hsplit]
  exact hread

/-- **`hex2bin` reads back what `bin2hex` has written only where there is nothing to read, or a zero.** -/
theorem writesBack_iff (b : Bytes) : WritesBack b ↔ b = [] ∨ b = [0] := by
  constructor
  · intro h
    rcases List.eq_nil_or_concat' b with rfl | ⟨b, c, rfl⟩
    · exact Or.inl rfl
    · have hfresh := h (List.replicate (b.length + 1) none) (by simp)
      rw [List.replicate_succ, hex2bin_bin2hex] at hfresh
      have hcells := Except.ok.inj hfresh
      cases b with
      | nil =>
        have hc : lastNibble c = c := by simpa using hcells
        exact Or.inr (by rw [lastNibble_eq_self.mp hc]; rfl)
      | cons d b =>
        have htail : none :: List.replicate b.length none = (b ++ [c]).map some := by
          simpa [List.replicate_succ] using (List.cons.inj hcells).2
        have hnone : none ∈ (b ++ [c]).map some := htail ▸ List.mem_cons_self
        exact absurd hnone (by simp)
  · rintro (rfl | rfl) out hout
    · exact hex2bin_bin2hex_nil out
    · obtain ⟨x, out, rfl⟩ := List.exists_cons_of_length_pos (Nat.lt_of_succ_le hout)
      have hlast : lastNibble 0 = 0 := lastNibble_eq_self.mpr rfl
      have hback := hex2bin_bin2hex [] 0 x out
      rw [hlast] at hback
      exact hback

/-- One byte: the first digit is lost, and the second one is in the place of the first. -/
theorem not_writesBack : ¬ ∀ b, WritesBack b := by
  intro h
  have hback := h [0xAB] [none] (Nat.le_refl 1)
  have hwritten := hex2bin_bin2hex [] 0xAB none []
  have heq : some (lastNibble 0xAB) = some 0xAB :=
    List.head_eq_of_cons_eq (Except.ok.inj (hwritten.symm.trans hback))
  exact absurd heq (by decide +kernel)

end SparkFrame.Tools.BaseTool
