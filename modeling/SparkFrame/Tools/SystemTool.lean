import SparkFrame.Lib.Numerals
import SparkFrame.Tools.Json

/-!
# Object ids

A guest's account is named after the time, the address, the process and a sequence number, each
written in as many hexadecimal digits as it has.

* `get_object_id`, `generate_account` : the name, and the account the login server makes of it;
* `widths` : how many digits the parts have; `eq_of_get_object_id` : a name can be cut at known widths;
* `ofOnes`, `get_object_id_ofOnes` : names that consist of ones;
* `get_object_id_ne_iff` : **different sources of two widths have different names exactly when the widths
  are the same or have different sums**; `get_object_id_shared` : two processes of one host in one second;
* `generate_account_inj` : the guests of one host.
-/

namespace SparkFrame.Tools

open SparkFrame.Lib

/-- The seconds of the steady clock, and the arguments of `get_object_id`. -/
structure ObjectSource where
  seconds : BitVec 64
  int_ip : BitVec 32
  pid : BitVec 32
  seq : BitVec 32
deriving DecidableEq, Repr

/-- The digit characters of `std::hex`. -/
def hexDigit (d : ℕ) : UInt8 := .ofNat (if d < 10 then 48 + d else 87 + d)

/-- `ss << std::hex << n`: negative numbers in two's complement, no zeros in front. -/
def hex {w : ℕ} (n : BitVec w) : Bytes := (numeral 16 n.toNat).map hexDigit

namespace SystemTool

def get_object_id (x : ObjectSource) : Bytes := hex x.seconds ++ hex x.int_ip ++ hex x.pid ++ hex x.seq

end SystemTool

/-- `LoginModule::generate_account`: the account, and `m_seq` after it. -/
def generate_account (seconds : BitVec 64) (m_local_ip pid : BitVec 32) (m_seq : BitVec 16) :
    Bytes × BitVec 16 :=
  (SystemTool.get_object_id ⟨seconds, m_local_ip, pid, m_seq.setWidth 32⟩, m_seq + 1)

/-! ## The digits of a name -/

/-- The value of a digit character. -/
def hexValue (c : UInt8) : ℕ := if c.toNat < 58 then c.toNat - 48 else c.toNat - 87

theorem hexValue_hexDigit : ∀ d < 16, hexValue (hexDigit d) = d := by decide

theorem map_hexDigit_inj {xs ys : List ℕ} (hx : ∀ d ∈ xs, d < 16) (hy : ∀ d ∈ ys, d < 16) :
    xs.map hexDigit = ys.map hexDigit ↔ xs = ys := by
  have hread : ∀ {zs : List ℕ}, (∀ d ∈ zs, d < 16) → (zs.map hexDigit).map hexValue = zs := by
    intro zs hz
    rw [List.map_map]
    exact (List.map_congr_left fun d hd => hexValue_hexDigit d (hz d hd)).trans (List.map_id zs)
  constructor
  · intro h
    rw [← hread hx, h, hread hy]
  · rintro rfl
    rfl

namespace ObjectSource

/-- The numbers in the name, in its order. -/
def numbers (x : ObjectSource) : List ℕ :=
  [x.seconds.toNat, x.int_ip.toNat, x.pid.toNat, x.seq.toNat]

theorem numbers_injective : Function.Injective numbers := by
  rintro ⟨t, ip, pid, seq⟩ ⟨t', ip', pid', seq'⟩ h
  simp only [numbers, List.cons.injEq, and_true] at h
  obtain ⟨ht, hip, hpid, hseq⟩ := h
  rw [BitVec.eq_of_toNat_eq ht, BitVec.eq_of_toNat_eq hip, BitVec.eq_of_toNat_eq hpid,
    BitVec.eq_of_toNat_eq hseq]

end ObjectSource

/-- How many digits they have. -/
def ObjectSource.widths (x : ObjectSource) : List ℕ := x.numbers.map (width 16)

variable {x y : ObjectSource}

theorem get_object_id_eq (x : ObjectSource) :
    SystemTool.get_object_id x = (x.numbers.flatMap (numeral 16)).map hexDigit := by
  simp [SystemTool.get_object_id, ObjectSource.numbers, hex]

theorem flatMap_numeral_of_get_object_id (h : SystemTool.get_object_id x = SystemTool.get_object_id y) :
    x.numbers.flatMap (numeral 16) = y.numbers.flatMap (numeral 16) := by
  have hdigits : ∀ x : ObjectSource, ∀ d ∈ x.numbers.flatMap (numeral 16), d < 16 := by
    intro x d hd
    obtain ⟨n, -, hd⟩ := List.mem_flatMap.mp hd
    exact lt_of_mem_numeral (by decide) hd
  rw [get_object_id_eq, get_object_id_eq] at h
  exact (map_hexDigit_inj (hdigits x) (hdigits y)).mp h

/-! ## Names that can be read -/

/-- **A name** can be cut when the widths of its parts are known. -/
theorem eq_of_get_object_id (hwidths : x.widths = y.widths)
    (h : SystemTool.get_object_id x = SystemTool.get_object_id y) : x = y := by
  apply ObjectSource.numbers_injective
  exact eq_of_widths (by decide) hwidths (flatMap_numeral_of_get_object_id h)

theorem sum_widths_of_get_object_id (h : SystemTool.get_object_id x = SystemTool.get_object_id y) :
    x.widths.sum = y.widths.sum := by
  have hlength := congrArg List.length (flatMap_numeral_of_get_object_id h)
  rwa [length_flatMap_numeral (by decide), length_flatMap_numeral (by decide)] at hlength

/-! ## Names that cannot -/

theorem toNat_ofNat_ones {w k n : ℕ} (hk : 16 ^ k = 2 ^ n) (hw : w ≤ k) :
    (BitVec.ofNat n (ones 16 w)).toNat = ones 16 w := by
  rw [BitVec.toNat_ofNat]
  apply Nat.mod_eq_of_lt
  calc ones 16 w < 16 ^ w := ones_lt (by decide) w
    _ ≤ 16 ^ k := Nat.pow_le_pow_right (by decide) hw
    _ = 2 ^ n := hk

theorem width_toNat_le {n k : ℕ} (hk : 16 ^ k = 2 ^ n) (hpos : k ≠ 0) (v : BitVec n) :
    width 16 v.toNat ≤ k := by
  apply width_le hpos
  rw [hk]
  exact v.isLt

/-- The source of the same widths whose digits are ones. -/
def ObjectSource.ofOnes (x : ObjectSource) : ObjectSource where
  seconds := .ofNat 64 (ones 16 (width 16 x.seconds.toNat))
  int_ip := .ofNat 32 (ones 16 (width 16 x.int_ip.toNat))
  pid := .ofNat 32 (ones 16 (width 16 x.pid.toNat))
  seq := .ofNat 32 (ones 16 (width 16 x.seq.toNat))

theorem numbers_ofOnes (x : ObjectSource) : x.ofOnes.numbers = x.widths.map (ones 16) := by
  have hlong := toNat_ofNat_ones (k := 16) (n := 64) rfl (width_toNat_le rfl (by decide) x.seconds)
  have hshort := fun v : BitVec 32 =>
    toNat_ofNat_ones (k := 8) (n := 32) rfl (width_toNat_le rfl (by decide) v)
  simp only [ObjectSource.numbers, ObjectSource.ofOnes, ObjectSource.widths, List.map_cons, List.map_nil,
    hlong, hshort]

theorem widths_pos (x : ObjectSource) : ∀ w ∈ x.widths, 0 < w := by
  intro w hw
  obtain ⟨n, -, rfl⟩ := List.mem_map.mp hw
  exact width_pos 16 n

theorem widths_ofOnes (x : ObjectSource) : x.ofOnes.widths = x.widths := by
  rw [ObjectSource.widths, numbers_ofOnes, List.map_map]
  exact (List.map_congr_left fun w hw => width_ones (by decide) (widths_pos x w hw)).trans (List.map_id _)

/-- **Ones** can be cut anywhere. -/
theorem get_object_id_ofOnes (h : x.widths.sum = y.widths.sum) :
    SystemTool.get_object_id x.ofOnes = SystemTool.get_object_id y.ofOnes := by
  rw [get_object_id_eq, get_object_id_eq, numbers_ofOnes, numbers_ofOnes,
    flatMap_numeral_ones (by decide) (widths_pos x), flatMap_numeral_ones (by decide) (widths_pos y), h]

/-- **Different sources have different names** for two choices of widths exactly when the widths are the
same or do not have the same sum. -/
theorem get_object_id_ne_iff (x y : ObjectSource) :
    (∀ x' y' : ObjectSource, x'.widths = x.widths → y'.widths = y.widths → x' ≠ y' →
      SystemTool.get_object_id x' ≠ SystemTool.get_object_id y') ↔
    (x.widths = y.widths ∨ x.widths.sum ≠ y.widths.sum) := by
  constructor
  · intro h
    by_contra hnot
    rw [not_or, not_not] at hnot
    refine h x.ofOnes y.ofOnes (widths_ofOnes x) (widths_ofOnes y) (fun heq => hnot.1 ?_)
      (get_object_id_ofOnes hnot.2)
    rw [← widths_ofOnes x, heq, widths_ofOnes]
  · rintro h x' y' hx hy hne hname
    rw [← hx, ← hy] at h
    rcases h with hsame | hsum
    · exact hne (eq_of_get_object_id hsame hname)
    · exact hsum (sum_widths_of_get_object_id hname)

/-- One host and one second: the first process' seventeenth guest, the seventeenth's first. -/
theorem get_object_id_shared :
    ¬ ∀ x y : ObjectSource, x ≠ y → SystemTool.get_object_id x ≠ SystemTool.get_object_id y := by
  intro h
  exact h ⟨5, 0xc0a80101, 0x1, 0x11⟩ ⟨5, 0xc0a80101, 0x11, 0x1⟩ (by decide) (by decide)

/-- **Guests of one host** share an account only within a second, a process and a sequence number,
as long as the processes and the sequence numbers have as many digits. -/
theorem generate_account_inj {seconds seconds' : BitVec 64} {m_local_ip pid pid' : BitVec 32}
    {m_seq m_seq' : BitVec 16} (hpid : width 16 pid.toNat = width 16 pid'.toNat)
    (hseq : width 16 m_seq.toNat = width 16 m_seq'.toNat)
    (h : (generate_account seconds m_local_ip pid m_seq).1 =
      (generate_account seconds' m_local_ip pid' m_seq').1) :
    seconds = seconds' ∧ pid = pid' ∧ m_seq = m_seq' := by
  have hlong : ∀ n : BitVec 16, (n.setWidth 32).toNat = n.toNat := fun n =>
    BitVec.toNat_setWidth_of_le (by decide)
  have hsum := sum_widths_of_get_object_id h
  simp only [ObjectSource.widths, ObjectSource.numbers, List.map_cons, List.map_nil, List.sum_cons,
    List.sum_nil, hlong, hpid, hseq] at hsum
  have hseconds : width 16 seconds.toNat = width 16 seconds'.toNat := by omega
  have hsame := eq_of_get_object_id (by
    simp only [ObjectSource.widths, ObjectSource.numbers, List.map_cons, List.map_nil, hlong, hpid, hseq,
      hseconds]) h
  obtain ⟨hseconds, -, hpid, hseq⟩ := ObjectSource.mk.inj hsame
  refine ⟨hseconds, hpid, BitVec.eq_of_toNat_eq ?_⟩
  rw [← hlong m_seq, hseq, hlong]

end SparkFrame.Tools
