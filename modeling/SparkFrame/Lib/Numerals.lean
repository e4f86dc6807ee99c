import Mathlib.Data.Nat.Digits.Lemmas

/-!
# Numerals one behind the other

* `numeral`, `width` : the digits of a number, the first one the highest, and how many there are;
* `length_flatMap_numeral` : the length of a row of numerals;
* `eq_of_widths` : numerals can be read back from a row when their widths are known;
* `ones`, `flatMap_numeral_ones` : rows of ones, which can be cut at any widths.
-/

namespace SparkFrame.Lib

variable {b : ℕ}

/-- The digits of a number in base `b`, the highest first; zero has one. -/
def numeral (b n : ℕ) : List ℕ := if n = 0 then [0] else (Nat.digits b n).reverse

/-- The number of digits. -/
def width (b n : ℕ) : ℕ := Nat.log b n + 1

theorem length_numeral (hb : 1 < b) (n : ℕ) : (numeral b n).length = width b n := by
  rw [numeral, width]
  by_cases h : n = 0
  · rw [if_pos h, h, Nat.log_zero_right]
    rfl
  · rw [if_neg h, List.length_reverse, Nat.length_digits b n hb h]

theorem ofDigits_numeral (b n : ℕ) : Nat.ofDigits b (numeral b n).reverse = n := by
  rw [numeral]
  by_cases h : n = 0
  · rw [if_pos h, h]
    rfl
  · rw [if_neg h, List.reverse_reverse, Nat.ofDigits_digits]

theorem lt_of_mem_numeral (hb : 1 < b) {n d : ℕ} (h : d ∈ numeral b n) : d < b := by
  rw [numeral] at h
  split at h
  · rw [List.mem_singleton.mp h]
    omega
  · exact Nat.digits_lt_base hb (List.mem_reverse.mp h)

theorem numeral_injective (b : ℕ) : Function.Injective (numeral b) := by
  intro m n h
  rw [← ofDigits_numeral b m, h, ofDigits_numeral]

theorem width_pos (b n : ℕ) : 0 < width b n := Nat.succ_pos _

theorem width_le {n k : ℕ} (hk : k ≠ 0) (h : n < b ^ k) : width b n ≤ k := Nat.log_lt_of_lt_pow' hk h

/-! ## Rows -/

theorem length_flatMap_numeral (hb : 1 < b) (ns : List ℕ) :
    (ns.flatMap (numeral b)).length = (ns.map (width b)).sum := by
  rw [List.length_flatMap]
  congr 1
  exact List.map_congr_left fun n _ => length_numeral hb n

theorem eq_of_widths (hb : 1 < b) {ms ns : List ℕ} (hw : ms.map (width b) = ns.map (width b))
    (h : ms.flatMap (numeral b) = ns.flatMap (numeral b)) : ms = ns := by
  induction ms generalizing ns with
  | nil =>
    rw [List.map_nil] at hw
    exact (List.map_eq_nil_iff.mp hw.symm).symm
  | cons m ms ih =>
    rcases ns with _ | ⟨n, ns⟩
    · cases hw
    · obtain ⟨hwidth, hw⟩ := List.cons.inj hw
      rw [List.flatMap_cons, List.flatMap_cons] at h
      have hlen : (numeral b m).length = (numeral b n).length := by
        rw [length_numeral hb, length_numeral hb, hwidth]
      obtain ⟨hm, hms⟩ := List.append_inj h hlen
      rw [numeral_injective b hm, ih hw hms]

/-! ## Rows of ones -/

/-- The number whose digits are so many ones. -/
def ones (b w : ℕ) : ℕ := Nat.ofDigits b (List.replicate w 1)

theorem ones_lt (hb : 1 < b) (w : ℕ) : ones b w < b ^ w := by
  have h := Nat.ofDigits_lt_base_pow_length (b := b) (l := List.replicate w 1) hb fun d hd => by
    rwa [List.eq_of_mem_replicate hd]
  rwa [List.length_replicate] at h

theorem numeral_ones (hb : 1 < b) {w : ℕ} (hw : 0 < w) : numeral b (ones b w) = List.replicate w 1 := by
  have hdigits : Nat.digits b (ones b w) = List.replicate w 1 := by
    apply Nat.digits_ofDigits b hb
    · intro d hd
      rwa [List.eq_of_mem_replicate hd]
    · intro hne
      rw [List.getLast_replicate]
      exact Nat.one_ne_zero
  have hne : ones b w ≠ 0 := by
    intro h
    rw [h, Nat.digits_zero] at hdigits
    exact absurd (congrArg List.length hdigits) (by simp; omega)
  rw [numeral, if_neg hne, hdigits, List.reverse_replicate]

theorem width_ones (hb : 1 < b) {w : ℕ} (hw : 0 < w) : width b (ones b w) = w := by
  rw [← length_numeral hb, numeral_ones hb hw, List.length_replicate]

/-- **A row of ones** does not say where it is to be cut. -/
theorem flatMap_numeral_ones (hb : 1 < b) {ws : List ℕ} (hws : ∀ w ∈ ws, 0 < w) :
    (ws.map (ones b)).flatMap (numeral b) = List.replicate ws.sum 1 := by
  induction ws with
  | nil => rfl
  | cons w ws ih =>
    rw [List.forall_mem_cons] at hws
    rw [List.map_cons, List.flatMap_cons, numeral_ones hb hws.1, ih hws.2, List.sum_cons,
      List.replicate_append_replicate]

end SparkFrame.Lib
