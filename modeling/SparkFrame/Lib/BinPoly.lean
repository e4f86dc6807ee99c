import Mathlib.Algebra.Ring.Defs
import Mathlib.Logic.Function.Iterate

/-!
# Binary polynomials modulo a polynomial

* `BinPoly w r` : polynomials with coefficients in two elements modulo `x ^ w + r`, as bit vectors;
* `xtime` : the product with `x`, a shift and a reduction; `mulLow` : the product, bit by bit;
* `mulLow_xor`, `mulLow_left_comm` : the product is additive, and its factors can be exchanged;
* `BinPoly.instCommRing` : **they are a commutative ring**, whatever `r` is.
-/

namespace SparkFrame.Lib

/-- Bit `i` is the coefficient of `x ^ i`. -/
@[ext] structure BinPoly (w : Nat) (r : BitVec w) where
  bits : BitVec w
deriving DecidableEq

variable {w : Nat}

/-! ## The product -/

/-- `x` times a polynomial. -/
def xtime (r b : BitVec w) : BitVec w := b <<< 1 ^^^ if b.msb then r else 0#w

/-- The first `n` coefficients of `a` times `b`. -/
def mulLow (r a b : BitVec w) : Nat → BitVec w
  | 0 => 0#w
  | n + 1 => mulLow r a b n ^^^ if a.getLsbD n then (xtime r)^[n] b else 0#w

theorem xor_xor_xor_comm (a b c d : BitVec w) : a ^^^ b ^^^ (c ^^^ d) = a ^^^ c ^^^ (b ^^^ d) := by
  rw [BitVec.xor_assoc, BitVec.xor_assoc, ← BitVec.xor_assoc b, ← BitVec.xor_assoc c, BitVec.xor_comm b]

theorem select_xor (p q : Bool) (a : BitVec w) :
    (if p ^^ q then a else 0#w) = (if p then a else 0#w) ^^^ if q then a else 0#w := by
  cases p <;> cases q <;> simp

theorem select_xor_right (p : Bool) (a b : BitVec w) :
    (if p then a ^^^ b else 0#w) = (if p then a else 0#w) ^^^ if p then b else 0#w := by
  cases p <;> simp

theorem xtime_xor (r a b : BitVec w) : xtime r (a ^^^ b) = xtime r a ^^^ xtime r b := by
  rw [xtime, BitVec.shiftLeft_xor_distrib, BitVec.msb_xor, select_xor]
  exact xor_xor_xor_comm ..

theorem xtime_zero (r : BitVec w) : xtime r 0#w = 0#w := by
  simp [xtime]

theorem iterate_xtime_xor (r a b : BitVec w) (n : Nat) :
    (xtime r)^[n] (a ^^^ b) = (xtime r)^[n] a ^^^ (xtime r)^[n] b := by
  induction n with
  | zero => rfl
  | succ n ih => rw [Function.iterate_succ_apply', ih, xtime_xor, Function.iterate_succ_apply',
      Function.iterate_succ_apply']

theorem mulLow_xor (r a b c : BitVec w) (n : Nat) :
    mulLow r a (b ^^^ c) n = mulLow r a b n ^^^ mulLow r a c n := by
  induction n with
  | zero => simp [mulLow]
  | succ n ih =>
    rw [mulLow, ih, iterate_xtime_xor, select_xor_right]
    exact xor_xor_xor_comm ..

theorem mulLow_zero (r a : BitVec w) (n : Nat) : mulLow r a 0#w n = 0#w := by
  have h := mulLow_xor r a 0#w 0#w n
  rwa [BitVec.xor_self, BitVec.xor_self] at h

theorem mulLow_xtime (r a b : BitVec w) (n : Nat) :
    mulLow r a (xtime r b) n = xtime r (mulLow r a b n) := by
  induction n with
  | zero => rw [mulLow, mulLow, xtime_zero]
  | succ n ih =>
    rw [mulLow, mulLow, ih, xtime_xor, ← Function.iterate_succ_apply, Function.iterate_succ_apply']
    congr 1
    cases a.getLsbD n
    · exact (xtime_zero r).symm
    · rfl

theorem mulLow_iterate (r a b : BitVec w) (n k : Nat) :
    mulLow r a ((xtime r)^[k] b) n = (xtime r)^[k] (mulLow r a b n) := by
  induction k with
  | zero => rfl
  | succ k ih => rw [Function.iterate_succ_apply', mulLow_xtime, ih, ← Function.iterate_succ_apply' (xtime r)]

/-- Two products commute, since either is made of powers of `x`. -/
theorem mulLow_left_comm (r a b c : BitVec w) (m n : Nat) :
    mulLow r a (mulLow r b c n) m = mulLow r b (mulLow r a c m) n := by
  induction n with
  | zero => exact mulLow_zero r a m
  | succ n ih =>
    rw [mulLow, mulLow_xor, ih, mulLow]
    congr 1
    cases b.getLsbD n
    · exact mulLow_zero r a m
    · exact mulLow_iterate r a c m n

theorem iterate_xtime_one (r : BitVec w) {i : Nat} (hi : i < w) :
    (xtime r)^[i] 1#w = BitVec.twoPow w i := by
  induction i with
  | zero => rw [Function.iterate_zero_apply, BitVec.twoPow_zero]
  | succ i ih =>
    have hmsb : (BitVec.twoPow w i).msb = false := by
      rw [BitVec.msb_eq_getLsbD_last, BitVec.getLsbD_twoPow]
      simp only [Bool.and_eq_false_iff, decide_eq_false_iff_not]
      right
      omega
    rw [Function.iterate_succ_apply', ih (by omega), xtime, hmsb]
    apply BitVec.eq_of_getLsbD_eq
    intro j hj
    rw [Bool.eq_iff_iff]
    simp only [Bool.false_eq_true, if_false, BitVec.xor_zero, BitVec.getLsbD_shiftLeft,
      BitVec.getLsbD_twoPow, Bool.and_eq_true, Bool.not_eq_true', decide_eq_true_eq,
      decide_eq_false_iff_not]
    omega

theorem mulLow_one (r a : BitVec w) {n : Nat} (hn : n ≤ w) (i : Nat) (hi : i < w) :
    (mulLow r a 1#w n).getLsbD i = (decide (i < n) && a.getLsbD i) := by
  induction n with
  | zero => simp [mulLow]
  | succ n ih =>
    rw [mulLow, BitVec.getLsbD_xor, ih (by omega), iterate_xtime_one r (by omega)]
    have hlast : (if a.getLsbD n then BitVec.twoPow w n else 0#w).getLsbD i =
        (decide (i = n) && a.getLsbD i) := by
      by_cases hin : i = n
      · subst hin
        cases a.getLsbD i <;> simp [hi]
      · cases a.getLsbD n <;> simp [hin, Ne.symm hin]
    rw [hlast]
    by_cases hin : i = n
    · simp [hin]
    · simp [hin, show i < n + 1 ↔ i < n by omega]

/-! ## The ring -/

namespace BinPoly

variable {r : BitVec w}

instance : Zero (BinPoly w r) := ⟨⟨0#w⟩⟩

instance : One (BinPoly w r) := ⟨⟨1#w⟩⟩

instance : Add (BinPoly w r) := ⟨fun a b => ⟨a.bits ^^^ b.bits⟩⟩

instance : Neg (BinPoly w r) := ⟨fun a => a⟩

instance : Mul (BinPoly w r) := ⟨fun a b => ⟨mulLow r a.bits b.bits w⟩⟩

theorem bits_mul (a b : BinPoly w r) : (a * b).bits = mulLow r a.bits b.bits w := rfl

theorem mul_left_comm' (a b c : BinPoly w r) : a * (b * c) = b * (a * c) :=
  BinPoly.ext (mulLow_left_comm r a.bits b.bits c.bits w w)

theorem mul_one' (a : BinPoly w r) : a * 1 = a := by
  ext i hi
  have h := mulLow_one r a.bits (Nat.le_refl w) i hi
  rwa [decide_eq_true hi, Bool.true_and] at h

theorem mul_comm' (a b : BinPoly w r) : a * b = b * a := by
  rw [← mul_one' b, mul_left_comm', mul_one', mul_one']

theorem mul_add' (a b c : BinPoly w r) : a * (b + c) = a * b + a * c :=
  BinPoly.ext (mulLow_xor r a.bits b.bits c.bits w)

theorem mul_assoc' (a b c : BinPoly w r) : a * b * c = a * (b * c) := by
  rw [mul_comm' (a * b), mul_left_comm', mul_comm' c]

/-- **Polynomials modulo a polynomial are a commutative ring.** -/
instance instCommRing : CommRing (BinPoly w r) where
  add_assoc a b c := BinPoly.ext (BitVec.xor_assoc a.bits b.bits c.bits)
  zero_add a := BinPoly.ext BitVec.zero_xor
  add_zero a := BinPoly.ext BitVec.xor_zero
  add_comm a b := BinPoly.ext (BitVec.xor_comm a.bits b.bits)
  neg_add_cancel a := BinPoly.ext BitVec.xor_self
  mul_assoc := mul_assoc'
  mul_comm := mul_comm'
  one_mul a := by rw [mul_comm', mul_one']
  mul_one := mul_one'
  left_distrib := mul_add'
  right_distrib a b c := by rw [mul_comm', mul_add', mul_comm' c, mul_comm' c]
  zero_mul a := by
    rw [mul_comm']
    exact BinPoly.ext (mulLow_zero r a.bits w)
  mul_zero a := BinPoly.ext (mulLow_zero r a.bits w)
  nsmul := nsmulRec
  zsmul := zsmulRec

theorem x_mul (a : BinPoly w r) : (⟨xtime r 1#w⟩ : BinPoly w r) * a = ⟨xtime r a.bits⟩ := by
  have h := mulLow_xtime r a.bits 1#w w
  rw [mul_comm]
  apply BinPoly.ext
  rw [bits_mul, h]
  exact congrArg (fun b : BinPoly w r => xtime r b.bits) (mul_one' a)

end BinPoly

end SparkFrame.Lib
