import Mathlib.Algebra.Group.Equiv.Basic

/-!
# Ciphers that alternate keys with a round

* `cipher` : a key, then rounds of a substitution, a mixing and a key, the last without the mixing;
* `inverseKeys` : the keys from the last to the first, those in between unmixed;
* `cipher_congr` : the keys that are used; `inverseKeys_inverseKeys` : the first keys come back;
* `cipherState_cipher` : the two runs pass through the same states;
* `cipher_inverse`, `inverse_cipher` : **the inverse is a cipher of the same shape**.
-/

namespace SparkFrame.Lib

variable {α : Type*} [AddCommGroup α]

/-- The state after `n` rounds. -/
def cipherState (σ μ : α → α) (key : Nat → α) (s : α) : Nat → α
  | 0 => s + key 0
  | n + 1 => μ (σ (cipherState σ μ key s n)) + key (n + 1)

/-- `n` rounds, and a last one that does not mix. -/
def cipher (σ μ : α → α) (key : Nat → α) (n : Nat) (s : α) : α :=
  σ (cipherState σ μ key s n) + key (n + 1)

/-- The keys of the inverse: mixing is linear, so it can be undone before the key is. -/
def inverseKeys (μ : α ≃+ α) (key : Nat → α) (n : Nat) (i : Nat) : α :=
  if i = 0 ∨ i = n + 1 then -key (n + 1 - i) else -μ.symm (key (n + 1 - i))

theorem cipherState_congr {σ μ : α → α} {key key' : Nat → α} {n : Nat} (s : α)
    (h : ∀ i ≤ n, key i = key' i) : cipherState σ μ key s n = cipherState σ μ key' s n := by
  induction n with
  | zero => rw [cipherState, cipherState, h 0 (Nat.le_refl 0)]
  | succ n ih =>
    rw [cipherState, cipherState, ih (fun i hi => h i (by omega)), h (n + 1) (Nat.le_refl _)]

theorem cipher_congr {σ μ : α → α} {key key' : Nat → α} {n : Nat} (s : α)
    (h : ∀ i ≤ n + 1, key i = key' i) : cipher σ μ key n s = cipher σ μ key' n s := by
  rw [cipher, cipher, cipherState_congr s (fun i hi => h i (by omega)), h (n + 1) (Nat.le_refl _)]

theorem inverseKeys_inverseKeys (μ : α ≃+ α) (key : Nat → α) (n : Nat) {i : Nat} (hi : i ≤ n + 1) :
    inverseKeys μ.symm (inverseKeys μ key n) n i = key i := by
  have hback : n + 1 - (n + 1 - i) = i := by omega
  unfold inverseKeys
  by_cases h : i = 0 ∨ i = n + 1
  · rw [if_pos h, if_pos (by omega), hback, neg_neg]
  · rw [if_neg h, if_neg (by omega), hback, map_neg, neg_neg, AddEquiv.symm_symm, AddEquiv.apply_symm_apply]

variable (σ : Equiv.Perm α) (μ : α ≃+ α)

/-- **The inverse passes through the states of the cipher**, the last first. -/
theorem cipherState_cipher (key : Nat → α) (n : Nat) (s : α) {i : Nat} (hi : i ≤ n) :
    cipherState σ.symm μ.symm (inverseKeys μ key n) (cipher σ μ key n s) i =
      σ (cipherState σ μ key s (n - i)) := by
  induction i with
  | zero =>
    rw [cipherState, inverseKeys, if_pos (Or.inl rfl), cipher]
    exact add_neg_cancel_right _ _
  | succ i ih =>
    have hstate : cipherState σ μ key s (n - i) =
        μ (σ (cipherState σ μ key s (n - (i + 1)))) + key (n - i) := by
      rw [show n - i = n - (i + 1) + 1 by omega, cipherState]
    rw [cipherState, ih (by omega), Equiv.symm_apply_apply, hstate, map_add, AddEquiv.symm_apply_apply,
      inverseKeys, if_neg (by omega), show n + 1 - (i + 1) = n - i by omega]
    exact add_neg_cancel_right _ _

/-- **The inverse undoes the cipher.** -/
theorem cipher_inverse (key : Nat → α) (n : Nat) (s : α) :
    cipher σ.symm μ.symm (inverseKeys μ key n) n (cipher σ μ key n s) = s := by
  rw [cipher, cipherState_cipher σ μ key n s (Nat.le_refl n), Equiv.symm_apply_apply, Nat.sub_self,
    cipherState, inverseKeys, if_pos (Or.inr rfl), Nat.sub_self]
  exact add_neg_cancel_right _ _

/-- **The cipher undoes the inverse.** -/
theorem inverse_cipher (key : Nat → α) (n : Nat) (s : α) :
    cipher σ μ key n (cipher σ.symm μ.symm (inverseKeys μ key n) n s) = s := by
  have h := cipher_inverse σ.symm μ.symm (inverseKeys μ key n) n s
  rwa [cipher_congr _ (fun i hi => inverseKeys_inverseKeys μ key n hi)] at h

end SparkFrame.Lib
