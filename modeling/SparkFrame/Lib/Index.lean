import Mathlib.Logic.Function.Basic

/-!
# An index beside a table of objects

A table `owner : U → Option P` holds objects, each with at most one key `key : P → Option K`; an index
`index : K → Option P` finds an object by its key.

* `Indexes owner key index` : the index finds exactly the objects of the table;
* `Indexes.key_inj` : two objects of the table never share a key;
* `Indexes.rekey_iff`, `Indexes.insert_iff` : an object gets a key, which keeps it so exactly when
  the key is free; `Indexes.unkey`, `Indexes.erase` : an object loses its key or leaves;
* `forget` : the index without one key; `forget_eq_some_iff`, `update_eq_some_iff` : what is found
  in a changed index.
-/

namespace SparkFrame.Lib

open Function

variable {U P K : Type*} {owner : U → Option P} {key : P → Option K} {index : K → Option P}

/-- The index finds exactly the objects of the table that have a key. -/
def Indexes (owner : U → Option P) (key : P → Option K) (index : K → Option P) : Prop :=
  ∀ k p, index k = some p ↔ (∃ u, owner u = some p) ∧ key p = some k

/-- Two objects of the table never share a key. -/
theorem Indexes.key_inj (h : Indexes owner key index) {u v : U} {p q : P} {k : K} (hp : owner u = some p)
    (hq : owner v = some q) (hkp : key p = some k) (hkq : key q = some k) : p = q := by
  have hip := (h k p).2 ⟨⟨u, hp⟩, hkp⟩
  rw [(h k q).2 ⟨⟨v, hq⟩, hkq⟩] at hip
  exact (Option.some.inj hip).symm

section Forget

variable [DecidableEq K]

/-- The index without the key `k`, if there is one. -/
def forget (index : K → Option P) : Option K → K → Option P
  | none => index
  | some k => update index k none

theorem forget_of_ne {o : Option K} {k : K} (h : o ≠ some k) : forget index o k = index k := by
  cases o with
  | none => rfl
  | some j => exact update_of_ne (fun hk => h (congrArg some hk.symm)) _ _

@[simp] theorem forget_self (k : K) : forget index (some k) k = none := update_self ..

theorem forget_eq_some_iff {o : Option K} {k : K} {p : P} :
    forget index o k = some p ↔ o ≠ some k ∧ index k = some p := by
  by_cases h : o = some k
  · simp [h]
  · rw [forget_of_ne h, and_iff_right h]

theorem update_eq_some_iff {k j : K} {o : Option P} {p : P} :
    update index j o k = some p ↔ k = j ∧ o = some p ∨ k ≠ j ∧ index k = some p := by
  by_cases h : k = j
  · rw [h, update_self]
    simp
  · rw [update_of_ne h]
    simp [h]

end Forget

namespace Indexes

variable [DecidableEq P] [DecidableEq K]

/-- An object of the table changes its key: the index stays right exactly when no other object has
the new one. -/
theorem rekey_iff (h : Indexes owner key index) {u : U} {p : P} {k : K} (hp : owner u = some p) :
    Indexes owner (update key p (some k)) (update (forget index (key p)) k (some p)) ↔
      ∀ q, index k = some q → q = p := by
  constructor
  · intro h' q hq
    by_contra hne
    obtain ⟨howns, hkey⟩ := (h k q).1 hq
    have := (h' k q).2 ⟨howns, by rw [update_of_ne hne, hkey]⟩
    rw [update_self, Option.some.injEq] at this
    exact hne this.symm
  intro hfree j q
  by_cases hj : j = k
  · rw [hj, update_self, Option.some.injEq]
    constructor
    · rintro rfl
      exact ⟨⟨u, hp⟩, update_self ..⟩
    · rintro ⟨⟨v, hv⟩, hq⟩
      by_contra hne
      rw [update_of_ne (Ne.symm hne)] at hq
      exact hne (hfree q ((h k q).2 ⟨⟨v, hv⟩, hq⟩)).symm
  · rw [update_of_ne hj]
    by_cases hq : q = p
    · rw [hq, update_self]
      refine iff_of_false ?_ fun hr => hj (Option.some.inj hr.2).symm
      by_cases hold : key p = some j
      · rw [hold, forget_self]
        simp
      · rw [forget_of_ne hold]
        exact fun hi => hold ((h j p).1 hi).2
    · rw [update_of_ne hq]
      by_cases hold : key p = some j
      · rw [hold, forget_self]
        refine iff_of_false (by simp) fun hr => ?_
        obtain ⟨⟨v, hv⟩, hk⟩ := hr
        exact hq (h.key_inj hv hp hk hold)
      · rw [forget_of_ne hold]
        exact h j q

theorem unkey (h : Indexes owner key index) {p : P} {k : K} (hk : index k = some p) :
    Indexes owner (update key p none) (update index k none) := by
  obtain ⟨⟨u, hu⟩, hkey⟩ := (h k p).1 hk
  intro j q
  by_cases hq : q = p
  · rw [hq, update_self]
    refine iff_of_false (fun hi => ?_) (by simp)
    by_cases hj : j = k
    · rw [hj, update_self] at hi
      cases hi
    · rw [update_of_ne hj] at hi
      have := ((h j p).1 hi).2
      rw [hkey, Option.some.injEq] at this
      exact hj this.symm
  · rw [update_of_ne hq, ← h j q]
    by_cases hj : j = k
    · rw [hj, update_self, hk, Option.some.injEq]
      exact iff_of_false (by simp) (Ne.symm hq)
    · rw [update_of_ne hj]

variable [DecidableEq U]

/-- A new object enters the table: the index stays right exactly when no object has its key. -/
theorem insert_iff (h : Indexes owner key index) {u : U} {p : P} {k : K} (hu : owner u = none)
    (hp : ∀ v, owner v ≠ some p) :
    Indexes (update owner u (some p)) (update key p (some k)) (update index k (some p)) ↔
      index k = none := by
  have howner (q : P) (hq : q ≠ p) :
      (∃ v, update owner u (some p) v = some q) ↔ ∃ v, owner v = some q := by
    apply exists_congr
    intro v
    by_cases hv : v = u
    · rw [hv, update_self, hu, Option.some.injEq]
      exact iff_of_false hq.symm (by simp)
    · rw [update_of_ne hv]
  constructor
  · intro h'
    by_contra hne
    obtain ⟨q, hq⟩ := Option.ne_none_iff_exists'.1 hne
    obtain ⟨⟨v, hv⟩, hkey⟩ := (h k q).1 hq
    have hqp : q ≠ p := fun hqp => hp v (hqp ▸ hv)
    have := (h' k q).2 ⟨(howner q hqp).2 ⟨v, hv⟩, by rw [update_of_ne hqp, hkey]⟩
    rw [update_self, Option.some.injEq] at this
    exact hqp this.symm
  intro hfree j q
  by_cases hq : q = p
  · rw [hq, update_self, Option.some.injEq, and_iff_right ⟨u, update_self ..⟩]
    by_cases hj : j = k
    · rw [hj, update_self]
      exact iff_of_true rfl rfl
    · rw [update_of_ne hj]
      refine iff_of_false (fun hi => ?_) (Ne.symm hj)
      obtain ⟨⟨v, hv⟩, -⟩ := (h j p).1 hi
      exact hp v hv
  · rw [howner q hq, update_of_ne hq, ← h j q]
    by_cases hj : j = k
    · rw [hj, update_self, hfree, Option.some.injEq]
      exact iff_of_false (Ne.symm hq) (by simp)
    · rw [update_of_ne hj]

omit [DecidableEq P] in
theorem erase (h : Indexes owner key index) {u : U} {p : P} (hu : owner u = some p)
    (hinj : ∀ v, owner v = some p → v = u) :
    Indexes (update owner u none) key (forget index (key p)) := by
  intro j q
  have howner : (∃ v, update owner u none v = some q) ↔ (∃ v, owner v = some q) ∧ q ≠ p := by
    constructor
    · rintro ⟨v, hv⟩
      by_cases hvu : v = u
      · rw [hvu, update_self] at hv
        cases hv
      · rw [update_of_ne hvu] at hv
        refine ⟨⟨v, hv⟩, ?_⟩
        rintro rfl
        exact hvu (hinj v hv)
    · rintro ⟨⟨v, hv⟩, hne⟩
      refine ⟨v, ?_⟩
      rw [update_of_ne, hv]
      rintro rfl
      rw [hu, Option.some.injEq] at hv
      exact hne hv.symm
  rw [howner]
  by_cases hold : key p = some j
  · rw [hold, forget_self]
    refine iff_of_false (by simp) ?_
    rintro ⟨⟨⟨v, hv⟩, hne⟩, hq⟩
    exact hne (h.key_inj hv hu hq hold)
  · rw [forget_of_ne hold, h j q]
    constructor
    · rintro ⟨howns, hq⟩
      refine ⟨⟨howns, ?_⟩, hq⟩
      rintro rfl
      exact hold hq
    · rintro ⟨⟨howns, -⟩, hq⟩
      exact ⟨howns, hq⟩

end Indexes

end SparkFrame.Lib
