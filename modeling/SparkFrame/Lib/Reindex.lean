import Mathlib.Data.List.GetD
import Mathlib.Tactic.SplitIfs

/-!
# The entries of a list under other indices

* `reindex σ l` : the list whose entry `j` is the entry `σ j` of `l`;
* `reindex_reindex`, `reindex_eq_self_iff` : one after another; where nothing is moved;
* `partner m r` : the entries that stand at `j` after `m` rounds in which the entries `i` and `i + r` are
  copied over each other from an unchanged list; `reindex_partner_succ` : one more round;
* `partner_partner` : where the two parts overlap, doing it twice moves entries by `2 * r`;
* `modify_modify_cancel` : two entries are changed and changed back.
-/

namespace SparkFrame.Lib

variable {α : Type*}

/-! ## Other indices -/

def reindex (σ : Nat → Nat) (l : List α) : List α := l.mapIdx fun j c => l.getD (σ j) c

@[simp] theorem length_reindex (σ : Nat → Nat) (l : List α) : (reindex σ l).length = l.length := by
  rw [reindex, List.length_mapIdx]

theorem getElem?_reindex {σ : Nat → Nat} {l : List α} {j : Nat} (hj : j < l.length)
    (hσ : σ j < l.length) : (reindex σ l)[j]? = l[σ j]? := by
  rw [reindex, List.getElem?_mapIdx, List.getElem?_eq_getElem hj, List.getElem?_eq_getElem hσ,
    Option.map_some, List.getD_eq_getElem _ _ hσ]

theorem reindex_eq_iff {σ : Nat → Nat} {l t : List α} (hσ : ∀ j < l.length, σ j < l.length)
    (ht : t.length = l.length) : reindex σ l = t ↔ ∀ j < l.length, l[σ j]? = t[j]? := by
  constructor
  · rintro rfl j hj
    exact (getElem?_reindex hj (hσ j hj)).symm
  · intro h
    refine List.ext_getElem? fun j => ?_
    rcases Nat.lt_or_ge j l.length with hj | hj
    · rw [getElem?_reindex hj (hσ j hj), h j hj]
    · rw [List.getElem?_eq_none (by rwa [length_reindex]), List.getElem?_eq_none (by rwa [ht])]

theorem reindex_reindex {σ τ : Nat → Nat} {l : List α} (hσ : ∀ j < l.length, σ j < l.length)
    (hτ : ∀ j < l.length, τ j < l.length) :
    reindex σ (reindex τ l) = reindex (fun j => τ (σ j)) l := by
  refine (reindex_eq_iff (by simpa using hσ) (by simp)).mpr fun j hj => ?_
  rw [length_reindex] at hj
  have hstj := hτ _ (hσ j hj)
  rw [getElem?_reindex (hσ j hj) hstj]
  exact (getElem?_reindex (σ := fun j => τ (σ j)) hj hstj).symm

theorem reindex_eq_self_iff {σ : Nat → Nat} {l : List α} (hσ : ∀ j < l.length, σ j < l.length) :
    reindex σ l = l ↔ ∀ j < l.length, l[σ j]? = l[j]? := reindex_eq_iff hσ rfl

/-! ## Copying two parts over each other -/

/-- In the round `i` the entry `i` is copied to `i + r` first, and the entry `i + r` to `i` then. -/
def partner (m r j : Nat) : Nat :=
  if j < m then j + r else if r ≤ j ∧ j < m + r then j - r else j

theorem partner_lt {m r n j : Nat} (h : m + r ≤ n) (hj : j < n) : partner m r j < n := by
  unfold partner
  split
  · omega
  · split <;> omega

theorem partner_zero (r j : Nat) : partner 0 r j = j := by
  unfold partner
  split
  · omega
  · split <;> omega

theorem reindex_partner_zero (r : Nat) (l : List α) : reindex (partner 0 r) l = l :=
  (reindex_eq_self_iff fun j hj => by rwa [partner_zero]).mpr fun j _ => by rw [partner_zero]

theorem reindex_partner_succ {m r : Nat} {l : List α} (h : m + r < l.length) :
    ((reindex (partner m r) l).set (m + r) l[m]).set m l[m + r] = reindex (partner (m + 1) r) l := by
  have hlt : ∀ j < l.length, partner m r j < l.length := fun j hj => partner_lt (Nat.le_of_lt h) hj
  refine ((reindex_eq_iff (fun j hj => partner_lt (by omega) hj) (by simp)).mpr fun j hj => ?_).symm
  rw [List.getElem?_set, List.getElem?_set, getElem?_reindex hj (hlt j hj)]
  by_cases hm : m = j
  · subst hm
    simp [partner, hj]
  · by_cases hr : m + r = j
    · have hj' : partner (m + 1) r j = m := by
        unfold partner
        rw [if_neg (by omega), if_pos (by omega)]
        omega
      simp [hm, hr, hj, hj', List.getElem?_eq_getElem (by omega : m < l.length)]
    · have hsame : partner (m + 1) r j = partner m r j := by
        unfold partner
        split
        · rw [if_pos (by omega)]
        · rw [if_neg (by omega : ¬ j < m)]
          split
          · rw [if_pos (by omega)]
          · rw [if_neg (by omega)]
      simp [hm, hr, hsame]

/-- Where the two parts overlap, the second time does not undo the first. -/
theorem partner_partner {m r j : Nat} (hj : j < m + r) :
    partner m r (partner m r j) = if j + r < m then j + 2 * r else j := by
  unfold partner
  split_ifs <;> omega

/-- **What is copied twice comes back exactly where the overlap repeats itself.** -/
theorem reindex_partner_twice_iff {m r : Nat} {l : List α} (h : m + r = l.length) :
    reindex (partner m r) (reindex (partner m r) l) = l ↔
      ∀ j, j + 2 * r < l.length → l[j + 2 * r]? = l[j]? := by
  have hlt : ∀ j < l.length, partner m r j < l.length := fun j hj => partner_lt (Nat.le_of_eq h) hj
  rw [reindex_reindex hlt hlt, reindex_eq_self_iff fun j hj => hlt _ (hlt j hj)]
  constructor
  · intro hl j hj
    have heq := hl j (by omega)
    rwa [partner_partner (by omega), if_pos (by omega)] at heq
  · intro hl j hj
    rw [partner_partner (by omega)]
    split
    · exact hl j (by omega)
    · rfl

/-! ## Two entries -/

/-- Two entries are changed and changed back, also where they are the same one. -/
theorem modify_modify_cancel {f g : α → α} (h : ∀ c, g (f c) = c) (i j : Nat) (l : List α) :
    ((((l.modify i f).modify j f).modify i g).modify j g) = l := by
  refine List.ext_getElem? fun k => ?_
  simp only [List.getElem?_modify]
  cases l[k]? with
  | none => rfl
  | some c => by_cases hi : i = k <;> by_cases hj : j = k <;> simp [hi, hj, h]

end SparkFrame.Lib
