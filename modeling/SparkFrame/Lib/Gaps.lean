import Mathlib

/-!
# Gaps in an increasing list of numbers

* `gapSum` : the sum of the differences of neighbours, each less one; `gapSum_append_le`,
  `gapSum_sublist_le` : what a part of a run has;
* `missing` : the numbers between the members of a finite set that are not in it;
  `missing_subset_sdiff` : what a part of a set without gaps misses;
* `card_missing` : for a strictly increasing list the two count the same.
-/

namespace SparkFrame.Lib

def gapSum : List ℕ → ℤ
  | [] => 0
  | [_] => 0
  | a :: b :: l => (b : ℤ) - a - 1 + gapSum (b :: l)

@[simp] theorem gapSum_nil : gapSum [] = 0 := rfl

@[simp] theorem gapSum_singleton (a : ℕ) : gapSum [a] = 0 := rfl

theorem gapSum_cons_cons (a b : ℕ) (l : List ℕ) :
    gapSum (a :: b :: l) = (b : ℤ) - a - 1 + gapSum (b :: l) := rfl

theorem gapSum_nonneg {l : List ℕ} (h : l.Pairwise (· < ·)) : 0 ≤ gapSum l := by
  induction l with
  | nil => exact le_refl _
  | cons a l ih =>
    cases l with
    | nil => exact le_refl _
    | cons b l =>
      have hab : a < b := (List.pairwise_cons.mp h).1 b List.mem_cons_self
      have := ih (List.pairwise_cons.mp h).2
      rw [gapSum_cons_cons]
      omega

theorem gapSum_append_le {l m : List ℕ} (h : (l ++ m).Pairwise (· < ·)) :
    gapSum l + gapSum m ≤ gapSum (l ++ m) := by
  induction l with
  | nil => simp
  | cons a l ih =>
    have hl := (List.pairwise_cons.mp h).2
    cases l with
    | nil =>
      cases m with
      | nil => simp
      | cons b m =>
        have hab : a < b := (List.pairwise_cons.mp h).1 b (by simp)
        rw [List.singleton_append, gapSum_cons_cons, gapSum_singleton]
        omega
    | cons b l =>
      have hle := ih hl
      rw [List.cons_append, List.cons_append, gapSum_cons_cons, gapSum_cons_cons,
        ← List.cons_append]
      omega

theorem gapSum_eq_last_sub_head (a : ℕ) (l : List ℕ) :
    gapSum (a :: l) = (((a :: l).getLast (List.cons_ne_nil a l) : ℕ) : ℤ) - a - l.length := by
  induction l generalizing a with
  | nil => simp
  | cons b l ih =>
    rw [gapSum_cons_cons, ih b, List.getLast_cons (List.cons_ne_nil b l), List.length_cons]
    push_cast
    ring

/-- Each number left out of an increasing run opens a gap of one at most. -/
theorem gapSum_sublist_le {l m : List ℕ} (hs : l.Sublist m) (hm : m.Pairwise (· < ·)) :
    gapSum l + l.length ≤ gapSum m + m.length := by
  rcases m with _ | ⟨a, m⟩
  · rw [List.sublist_nil.mp hs]
  rcases l with _ | ⟨c, l⟩
  · have := gapSum_nonneg hm
    simp only [gapSum_nil, List.length_nil]
    omega
  · have hsorted : (a :: m).Pairwise (· ≤ ·) := hm.imp le_of_lt
    have hhead : a ≤ c := by
      rcases List.mem_cons.mp (hs.subset List.mem_cons_self) with rfl | hc
      · exact le_refl _
      · exact (List.pairwise_cons.mp hsorted).1 c hc
    have hlast : (c :: l).getLast (List.cons_ne_nil c l) ≤ (a :: m).getLast (List.cons_ne_nil a m) := by
      have hmem := hs.subset (List.getLast_mem (List.cons_ne_nil c l))
      exact hsorted.rel_getLast hmem
    rw [gapSum_eq_last_sub_head, gapSum_eq_last_sub_head]
    simp only [List.length_cons]
    omega

def missing (s : Finset ℕ) : Finset ℕ :=
  {x ∈ Finset.range (s.sup id) | x ∉ s ∧ ∃ a ∈ s, a < x}

theorem mem_missing {s : Finset ℕ} {x : ℕ} :
    x ∈ missing s ↔ x ∉ s ∧ (∃ a ∈ s, a < x) ∧ ∃ b ∈ s, x < b := by
  simp only [missing, Finset.mem_filter, Finset.mem_range, Finset.lt_sup_iff, id_eq]
  tauto

/-- Between the members of a part of a set without gaps only other members of the set are missing. -/
theorem missing_subset_sdiff {s t : Finset ℕ} (hst : s ⊆ t) (ht : missing t = ∅) :
    missing s ⊆ t \ s := by
  intro x hx
  obtain ⟨hxs, ⟨a, ha, hax⟩, b, hb, hxb⟩ := mem_missing.mp hx
  rw [Finset.mem_sdiff]
  refine ⟨?_, hxs⟩
  by_contra hxt
  have hm : x ∈ missing t := mem_missing.mpr ⟨hxt, ⟨a, hst ha, hax⟩, b, hst hb, hxb⟩
  rw [ht] at hm
  exact absurd hm (Finset.notMem_empty x)

theorem missing_cons_cons {a b : ℕ} {l : List ℕ} (h : (a :: b :: l).Pairwise (· < ·)) :
    missing (a :: b :: l).toFinset = Finset.Ioo a b ∪ missing (b :: l).toFinset := by
  obtain ⟨ha, hbl⟩ := List.pairwise_cons.mp h
  have hab : a < b := ha b List.mem_cons_self
  have hb : ∀ c ∈ l, b < c := (List.pairwise_cons.mp hbl).1
  ext x
  simp only [mem_missing, Finset.mem_union, Finset.mem_Ioo, List.mem_toFinset, List.mem_cons,
    not_or, exists_eq_or_imp]
  constructor
  · rintro ⟨⟨hxa, hxb, hxl⟩, hlow, hhigh⟩
    rcases Nat.lt_or_ge x b with hlt | hge
    · refine Or.inl ⟨?_, hlt⟩
      rcases hlow with h | h | ⟨c, hc, h⟩
      · exact h
      · omega
      · have := hb c hc
        omega
    · refine Or.inr ⟨⟨hxb, hxl⟩, Or.inl (by omega), ?_⟩
      rcases hhigh with h | h | h
      · omega
      · omega
      · exact Or.inr h
  · rintro (⟨hax, hxb⟩ | ⟨⟨hxb, hxl⟩, hlow, hhigh⟩)
    · refine ⟨⟨by omega, by omega, fun hx => ?_⟩, Or.inl hax, Or.inr (Or.inl hxb)⟩
      have := hb x hx
      omega
    · have hbx : b < x := by
        rcases hlow with h | ⟨c, hc, h⟩
        · exact h
        · have := hb c hc
          omega
      exact ⟨⟨by omega, hxb, hxl⟩, Or.inl (by omega), Or.inr hhigh⟩

theorem card_missing {l : List ℕ} (h : l.Pairwise (· < ·)) :
    ((missing l.toFinset).card : ℤ) = gapSum l := by
  induction l with
  | nil => simp [missing]
  | cons a l ih =>
    cases l with
    | nil => simp [missing, Finset.filter_eq_empty_iff]; omega
    | cons b l =>
      have hbl := (List.pairwise_cons.mp h).2
      have hab : a < b := (List.pairwise_cons.mp h).1 b List.mem_cons_self
      have hdis : Disjoint (Finset.Ioo a b) (missing (b :: l).toFinset) := by
        rw [Finset.disjoint_left]
        intro x hx hm
        obtain ⟨-, ⟨c, hc, hcx⟩, -⟩ := mem_missing.mp hm
        rw [Finset.mem_Ioo] at hx
        rcases List.mem_cons.mp (List.mem_toFinset.mp hc) with rfl | hc
        · omega
        · have := (List.pairwise_cons.mp hbl).1 c hc
          omega
      rw [missing_cons_cons h, Finset.card_union_of_disjoint hdis, Nat.card_Ioo, Nat.cast_add,
        ih hbl, gapSum_cons_cons]
      omega

end SparkFrame.Lib
