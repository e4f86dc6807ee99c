import Mathlib.Data.List.Induction
import Mathlib.Data.List.Pairwise
import Mathlib.Order.Basic
import Mathlib.Order.Nat

/-!
# Lists in which some elements have company

* `HasBefore Q R l` : every element with `Q` has an `R`-related one in front of it;
* `HasAfter Q R l` : the same, behind it;
* both follow from an order of the list by a key, and survive `++`, `flatMap` and `filter`;
* `HasAfter.not_getLast`, `HasBefore.not_firstMin` : such an element is not the last one, and not the
  first least one when the other is not greater.
-/

namespace SparkFrame.Lib

variable {α β : Type*}

def HasBefore (Q : α → Prop) (R : α → α → Prop) (l : List α) : Prop :=
  ∀ l₁ a l₂, l = l₁ ++ a :: l₂ → Q a → ∃ b ∈ l₁, R a b

def HasAfter (Q : α → Prop) (R : α → α → Prop) (l : List α) : Prop :=
  ∀ l₁ a l₂, l = l₁ ++ a :: l₂ → Q a → ∃ b ∈ l₂, R a b

/-- The first least element by a key. -/
def FirstMin (key : α → ℕ) (l : List α) (a : α) : Prop :=
  ∃ l₁ l₂, l = l₁ ++ a :: l₂ ∧ (∀ b ∈ l₁, key a < key b) ∧ ∀ b ∈ l₂, key a ≤ key b

/-! ## Where an element of a list built from others stands -/

theorem append_split {l m x y : List α} {a : α} (h : l ++ m = x ++ a :: y) :
    (∃ z, l = x ++ a :: z ∧ y = z ++ m) ∨ ∃ z, m = z ++ a :: y ∧ x = l ++ z := by
  rcases List.append_eq_append_iff.mp h with ⟨z, hx, hm⟩ | ⟨z, hl, hy⟩
  · exact Or.inr ⟨z, hm, hx⟩
  · rcases List.cons_eq_append_iff.mp hy with ⟨hz, hm⟩ | ⟨z', hz, hy⟩
    · refine Or.inr ⟨[], hm.symm ▸ rfl, ?_⟩
      rw [hl, hz, List.append_nil, List.append_nil]
    · exact Or.inl ⟨z', hz ▸ hl, hy⟩

theorem flatMap_split {l : List α} {f : α → List β} {x y : List β} {b : β}
    (h : l.flatMap f = x ++ b :: y) :
    ∃ l₁ a l₂ b₁ b₂, l = l₁ ++ a :: l₂ ∧ f a = b₁ ++ b :: b₂ ∧ x = l₁.flatMap f ++ b₁ ∧
      y = b₂ ++ l₂.flatMap f := by
  induction l generalizing x with
  | nil => exact absurd h.symm (by simp)
  | cons a l ih =>
    rw [List.flatMap_cons] at h
    rcases append_split h with ⟨z, hf, hy⟩ | ⟨z, hl, hx⟩
    · exact ⟨[], a, l, x, z, rfl, hf, rfl, hy⟩
    · obtain ⟨l₁, a', l₂, b₁, b₂, rfl, hf, rfl, hy⟩ := ih hl
      refine ⟨a :: l₁, a', l₂, b₁, b₂, rfl, hf, ?_, hy⟩
      rw [hx, List.flatMap_cons, List.append_assoc]

theorem filter_split {p : α → Bool} {l x y : List α} {a : α} (h : l.filter p = x ++ a :: y) :
    ∃ l₁ l₂, l = l₁ ++ a :: l₂ ∧ l₁.filter p = x ∧ l₂.filter p = y := by
  obtain ⟨l₁, m, rfl, hx, hm⟩ := List.filter_eq_append_iff.mp h
  obtain ⟨m₁, m₂, rfl, hnone, -, hy⟩ := List.filter_eq_cons_iff.mp hm
  refine ⟨l₁ ++ m₁, m₂, by simp, ?_, hy⟩
  rw [List.filter_append, hx, List.filter_eq_nil_iff.mpr hnone, List.append_nil]

/-- A property of lists that survives `++` holds of a concatenation once it holds of its parts. -/
theorem flatMap_closed {P : List β → Prop} (hnil : P []) (happ : ∀ {l m}, P l → P m → P (l ++ m))
    {l : List α} {f : α → List β} (hf : ∀ a ∈ l, P (f a)) : P (l.flatMap f) := by
  induction l with
  | nil => exact hnil
  | cons a l ih =>
    rw [List.flatMap_cons]
    exact happ (hf a List.mem_cons_self) (ih fun b hb => hf b (List.mem_cons_of_mem a hb))

/-! ## Company in front -/

section Before

variable {Q : α → Prop} {R : α → α → Prop} {l m : List α}

theorem hasBefore_of_not (h : ∀ a ∈ l, ¬ Q a) : HasBefore Q R l := by
  intro l₁ a l₂ hl hQ
  exact absurd hQ (h a (by rw [hl]; simp))

/-- In a list ordered by a key it is enough to have a smaller one anywhere. -/
theorem hasBefore_of_key (key : α → ℕ) (hs : l.Pairwise fun a b => key a ≤ key b)
    (h : ∀ a ∈ l, Q a → ∃ b ∈ l, key b < key a ∧ R a b) : HasBefore Q R l := by
  intro l₁ a l₂ hl hQ
  obtain ⟨b, hb, hlt, hR⟩ := h a (by rw [hl]; simp) hQ
  rw [hl] at hb hs
  rcases List.mem_append.mp hb with hb | hb
  · exact ⟨b, hb, hR⟩
  · have htail := (List.pairwise_cons.mp (List.pairwise_append.mp hs).2.1).1
    rcases List.mem_cons.mp hb with rfl | hb
    · exact absurd hlt (lt_irrefl _)
    · exact absurd hlt (not_lt.mpr (htail b hb))

/-- The same behind another list, which may hold the other element as well. -/
theorem hasBefore_append_of_key (key : α → ℕ) (hl : HasBefore Q R l)
    (hs : m.Pairwise fun a b => key a ≤ key b)
    (h : ∀ a ∈ m, Q a → (∃ b ∈ l, R a b) ∨ ∃ b ∈ m, key b < key a ∧ R a b) :
    HasBefore Q R (l ++ m) := by
  intro x a y hsplit hQ
  rcases append_split hsplit with ⟨z, hl', -⟩ | ⟨z, hm', rfl⟩
  · exact hl x a z hl' hQ
  · have ha : a ∈ m := hm' ▸ List.mem_append_right z List.mem_cons_self
    rcases h a ha hQ with ⟨b, hb, hR⟩ | hcompany
    · exact ⟨b, List.mem_append_left z hb, hR⟩
    · have hbefore : HasBefore (fun a' => a' = a) R m :=
        hasBefore_of_key key hs fun a' _ heq => heq ▸ hcompany
      obtain ⟨b, hb, hR⟩ := hbefore z a y hm' rfl
      exact ⟨b, List.mem_append_right l hb, hR⟩

theorem HasBefore.append (hl : HasBefore Q R l) (hm : HasBefore Q R m) :
    HasBefore Q R (l ++ m) := by
  intro x a y h hQ
  rcases append_split h with ⟨z, hl', -⟩ | ⟨z, hm', hx⟩
  · exact hl x a z hl' hQ
  · obtain ⟨b, hb, hR⟩ := hm z a y hm' hQ
    exact ⟨b, by rw [hx]; exact List.mem_append_right l hb, hR⟩

theorem HasBefore.flatMap {l : List β} {f : β → List α}
    (h : ∀ l₁ b l₂, l = l₁ ++ b :: l₂ → ∀ x a y, f b = x ++ a :: y → Q a →
      (∃ c ∈ x, R a c) ∨ ∃ b' ∈ l₁, ∃ c ∈ f b', R a c) : HasBefore Q R (l.flatMap f) := by
  intro x a y hsplit hQ
  obtain ⟨l₁, b, l₂, x', y', hl, hf, rfl, -⟩ := flatMap_split hsplit
  rcases h l₁ b l₂ hl x' a y' hf hQ with ⟨c, hc, hR⟩ | ⟨b', hb', c, hc, hR⟩
  · exact ⟨c, List.mem_append_right _ hc, hR⟩
  · exact ⟨c, List.mem_append_left _ (List.mem_flatMap.mpr ⟨b', hb', hc⟩), hR⟩

theorem HasBefore.filter {p : α → Bool} (hl : HasBefore Q R l)
    (hp : ∀ a ∈ l, ∀ b ∈ l, p a = true → R a b → p b = true) : HasBefore Q R (l.filter p) := by
  intro x a y h hQ
  have ha : a ∈ l.filter p := h ▸ List.mem_append_right _ List.mem_cons_self
  rw [List.mem_filter] at ha
  obtain ⟨l₁, l₂, hsplit, rfl, -⟩ := filter_split h
  obtain ⟨b, hb, hR⟩ := hl l₁ a l₂ hsplit hQ
  have hbl : b ∈ l := hsplit ▸ List.mem_append_left _ hb
  exact ⟨b, List.mem_filter.mpr ⟨hb, hp a ha.1 b hbl ha.2 hR⟩, hR⟩

theorem HasBefore.not_firstMin {key : α → ℕ} (hl : HasBefore Q R l)
    (hR : ∀ a b, R a b → key b ≤ key a) {a : α} (hmin : FirstMin key l a) : ¬ Q a := by
  intro hQ
  obtain ⟨l₁, l₂, hsplit, hlt, -⟩ := hmin
  obtain ⟨b, hb, hRb⟩ := hl l₁ a l₂ hsplit hQ
  exact absurd (hR a b hRb) (not_le.mpr (hlt b hb))

end Before

/-! ## Company behind -/

section After

variable {Q : α → Prop} {R : α → α → Prop} {l m : List α}

theorem hasAfter_of_not (h : ∀ a ∈ l, ¬ Q a) : HasAfter Q R l := by
  intro l₁ a l₂ hl hQ
  exact absurd hQ (h a (by rw [hl]; simp))

theorem hasAfter_of_key (key : α → ℕ) (hs : l.Pairwise fun a b => key a ≤ key b)
    (h : ∀ a ∈ l, Q a → ∃ b ∈ l, key a < key b ∧ R a b) : HasAfter Q R l := by
  intro l₁ a l₂ hl hQ
  obtain ⟨b, hb, hlt, hR⟩ := h a (by rw [hl]; simp) hQ
  rw [hl] at hb hs
  rcases List.mem_append.mp hb with hb | hb
  · have hle := (List.pairwise_append.mp hs).2.2 b hb a List.mem_cons_self
    exact absurd hlt (not_lt.mpr hle)
  · rcases List.mem_cons.mp hb with rfl | hb
    · exact absurd hlt (lt_irrefl _)
    · exact ⟨b, hb, hR⟩

theorem HasAfter.append (hl : HasAfter Q R l) (hm : HasAfter Q R m) : HasAfter Q R (l ++ m) := by
  intro x a y h hQ
  rcases append_split h with ⟨z, hl', hy⟩ | ⟨z, hm', -⟩
  · obtain ⟨b, hb, hR⟩ := hl x a z hl' hQ
    exact ⟨b, by rw [hy]; exact List.mem_append_left m hb, hR⟩
  · exact hm z a y hm' hQ

theorem HasAfter.flatMap {l : List β} {f : β → List α}
    (h : ∀ l₁ b l₂, l = l₁ ++ b :: l₂ → ∀ x a y, f b = x ++ a :: y → Q a →
      (∃ c ∈ y, R a c) ∨ ∃ b' ∈ l₂, ∃ c ∈ f b', R a c) : HasAfter Q R (l.flatMap f) := by
  intro x a y hsplit hQ
  obtain ⟨l₁, b, l₂, x', y', hl, hf, -, rfl⟩ := flatMap_split hsplit
  rcases h l₁ b l₂ hl x' a y' hf hQ with ⟨c, hc, hR⟩ | ⟨b', hb', c, hc, hR⟩
  · exact ⟨c, List.mem_append_left _ hc, hR⟩
  · exact ⟨c, List.mem_append_right _ (List.mem_flatMap.mpr ⟨b', hb', hc⟩), hR⟩

theorem HasAfter.filter {p : α → Bool} (hl : HasAfter Q R l)
    (hp : ∀ a, Q a → ∀ b ∈ l, R a b → p b = true) : HasAfter Q R (l.filter p) := by
  intro x a y h hQ
  obtain ⟨l₁, l₂, hsplit, -, rfl⟩ := filter_split h
  obtain ⟨b, hb, hR⟩ := hl l₁ a l₂ hsplit hQ
  have hbl : b ∈ l := hsplit ▸ List.mem_append_right _ (List.mem_cons_of_mem _ hb)
  exact ⟨b, List.mem_filter.mpr ⟨hb, hp a hQ b hbl hR⟩, hR⟩

theorem HasAfter.not_getLast (hl : HasAfter Q R l) {a : α} (ha : l.getLast? = some a) : ¬ Q a := by
  intro hQ
  obtain ⟨init, rfl⟩ := List.getLast?_eq_some_iff.mp ha
  obtain ⟨b, hb, -⟩ := hl init a [] rfl hQ
  exact absurd hb (List.not_mem_nil)

end After

/-! ## The first least element -/

theorem FirstMin.mem {key : α → ℕ} {l : List α} {a : α} (h : FirstMin key l a) : a ∈ l := by
  obtain ⟨l₁, l₂, rfl, -, -⟩ := h
  exact List.mem_append_right _ List.mem_cons_self

theorem FirstMin.le {key : α → ℕ} {l : List α} {a : α} (h : FirstMin key l a) :
    ∀ b ∈ l, key a ≤ key b := by
  obtain ⟨l₁, l₂, rfl, h₁, h₂⟩ := h
  intro b hb
  rcases List.mem_append.mp hb with hb | hb
  · exact (h₁ b hb).le
  · rcases List.mem_cons.mp hb with rfl | hb
    · exact le_refl _
    · exact h₂ b hb

/-- Replacing the candidate at every smaller key ends at the first least element. -/
theorem firstMin_foldl (key : α → ℕ) (a : α) (l : List α) :
    FirstMin key (a :: l) (l.foldl (fun best b => if key b < key best then b else best) a) := by
  induction l using List.reverseRecOn with
  | nil => exact ⟨[], [], rfl, by simp, by simp⟩
  | append_singleton l b ih =>
    rw [List.foldl_append, List.foldl_cons, List.foldl_nil]
    generalize l.foldl _ a = best at ih ⊢
    by_cases hb : key b < key best
    · rw [if_pos hb]
      refine ⟨a :: l, [], rfl, fun c hc => ?_, by simp⟩
      exact lt_of_lt_of_le hb (ih.le c hc)
    · rw [if_neg hb]
      obtain ⟨l₁, l₂, hl, h₁, h₂⟩ := ih
      refine ⟨l₁, l₂ ++ [b], ?_, h₁, ?_⟩
      · rw [← List.cons_append, hl, List.append_assoc, List.cons_append]
      · intro c hc
        rcases List.mem_append.mp hc with hc | hc
        · exact h₂ c hc
        · rw [List.mem_singleton.mp hc]
          exact not_lt.mp hb

end SparkFrame.Lib
