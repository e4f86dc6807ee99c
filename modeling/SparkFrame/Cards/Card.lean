import Mathlib

/-!
# Cards, groups and scores

* `PokerCard`, `CardGroup` : the value types of the card code; `isValidCard`, `getScore`;
* `isJoker` : printed jokers and the wild point;
* `sortCards` : `std::sort` by `operator<`; its sortedness, permutation and uniqueness;
* `cardScore` : `caculate_card_score`; additive and invariant under permutation;
* `twoDeck` : the 108-card pack of `init_cards`.
-/

namespace SparkFrame.Cards

/-- A card: `m_color` (1 to 4, 0 for printed jokers) and `m_point`. -/
structure PokerCard where
  color : Nat
  point : Nat
deriving DecidableEq, Repr, Inhabited

namespace PokerCard

def spades : Nat := 1
def diamonds : Nat := 4
def P2 : Nat := 2
def P3 : Nat := 3
def A : Nat := 14
def JOKER1 : Nat := 15
def JOKER2 : Nat := 16

/-- The value a default-constructed card has. -/
def blank : PokerCard := ⟨0, 0⟩

def isValidCard (c : PokerCard) : Bool :=
  if JOKER1 ≤ c.point then decide (c.point ≤ JOKER2)
  else decide (spades ≤ c.color ∧ c.color ≤ diamonds ∧ P2 ≤ c.point ∧ c.point ≤ A)

/-- `get_score`: face value up to 10, pictures and aces 10, jokers of either kind 0. -/
def getScore (c : PokerCard) (jokerPoint : Int) : Nat :=
  if P2 ≤ c.point ∧ c.point ≤ A ∧ (c.point : Int) ≠ jokerPoint then
    if c.point > 10 then 10 else c.point
  else 0

/-- The total order behind `operator<`: point first, then color. -/
def le (a b : PokerCard) : Prop := a.point < b.point ∨ (a.point = b.point ∧ a.color ≤ b.color)

instance : DecidableRel le := fun _ _ => inferInstanceAs (Decidable (_ ∨ _))

theorem le_total (a b : PokerCard) : le a b ∨ le b a := by unfold le; omega

theorem le_trans {a b c : PokerCard} (h₁ : le a b) (h₂ : le b c) : le a c := by
  unfold le at *; omega

theorem le_antisymm {a b : PokerCard} (h₁ : le a b) (h₂ : le b a) : a = b := by
  obtain ⟨ca, pa⟩ := a
  obtain ⟨cb, pb⟩ := b
  simp only [le, mk.injEq] at *
  omega

instance : Std.Total le := ⟨le_total⟩
instance : IsTrans PokerCard le := ⟨fun _ _ _ => le_trans⟩
instance : Std.Antisymm le := ⟨fun _ _ => le_antisymm⟩

end PokerCard

open PokerCard

/-- `CardGroup::m_type`; any other value a client sends stays a plain integer. -/
def GROUP_INVALID : Int := 0
def GROUP_STAIGHT : Int := 1
def GROUP_THREE_KIND : Int := 2

structure CardGroup where
  type : Int := 0
  cards : List PokerCard
deriving DecidableEq, Repr

def MAX_CARD_COUNT : Nat := 14

/-- `Combination::is_joker`: the wild point or a printed joker. -/
def isJoker (c : PokerCard) (jokerPoint : Int) : Bool :=
  decide ((c.point : Int) = jokerPoint ∨ JOKER1 ≤ c.point)

/-- `std::sort` and `std::list::sort` with `operator<`. -/
def sortCards (cards : List PokerCard) : List PokerCard := cards.insertionSort PokerCard.le

theorem sortCards_perm (cards : List PokerCard) : (sortCards cards).Perm cards :=
  List.perm_insertionSort _ cards

theorem sortCards_sorted (cards : List PokerCard) : (sortCards cards).Pairwise PokerCard.le :=
  List.pairwise_insertionSort _ cards

@[simp] theorem length_sortCards (cards : List PokerCard) :
    (sortCards cards).length = cards.length := (sortCards_perm cards).length_eq

@[simp] theorem mem_sortCards {c : PokerCard} {cards : List PokerCard} :
    c ∈ sortCards cards ↔ c ∈ cards := (sortCards_perm cards).mem_iff

/-- Equal cards are indistinguishable, so a sorted arrangement is unique. -/
theorem eq_of_perm_of_sorted {l₁ l₂ : List PokerCard} (hp : l₁.Perm l₂)
    (h₁ : l₁.Pairwise PokerCard.le) (h₂ : l₂.Pairwise PokerCard.le) : l₁ = l₂ :=
  hp.eq_of_pairwise (fun _ _ _ _ => PokerCard.le_antisymm) h₁ h₂

theorem sortCards_eq_of_perm {l₁ l₂ : List PokerCard} (h : l₁.Perm l₂) :
    sortCards l₁ = sortCards l₂ :=
  eq_of_perm_of_sorted ((sortCards_perm l₁).trans (h.trans (sortCards_perm l₂).symm))
    (sortCards_sorted l₁) (sortCards_sorted l₂)

theorem sortCards_eq_self {l : List PokerCard} (h : l.Pairwise PokerCard.le) : sortCards l = l :=
  eq_of_perm_of_sorted (sortCards_perm l) (sortCards_sorted l) h

@[simp] theorem sortCards_idem (l : List PokerCard) : sortCards (sortCards l) = sortCards l :=
  sortCards_eq_self (sortCards_sorted l)

/-! ## Scores -/

/-- `caculate_card_score`. -/
def cardScore (cards : List PokerCard) (jokerPoint : Int) : Nat :=
  (cards.map (·.getScore jokerPoint)).sum

@[simp] theorem cardScore_nil (jp : Int) : cardScore [] jp = 0 := rfl

@[simp] theorem cardScore_append (l₁ l₂ : List PokerCard) (jp : Int) :
    cardScore (l₁ ++ l₂) jp = cardScore l₁ jp + cardScore l₂ jp := by simp [cardScore]

theorem cardScore_perm {l₁ l₂ : List PokerCard} (h : l₁.Perm l₂) (jp : Int) :
    cardScore l₁ jp = cardScore l₂ jp := (h.map _).sum_nat

theorem cardScore_le_of_subperm {l₁ l₂ : List PokerCard} (h : l₁.Subperm l₂) (jp : Int) :
    cardScore l₁ jp ≤ cardScore l₂ jp := by
  obtain ⟨l, hp, hs⟩ := h
  rw [← cardScore_perm hp jp]
  exact (hs.map _).sum_le_sum (by simp)

theorem getScore_of_isJoker {c : PokerCard} {jp : Int} (h : isJoker c jp = true) :
    c.getScore jp = 0 := by
  simp only [isJoker, decide_eq_true_eq] at h
  unfold PokerCard.getScore
  split
  · rename_i hc
    simp only [JOKER1, A] at h hc
    omega
  · rfl

theorem getScore_pos {c : PokerCard} {jp : Int} (hv : c.isValidCard = true)
    (h : isJoker c jp = false) : 0 < c.getScore jp := by
  simp only [isJoker, decide_eq_false_iff_not, not_or, not_le] at h
  simp only [PokerCard.isValidCard, if_neg (not_le.mpr h.2), decide_eq_true_eq] at hv
  rw [PokerCard.getScore, if_pos ⟨hv.2.2.1, hv.2.2.2, h.1⟩]
  simp only [P2] at hv
  split <;> omega

theorem cardScore_eq_zero_of_jokers {l : List PokerCard} {jp : Int}
    (h : ∀ c ∈ l, isJoker c jp = true) : cardScore l jp = 0 :=
  List.sum_eq_zero (by simpa using fun c hc => getScore_of_isJoker (h c hc))

/-! ## The pack -/

/-- `init_cards`: every suited card twice, then each printed joker twice, with color 0. -/
def twoDeck : List PokerCard :=
  ((List.range 4).flatMap fun i => (List.range 13).flatMap fun j =>
    [⟨i + 1, j + 2⟩, ⟨i + 1, j + 2⟩]) ++ [⟨0, 15⟩, ⟨0, 15⟩, ⟨0, 16⟩, ⟨0, 16⟩]

theorem isValidCard_of_mem_twoDeck : ∀ c ∈ twoDeck, c.isValidCard = true := by decide +kernel

theorem count_twoDeck_le (c : PokerCard) : twoDeck.count c ≤ 2 := by
  by_cases h : c ∈ twoDeck
  · have hall : ∀ c ∈ twoDeck, twoDeck.count c ≤ 2 := by decide +kernel
    exact hall c h
  · simp [List.count_eq_zero_of_not_mem h]

end SparkFrame.Cards
