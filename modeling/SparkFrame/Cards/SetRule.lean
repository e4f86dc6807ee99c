import SparkFrame.Cards.Shapes

/-!
# The set test and the rule for sets

The test compares neighbours and forgets at every joker what it has seen.

* `SetRule` : the rule, wherever the jokers fall;
* `KindLink`, `isCardsThreeOfKind_iff` : what the test accepts, in any order;
* `Bonded`, `bonded_of_chain` : what it accepts of sorted cards;
* `Bridged` : wild cards stand between two ranks;
* `isCardsThreeOfKind_iff_setRule` : **the test follows the rule exactly when no wild card stands
  between two ranks**; `set_acrossRanks` : a five, a wild seven and a nine.
-/

namespace SparkFrame.Cards

open PokerCard

/-- Three or four cards, two non-jokers or more, all non-jokers of one point and different colors. -/
structure SetRule (jp : Int) (cards : List PokerCard) : Prop where
  three : 3 ≤ cards.length
  four : cards.length ≤ 4
  two : 2 ≤ (plain jp cards).length
  oneRank : OneRank (plain jp cards)

/-- The cards below the wild point. -/
def below (jp : Int) (cards : List PokerCard) : List PokerCard :=
  (plain jp cards).filter fun c => decide ((c.point : Int) < jp)

/-- The non-jokers above the wild point. -/
def above (jp : Int) (cards : List PokerCard) : List PokerCard :=
  (plain jp cards).filter fun c => decide (jp < (c.point : Int))

/-- **Wild cards between two ranks.** Non-jokers on either side of the wild cards, each side a set of
its own. -/
structure Bridged (jp : Int) (cards : List PokerCard) : Prop where
  four : cards.length ≤ 4
  wild : ∃ w ∈ cards, (w.point : Int) = jp
  below_ne : below jp cards ≠ []
  above_ne : above jp cards ≠ []
  oneBelow : OneRank (below jp cards)
  oneAbove : OneRank (above jp cards)

/-! ## What the test accepts -/

/-- Two neighbours the set test lets pass. -/
def KindLink (jp : Int) (a b : PokerCard) : Prop :=
  isJoker a jp = false → isJoker b jp = false → a.point = b.point ∧ a.color ≠ b.color

variable {jp : Int} {cards : List PokerCard}

theorem kindLoop_eq_some_iff {last : PokerCard} {u n : Nat} {cs : List PokerCard} :
    kindLoop jp last (isJoker last jp) u cs = some n ↔
      (last :: cs).IsChain (KindLink jp) ∧ n = u + (plain jp cs).length := by
  induction cs generalizing last u with
  | nil => simp [kindLoop, plain, eq_comm]
  | cons c cs ih =>
    rw [kindLoop, List.isChain_cons_cons]
    by_cases hc : isJoker c jp = true
    · have ih' := @ih c u
      have hlink : KindLink jp last c := fun _ h => absurd hc (by simp [h])
      rw [hc] at ih'
      rw [if_pos hc, ih', plain_cons_of_isJoker hc, and_iff_right hlink]
    · have hc' := Bool.eq_false_iff.mpr hc
      have ih' := @ih c (u + 1)
      rw [hc'] at ih'
      rw [if_neg hc, plain_cons_of_not hc', List.length_cons]
      by_cases hlink : KindLink jp last c
      · rw [if_neg, ih', and_iff_right hlink, Nat.add_assoc, Nat.add_comm 1]
        rcases hl : isJoker last jp with _ | _
        · obtain ⟨h₁, h₂⟩ := hlink hl hc'
          simp [h₁, Ne.symm h₂]
        · simp
      · rw [if_pos]
        · simp [hlink]
        · have hl : isJoker last jp = false := by
            by_contra hl
            exact hlink fun h => absurd h hl
          have hne : c.point = last.point → c.color = last.color := by
            intro hp
            by_contra hcol
            exact hlink fun _ _ => ⟨hp.symm, Ne.symm hcol⟩
          by_cases hp : c.point = last.point
          · simp [hl, hne hp]
          · simp [hl, hp]

/-- **What the test accepts**, in any order. -/
theorem isCardsThreeOfKind_iff :
    isCardsThreeOfKind cards jp = true ↔ 3 ≤ cards.length ∧ cards.length ≤ 4 ∧
      cards.IsChain (KindLink jp) ∧ 2 ≤ (plain jp cards).length := by
  rcases cards with _ | ⟨first, rest⟩
  · simp [isCardsThreeOfKind]
  by_cases hsize : (first :: rest).length < 3 ∨ 4 < (first :: rest).length
  · rw [isCardsThreeOfKind, if_pos hsize]
    refine iff_of_false Bool.false_ne_true fun h => ?_
    omega
  rw [isCardsThreeOfKind, if_neg hsize]
  have hcount : (if isJoker first jp then 0 else 1) + (plain jp rest).length =
      (plain jp (first :: rest)).length := by
    by_cases hf : isJoker first jp = true
    · rw [if_pos hf, plain_cons_of_isJoker hf, Nat.zero_add]
    · rw [if_neg hf, plain_cons_of_not (Bool.eq_false_iff.mpr hf), List.length_cons, Nat.add_comm]
  rw [← hcount]
  rcases hloop : kindLoop jp first (isJoker first jp) (if isJoker first jp then 0 else 1) rest with
    _ | n
  · refine iff_of_false Bool.false_ne_true fun h => ?_
    rw [kindLoop_eq_some_iff.mpr ⟨h.2.2.1, rfl⟩] at hloop
    cases hloop
  · obtain ⟨hchain, rfl⟩ := kindLoop_eq_some_iff.mp hloop
    simp only [decide_eq_true_eq]
    exact ⟨fun h => ⟨by omega, by omega, hchain, h⟩, fun h => h.2.2.2⟩

/-! ## Sorted cards -/

/-- Two non-jokers of one set, or with wild cards between them. -/
def Bonded (jp : Int) (cards : List PokerCard) (a b : PokerCard) : Prop :=
  (a.point = b.point ∧ a.color ≠ b.color) ∨
    (∃ w ∈ cards, (w.point : Int) = jp) ∧ (a.point : Int) < jp ∧ jp < (b.point : Int)

theorem Bonded.mono {a b c : PokerCard} (h : Bonded jp cards a b) : Bonded jp (c :: cards) a b :=
  h.imp_right fun h => ⟨h.1.imp fun _ hw => ⟨List.mem_cons_of_mem _ hw.1, hw.2⟩, h.2⟩

theorem isJoker_eq_false_iff {c : PokerCard} :
    isJoker c jp = false ↔ (c.point : Int) ≠ jp ∧ c.point < JOKER1 := by
  rw [isJoker, decide_eq_false_iff_not, not_or, not_le]

theorem bonded_of_chain_cons {a : PokerCard} (hs : (a :: cards).Pairwise PokerCard.le)
    (hchain : (a :: cards).IsChain (KindLink jp)) (ha : isJoker a jp = false) :
    ∀ b ∈ plain jp cards, Bonded jp cards a b := by
  induction cards generalizing a with
  | nil => simp [plain]
  | cons c cards ih =>
    obtain ⟨hlink, hchain⟩ := List.isChain_cons_cons.mp hchain
    obtain ⟨hac, hs⟩ := List.pairwise_cons.mp hs
    have hac := hac c List.mem_cons_self
    have hcb := (List.pairwise_cons.mp hs).1
    by_cases hc : isJoker c jp = true
    · rw [plain_cons_of_isJoker hc]
      intro b hb
      obtain ⟨hb, hbj⟩ := mem_plain.mp hb
      have hcb := hcb b hb
      rw [isJoker_eq_false_iff] at ha hbj
      rw [isJoker, decide_eq_true_eq] at hc
      unfold PokerCard.le at hac hcb
      exact Or.inr ⟨⟨c, List.mem_cons_self, by omega⟩, by omega, by omega⟩
    · have hc' := Bool.eq_false_iff.mpr hc
      obtain ⟨hp, hcol⟩ := hlink ha hc'
      rw [plain_cons_of_not hc', List.forall_mem_cons]
      refine ⟨Or.inl ⟨hp, hcol⟩, fun b hb => ?_⟩
      have hcb := hcb b (mem_plain.mp hb).1
      rcases ih hs hchain hc' b hb with ⟨hp', hcol'⟩ | ⟨hw, hlow, hhigh⟩
      · -- colors ascend within a point
        unfold PokerCard.le at hac hcb
        exact Or.inl ⟨hp.trans hp', by omega⟩
      · exact Or.inr ⟨hw.imp fun _ hw => ⟨List.mem_cons_of_mem _ hw.1, hw.2⟩, by omega, hhigh⟩

/-- **What the test accepts of sorted cards**: any two of them are bonded. -/
theorem bonded_of_chain (hs : cards.Pairwise PokerCard.le)
    (hchain : cards.IsChain (KindLink jp)) : (plain jp cards).Pairwise (Bonded jp cards) := by
  induction cards with
  | nil => exact List.Pairwise.nil
  | cons a cards ih =>
    have htail := (ih (List.pairwise_cons.mp hs).2 hchain.tail).imp fun h => Bonded.mono (c := a) h
    by_cases ha : isJoker a jp = true
    · rwa [plain_cons_of_isJoker ha]
    · have ha' := Bool.eq_false_iff.mpr ha
      rw [plain_cons_of_not ha']
      exact List.pairwise_cons.mpr
        ⟨fun b hb => (bonded_of_chain_cons hs hchain ha' b hb).mono, htail⟩

theorem chain_of_sides (hs : cards.Pairwise PokerCard.le)
    (hbelow : OneRank (below jp cards)) (habove : OneRank (above jp cards))
    (hwild : ∀ a ∈ cards, ∀ b ∈ cards, (a.point : Int) < jp → jp < (b.point : Int) →
      ∃ w ∈ cards, (w.point : Int) = jp) : cards.IsChain (KindLink jp) := by
  induction cards with
  | nil => exact List.isChain_nil
  | cons x cards ih =>
    obtain ⟨hx, hs'⟩ := List.pairwise_cons.mp hs
    have hsub : (plain jp cards).Sublist (plain jp (x :: cards)) :=
      (List.sublist_cons_self x cards).filter _
    have ih := ih hs' (List.Pairwise.sublist (hsub.filter _) hbelow)
      (List.Pairwise.sublist (hsub.filter _) habove) fun a ha b hb hlow hhigh => by
        obtain ⟨w, hw, hwjp⟩ := hwild a (List.mem_cons_of_mem _ ha) b (List.mem_cons_of_mem _ hb)
          hlow hhigh
        rcases List.mem_cons.mp hw with rfl | hw
        · have hwa := hx a ha
          unfold PokerCard.le at hwa
          omega
        · exact ⟨w, hw, hwjp⟩
    rcases cards with _ | ⟨y, cards⟩
    · exact List.isChain_singleton x
    refine List.isChain_cons_cons.mpr ⟨fun hxj hyj => ?_, ih⟩
    have hxy := hx y List.mem_cons_self
    have hxp := (isJoker_eq_false_iff.mp hxj).1
    have hyp := (isJoker_eq_false_iff.mp hyj).1
    rcases lt_or_gt_of_ne hyp with hylow | hyhigh
    · have hxlow : (x.point : Int) < jp := by
        unfold PokerCard.le at hxy
        omega
      rw [below, plain_cons_of_not hxj, plain_cons_of_not hyj,
        List.filter_cons_of_pos (by simpa using hxlow),
        List.filter_cons_of_pos (by simpa using hylow)] at hbelow
      exact (List.pairwise_cons.mp hbelow).1 y List.mem_cons_self
    · rcases lt_or_gt_of_ne hxp with hxlow | hxhigh
      · -- the wild card would stand between the two
        obtain ⟨w, hw, hwjp⟩ := hwild x (by simp) y (by simp) hxlow hyhigh
        rcases List.mem_cons.mp hw with rfl | hw
        · exact absurd hwjp hxp
        · rcases List.mem_cons.mp hw with rfl | hw
          · exact absurd hwjp hyp
          · have hyw := (List.pairwise_cons.mp hs').1 w hw
            unfold PokerCard.le at hyw
            omega
      · rw [above, plain_cons_of_not hxj, plain_cons_of_not hyj,
          List.filter_cons_of_pos (by simpa using hxhigh),
          List.filter_cons_of_pos (by simpa using hyhigh)] at habove
        exact (List.pairwise_cons.mp habove).1 y List.mem_cons_self

/-! ## The test and the rule -/

namespace Bridged

theorem sides (h : Bridged jp cards) :
    ∃ a ∈ plain jp cards, ∃ b ∈ plain jp cards, (a.point : Int) < jp ∧ jp < (b.point : Int) := by
  obtain ⟨a, ha⟩ := List.exists_mem_of_ne_nil _ h.below_ne
  obtain ⟨b, hb⟩ := List.exists_mem_of_ne_nil _ h.above_ne
  obtain ⟨ha, hlow⟩ := List.mem_filter.mp ha
  obtain ⟨hb, hhigh⟩ := List.mem_filter.mp hb
  exact ⟨a, ha, b, hb, of_decide_eq_true hlow, of_decide_eq_true hhigh⟩

theorem not_setRule (h : Bridged jp cards) : ¬ SetRule jp cards := by
  intro hrule
  obtain ⟨a, ha, b, hb, hlow, hhigh⟩ := h.sides
  have hp := hrule.oneRank.point_eq a ha b hb
  omega

theorem two (h : Bridged jp cards) : 2 ≤ (plain jp cards).length := by
  obtain ⟨a, ha, b, hb, hlow, hhigh⟩ := h.sides
  by_contra hlen
  rcases hplain : plain jp cards with _ | ⟨x, _ | ⟨y, l⟩⟩
  · simp [hplain] at ha
  · rw [hplain, List.mem_singleton] at ha hb
    rw [ha] at hlow
    rw [hb] at hhigh
    omega
  · simp [hplain] at hlen

theorem accepted (h : Bridged jp cards) (hs : cards.Pairwise PokerCard.le) :
    isCardsThreeOfKind cards jp = true := by
  have htwo := h.two
  have hlen := length_wild_add_length_plain jp cards
  obtain ⟨w, hw, hwjp⟩ := h.wild
  have hwild : 0 < (Cards.wild jp cards).length :=
    List.length_pos_of_mem (mem_wild.mpr ⟨hw, by simp [isJoker, hwjp]⟩)
  exact isCardsThreeOfKind_iff.mpr ⟨by omega, h.four,
    chain_of_sides hs h.oneBelow h.oneAbove fun _ _ _ _ _ _ => h.wild, htwo⟩

end Bridged

theorem bridged_of_bonded (h4 : cards.length ≤ 4)
    (h : (plain jp cards).Pairwise (Bonded jp cards)) (hrank : ¬ OneRank (plain jp cards)) :
    Bridged jp cards := by
  refine ⟨h4, ?wild, ?below_ne, ?above_ne, ?oneBelow, ?oneAbove⟩
  case wild =>
    by_contra hno
    exact hrank (h.imp fun hab => hab.resolve_right fun hw => hno hw.1)
  case below_ne =>
    intro hnil
    refine hrank (h.imp_of_mem fun ha _ hab => hab.resolve_right fun hw => ?_)
    exact List.filter_eq_nil_iff.mp hnil _ ha (decide_eq_true hw.2.1)
  case above_ne =>
    intro hnil
    refine hrank (h.imp_of_mem fun _ hb hab => hab.resolve_right fun hw => ?_)
    exact List.filter_eq_nil_iff.mp hnil _ hb (decide_eq_true hw.2.2)
  case oneBelow =>
    refine (h.filter _).imp_of_mem fun _ hb hab => hab.resolve_right fun hw => ?_
    have hlow := of_decide_eq_true (List.mem_filter.mp hb).2
    omega
  case oneAbove =>
    refine (h.filter _).imp_of_mem fun ha _ hab => hab.resolve_right fun hw => ?_
    have hhigh := of_decide_eq_true (List.mem_filter.mp ha).2
    omega

/-- **The test follows the rule exactly when no wild card stands between two ranks.** -/
theorem isCardsThreeOfKind_iff_setRule (hs : cards.Pairwise PokerCard.le) :
    (isCardsThreeOfKind cards jp = true ↔ SetRule jp cards) ↔ ¬ Bridged jp cards := by
  constructor
  · intro h hbridge
    exact hbridge.not_setRule (h.mp (hbridge.accepted hs))
  · intro hbridge
    refine ⟨fun h => ?_, fun h => isCardsThreeOfKind_of_oneRank h.three h.four h.two h.oneRank⟩
    obtain ⟨h3, h4, hchain, h2⟩ := isCardsThreeOfKind_iff.mp h
    refine ⟨h3, h4, h2, ?_⟩
    by_contra hrank
    exact hbridge (bridged_of_bonded h4 (bonded_of_chain hs hchain) hrank)

/-- Three sevens, one of them for a printed joker. -/
theorem set_sevens :
    isCardsThreeOfKind [⟨1, 7⟩, ⟨2, 7⟩, ⟨0, 15⟩] 9 = true ↔
      SetRule 9 [⟨1, 7⟩, ⟨2, 7⟩, ⟨0, 15⟩] :=
  (isCardsThreeOfKind_iff_setRule (by decide)).mpr fun h => h.above_ne (by decide)

/-- **A five, a wild seven and a nine** pass the test. -/
theorem set_acrossRanks :
    ¬ ∀ (jp : Int) (cards : List PokerCard), cards.Pairwise PokerCard.le →
      (∀ c ∈ cards, c.isValidCard = true) →
      (isCardsThreeOfKind cards jp = true ↔ SetRule jp cards) := by
  intro h
  have hrule := (h 7 [⟨1, 5⟩, ⟨1, 7⟩, ⟨1, 9⟩] (by decide) (by decide)).mp (by decide)
  exact absurd hrule.oneRank (by unfold OneRank; decide)

end SparkFrame.Cards
