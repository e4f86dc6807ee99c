import SparkFrame.Cards.Partition

/-!
# What the checker says of an arrangement

* `Dealt` : a hand drawn from the pack;
* `Dealt.isPure_firstLife`, `Dealt.isCardsStraight_sort`, `Dealt.isCardsThreeOfKind_sort` : the melds
  of the search pass the tests of the checker, which sorts them first;
* `checkLoseDeclare_of_arrangement` : an arrangement without a set of more than four cards passes the
  checker with its own score; `checkLoseDeclare_ne_of_oversized` : one with such a set never does.
-/

namespace SparkFrame.Cards

open PokerCard SparkFrame.Lib CardGroup

/-- A hand drawn from the pack. -/
structure Dealt (hand : List PokerCard) : Prop where
  length_le : hand.length ≤ MAX_CARD_COUNT
  subperm : hand.Subperm twoDeck

namespace Dealt

variable {hand : List PokerCard}

theorem playable (h : Dealt hand) : Playable hand :=
  ⟨h.length_le, fun c hc => isValidCard_of_mem_twoDeck c (h.subperm.subset hc)⟩

theorem count_le (h : Dealt hand) (c : PokerCard) : hand.count c ≤ 2 :=
  (h.subperm.count_le c).trans (count_twoDeck_le c)

theorem mono {cards : List PokerCard} (h : Dealt hand) (hs : cards.Subperm hand) : Dealt cards :=
  ⟨hs.length_le.trans h.length_le, hs.trans h.subperm⟩

theorem remove (h : Dealt hand) (g : CardGroup) : Dealt (removeCards g hand) :=
  h.mono (removeCards_subperm g hand)

end Dealt

/-! ## What the checker says of an arrangement -/

/-- A set of more than four cards. -/
def Oversized (g : CardGroup) : Prop := g.type = GROUP_THREE_KIND ∧ 4 < g.cards.length

instance : DecidablePred Oversized := fun _ => inferInstanceAs (Decidable (_ ∧ _))

def HasOversized (c : CombinationInfo) : Prop := ∃ g ∈ c.cardGroup, Oversized g

instance : DecidablePred HasOversized := fun _ => inferInstanceAs (Decidable (∃ _ ∈ _, _))

section Groups

variable {jp : Int} {cards : List PokerCard} {g : CardGroup}

theorem Dealt.isCardsStraight_sort (h : Dealt cards) (hg : g ∈ straights jp cards) :
    isCardsStraight (sortCards g.cards) jp = true := by
  obtain ⟨H, J, hrun, hperm, -⟩ := straights_sound h.playable.valid h.count_le hg
  have hsub := (h.playable.straights_subperm hg).2
  exact hrun.isCardsStraight_sort (fun c hc => h.playable.valid c (hsub.subset hc)) hperm

/-- The arranger tests the cards as it listed them, the checker sorts them first. -/
theorem Dealt.isPure_firstLife (h : Dealt cards) (hg : g ∈ firstLives jp cards) :
    g.isPure = true := by
  obtain ⟨hst, hpure⟩ := mem_straights_of_firstLife hg
  have hstraight : g.isStraight = true := decide_eq_true (h.playable.straights_subperm hst).1
  obtain ⟨H, J, hrun, hperm, hsorted⟩ := straights_sound h.playable.valid h.count_le hst
  unfold isPure
  rw [hstraight, Bool.true_and]
  rcases hsorted with hsorted | hH
  · rw [sortCards_eq_self hsorted]
    exact hpure
  · -- jokers alone pass the test in no order
    have hwild : ∀ c ∈ g.cards, isJoker c jp = true := by
      intro c hc
      rw [hperm.mem_iff, hH] at hc
      exact hrun.wild c hc
    rw [isCardsPureStraight_of_wild hwild] at hpure
    cases hpure

theorem Dealt.isCardsThreeOfKind_sort (h : Dealt cards)
    (hg : g ∈ (freshFor jp cards).searchThreeOfKind cards) (h4 : g.cards.length ≤ 4) :
    isCardsThreeOfKind (sortCards g.cards) jp = true := by
  obtain ⟨K, J, hkind, -, hcards⟩ := kinds_sound h.count_le hg
  have hp : (plain jp (sortCards g.cards)).Perm K :=
    plain_of_perm (hcards ▸ sortCards_perm g.cards) hkind.plain hkind.wild
  refine isCardsThreeOfKind_of_oneRank ?_ ?_ ?_ (oneRank_perm hp.symm hkind.oneRank)
  · rw [length_sortCards, hcards, List.length_append]
    exact hkind.three
  · rw [length_sortCards]
    exact h4
  · rw [hp.length_eq]
    exact hkind.two

end Groups

/-- A group the checker lets pass, given both lives. -/
def Passes (jp : Int) (g : CardGroup) : Prop :=
  (g.isStraight = true ∧ isCardsStraight (sortCards g.cards) jp = true) ∨
  (g.type = GROUP_THREE_KIND ∧ isCardsThreeOfKind (sortCards g.cards) jp = true)

theorem Dealt.passes_straight {jp : Int} {cards : List PokerCard} {g : CardGroup} (h : Dealt cards)
    (hg : g ∈ straights jp cards) : Passes jp g :=
  Or.inl ⟨decide_eq_true (h.playable.straights_subperm hg).1, h.isCardsStraight_sort hg⟩

theorem Dealt.passes_meld {jp : Int} {cards : List PokerCard} {g : CardGroup} (h : Dealt cards)
    (hg : g ∈ melds jp cards) (hsmall : ¬ Oversized g) : Passes jp g := by
  unfold melds at hg
  rcases List.mem_append.mp hg with hg | hg
  · exact h.passes_straight hg
  · have ht := (kinds_subperm hg).1
    have h4 : g.cards.length ≤ 4 := not_lt.mp fun h4 => hsmall ⟨ht, h4⟩
    exact Or.inr ⟨ht, h.isCardsThreeOfKind_sort hg h4⟩

theorem Passes.type_ne {jp : Int} {g : CardGroup} (h : Passes jp g) : g.type ≠ GROUP_INVALID := by
  rcases h with ⟨hs, -⟩ | ⟨hk, -⟩
  · rw [of_decide_eq_true hs]
    decide
  · rw [hk]
    decide

theorem Passes.straightOk {jp : Int} {g : CardGroup} (h : Passes jp g) : g.straightOk jp = true := by
  unfold CardGroup.straightOk
  rcases h with ⟨-, hs⟩ | ⟨hk, -⟩
  · rw [hs, Bool.or_true]
  · have hno : g.isStraight = false := by
      unfold isStraight
      rw [hk]
      decide
    rw [hno]
    rfl

theorem Passes.accepts {jp : Int} {p s : Nat} {g : CardGroup} (h : Passes jp g) (hp : 1 ≤ p)
    (hs : g.isStraight = true ∨ 2 ≤ s) : g.accepts jp p s = true := by
  unfold CardGroup.accepts
  rcases h with ⟨hst, -⟩ | ⟨hk, hkind⟩
  · simp [hst, hp]
  · have hno : g.isStraight = false := by
      unfold isStraight
      rw [hk]
      decide
    have h2 : 2 ≤ s := hs.resolve_left (by rw [hno]; exact Bool.false_ne_true)
    simp [hk, hp, h2, hkind]

/-- The group of the cards left over, when there are some. -/
def leftGroup (left : List PokerCard) : List CardGroup :=
  if left = [] then [] else [{ type := GROUP_INVALID, cards := left }]

theorem mem_leftGroup {left : List PokerCard} {g : CardGroup} (hg : g ∈ leftGroup left) :
    g.type = GROUP_INVALID := by
  unfold leftGroup at hg
  by_cases hl : left = []
  · rw [if_pos hl] at hg
    exact absurd hg (List.not_mem_nil)
  · rw [if_neg hl, List.mem_singleton] at hg
    rw [hg]

theorem sum_leftover_leftGroup (jp : Int) (left : List PokerCard) :
    ((leftGroup left).map (leftover jp)).sum = cardScore left jp := by
  unfold leftGroup
  by_cases hl : left = []
  · rw [if_pos hl, hl]
    rfl
  · rw [if_neg hl, List.map_singleton, List.sum_singleton]
    exact if_pos rfl

theorem invalid_ok {jp : Int} {p s : Nat} {g : CardGroup} (h : g.type = GROUP_INVALID) :
    g.straightOk jp = true ∧ g.accepts jp p s = true := by
  have hno : g.isStraight = false := by
    unfold isStraight
    rw [h]
    decide
  unfold straightOk accepts
  rw [hno, h]
  exact ⟨rfl, rfl⟩

theorem checkLoseDeclare_of_passes {jp : Int} {f : CardGroup} {gs : List CardGroup}
    {left : List PokerCard} (hpure : f.isPure = true) (hpass : ∀ g ∈ f :: gs, Passes jp g)
    (hlives : ∀ g ∈ f :: gs, g.isStraight = true ∨ 2 ≤ (f :: gs).countP isStraight) :
    checkLoseDeclare (f :: gs ++ leftGroup left) jp = (true, cardScore left jp) := by
  rw [checkLoseDeclare_eq_true]
  constructor
  · intro g hg
    rcases List.mem_append.mp hg with hg | hg
    · have hp : 1 ≤ (f :: gs ++ leftGroup left).countP isPure :=
        List.countP_pos_iff.mpr ⟨f, List.mem_append_left _ List.mem_cons_self, hpure⟩
      have hle := (List.sublist_append_left (f :: gs) (leftGroup left)).countP_le (p := isStraight)
      refine ⟨(hpass g hg).straightOk, (hpass g hg).accepts hp ?_⟩
      exact (hlives g hg).imp_right fun h2 => h2.trans hle
    · exact invalid_ok (mem_leftGroup hg)
  · rw [List.map_append, List.sum_append, sum_leftover_leftGroup]
    have hzero : ((f :: gs).map (leftover jp)).sum = 0 := by
      refine List.sum_eq_zero fun n hn => ?_
      obtain ⟨g, hg, rfl⟩ := List.mem_map.mp hn
      exact if_neg (hpass g hg).type_ne
    rw [hzero, Nat.zero_add]

theorem comb_cardGroup (jp : Int) (second : Bool) (groups : List CardGroup) (left : List PokerCard) :
    (comb jp second groups left).cardGroup = groups ++ leftGroup left := rfl

/-- **An arrangement without an oversized set passes**, with its own score. -/
theorem checkLoseDeclare_of_arrangement {jp : Int} {hand : List PokerCard} (h : Dealt hand)
    {c : CombinationInfo} (hc : Arrangement jp hand c) (hsmall : ¬ HasOversized c) :
    checkLoseDeclare c.cardGroup jp = (true, c.score) := by
  cases hc with
  | noLife hnone =>
    rw [checkLoseDeclare_eq_true]
    refine ⟨?_, ?_⟩
    · intro g hg
      exact invalid_ok (by rw [List.mem_singleton.mp hg])
    · exact (Nat.add_zero _).symm
  | one f left hne hf htakes =>
    have hst := (mem_straights_of_firstLife hf).1
    refine checkLoseDeclare_of_passes (h.isPure_firstLife hf) ?_ ?_
    · rw [List.forall_mem_singleton]
      exact h.passes_straight hst
    · rw [List.forall_mem_singleton]
      exact Or.inl (decide_eq_true (h.playable.straights_subperm hst).1)
  | two f s rest left hf hs hrest hlen htakes =>
    have hst := (mem_straights_of_firstLife hf).1
    have h1 : f.isStraight = true := decide_eq_true (h.playable.straights_subperm hst).1
    have h2 : s.isStraight = true := decide_eq_true (h.playable.straights_subperm hs).1
    refine checkLoseDeclare_of_passes (h.isPure_firstLife hf) ?_ ?_
    · rw [List.forall_mem_cons, List.forall_mem_cons]
      refine ⟨h.passes_straight hst, h.passes_straight hs, ?_⟩
      intro g hg
      refine ((h.remove f).remove s).passes_meld (hrest g hg) fun hover => hsmall ⟨g, ?_, hover⟩
      rw [comb_cardGroup]
      exact List.mem_append_left _ (List.mem_cons_of_mem _ (List.mem_cons_of_mem _ hg))
    · intro g _
      rw [List.countP_cons_of_pos h1, List.countP_cons_of_pos h2]
      exact Or.inr (by omega)

theorem checkLoseDeclare_ne_of_oversized {jp : Int} {c : CombinationInfo} (h : HasOversized c)
    (score : Nat) : checkLoseDeclare c.cardGroup jp ≠ (true, score) := by
  intro hcheck
  obtain ⟨g, hg, htype, hlen⟩ := h
  have hkind := kindOk_of_accepts ((checkLoseDeclare_eq_true.mp hcheck).1 g hg).2
  unfold kindOk at hkind
  rw [htype, decide_eq_true rfl, Bool.not_true, Bool.false_or] at hkind
  have := (isCardsThreeOfKind_length hkind).2
  rw [length_sortCards] at this
  omega

end SparkFrame.Cards
