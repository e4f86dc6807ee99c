import SparkFrame.Cards.Straights

/-!
# The search for straights and the test

* `searchStraightFlush_iff` : **the groups found are, as multisets, the parts of the cards that the
  test accepts once sorted**; `searchStraightFlush_jokers` : a hand with a wild card and a printed
  joker.
-/

namespace SparkFrame.Cards

open PokerCard

variable {jp : Int} {cards T : List PokerCard}

theorem exists_isRun_of_accepted (hv : ∀ c ∈ T, c.isValidCard = true)
    (h : isCardsStraight (sortCards T) jp = true) :
    ∃ H J, IsRun jp H J ∧ (H ++ J).Perm T := by
  obtain ⟨H, hperm, hrise, hfits⟩ := (isCardsStraight_sort_iff hv).mp h
  refine ⟨H, wild jp T, ⟨hrise, fun c hc => ?_, fun c hc => (mem_wild.mp hc).2, hfits⟩, ?_⟩
  · exact (mem_plain.mp (hperm.subset hc)).2
  · exact (List.perm_append_comm.trans (hperm.append_left _)).trans (wild_append_plain_perm jp T)

/-- **The search finds what the test accepts.** -/
theorem searchStraightFlush_iff {self : Combination} (hdeck : cards.Subperm twoDeck)
    (hj : self.jokerCards = wild self.jokerPoint cards) (hs : HasSelections self) :
    (∃ g ∈ self.searchStraightFlush cards, g.cards.Perm T) ↔
      T.Subperm cards ∧ isCardsStraight (sortCards T) self.jokerPoint = true := by
  have hv : ∀ c ∈ cards, c.isValidCard = true := fun c hc =>
    isValidCard_of_mem_twoDeck c (hdeck.subset hc)
  have h2 : ∀ c, cards.count c ≤ 2 := fun c =>
    (List.Subperm.count_le hdeck c).trans (count_twoDeck_le c)
  have hmem : ∀ g, g ∈ self.searchStraightFlush cards ↔ g ∈ straights self.jokerPoint cards :=
    fun g => (mem_searchStraightFlush hs hj hv).trans (mem_straights hv).symm
  constructor
  · rintro ⟨g, hg, hperm⟩
    have hsub : T.Subperm cards := hperm.symm.subperm.trans
      ((mem_searchStraightFlush hs hj hv).mp hg).subperm
    obtain ⟨H, J, hrun, hparts, -⟩ := straights_sound hv h2 ((hmem g).mp hg)
    exact ⟨hsub, hrun.isCardsStraight_sort (fun c hc => hv c (hsub.subset hc))
      (hperm.symm.trans hparts)⟩
  · rintro ⟨hsub, htest⟩
    obtain ⟨H, J, hrun, hparts⟩ :=
      exists_isRun_of_accepted (fun c hc => hv c (hsub.subset hc)) htest
    obtain ⟨g, hg, -, hperm⟩ := straights_complete hv hrun (hparts.subperm.trans hsub)
    exact ⟨g, (hmem g).mpr hg, hperm.trans hparts⟩

/-- A five, a six, a wild nine and a printed joker, and the straight of the last three. -/
theorem searchStraightFlush_jokers :
    (∃ g ∈ (freshFor 9 [⟨1, 5⟩, ⟨1, 6⟩, ⟨3, 9⟩, ⟨0, 15⟩]).searchStraightFlush
        [⟨1, 5⟩, ⟨1, 6⟩, ⟨3, 9⟩, ⟨0, 15⟩], g.cards.Perm [⟨0, 15⟩, ⟨3, 9⟩, ⟨1, 6⟩]) ↔
      [PokerCard.mk 0 15, ⟨3, 9⟩, ⟨1, 6⟩].Subperm [⟨1, 5⟩, ⟨1, 6⟩, ⟨3, 9⟩, ⟨0, 15⟩] ∧
        isCardsStraight (sortCards [⟨0, 15⟩, ⟨3, 9⟩, ⟨1, 6⟩]) 9 = true := by
  have hdeck : [PokerCard.mk 1 5, ⟨1, 6⟩, ⟨3, 9⟩, ⟨0, 15⟩].Subperm twoDeck := by
    decide +kernel
  exact searchStraightFlush_iff hdeck rfl (freshFor_hasSelections 9 _)

end SparkFrame.Cards
