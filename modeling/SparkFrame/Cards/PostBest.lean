import SparkFrame.Cards.Layouts
import SparkFrame.Cards.LifeOrder

/-!
# The card posted and the score promised

* `achievable_of_left` : without one of the cards left over an arrangement is accepted with its own
  score less that card's;
* `achievable_of_erase`, `achievable_of_full` : without the card taken out of its melds a full
  arrangement is accepted with nothing left over but jokers;
* `postBestCard_achievable` : the score of `post_best_card` is reached without the card.
-/

namespace SparkFrame.Cards

open PokerCard SparkFrame.Lib Combination

section Melds

variable {jp : Int} {hand : List PokerCard} {g : CardGroup}

theorem Dealt.runOf (hd : Dealt hand) (hg : g ∈ straights jp hand) : RunOf jp g.cards := by
  obtain ⟨H, J, hrun, hperm, -⟩ := straights_sound hd.playable.valid hd.count_le hg
  exact ⟨H, J, hrun, hperm⟩

theorem Dealt.pureRun (hd : Dealt hand) (hg : g ∈ firstLives jp hand) : PureRun jp g.cards := by
  refine ⟨hd.runOf (mem_straights_of_firstLife hg).1, ?_⟩
  have hpure := hd.isPure_firstLife hg
  unfold CardGroup.isPure at hpure
  exact (Bool.and_eq_true _ _ ▸ hpure).2

theorem Dealt.wideMeld (hd : Dealt hand) (hg : g ∈ melds jp hand) : WideMeld jp g.cards := by
  unfold melds at hg
  rcases List.mem_append.mp hg with hg | hg
  · exact Or.inl (hd.runOf hg)
  · obtain ⟨K, J, hkind, h4, hcards⟩ := kinds_sound hd.count_le hg
    exact Or.inr ⟨K, J, hkind, h4, List.Perm.of_eq hcards⟩

theorem flatMap_cards (gs : List CardGroup) :
    gs.flatMap CardGroup.cards = (gs.map CardGroup.cards).flatten := List.flatMap_def

end Melds

/-! ## A card left over -/

section Left

variable {jp : Int} {hand : List PokerCard}

theorem cardScore_erase {cards : List PokerCard} {d : PokerCard} (hd : d ∈ cards) (jp : Int) :
    (cardScore cards jp : Int) - d.getScore jp = cardScore (cards.erase d) jp := by
  rw [cardScore_perm (List.perm_cons_erase hd) jp]
  unfold cardScore
  rw [List.map_cons, List.sum_cons, Nat.cast_add]
  omega

/-- **Without one of the cards left over**, a smaller hand is accepted with what the others cost. -/
theorem achievable_of_left (hdealt : Dealt hand) {c : CombinationInfo} (hc : Arrangement jp hand c)
    {d : PokerCard} (hd : d ∈ c.validCards) :
    d ∈ hand ∧ Achievable jp (hand.erase d) (cardScore (c.validCards.erase d) jp) := by
  have hmem : d ∈ hand := hc.validCards_subperm.subset hd
  have hv : ∀ x ∈ hand.erase d, x.isValidCard = true :=
    fun x hx => hdealt.playable.valid x (List.mem_of_mem_erase hx)
  have herase : ∀ {m left : List PokerCard}, (m ++ left).Perm hand → d ∈ left →
      (hand.erase d).Perm (m ++ left.erase d) := by
    intro m left hperm hdl
    refine erase_perm_of_perm (hperm.symm.trans ?_)
    exact ((List.perm_cons_erase hdl).append_left m).trans List.perm_middle
  refine ⟨hmem, ?_⟩
  cases hc with
  | noLife hnone => exact achievable_of_noLife jp (hand.erase d)
  | one f left hne hf htakes =>
    refine achievable_of_oneLife hv (hdealt.pureRun hf) (herase ?_ hd)
    have hperm := htakes.perm
    rwa [List.flatMap_cons, List.flatMap_nil, List.append_nil] at hperm
  | two f s rest left hf hs hrest hlen htakes =>
    have hmelds : ∀ T ∈ rest.map CardGroup.cards, WideMeld jp T := by
      intro T hT
      obtain ⟨g, hg, rfl⟩ := List.mem_map.mp hT
      exact ((hdealt.remove f).remove s).wideMeld (hrest g hg)
    refine achievable_of_twoLives hv (hdealt.pureRun hf) (hdealt.runOf hs) hmelds ?_
    have hperm := herase htakes.perm hd
    rw [List.flatMap_cons, List.flatMap_cons, flatMap_cards] at hperm
    simp only [List.append_assoc] at hperm
    exact hperm

end Left

/-! ## A card of a meld -/

section Full

variable {jp : Int} {hand : List PokerCard}

theorem erase_append_perm {l m cards : List PokerCard} {x : PokerCard} (hx : x ∈ m)
    (h : (l ++ (m ++ cards)).Perm hand) : (hand.erase x).Perm (l ++ (m.erase x ++ cards)) := by
  refine erase_perm_of_perm (h.symm.trans ?_)
  exact (((List.perm_cons_erase hx).append_right cards).append_left l).trans List.perm_middle

theorem posted_mem (jp : Int) {g : CardGroup} (h4 : 4 ≤ g.cards.length) : posted jp g ∈ g.cards := by
  rcases posted_eq jp h4 with ⟨-, hlast⟩ | ⟨-, hlast⟩
  · exact mem_sortCards.mp (mem_plain.mp (List.mem_of_getLast? hlast)).1
  · exact mem_sortCards.mp (mem_wild.mp (List.mem_of_getLast? hlast)).1

/-- Thirteen cards in four groups at most. -/
theorem exists_four {gs : List CardGroup} (h4 : gs.length ≤ 4)
    (h13 : 13 ≤ (gs.flatMap CardGroup.cards).length) : ∃ g ∈ gs, 4 ≤ g.cards.length := by
  by_contra hno
  have hall : ∀ n ∈ gs.map fun g => g.cards.length, n ≤ 3 := by
    intro n hn
    obtain ⟨g, hg, rfl⟩ := List.mem_map.mp hn
    by_contra h3
    exact hno ⟨g, hg, by omega⟩
  have hle := List.sum_le_card_nsmul _ 3 hall
  rw [List.length_map, smul_eq_mul] at hle
  rw [List.length_flatMap] at h13
  omega

/-- The second life takes three cards, so a first life has eleven at most, and one of four or more that
does not end in a joker ends in another card. -/
theorem plain_last_of_not_endsWild (hd : Dealt hand) {f s : CardGroup} {cards : List PokerCard}
    (hf : f ∈ firstLives jp hand) (hs : s ∈ straights jp hand)
    (hperm : (f.cards ++ (s.cards ++ cards)).Perm hand) (hwild : ¬ EndsWild jp f)
    (h4 : 4 ≤ f.cards.length) : ∀ x ∈ (sortCards f.cards).getLast?, isJoker x jp = false := by
  intro x hx
  by_contra hj
  have hsum := hperm.length_eq
  have hs3 := hd.three_le_of_mem_straights hs
  have h14 := hd.length_le
  simp only [List.length_append, MAX_CARD_COUNT] at hsum h14
  refine hwild ⟨(mem_straights_of_firstLife hf).2, h4, by omega, fun y hy => ?_⟩
  rw [Option.mem_def] at hx hy
  rw [hx, Option.some.injEq] at hy
  rw [← hy]
  exact Bool.not_eq_false _ ▸ hj

/-- **Without the card taken out of one of its melds** nothing but jokers is left over of a full
arrangement, if its first life does not end in a joker. -/
theorem achievable_of_erase (hd : Dealt hand) {f s g : CardGroup} {rest : List CardGroup}
    (hf : f ∈ firstLives jp hand) (hs : s ∈ straights jp hand)
    (hrest : ∀ k ∈ rest, k ∈ melds jp (removeCards s (removeCards f hand)))
    (htakes : Takes (f :: s :: rest) hand []) (hwild : ¬ EndsWild jp f) (hg : g ∈ f :: s :: rest)
    (h4 : 4 ≤ g.cards.length) : Achievable jp (hand.erase (posted jp g)) 0 := by
  have hperm := htakes.perm
  rw [List.append_nil] at hperm
  have hgsub : g.cards.Subperm hand := by
    have hflat : g.cards.Sublist ((f :: s :: rest).flatMap CardGroup.cards) := by
      rw [flatMap_cards]
      exact List.sublist_flatten_of_mem (List.mem_map_of_mem hg)
    exact hflat.subperm.trans hperm.subperm
  rw [List.flatMap_cons, List.flatMap_cons] at hperm
  have hx : posted jp g ∈ g.cards := posted_mem jp h4
  have hvg : ∀ c ∈ g.cards, c.isValidCard = true := fun c hc => hd.playable.valid c (hgsub.subset hc)
  have hv : ∀ c ∈ hand.erase (posted jp g), c.isValidCard = true :=
    fun c hc => hd.playable.valid c (List.mem_of_mem_erase hc)
  have hP := hd.pureRun hf
  have hS := hd.runOf hs
  have hR : ∀ T ∈ rest.map CardGroup.cards, WideMeld jp T := by
    intro T hT
    obtain ⟨k, hk, rfl⟩ := List.mem_map.mp hT
    exact ((hd.remove f).remove s).wideMeld (hrest k hk)
  change Achievable jp _ (cardScore [] jp)
  rcases List.mem_cons.mp hg with rfl | hg
  · have hlast := plain_last_of_not_endsWild hd hf hs hperm hwild h4
    refine achievable_of_twoLives hv (hP.erase_posted hvg h4 hlast) hS hR ?_
    rw [List.append_nil, ← flatMap_cards]
    exact erase_append_perm (l := []) hx hperm
  rcases List.mem_cons.mp hg with rfl | hg
  · refine achievable_of_twoLives hv hP (hS.erase_posted hvg h4) hR ?_
    rw [List.append_nil, ← flatMap_cards]
    exact erase_append_perm hx hperm
  · obtain ⟨before, after, rfl⟩ := List.append_of_mem hg
    have hR' : ∀ T ∈ before.map CardGroup.cards ++ g.cards.erase (posted jp g) ::
        after.map CardGroup.cards, WideMeld jp T := by
      rw [List.map_append, List.map_cons] at hR
      intro T hT
      rcases List.mem_append.mp hT with hT | hT
      · exact hR T (List.mem_append_left _ hT)
      · rcases List.mem_cons.mp hT with rfl | hT
        · exact (hR g.cards (by simp)).erase_posted hvg h4
        · exact hR T (List.mem_append_right _ (List.mem_cons_of_mem _ hT))
    refine achievable_of_twoLives hv hP hS hR' ?_
    rw [flatMap_cards, List.map_append, List.map_cons, List.flatten_append, List.flatten_cons,
      ← List.append_assoc s.cards, ← List.append_assoc f.cards] at hperm
    have herase := erase_append_perm hx hperm
    rw [List.append_nil, List.flatten_append, List.flatten_cons, ← List.append_assoc s.cards,
      ← List.append_assoc f.cards]
    exact herase

/-- **A full arrangement the search stops at** gives up a card: fourteen cards are in four melds at
most, so one has four cards, and the first life does not end in a joker, or an earlier arrangement
would have ended the search. -/
theorem achievable_of_full (hd : Dealt hand) (h14 : hand.length = 14) {c : CombinationInfo}
    (hc : c ∈ upTo (stops 1) (arrangements jp hand)) (hnil : c.validCards = []) (card : PokerCard) :
    postValidGroupBigestCard c.cardGroup jp card ∈ hand ∧
      Achievable jp (hand.erase (postValidGroupBigestCard c.cardGroup jp card)) 0 := by
  have hne : hand ≠ [] := List.ne_nil_of_length_pos (by omega)
  have hstop : stops 1 c = true := by
    have harr := arrangement_of_mem hd.playable (mem_of_mem_upTo hc)
    cases harr with
    | noLife hnone => exact absurd hnil hne
    | one f left hleft hf htakes => exact absurd hnil hleft
    | two f s rest left hf hs hrest hlen htakes =>
      obtain rfl : left = [] := hnil
      rfl
  obtain ⟨l₁, l₂, hsplit, hfirst⟩ := upTo_split hc hstop
  obtain ⟨f, s, rest, hf, hs, hrest, hlen, htakes, hgroups, hwild⟩ :=
    not_endsWild_of_full hd hne hsplit hfirst hnil
  have hperm := htakes.perm
  rw [List.append_nil] at hperm
  have hbig : ∃ g ∈ f :: s :: rest, 4 ≤ g.cards.length := by
    apply exists_four
    · simp only [List.length_cons]
      omega
    · rw [hperm.length_eq]
      omega
  rw [hgroups]
  obtain ⟨g, hg, h4, hpost⟩ := postValidGroupBigestCard_mem jp card hbig
  rw [hpost]
  refine ⟨hperm.mem_iff.mp ?_, achievable_of_erase hd hf hs hrest htakes hwild hg h4⟩
  exact List.mem_flatMap.mpr ⟨g, hg, posted_mem jp h4⟩

end Full

/-! ## The result -/

/-- **The card is in the hand and the score is reached without it**, for every sort `std::sort` may be,
every object, every pack hand of fourteen cards and every joker point. -/
theorem postBestCard_achievable (std : StdSort sortCombineFunc) (self : Combination)
    (hand : List PokerCard) (jp : Int) (card : PokerCard) (h14 : hand.length = 14)
    (hpack : hand.Subperm twoDeck) :
    ∃ (post : PokerCard) (score : Nat),
      (self.postBestCard std hand jp card).2 = some (post, (score : Int)) ∧
        post ∈ hand ∧ Achievable jp (hand.erase post) score := by
  have hd : Dealt hand := ⟨h14.le, hpack⟩
  have hne : std.sort (upTo (stops 1) (arrangements jp hand)) ≠ [] :=
    std.sort_ne_nil (upTo_ne_nil (arrangements_ne_nil jp hd (by omega)))
  have hres : ∃ post score, postSorted jp card (std.sort (upTo (stops 1) (arrangements jp hand))) =
      some (post, score) ∧ ∃ n : Nat, score = n ∧ post ∈ hand ∧
        Achievable jp (hand.erase post) n := by
    refine postSorted_rule hne card (fun c hc _ d hdl => ?_) (fun c hc hnil => ?_)
    · have harr := arrangement_of_mem hd.playable (mem_of_mem_upTo (std.mem_sort.mp hc))
      refine ⟨cardScore (c.validCards.erase d) jp, ?_, achievable_of_left hd harr hdl⟩
      rw [harr.score_eq]
      exact cardScore_erase hdl jp
    · exact ⟨0, rfl, achievable_of_full hd h14 (std.mem_sort.mp hc) hnil card⟩
  obtain ⟨post, score, hsorted, n, rfl, hmem, hach⟩ := hres
  refine ⟨post, n, ?_, hmem, hach⟩
  rw [postBestCard_eq, hsorted]

/-- Three straights, and three kings next to both jokers. -/
theorem postBestCard_achievable_kingsAndJokers :
    ∃ (post : PokerCard) (score : Nat),
      (Combination.postBestCard combineSort {} kingsAndJokers 0 blank).2 = some (post, (score : Int)) ∧
        post ∈ kingsAndJokers ∧ Achievable 0 (kingsAndJokers.erase post) score :=
  postBestCard_achievable combineSort {} kingsAndJokers 0 blank rfl
    (List.subperm_ext_iff.mpr (by decide +kernel))

end SparkFrame.Cards
