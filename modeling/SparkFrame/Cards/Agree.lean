import SparkFrame.Cards.SearchOrder

/-!
# The arranger against the checker

* `firstFull` : the first arrangement of the search that leaves nothing over;
* `not_hasOversized_of_picks` : while something is left over, no set of more than four cards is chosen;
* `agrees_iff_firstFull` : the checker accepts the result, with the same score, exactly when the
  first full arrangement, if there is one, has no such set.
-/

namespace SparkFrame.Cards

open PokerCard SparkFrame.Lib

/-! ## The choice -/

/-- The first arrangement of the search that leaves nothing over. -/
def firstFull (jp : Int) (hand : List PokerCard) : Option CombinationInfo :=
  (arrangements jp hand).find? fun c => c.validCards.isEmpty

section Choice

variable {jp : Int} {hand : List PokerCard}

theorem Arrangement.score_eq {c : CombinationInfo} (hc : Arrangement jp hand c) :
    c.score = cardScore c.validCards jp := by
  cases hc <;> rfl

theorem Arrangement.validCards_subperm {c : CombinationInfo} (hc : Arrangement jp hand c) :
    c.validCards.Subperm hand := by
  cases hc with
  | noLife => exact List.Subperm.refl _
  | one f left hne hf htakes =>
    exact (List.sublist_append_right _ _).subperm.trans htakes.perm.subperm
  | two f s rest left hf hs hrest hlen htakes =>
    exact (List.sublist_append_right _ _).subperm.trans htakes.perm.subperm

/-- What is left over costs nothing only when it is jokers. -/
theorem jokers_of_cardScore_eq_zero {cards : List PokerCard}
    (hv : ∀ c ∈ cards, c.isValidCard = true) (h : cardScore cards jp = 0) :
    ∀ c ∈ cards, isJoker c jp = true := by
  intro c hc
  by_contra hj
  have hpos := getScore_pos (hv c hc) (Bool.eq_false_iff.mpr hj)
  have hle := List.single_le_sum (fun n _ => Nat.zero_le n) _ (List.mem_map_of_mem (f :=
    fun c : PokerCard => c.getScore jp) hc)
  unfold cardScore at h
  omega

theorem pushed_eq_arrangements (h : firstFull jp hand = none) :
    pushed jp hand = arrangements jp hand := by
  refine upTo_eq_self (List.any_eq_false.mpr fun c hc hstop => ?_)
  have hempty := List.find?_eq_none.mp h c hc
  unfold stops at hstop
  rw [Bool.and_eq_true, decide_eq_true_eq, Nat.le_zero] at hstop
  exact hempty (List.isEmpty_iff.mpr (List.eq_nil_of_length_eq_zero hstop.2))

/-- **While something is left over, no arrangement with an oversized set is chosen.** -/
theorem not_hasOversized_of_picks (h : Playable hand) (hfull : firstFull jp hand = none)
    {c : CombinationInfo} (hc : Picks (pushed jp hand) c) : ¬ HasOversized c := by
  rw [pushed_eq_arrangements hfull] at hc
  rcases hc with ⟨hlast, h0⟩ | hmin
  · have hmem : c ∈ arrangements jp hand := List.mem_of_getLast? hlast
    have harr := arrangement_of_mem h hmem
    intro hover
    refine (arrangements_hasAfter h).not_getLast hlast ⟨?_, ?_, hover⟩
    · intro hnil
      exact List.find?_eq_none.mp hfull c hmem (List.isEmpty_iff.mpr hnil)
    · rw [harr.score_eq] at h0
      exact jokers_of_cardScore_eq_zero (h.mono harr.validCards_subperm).valid h0
  · exact (arrangements_hasBefore h).not_firstMin (fun _ _ hle => hle) hmin

theorem mem_of_picks {c : CombinationInfo} (hc : Picks (pushed jp hand) c) :
    c ∈ arrangements jp hand := by
  rcases hc with ⟨hlast, -⟩ | hmin
  · exact mem_of_mem_upTo (List.mem_of_getLast? hlast)
  · exact mem_of_mem_upTo hmin.mem

/-- With a first life, the search stops at the arrangements that leave nothing over. -/
theorem stops_eq_isEmpty (hfl : firstLives jp hand ≠ []) {c : CombinationInfo}
    (hc : Arrangement jp hand c) : stops 0 c = c.validCards.isEmpty := by
  cases hc with
  | noLife hnone => exact absurd hnone hfl
  | one f left hne hf htakes => exact (List.isEmpty_eq_false_iff.mpr hne).symm
  | two f s rest left hf hs hrest hlen htakes => cases left <;> rfl

theorem defaultDeclare_of_firstFull (self : Combination) (h : Playable hand) {c : CombinationInfo}
    (hfull : firstFull jp hand = some c) :
    (self.defaultDeclare hand jp).2 = some (0, c.cardGroup) ∧ c.score = 0 := by
  have hmem : c ∈ arrangements jp hand := List.mem_of_find?_eq_some hfull
  have hnil : c.validCards = [] := by
    unfold firstFull at hfull
    have hempty := List.find?_some hfull
    exact List.isEmpty_iff.mp hempty
  have h0 : c.score = 0 := by
    rw [(arrangement_of_mem h hmem).score_eq, hnil]
    rfl
  refine ⟨?_, h0⟩
  rw [defaultDeclare_eq]
  refine result_of_getLast ?_ h0
  by_cases hfl : firstLives jp hand = []
  · have hall : arrangements jp hand = [noLifeComb jp hand] := if_pos hfl
    rw [hall, List.mem_singleton] at hmem
    unfold pushed
    rw [hall, hmem]
    rfl
  · refine upTo_of_find? ?_
    rw [← hfull]
    exact List.find?_congr fun c' hc' => stops_eq_isEmpty hfl (arrangement_of_mem h hc')

end Choice

/-- With the first full arrangement at hand the two agree unless it has a set of more than four
cards. -/
theorem agrees_iff_firstFull (self : Combination) (hand : List PokerCard) (jp : Int)
    (hlen : hand.length ≤ MAX_CARD_COUNT) (hpack : hand.Subperm twoDeck) :
    (∀ score groups, (self.defaultDeclare hand jp).2 = some (score, groups) →
      checkLoseDeclare groups jp = (true, score)) ↔
    ∀ c, firstFull jp hand = some c → ∀ g ∈ c.cardGroup, g.type = GROUP_THREE_KIND →
      g.cards.length ≤ 4 := by
  have hdealt : Dealt hand := ⟨hlen, hpack⟩
  constructor
  · intro hagree c hfull g hg ht
    by_contra h4
    have hres := (defaultDeclare_of_firstFull self hdealt.playable hfull).1
    exact checkLoseDeclare_ne_of_oversized ⟨g, hg, ht, not_le.mp h4⟩ 0 (hagree 0 _ hres)
  · intro hsmall score groups hres
    rcases hfull : firstFull jp hand with _ | c
    · obtain ⟨c, hpick, rfl, rfl⟩ := defaultDeclare_picks hres
      have hmem : c ∈ arrangements jp hand := mem_of_picks hpick
      exact checkLoseDeclare_of_arrangement hdealt (arrangement_of_mem hdealt.playable hmem)
        (not_hasOversized_of_picks hdealt.playable hfull hpick)
    · obtain ⟨hres', h0⟩ := defaultDeclare_of_firstFull self hdealt.playable hfull
      rw [hres', Option.some.injEq, Prod.mk.injEq] at hres
      have hmem : c ∈ arrangements jp hand := List.mem_of_find?_eq_some hfull
      have hcheck := checkLoseDeclare_of_arrangement hdealt
        (arrangement_of_mem hdealt.playable hmem)
        (fun ⟨g, hg, ht, h4⟩ => absurd (hsmall c hfull g hg ht) (not_le.mpr h4))
      rw [← hres.1, ← hres.2, hcheck, h0]

/-- A pure straight, two more straights and three kings with two jokers. -/
def kingsAndJokers : List PokerCard :=
  [⟨1, 3⟩, ⟨1, 4⟩, ⟨1, 5⟩, ⟨2, 6⟩, ⟨2, 7⟩, ⟨2, 8⟩, ⟨4, 10⟩, ⟨4, 11⟩, ⟨4, 12⟩,
    ⟨1, 13⟩, ⟨2, 13⟩, ⟨3, 13⟩, ⟨0, 15⟩, ⟨0, 16⟩]

end SparkFrame.Cards
