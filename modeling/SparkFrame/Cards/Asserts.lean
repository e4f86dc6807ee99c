import SparkFrame.Cards.LifeOrder
import SparkFrame.Cards.Post
import SparkFrame.Lib.Checked

/-!
# The assertions of the card code

The searches again, with what the code asserts and the containers it reaches into: `none` is a failed
assertion, a copy past the end of the array, or the front or back of an empty list.

* `searchStraightFlush?`, `searchThreeOfKind?`, `removeCardGroup?` : the searches;
* `searchAllGroup?`, `defaultDeclare?`, `postBestCard?` : the nested loops and the two results;
* `searchStraightFlush?_eq`, `searchThreeOfKind?_eq`, `removeCardGroup?_eq` : no check fails on
  fourteen cards or fewer;
* `thirdBody?_eq` to `fistlifeBody?_eq` : every meld takes three cards, so fourteen leave two behind
  the fourth;
* `assertions_hold` : **no check fails**, and the results are those of the code without checks.
-/

namespace SparkFrame.Cards

open PokerCard SparkFrame.Lib

namespace Combination

section Searches

variable (self : Combination)

/-! ## Straights -/

/-- `to_straight_fill_joker_num` with `assert(!cards.empty())`. -/
def toStraightFillJokerNum? (cards : List PokerCard) : Option (Int × Int) := do
  guard (cards ≠ [])
  return self.toStraightFillJokerNum cards

def combineWithJokerCard? (allCards : List PokerCard) : Option (List CardGroup) := do
  let (minFillNum, maxFillNum) ← self.toStraightFillJokerNum? allCards
  if minFillNum = 0 then return []
  else return (List.range (maxFillNum + 1 - minFillNum).toNat).flatMap fun (d : Nat) =>
    (self.jokerCombines.filter fun j => decide ((j.length : Int) = minFillNum + d)).map fun j =>
      { type := GROUP_STAIGHT, cards := sortCards (allCards ++ j) }

/-- The round of `search_straight_flush_select_n` for one selection. -/
def straightRound? (hand : List PokerCard) : Option (List CardGroup) := do
  let pureGroup :=
    if isCardsPureStraight hand then [{ type := GROUP_STAIGHT, cards := hand }] else []
  let groups ← self.combineWithJokerCard? hand
  if 1 < hand.length then
    let back ← hand.getLast?
    if back.point = A then
      let lowGroups ← self.combineWithJokerCard? (back :: hand.dropLast)
      return pureGroup ++ groups ++ lowGroups
    else return pureGroup ++ groups ++ []
  else return pureGroup ++ groups ++ []

/-- `assert(select_n >= 1 && select_n <= 14)` comes before the size is looked at. -/
def searchStraightFlushSelectN? (allCards : List PokerCard) (selectN : Nat) :
    Option (List CardGroup) := do
  guard (1 ≤ selectN ∧ selectN ≤ 14)
  if allCards.length < selectN then return []
  else collect self.straightRound? (selectCardCombine allCards selectN)

def searchStraightFlushI? (flushCards repeatCard : List PokerCard) : Option (List CardGroup) := do
  let groups ← collect (self.searchStraightFlushSelectN? flushCards)
    (List.range' 1 (flushCards.length + self.jokerCards.length))
  return groups ++ (List.range' 1 repeatCard.length).flatMap fun i =>
    ((selectCardCombine repeatCard i).filter isCardsPureStraight).map fun cards =>
      { type := GROUP_STAIGHT, cards := cards }

def searchStraightFlush? (allCards : List PokerCard) : Option (List CardGroup) := do
  let groups ← collect (fun col =>
    let (popCards, popRepeatCards) :=
      self.popFlush (sortCards (allCards.filter fun c => decide (c.color = col)))
    self.searchStraightFlushI? popCards popRepeatCards) (flushColors allCards)
  return groups ++ (self.jokerCombines.filter fun j => decide (3 ≤ j.length)).map fun j =>
    { type := GROUP_STAIGHT, cards := j }

/-! ## Sets -/

/-- `search_three_of_kind_select_n` with `assert(select_n >= 2 && select_n <= 4)`. -/
def searchThreeOfKindSelectN? (allCards : List PokerCard) (selectN : Nat) :
    Option (List CardGroup) := do
  guard (2 ≤ selectN ∧ selectN ≤ 4)
  return self.searchThreeOfKindSelectN allCards selectN

def searchThreeOfKindI? (allCards repeatCard : List PokerCard) : Option (List CardGroup) := do
  let groups ← collect (self.searchThreeOfKindSelectN? allCards) (List.range' 2 3)
  return groups ++ (List.range' 3 2).flatMap fun i =>
    (selectCardCombine repeatCard i).map fun cards => { type := GROUP_THREE_KIND, cards := cards }

def kindSearchLoop? : List PokerCard → List PokerCard → List PokerCard → Option (List CardGroup)
  | [], popCards, popRepeatCards =>
    if 2 ≤ popCards.length then self.searchThreeOfKindI? popCards popRepeatCards else some []
  | c :: leftCards, popCards, popRepeatCards =>
    if (popCards = [] ∨ popCards.head?.map point = some c.point) ∧
        isJoker c self.jokerPoint = false then
      if c ∈ popCards then kindSearchLoop? leftCards popCards (popRepeatCards ++ [c])
      else kindSearchLoop? leftCards (popCards ++ [c]) popRepeatCards
    else do
      let groups ←
        (if 2 ≤ popCards.length then self.searchThreeOfKindI? popCards popRepeatCards else some [])
      let rest ← kindSearchLoop? leftCards [c] []
      return groups ++ rest

def searchThreeOfKind? (allCards : List PokerCard) : Option (List CardGroup) :=
  self.kindSearchLoop? (sortCards allCards) [] []

end Searches

end Combination

/-- `remove_card_group`: the cards are copied into the array once for every group. -/
def removeCardGroup? (allCards : List PokerCard) (cardGroup : List CardGroup) :
    Option (List CardGroup) :=
  collect (fun g => do
    guard (allCards.length ≤ MAX_CARD_COUNT)
    let arrCard := (allCards ++ List.replicate MAX_CARD_COUNT blank).take MAX_CARD_COUNT
    return if isInCards arrCard g.cards then [g] else []) cardGroup

namespace Combination

/-! ## The nested loops -/

/-- One round of the loop over `all_group3`, with `assert(cards4.size() > 0 && cards4.size() < 3)`. -/
def thirdBody? (stop : Nat) (it itSecond it2 : CardGroup) (cards3 : List PokerCard) (it3 : CardGroup)
    (s : SearchState) : Option (SearchState × Bool) := do
  let cards4 := removeCards it3 cards3
  if cards4 = [] then return (s.push (fullComb [it, itSecond, it2, it3]), decide (0 ≤ stop))
  else
    guard (0 < cards4.length ∧ cards4.length < 3)
    return (s.push (s.self.restComb [it, itSecond, it2, it3] cards4),
      decide (0 ≤ stop) && decide (cards4.length ≤ stop))

def secondBody? (stop : Nat) (it itSecond : CardGroup) (cards2 : List PokerCard)
    (allGroup2 : List CardGroup) (it2 : CardGroup) (s : SearchState) :
    Option (SearchState × Bool) := do
  let cards3 := removeCards it2 cards2
  if cards3 = [] then return (s.push (fullComb [it, itSecond, it2]), decide (0 ≤ stop))
  else
    let allGroup3 ← removeCardGroup? cards3 allGroup2
    if allGroup3 = [] then
      return (s.push (s.self.restComb [it, itSecond, it2] cards3),
        decide (0 ≤ stop) && decide (cards3.length ≤ stop))
    else untilReturn? (thirdBody? stop it itSecond it2 cards3) allGroup3 s

def secondlifeBody? (stop : Nat) (it : CardGroup) (cards1 jokerCards1 : List PokerCard)
    (itSecond : CardGroup) (s : SearchState) : Option (SearchState × Bool) := do
  let cards2 := removeCards itSecond cards1
  let jokerCards2 := removeCards itSecond jokerCards1
  if cards2 = [] then return (s.push (fullComb [it, itSecond]), decide (0 ≤ stop))
  else
    let self :=
      if s.self.jokerCards ≠ jokerCards2 then
        { s.self with
          jokerCards := jokerCards2
          jokerCombines := caculateAllCardsCombines jokerCards2 1 jokerCards2.length }
      else s.self
    let s := { s with self := self }
    let straights ← self.searchStraightFlush? cards2
    let kinds ← self.searchThreeOfKind? cards2
    let allGroup2 := straights ++ kinds
    if allGroup2 = [] then
      return (s.push (self.restComb [it, itSecond] cards2),
        decide (0 ≤ stop) && decide (cards2.length ≤ stop))
    else untilReturn? (secondBody? stop it itSecond cards2 allGroup2) allGroup2 s

def fistlifeBody? (stop : Nat) (allCards allJokerCards : List PokerCard) (straiGroup : List CardGroup)
    (it : CardGroup) (s : SearchState) : Option (SearchState × Bool) := do
  let cards1 := removeCards it allCards
  let jokerCards1 := removeCards it allJokerCards
  if cards1 = [] then return (s, false)
  else
    let secondlifeGroup ← removeCardGroup? cards1 straiGroup
    if secondlifeGroup = [] then
      let (oneGroup, score) := s.self.genValidCardGroup cards1
      return (s.push { isHasFirtlife := true, validCards := cards1, score := score,
                       cardGroup := [it, oneGroup] }, false)
    else untilReturn? (secondlifeBody? stop it cards1 jokerCards1) secondlifeGroup s

def searchAllGroup? (self : Combination) (allCards : List PokerCard) (validCardNumStop : Nat) :
    Option SearchState := do
  let allJokerCards := self.searchJokerCards allCards
  let self := { self with
    jokerCards := allJokerCards
    jokerCombines := caculateAllCardsCombines allJokerCards 1 allJokerCards.length }
  let straiGroup ← self.searchStraightFlush? allCards
  let fistlifeGroup := searchPureStraightFlush straiGroup
  let s : SearchState := { self := self, cardCombs := [] }
  if fistlifeGroup = [] then
    let (oneGroup, score) := self.genValidCardGroup allCards
    return s.push { validCards := allCards, score := score, cardGroup := [oneGroup] }
  else
    let (s, _) ← untilReturn? (fistlifeBody? validCardNumStop allCards allJokerCards straiGroup)
      fistlifeGroup s
    return s

/-! ## The results -/

/-- `default_declare` with `assert(!card_combs.empty())`, its `back()` and its `front()`. -/
def defaultDeclare? (self : Combination) (handCard : List PokerCard) (jokerPoint : Int) :
    Option (Combination × Nat × List CardGroup) := do
  let self := { self with jokerPoint := jokerPoint }
  let s ← self.searchAllGroup? handCard 0
  guard (s.cardCombs ≠ [])
  let back ← s.cardCombs.getLast?
  if back.score = 0 then return (s.self, back.score, back.cardGroup)
  else
    let front ← s.cardCombs.head?
    let itMin := minComb front s.cardCombs
    return (s.self, itMin.score, itMin.cardGroup)

/-- The loop of `post_valid_group_bigest_card`; the iterators start at `list_cards.begin()` and are
dereferenced behind the loop over the cards. -/
def bigestLoop? (jokerPoint : Int) : Int → PokerCard → List CardGroup → Option PokerCard
  | _, card, [] => some card
  | score, card, g :: gs =>
    if g.cards.length < 4 then bigestLoop? jokerPoint score card gs
    else match sortCards g.cards with
      | [] => none
      | begin :: listCards =>
        let itPost := postOf jokerPoint begin begin 0 (begin :: listCards)
        if (itPost.getScore jokerPoint : Int) > score then
          bigestLoop? jokerPoint (itPost.getScore jokerPoint) itPost gs
        else bigestLoop? jokerPoint score card gs

def postValidGroupBigestCard? (cardGroups : List CardGroup) (jokerPoint : Int) (card : PokerCard) :
    Option PokerCard := bigestLoop? jokerPoint (-1) card cardGroups

/-- `post_less_relation_card` with `assert(!hand_card.empty())`; `back()` and `begin()` are checked
there already. -/
def postLessRelationCard? (handCard : List PokerCard) (jokerPoint : Int) : Option PokerCard := do
  guard (handCard ≠ [])
  postLessRelationCard handCard jokerPoint

def tieLoop? (jokerPoint : Int) :
    CombinationInfo → PokerCard → Int → List CombinationInfo → Option (PokerCard × Int)
  | _, card, minScore, [] => some (card, minScore)
  | itMin, card, minScore, it :: combs =>
    if itMin.isHasFirtlife ≠ it.isHasFirtlife ∨ itMin.isHasSecondelife ≠ it.isHasSecondelife ∨
        itMin.validCards.length ≠ it.validCards.length then some (card, minScore)
    else if it.validCards = [] then
      (postValidGroupBigestCard? it.cardGroup jokerPoint card).map fun card => (card, 0)
    else match postLessRelationCard? it.validCards jokerPoint with
      | none => none
      | some postcard =>
        let score : Int := it.score - postcard.getScore jokerPoint
        if score < minScore then tieLoop? jokerPoint it postcard score combs
        else tieLoop? jokerPoint itMin card minScore combs

def postSorted? (jokerPoint : Int) (card : PokerCard) :
    List CombinationInfo → Option (PokerCard × Int)
  | [] => none
  | itMin :: combs =>
    if itMin.validCards = [] then
      (postValidGroupBigestCard? itMin.cardGroup jokerPoint card).map fun card => (card, 0)
    else match postLessRelationCard? itMin.validCards jokerPoint with
      | none => none
      | some card =>
        tieLoop? jokerPoint itMin card (itMin.score - card.getScore jokerPoint) combs

/-- `post_best_card` with `assert(!card_combs.empty())`. -/
def postBestCard? (std : StdSort sortCombineFunc) (self : Combination) (handCard : List PokerCard)
    (jokerPoint : Int) (card : PokerCard) : Option (Combination × PokerCard × Int) := do
  let self := { self with jokerPoint := jokerPoint }
  let s ← self.searchAllGroup? handCard 1
  guard (s.cardCombs ≠ [])
  let result ← postSorted? jokerPoint card (std.sort s.cardCombs)
  return (s.self, result)

end Combination

open Combination

/-! ## The searches fail no check -/

section Searches

variable {self : Combination} {cards : List PokerCard}

theorem combineWithJokerCard?_eq (h : cards ≠ []) :
    self.combineWithJokerCard? cards = some (self.combineWithJokerCard cards) := by
  unfold combineWithJokerCard? combineWithJokerCard toStraightFillJokerNum?
  rw [guard_bind h]
  simp only [Option.pure_def, Option.bind_eq_bind, Option.bind_some]
  by_cases h0 : (self.toStraightFillJokerNum cards).1 = 0
  · rw [if_pos h0, if_pos h0]
  · rw [if_neg h0, if_neg h0]

theorem straightRound?_eq {hand : List PokerCard} (h : hand ≠ []) :
    self.straightRound? hand = some
      ((if isCardsPureStraight hand then [{ type := GROUP_STAIGHT, cards := hand }] else []) ++
        self.combineWithJokerCard hand ++
        (if 1 < hand.length ∧ hand.getLast?.map point = some A then
          self.combineWithJokerCard (hand.getLast?.toList ++ hand.dropLast) else [])) := by
  unfold straightRound?
  have hback := List.getLast?_eq_some_getLast h
  simp only [combineWithJokerCard?_eq h, hback, Option.bind_eq_bind, Option.bind_some, Option.map_some,
    Option.some.injEq, Option.toList_some, List.singleton_append]
  by_cases h1 : 1 < hand.length
  · by_cases hA : (hand.getLast h).point = A
    · have hboth : 1 < hand.length ∧ (hand.getLast h).point = A := ⟨h1, hA⟩
      rw [if_pos h1, if_pos hA, if_pos hboth, combineWithJokerCard?_eq (List.cons_ne_nil _ _)]
      rfl
    · have hboth : ¬(1 < hand.length ∧ (hand.getLast h).point = A) := fun hboth => hA hboth.2
      rw [if_pos h1, if_neg hA, if_neg hboth]
      rfl
  · have hboth : ¬(1 < hand.length ∧ (hand.getLast h).point = A) := fun hboth => h1 hboth.1
    rw [if_neg h1, if_neg hboth]
    rfl

theorem searchStraightFlushSelectN?_eq {n : Nat} (h1 : 1 ≤ n) (h14 : n ≤ 14) :
    self.searchStraightFlushSelectN? cards n = some (self.searchStraightFlushSelectN cards n) := by
  unfold searchStraightFlushSelectN? searchStraightFlushSelectN
  rw [guard_bind ⟨h1, h14⟩]
  by_cases hlt : cards.length < n
  · rw [if_pos hlt, if_pos hlt]
    rfl
  · rw [if_neg hlt, if_neg hlt]
    refine collect_eq_some fun hand hhand => straightRound?_eq ?_
    rintro rfl
    have hlen := (mem_selectCardCombine.mp hhand).2
    rw [List.length_nil] at hlen
    omega

theorem searchStraightFlushI?_eq {repeatCard : List PokerCard}
    (h : cards.length + self.jokerCards.length ≤ 14) :
    self.searchStraightFlushI? cards repeatCard = some (self.searchStraightFlushI cards repeatCard) := by
  unfold searchStraightFlushI? searchStraightFlushI
  rw [collect_eq_some fun n hn => ?_]
  · rfl
  · have hrange := List.mem_range'_1.mp hn
    exact searchStraightFlushSelectN?_eq hrange.1 (by omega)

theorem length_popOf_add_le (jp : Int) (cards : List PokerCard) (col : Nat) :
    (popOf jp cards col).1.length + (freshFor jp cards).jokerCards.length ≤ cards.length := by
  have hpop := (popOf_ok jp cards col).subperm.length_le
  have hsum := length_wild_add_length_plain jp cards
  have hjokers : (freshFor jp cards).jokerCards = wild jp cards := rfl
  rw [List.length_append] at hpop
  rw [hjokers]
  omega

theorem searchStraightFlush?_eq (jp : Int) (h : cards.length ≤ MAX_CARD_COUNT) :
    (freshFor jp cards).searchStraightFlush? cards = some (straights jp cards) := by
  unfold searchStraightFlush? straights searchStraightFlush
  rw [collect_eq_some fun col _ => ?_]
  · rfl
  · have hle := length_popOf_add_le jp cards col
    exact searchStraightFlushI?_eq (hle.trans h)

theorem searchThreeOfKindI?_eq {repeatCard : List PokerCard} :
    self.searchThreeOfKindI? cards repeatCard = some (self.searchThreeOfKindI cards repeatCard) := by
  unfold searchThreeOfKindI? searchThreeOfKindI
  rw [collect_eq_some fun n hn => ?_]
  · rfl
  · have hrange := List.mem_range'_1.mp hn
    unfold searchThreeOfKindSelectN?
    rw [guard_bind ⟨hrange.1, by omega⟩]
    rfl

theorem kindSearchLoop?_eq {popCards popRepeatCards : List PokerCard} :
    self.kindSearchLoop? cards popCards popRepeatCards =
      some (self.kindSearchLoop cards popCards popRepeatCards) := by
  have hset : ∀ pop rep : List PokerCard,
      (if 2 ≤ pop.length then self.searchThreeOfKindI? pop rep else some []) =
        some (if 2 ≤ pop.length then self.searchThreeOfKindI pop rep else []) := by
    intro pop rep
    rw [searchThreeOfKindI?_eq, apply_ite some]
  induction cards generalizing popCards popRepeatCards with
  | nil => exact hset popCards popRepeatCards
  | cons c cards ih =>
    unfold kindSearchLoop? kindSearchLoop
    by_cases hsame : (popCards = [] ∨ popCards.head?.map point = some c.point) ∧
        isJoker c self.jokerPoint = false
    · rw [if_pos hsame, if_pos hsame]
      by_cases hc : c ∈ popCards
      · rw [if_pos hc, if_pos hc, ih]
      · rw [if_neg hc, if_neg hc, ih]
    · rw [if_neg hsame, if_neg hsame, hset, ih]
      rfl

theorem searchThreeOfKind?_eq :
    self.searchThreeOfKind? cards = some (self.searchThreeOfKind cards) := kindSearchLoop?_eq

theorem removeCardGroup?_eq (h : cards.length ≤ MAX_CARD_COUNT) (gs : List CardGroup) :
    removeCardGroup? cards gs = some (removeCardGroup cards gs) := by
  unfold removeCardGroup? removeCardGroup
  rw [collect_eq_some fun g _ => guard_bind h _]
  exact congrArg some (flatMap_ite_singleton ..)

end Searches

/-! ## Every meld takes three cards -/

section Loops

variable {jp : Int} {cards : List PokerCard} {g : CardGroup}

theorem length_removeCards (h : g.cards.Subperm cards) (h3 : 3 ≤ g.cards.length) :
    (removeCards g cards).length + 3 ≤ cards.length := by
  have hlen := (removeCards_perm h).length_eq
  rw [List.length_append] at hlen
  omega

theorem thirdBody?_eq (stop : Nat) (f s g h : CardGroup) {cards3 : List PokerCard} (st : SearchState)
    (hlen : (removeCards h cards3).length < 3) :
    thirdBody? stop f s g cards3 h st = some (thirdBody stop f s g cards3 h st) := by
  unfold thirdBody? thirdBody
  by_cases h4 : removeCards h cards3 = []
  · rw [if_pos h4, if_pos h4]
    rfl
  · rw [if_neg h4, if_neg h4, guard_bind ⟨List.length_pos_iff.mpr h4, hlen⟩]
    rfl

theorem secondBody?_eq (stop : Nat) (f s : CardGroup) {cards2 : List PokerCard} (hd : Dealt cards2)
    (hlen : cards2.length ≤ 8) (hg : g ∈ melds jp cards2) {st : SearchState} (hst : Cached jp st) :
    secondBody? stop f s cards2 (melds jp cards2) g st =
      some (secondBody stop f s cards2 (melds jp cards2) g st) := by
  have hgsub := subperm_of_mem_melds hd.playable.valid hg
  have hlen3 := length_removeCards hgsub (hd.three_le_of_mem_melds hg)
  unfold secondBody? secondBody
  by_cases h3 : removeCards g cards2 = []
  · rw [if_pos h3, if_pos h3]
    rfl
  · rw [if_neg h3, if_neg h3, removeCardGroup?_eq (hd.remove g).length_le, Option.bind_eq_bind,
      Option.bind_some]
    by_cases hm : removeCardGroup (removeCards g cards2) (melds jp cards2) = []
    · rw [if_pos hm, if_pos hm]
      rfl
    · rw [if_neg hm, if_neg hm]
      refine untilReturn?_eq_some (I := Cached jp) (fun h hh st _ => ?_)
        (fun h _ st hst => (thirdBody_logs stop f s g _ h hst).inv) st hst
      apply thirdBody?_eq
      have hmem : h ∈ melds jp cards2 := (List.mem_filter.mp hh).1
      have hhsub := ((hd.playable.mem_kept (removeCards_subperm g cards2)
        (subperm_of_mem_melds hd.playable.valid hmem)).mp hh).2
      have hlen4 := length_removeCards hhsub (hd.three_le_of_mem_melds hmem)
      omega

theorem secondlifeBody?_eq (stop : Nat) (f : CardGroup) {s : CardGroup} {cards1 : List PokerCard}
    (hd : Dealt cards1) (hlen : cards1.length ≤ 11) (hs : s.cards.Subperm cards1)
    (h3 : 3 ≤ s.cards.length) {st : SearchState} (hst : Cached jp st) :
    secondlifeBody? stop f cards1 (cards1.filter (isJoker · jp)) s st =
      some (secondlifeBody stop f cards1 (cards1.filter (isJoker · jp)) s st) := by
  have hlen2 := length_removeCards hs h3
  have hd2 := hd.remove s
  unfold secondlifeBody? secondlifeBody
  by_cases h2 : removeCards s cards1 = []
  · rw [if_pos h2, if_pos h2]
    rfl
  · have hfresh := refresh_eq hst.1 hst.2 (removeCards_filter s cards1 (isJoker · jp)).symm
    have hmelds : straights jp (removeCards s cards1) ++
        (freshFor jp (removeCards s cards1)).searchThreeOfKind (removeCards s cards1) =
        melds jp (removeCards s cards1) := rfl
    have hsearch : (freshFor jp (removeCards s cards1)).searchStraightFlush (removeCards s cards1) =
        straights jp (removeCards s cards1) := rfl
    rw [if_neg h2, if_neg h2]
    simp only [hfresh, searchStraightFlush?_eq jp hd2.length_le, searchThreeOfKind?_eq,
      Option.bind_eq_bind, Option.bind_some, hsearch, hmelds]
    by_cases hm : melds jp (removeCards s cards1) = []
    · rw [if_pos hm, if_pos hm]
      rfl
    · rw [if_neg hm, if_neg hm]
      apply untilReturn?_eq_some (I := Cached jp)
      · exact fun g hg st hst => secondBody?_eq stop f s hd2 (by omega) hg hst
      · exact fun g _ st hst => (secondBody_logs stop f s _ g hst).inv
      · exact ⟨rfl, rfl⟩

theorem fistlifeBody?_eq (stop : Nat) {hand : List PokerCard} (hd : Dealt hand) {f : CardGroup}
    (hf : f ∈ firstLives jp hand) {st : SearchState} (hst : Cached jp st) :
    fistlifeBody? stop hand (hand.filter (isJoker · jp)) (straights jp hand) f st =
      some (fistlifeBody stop hand (hand.filter (isJoker · jp)) (straights jp hand) f st) := by
  have hfs := (mem_straights_of_firstLife hf).1
  have hlen1 := length_removeCards (hd.playable.straights_subperm hfs).2
    (hd.three_le_of_mem_straights hfs)
  have h14 := hd.length_le
  unfold fistlifeBody? fistlifeBody
  by_cases h1 : removeCards f hand = []
  · rw [if_pos h1, if_pos h1]
    rfl
  · rw [if_neg h1, if_neg h1, removeCardGroup?_eq (hd.remove f).length_le, Option.bind_eq_bind,
      Option.bind_some]
    by_cases hm : removeCardGroup (removeCards f hand) (straights jp hand) = []
    · rw [if_pos hm, if_pos hm]
      rfl
    · rw [if_neg hm, if_neg hm, ← removeCards_filter]
      refine untilReturn?_eq_some (I := Cached jp) (fun s hs st hst => ?_)
        (fun s _ st hst => (secondlifeBody_logs stop f _ s hst).inv) st hst
      have hmem : s ∈ straights jp hand := (List.mem_filter.mp hs).1
      have hsub := ((hd.playable.mem_kept (removeCards_subperm f hand)
        (hd.playable.straights_subperm hmem).2).mp hs).2
      apply secondlifeBody?_eq stop f (hd.remove f) _ hsub (hd.three_le_of_mem_straights hmem) hst
      unfold MAX_CARD_COUNT at h14
      omega

theorem searchAllGroup?_eq (self : Combination) {hand : List PokerCard} (hd : Dealt hand)
    (stop : Nat) : self.searchAllGroup? hand stop = some (self.searchAllGroup hand stop) := by
  have hset : ∀ self : Combination, { self with
      jokerCards := self.searchJokerCards hand
      jokerCombines := caculateAllCardsCombines (self.searchJokerCards hand) 1
        (self.searchJokerCards hand).length } = freshFor self.jokerPoint hand := fun _ => rfl
  have hsearch : (freshFor self.jokerPoint hand).searchStraightFlush hand =
      straights self.jokerPoint hand := rfl
  have hlives : searchPureStraightFlush (straights self.jokerPoint hand) =
      firstLives self.jokerPoint hand := rfl
  unfold searchAllGroup? searchAllGroup
  simp only [hset, searchStraightFlush?_eq self.jokerPoint hd.length_le, hsearch, hlives,
    Option.bind_eq_bind, Option.bind_some]
  by_cases hf : firstLives self.jokerPoint hand = []
  · rw [if_pos hf, if_pos hf]
    rfl
  · rw [if_neg hf, if_neg hf]
    have hloop := untilReturn?_eq_some (I := Cached self.jokerPoint)
      (fun f hf st hst => fistlifeBody?_eq stop hd hf hst)
      (fun f _ st hst => (fistlifeBody_logs stop hand f hst).inv)
      { self := freshFor self.jokerPoint hand, cardCombs := [] } ⟨rfl, rfl⟩
    exact congrArg (Option.bind · fun r => some r.1) hloop

end Loops

/-! ## The results -/

section Results

variable {jp : Int}

theorem bigestLoop?_eq {score : Int} {card : PokerCard} {gs : List CardGroup} :
    bigestLoop? jp score card gs = some (bigestLoop jp score card gs) := by
  induction gs generalizing score card with
  | nil => rfl
  | cons g gs ih =>
    unfold bigestLoop? bigestLoop
    by_cases h4 : g.cards.length < 4
    · rw [if_pos h4, if_pos h4, ih]
    · rw [if_neg h4, if_neg h4]
      rcases hsort : sortCards g.cards with _ | ⟨begin, listCards⟩
      · -- four cards are not none
        have hlen := congrArg List.length hsort
        rw [length_sortCards, List.length_nil] at hlen
        omega
      · simp only [ih, apply_ite some]

theorem postValidGroupBigestCard?_eq {gs : List CardGroup} {card : PokerCard} :
    postValidGroupBigestCard? gs jp card = some (postValidGroupBigestCard gs jp card) := bigestLoop?_eq

theorem postLessRelationCard?_eq {cards : List PokerCard} (hne : cards ≠ []) :
    postLessRelationCard? cards jp = postLessRelationCard cards jp := guard_bind hne _

theorem tieLoop?_eq {itMin : CombinationInfo} {card : PokerCard} {minScore : Int}
    {combs : List CombinationInfo} :
    tieLoop? jp itMin card minScore combs = tieLoop jp itMin card minScore combs := by
  induction combs generalizing itMin card minScore with
  | nil => rfl
  | cons it combs ih =>
    unfold tieLoop? tieLoop
    by_cases hnil : it.validCards = []
    · simp only [if_pos hnil, postValidGroupBigestCard?_eq, Option.map_some]
    · obtain ⟨postcard, hpost, -⟩ := mem_postLessRelationCard hnil jp
      simp only [if_neg hnil, postLessRelationCard?_eq hnil, hpost, ih]

theorem postSorted?_eq {card : PokerCard} {combs : List CombinationInfo} :
    postSorted? jp card combs = postSorted jp card combs := by
  rcases combs with _ | ⟨itMin, combs⟩
  · rfl
  · unfold postSorted? postSorted
    by_cases hnil : itMin.validCards = []
    · simp only [if_pos hnil, postValidGroupBigestCard?_eq, Option.map_some]
    · obtain ⟨postcard, hpost, -⟩ := mem_postLessRelationCard hnil jp
      simp only [if_neg hnil, postLessRelationCard?_eq hnil, hpost, tieLoop?_eq]

variable {hand : List PokerCard}

theorem cardCombs_ne_nil (self : Combination) (hd : Dealt hand) (h4 : 4 ≤ hand.length) (stop : Nat) :
    (self.searchAllGroup hand stop).cardCombs ≠ [] := by
  rw [searchAllGroup_eq]
  exact upTo_ne_nil (arrangements_ne_nil self.jokerPoint hd h4)

theorem exists_defaultDeclare? (self : Combination) (hd : Dealt hand) (h4 : 4 ≤ hand.length)
    (jp : Int) : ∃ self' score groups, self.defaultDeclare? hand jp = some (self', score, groups) ∧
      self.defaultDeclare hand jp = (self', some (score, groups)) := by
  have hne := cardCombs_ne_nil { self with jokerPoint := jp } hd h4 0
  unfold defaultDeclare? defaultDeclare
  dsimp only
  rw [searchAllGroup?_eq _ hd, Option.bind_eq_bind, Option.bind_some, guard_bind hne]
  rcases hcombs : (searchAllGroup { self with jokerPoint := jp } hand 0).cardCombs with _ | ⟨front, rest⟩
  · exact absurd hcombs hne
  · have hback := List.getLast?_eq_some_getLast (List.cons_ne_nil front rest)
    simp only [hback, List.head?_cons, Option.bind_eq_bind, Option.bind_some]
    by_cases h0 : ((front :: rest).getLast (List.cons_ne_nil front rest)).score = 0
    · rw [if_pos h0, if_pos h0]
      exact ⟨_, _, _, rfl, rfl⟩
    · rw [if_neg h0, if_neg h0]
      exact ⟨_, _, _, rfl, rfl⟩

theorem exists_postBestCard? (std : StdSort sortCombineFunc) (self : Combination) (hd : Dealt hand)
    (h4 : 4 ≤ hand.length) (jp : Int) (card : PokerCard) :
    ∃ self' post score, postBestCard? std self hand jp card = some (self', post, score) ∧
      self.postBestCard std hand jp card = (self', some (post, score)) := by
  have hne := cardCombs_ne_nil { self with jokerPoint := jp } hd h4 1
  obtain ⟨post, score, hsorted, -⟩ := postSorted_rule (P := fun _ _ => True) (std.sort_ne_nil hne) card
    (fun _ _ _ _ _ => trivial) (fun _ _ _ => trivial)
  refine ⟨_, post, score, ?_, Prod.ext rfl hsorted⟩
  unfold postBestCard?
  dsimp only
  rw [searchAllGroup?_eq _ hd, Option.bind_eq_bind, Option.bind_some, guard_bind hne, postSorted?_eq,
    hsorted]
  rfl

/-- **No assertion fails and nothing is read or written outside of a container**, for every object,
every hand of thirteen or fourteen cards of the pack and every joker point; the results are those of the
code without the checks. -/
theorem assertions_hold (std : StdSort sortCombineFunc) (self : Combination) (hand : List PokerCard)
    (jp : Int) (card : PokerCard) (hlen : hand.length = 13 ∨ hand.length = 14)
    (hpack : hand.Subperm twoDeck) :
    (∃ self' score groups, self.defaultDeclare? hand jp = some (self', score, groups) ∧
      self.defaultDeclare hand jp = (self', some (score, groups))) ∧
    ∃ self' post score, postBestCard? std self hand jp card = some (self', post, score) ∧
      self.postBestCard std hand jp card = (self', some (post, score)) := by
  have hd : Dealt hand := ⟨by unfold MAX_CARD_COUNT; omega, hpack⟩
  have h4 : 4 ≤ hand.length := by omega
  exact ⟨exists_defaultDeclare? self hd h4 jp, exists_postBestCard? std self hd h4 jp card⟩

/-- Fourteen cards, with an object that still holds the jokers of another hand. -/
theorem assertions_hold_kingsAndJokers :
    (∃ self' score groups,
      defaultDeclare? { jokerCards := [⟨0, 16⟩] } kingsAndJokers 0 = some (self', score, groups) ∧
      defaultDeclare { jokerCards := [⟨0, 16⟩] } kingsAndJokers 0 = (self', some (score, groups))) ∧
    ∃ self' post score,
      postBestCard? combineSort { jokerCards := [⟨0, 16⟩] } kingsAndJokers 0 blank =
        some (self', post, score) ∧
      postBestCard combineSort { jokerCards := [⟨0, 16⟩] } kingsAndJokers 0 blank =
        (self', some (post, score)) :=
  assertions_hold combineSort { jokerCards := [⟨0, 16⟩] } kingsAndJokers 0 blank (Or.inr rfl)
    (List.subperm_ext_iff.mpr (by decide +kernel))

end Results

end SparkFrame.Cards
