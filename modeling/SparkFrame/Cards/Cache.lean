import SparkFrame.Cards.Post

/-!
# The joker selections kept in the object

The object is shared, and `search_all_group` keeps the joker selections of one second life for the
next when the jokers are the same.

* `searchAllGroupAnew`, `defaultDeclareAnew`, `postBestCardAnew` : the same search with the selections
  computed for every second life;
* `secondlifeBodyAnew_logs`, `searchAllGroupAnew_eq` : it pushes the same arrangements;
* `outputs_anew` : **neither the selections kept nor the object's past show in a result**.
-/

namespace SparkFrame.Cards

open SparkFrame.Lib

namespace Combination

/-- `secondlifeBody`, whatever selections the object holds. -/
def secondlifeBodyAnew (stop : Nat) (it : CardGroup) (cards1 jokerCards1 : List PokerCard)
    (itSecond : CardGroup) (s : SearchState) : SearchState × Bool :=
  let cards2 := removeCards itSecond cards1
  let jokerCards2 := removeCards itSecond jokerCards1
  if cards2 = [] then (s.push (fullComb [it, itSecond]), decide (0 ≤ stop))
  else
    let self := { s.self with
      jokerCards := jokerCards2
      jokerCombines := caculateAllCardsCombines jokerCards2 1 jokerCards2.length }
    let s := { s with self := self }
    let allGroup2 := self.searchStraightFlush cards2 ++ self.searchThreeOfKind cards2
    if allGroup2 = [] then
      (s.push (self.restComb [it, itSecond] cards2),
        decide (0 ≤ stop) && decide (cards2.length ≤ stop))
    else untilReturn (secondBody stop it itSecond cards2 allGroup2) allGroup2 s

def fistlifeBodyAnew (stop : Nat) (allCards allJokerCards : List PokerCard)
    (straiGroup : List CardGroup) (it : CardGroup) (s : SearchState) : SearchState × Bool :=
  let cards1 := removeCards it allCards
  let jokerCards1 := removeCards it allJokerCards
  if cards1 = [] then (s, false)
  else
    let secondlifeGroup := removeCardGroup cards1 straiGroup
    if secondlifeGroup = [] then
      let (oneGroup, score) := s.self.genValidCardGroup cards1
      (s.push { isHasFirtlife := true, validCards := cards1, score := score,
                cardGroup := [it, oneGroup] }, false)
    else untilReturn (secondlifeBodyAnew stop it cards1 jokerCards1) secondlifeGroup s

def searchAllGroupAnew (self : Combination) (allCards : List PokerCard) (validCardNumStop : Nat) :
    SearchState :=
  let allJokerCards := self.searchJokerCards allCards
  let self := { self with
    jokerCards := allJokerCards
    jokerCombines := caculateAllCardsCombines allJokerCards 1 allJokerCards.length }
  let straiGroup := self.searchStraightFlush allCards
  let fistlifeGroup := searchPureStraightFlush straiGroup
  let s : SearchState := { self := self, cardCombs := [] }
  if fistlifeGroup = [] then
    let (oneGroup, score) := self.genValidCardGroup allCards
    s.push { validCards := allCards, score := score, cardGroup := [oneGroup] }
  else
    (untilReturn (fistlifeBodyAnew validCardNumStop allCards allJokerCards straiGroup)
      fistlifeGroup s).1

/-- `default_declare` over that search. -/
def defaultDeclareAnew (self : Combination) (handCard : List PokerCard) (jokerPoint : Int) :
    Option (Nat × List CardGroup) :=
  result (searchAllGroupAnew { self with jokerPoint := jokerPoint } handCard 0).cardCombs

/-- `post_best_card` over that search. -/
def postBestCardAnew (std : StdSort sortCombineFunc) (self : Combination) (handCard : List PokerCard)
    (jokerPoint : Int) (card : PokerCard) : Option (PokerCard × Int) :=
  postSorted jokerPoint card
    (std.sort (searchAllGroupAnew { self with jokerPoint := jokerPoint } handCard 1).cardCombs)

end Combination

/-! ## The same arrangements -/

section Anew

variable {jp : Int} {st : SearchState}

theorem secondlifeBodyAnew_logs (stop : Nat) (f : CardGroup) (cards1 : List PokerCard) (s : CardGroup)
    (hst : Cached jp st) :
    Logs (Cached jp) SearchState.cardCombs (stops stop) (arrangeSecondlife jp f cards1 s) st
      (Combination.secondlifeBodyAnew stop f cards1 (cards1.filter (isJoker · jp)) s st) := by
  unfold Combination.secondlifeBodyAnew arrangeSecondlife
  by_cases h2 : removeCards s cards1 = []
  · simp only [h2, if_true, true_or, fullComb_eq jp]
    exact logs_push hst (by simp [stops, comb])
  · simp only [h2, if_false, false_or, ← removeCards_filter, hst.1]
    exact refreshed_logs stop f s h2 st

theorem fistlifeBodyAnew_logs (stop : Nat) (hand : List PokerCard) (f : CardGroup)
    (hst : Cached jp st) :
    Logs (Cached jp) SearchState.cardCombs (stops stop) (arrangeFistlife jp hand f) st
      (Combination.fistlifeBodyAnew stop hand (hand.filter (isJoker · jp)) (straights jp hand) f st) := by
  unfold Combination.fistlifeBodyAnew
  by_cases h1 : removeCards f hand = []
  · have hlogs := fistlifeBody_logs stop hand f hst
    unfold Combination.fistlifeBody at hlogs
    simp only [h1, if_true] at hlogs ⊢
    exact hlogs
  · by_cases hm : removeCardGroup (removeCards f hand) (straights jp hand) = []
    · have hlogs := fistlifeBody_logs stop hand f hst
      unfold Combination.fistlifeBody at hlogs
      simp only [h1, hm, if_true, if_false] at hlogs ⊢
      exact hlogs
    · unfold arrangeFistlife
      simp only [h1, hm, if_false, ← removeCards_filter]
      exact untilReturn_upTo _ (fun s _ st hst => secondlifeBodyAnew_logs stop f _ s hst) st hst

/-- **The variant pushes the same arrangements**, whatever the object held before. -/
theorem searchAllGroupAnew_eq (self : Combination) (hand : List PokerCard) (stop : Nat) :
    (self.searchAllGroupAnew hand stop).cardCombs = (self.searchAllGroup hand stop).cardCombs := by
  rw [searchAllGroup_eq]
  unfold Combination.searchAllGroupAnew arrangements
  change SearchState.cardCombs (if firstLives self.jokerPoint hand = [] then _ else _) = _
  by_cases hf : firstLives self.jokerPoint hand = []
  · simp [hf, SearchState.push, Combination.genValidCardGroup, noLifeComb, upTo]
  · simp only [hf, if_false]
    have hlogs := untilReturn_upTo (firstLives self.jokerPoint hand)
      (fun f _ st hst => fistlifeBodyAnew_logs stop hand f hst)
      { self := freshFor self.jokerPoint hand, cardCombs := [] } ⟨rfl, rfl⟩
    exact hlogs.log_eq.trans (List.nil_append _)

end Anew

/-! ## The outputs -/

theorem defaultDeclareAnew_eq (self : Combination) (hand : List PokerCard) (jp : Int) :
    self.defaultDeclareAnew hand jp = (self.defaultDeclare hand jp).2 := by
  rw [defaultDeclare_eq, Combination.defaultDeclareAnew, searchAllGroupAnew_eq, searchAllGroup_eq]
  rfl

theorem postBestCardAnew_eq (std : StdSort sortCombineFunc) (self : Combination)
    (hand : List PokerCard) (jp : Int) (card : PokerCard) :
    self.postBestCardAnew std hand jp card = (self.postBestCard std hand jp card).2 := by
  rw [Combination.postBestCardAnew, searchAllGroupAnew_eq]
  rfl

/-- **The object's past does not show**: whatever it held before, both functions put out what they do
on an object just constructed, and what they do with the selections computed anew every time. -/
theorem outputs_anew (std : StdSort sortCombineFunc) (self : Combination) (hand : List PokerCard)
    (jp : Int) (card : PokerCard) :
    ((self.defaultDeclare hand jp).2 = (Combination.defaultDeclare {} hand jp).2 ∧
      (self.defaultDeclare hand jp).2 = self.defaultDeclareAnew hand jp) ∧
    (self.postBestCard std hand jp card).2 = (Combination.postBestCard std {} hand jp card).2 ∧
      (self.postBestCard std hand jp card).2 = self.postBestCardAnew std hand jp card := by
  refine ⟨⟨?_, (defaultDeclareAnew_eq self hand jp).symm⟩, ?_,
    (postBestCardAnew_eq std self hand jp card).symm⟩
  · rw [defaultDeclare_eq, defaultDeclare_eq]
  · rw [postBestCard_eq, postBestCard_eq]

end SparkFrame.Cards
