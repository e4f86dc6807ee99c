import SparkFrame.Cards.Search
import SparkFrame.Lib.Company
import SparkFrame.Lib.Loop

/-!
# The arranger

* `searchAllGroup` : the five nested searches of `search_all_group`, with its early returns and the
  joker selections it keeps in the object;
* `defaultDeclare` : the arrangement with the least score;
* `arrangements` : the same enumeration with nothing cut off and every joker selection computed
  anew; `searchAllGroup_eq` : the code pushes `arrangements` up to the first one that makes it return;
* `Picks`, `defaultDeclare_picks` : the choice, in terms of `arrangements`.
-/

namespace SparkFrame.Cards

open SparkFrame.Lib

structure CombinationInfo where
  score : Nat := 0
  cardGroup : List CardGroup := []
  validCards : List PokerCard := []
  isHasFirtlife : Bool := false
  isHasSecondelife : Bool := false
deriving DecidableEq, Repr

/-- The object's members and the output parameter `card_combs`. -/
structure SearchState where
  self : Combination
  cardCombs : List CombinationInfo

def SearchState.push (s : SearchState) (c : CombinationInfo) : SearchState :=
  { s with cardCombs := s.cardCombs ++ [c] }

namespace Combination

/-- `gen_valid_card_group`: the group of what is left over, and its score. -/
def genValidCardGroup (self : Combination) (allCards : List PokerCard) : CardGroup × Nat :=
  ({ type := GROUP_INVALID, cards := allCards }, cardScore allCards self.jokerPoint)

/-- The push sites that leave nothing over. -/
def fullComb (groups : List CardGroup) : CombinationInfo :=
  { isHasFirtlife := true, isHasSecondelife := true, cardGroup := groups }

/-- The push sites with both lives that leave `cards` over. -/
def restComb (self : Combination) (groups : List CardGroup) (cards : List PokerCard) :
    CombinationInfo :=
  let (oneGroup, score) := self.genValidCardGroup cards
  { isHasFirtlife := true, isHasSecondelife := true, validCards := cards, score := score,
    cardGroup := groups ++ [oneGroup] }

/-- One round of the loop over `all_group3`. -/
def thirdBody (stop : Nat) (it itSecond it2 : CardGroup) (cards3 : List PokerCard) (it3 : CardGroup)
    (s : SearchState) : SearchState × Bool :=
  let cards4 := removeCards it3 cards3
  if cards4 = [] then (s.push (fullComb [it, itSecond, it2, it3]), decide (0 ≤ stop))
  else
    (s.push (s.self.restComb [it, itSecond, it2, it3] cards4),
      decide (0 ≤ stop) && decide (cards4.length ≤ stop))

/-- One round of the loop over `all_group2`. -/
def secondBody (stop : Nat) (it itSecond : CardGroup) (cards2 : List PokerCard)
    (allGroup2 : List CardGroup) (it2 : CardGroup) (s : SearchState) : SearchState × Bool :=
  let cards3 := removeCards it2 cards2
  if cards3 = [] then (s.push (fullComb [it, itSecond, it2]), decide (0 ≤ stop))
  else
    let allGroup3 := removeCardGroup cards3 allGroup2
    if allGroup3 = [] then
      (s.push (s.self.restComb [it, itSecond, it2] cards3),
        decide (0 ≤ stop) && decide (cards3.length ≤ stop))
    else untilReturn (thirdBody stop it itSecond it2 cards3) allGroup3 s

/-- One round of the loop over `secondlife_group`. -/
def secondlifeBody (stop : Nat) (it : CardGroup) (cards1 jokerCards1 : List PokerCard)
    (itSecond : CardGroup) (s : SearchState) : SearchState × Bool :=
  let cards2 := removeCards itSecond cards1
  let jokerCards2 := removeCards itSecond jokerCards1
  if cards2 = [] then (s.push (fullComb [it, itSecond]), decide (0 ≤ stop))
  else
    -- the selections are kept when the jokers did not change
    let self :=
      if s.self.jokerCards ≠ jokerCards2 then
        { s.self with
          jokerCards := jokerCards2
          jokerCombines := caculateAllCardsCombines jokerCards2 1 jokerCards2.length }
      else s.self
    let s := { s with self := self }
    let allGroup2 := self.searchStraightFlush cards2 ++ self.searchThreeOfKind cards2
    if allGroup2 = [] then
      (s.push (self.restComb [it, itSecond] cards2),
        decide (0 ≤ stop) && decide (cards2.length ≤ stop))
    else untilReturn (secondBody stop it itSecond cards2 allGroup2) allGroup2 s

/-- One round of the loop over `fistlife_group`. -/
def fistlifeBody (stop : Nat) (allCards allJokerCards : List PokerCard) (straiGroup : List CardGroup)
    (it : CardGroup) (s : SearchState) : SearchState × Bool :=
  let cards1 := removeCards it allCards
  let jokerCards1 := removeCards it allJokerCards
  -- a first life that takes the whole hand is passed over
  if cards1 = [] then (s, false)
  else
    let secondlifeGroup := removeCardGroup cards1 straiGroup
    if secondlifeGroup = [] then
      let (oneGroup, score) := s.self.genValidCardGroup cards1
      (s.push { isHasFirtlife := true, validCards := cards1, score := score,
                cardGroup := [it, oneGroup] }, false)
    else untilReturn (secondlifeBody stop it cards1 jokerCards1) secondlifeGroup s

/-- `search_all_group`: the object afterwards and what was pushed to `card_combs`. -/
def searchAllGroup (self : Combination) (allCards : List PokerCard) (validCardNumStop : Nat) :
    SearchState :=
  let allJokerCards := self.searchJokerCards allCards
  let self := { self with
    jokerCards := allJokerCards
    jokerCombines := caculateAllCardsCombines allJokerCards 1 allJokerCards.length }
  let straiGroup := self.searchStraightFlush allCards
  let fistlifeGroup := searchPureStraightFlush straiGroup
  let s : SearchState := { self := self, cardCombs := [] }
  if fistlifeGroup = [] then
    let (oneGroup, score) := self.genValidCardGroup allCards
    s.push { validCards := allCards, score := score, cardGroup := [oneGroup] }
  else
    (untilReturn (fistlifeBody validCardNumStop allCards allJokerCards straiGroup) fistlifeGroup s).1

/-- The scan for the least score; the first of equals stays. -/
def minComb (it : CombinationInfo) (combs : List CombinationInfo) : CombinationInfo :=
  combs.foldl (fun itMin it => if it.score < itMin.score then it else itMin) it

/-- `default_declare`: `score` and `card_group`, or `none` where the assertion on an empty
`card_combs` fails. -/
def defaultDeclare (self : Combination) (handCard : List PokerCard) (jokerPoint : Int) :
    Combination × Option (Nat × List CardGroup) :=
  let self := { self with jokerPoint := jokerPoint }
  let s := self.searchAllGroup handCard 0
  match s.cardCombs.head?, s.cardCombs.getLast? with
  | some front, some back =>
    if back.score = 0 then (s.self, some (back.score, back.cardGroup))
    else
      let itMin := minComb front s.cardCombs
      (s.self, some (itMin.score, itMin.cardGroup))
  | _, _ => (s.self, none)

end Combination

/-! ## The enumeration without early returns -/

section Enumeration

variable (jp : Int)

/-- The object as a search over `cards` finds it: the jokers among them and their selections. -/
def freshFor (cards : List PokerCard) : Combination :=
  { jokerCards := cards.filter (isJoker · jp)
    jokerCombines := caculateAllCardsCombines (cards.filter (isJoker · jp)) 1
      (cards.filter (isJoker · jp)).length
    jokerPoint := jp }

def straights (cards : List PokerCard) : List CardGroup := (freshFor jp cards).searchStraightFlush cards

def melds (cards : List PokerCard) : List CardGroup :=
  straights jp cards ++ (freshFor jp cards).searchThreeOfKind cards

def firstLives (hand : List PokerCard) : List CardGroup :=
  Combination.searchPureStraightFlush (straights jp hand)

/-- An arrangement that has its first life: its melds, and a group for what is left over. -/
def comb (second : Bool) (groups : List CardGroup) (left : List PokerCard) : CombinationInfo :=
  { score := cardScore left jp
    cardGroup := groups ++ if left = [] then [] else [{ type := GROUP_INVALID, cards := left }]
    validCards := left
    isHasFirtlife := true
    isHasSecondelife := second }

/-- The only arrangement of a hand without a first life. -/
def noLifeComb (hand : List PokerCard) : CombinationInfo :=
  { score := cardScore hand jp, cardGroup := [{ type := GROUP_INVALID, cards := hand }]
    validCards := hand }

def arrangeSecond (f s : CardGroup) (cards2 : List PokerCard) (g : CardGroup) :
    List CombinationInfo :=
  let cards3 := removeCards g cards2
  let melds3 := removeCardGroup cards3 (melds jp cards2)
  if cards3 = [] ∨ melds3 = [] then [comb jp true [f, s, g] cards3]
  else melds3.flatMap fun h => [comb jp true [f, s, g, h] (removeCards h cards3)]

def arrangeSecondlife (f : CardGroup) (cards1 : List PokerCard) (s : CardGroup) :
    List CombinationInfo :=
  let cards2 := removeCards s cards1
  if cards2 = [] ∨ melds jp cards2 = [] then [comb jp true [f, s] cards2]
  else (melds jp cards2).flatMap (arrangeSecond jp f s cards2)

def arrangeFistlife (hand : List PokerCard) (f : CardGroup) : List CombinationInfo :=
  let cards1 := removeCards f hand
  let seconds := removeCardGroup cards1 (straights jp hand)
  if cards1 = [] then []
  else if seconds = [] then [comb jp false [f] cards1]
  else seconds.flatMap (arrangeSecondlife jp f cards1)

/-- Every arrangement the nested loops can push, in their order. -/
def arrangements (hand : List PokerCard) : List CombinationInfo :=
  if firstLives jp hand = [] then [noLifeComb jp hand]
  else (firstLives jp hand).flatMap (arrangeFistlife jp hand)

end Enumeration

/-- The pushes after which `search_all_group` returns. -/
def stops (stop : Nat) (c : CombinationInfo) : Bool :=
  c.isHasSecondelife && decide (c.validCards.length ≤ stop)

/-! ## The code runs through the enumeration -/

theorem removeCards_filter (g : CardGroup) (cards : List PokerCard) (p : PokerCard → Bool) :
    (removeCards g cards).filter p = removeCards g (cards.filter p) := by
  unfold removeCards
  induction g.cards generalizing cards with
  | nil => rfl
  | cons c cs ih => rw [List.foldl_cons, List.foldl_cons, ih, List.erase_filter]

/-- The selections held belong to the jokers held. -/
def Cached (jp : Int) (s : SearchState) : Prop :=
  s.self.jokerPoint = jp ∧
    s.self.jokerCombines = caculateAllCardsCombines s.self.jokerCards 1 s.self.jokerCards.length

theorem logs_push {jp : Int} {stop : Nat} {s : SearchState} {c : CombinationInfo} {b : Bool}
    (hs : Cached jp s) (hb : b = stops stop c) :
    Logs (Cached jp) SearchState.cardCombs (stops stop) [c] s (s.push c, b) := by
  refine ⟨hs, ?_, by simp [hb]⟩
  simp [SearchState.push, upTo]

theorem stop_flag (stop : Nat) (second : Bool) (groups : List CardGroup) (left : List PokerCard)
    (jp : Int) : stops stop (comb jp second groups left) =
      (second && (decide (0 ≤ stop) && decide (left.length ≤ stop))) := by
  rw [decide_eq_true (Nat.zero_le stop), Bool.true_and]
  rfl

theorem fullComb_eq (jp : Int) (groups : List CardGroup) :
    Combination.fullComb groups = comb jp true groups [] := by
  simp [Combination.fullComb, comb]

theorem restComb_eq {jp : Int} {self : Combination} (h : self.jokerPoint = jp)
    (groups : List CardGroup) {cards : List PokerCard} (hne : cards ≠ []) :
    self.restComb groups cards = comb jp true groups cards := by
  simp [Combination.restComb, Combination.genValidCardGroup, comb, hne, h]

theorem thirdBody_logs {jp : Int} (stop : Nat) (f s g : CardGroup) (cards3 : List PokerCard)
    (h : CardGroup) {st : SearchState} (hst : Cached jp st) :
    Logs (Cached jp) SearchState.cardCombs (stops stop)
      [comb jp true [f, s, g, h] (removeCards h cards3)] st
      (Combination.thirdBody stop f s g cards3 h st) := by
  unfold Combination.thirdBody
  by_cases h4 : removeCards h cards3 = []
  · simp only [h4, if_true, fullComb_eq jp]
    exact logs_push hst (by simp [stops, comb])
  · simp only [h4, if_false, restComb_eq hst.1 _ h4]
    exact logs_push hst (stop_flag ..).symm

theorem secondBody_logs {jp : Int} (stop : Nat) (f s : CardGroup) (cards2 : List PokerCard)
    (g : CardGroup) {st : SearchState} (hst : Cached jp st) :
    Logs (Cached jp) SearchState.cardCombs (stops stop) (arrangeSecond jp f s cards2 g) st
      (Combination.secondBody stop f s cards2 (melds jp cards2) g st) := by
  unfold Combination.secondBody arrangeSecond
  by_cases h3 : removeCards g cards2 = []
  · simp only [h3, if_true, true_or, fullComb_eq jp]
    exact logs_push hst (by simp [stops, comb])
  · by_cases hm : removeCardGroup (removeCards g cards2) (melds jp cards2) = []
    · simp only [h3, hm, if_true, if_false, or_true, restComb_eq hst.1 _ h3]
      exact logs_push hst (stop_flag ..).symm
    · simp only [h3, hm, if_false, or_self]
      exact untilReturn_upTo _ (fun h _ st hst => thirdBody_logs stop f s g _ h hst) st hst

/-- After the refresh the object is the one a search over `cards2` would set up itself. -/
theorem refresh_eq {jp : Int} {self : Combination} {cards2 : List PokerCard}
    (hjp : self.jokerPoint = jp)
    (hc : self.jokerCombines = caculateAllCardsCombines self.jokerCards 1 self.jokerCards.length)
    {jokers : List PokerCard} (hj : jokers = cards2.filter (isJoker · jp)) :
    (if self.jokerCards ≠ jokers then
      { self with
        jokerCards := jokers
        jokerCombines := caculateAllCardsCombines jokers 1 jokers.length }
    else self) = freshFor jp cards2 := by
  obtain ⟨jc, jcs, p⟩ := self
  simp only at hjp hc
  subst hjp hc hj
  split
  · rfl
  · next h =>
    simp only [ne_eq, not_not] at h
    subst h
    rfl

/-- What is done for a second life once the object holds the selections for the cards left. -/
theorem refreshed_logs {jp : Int} (stop : Nat) (f s : CardGroup) {cards2 : List PokerCard}
    (h2 : cards2 ≠ []) (st : SearchState) :
    Logs (Cached jp) SearchState.cardCombs (stops stop)
      (if melds jp cards2 = [] then [comb jp true [f, s] cards2]
        else (melds jp cards2).flatMap (arrangeSecond jp f s cards2)) st
      (if melds jp cards2 = [] then
        ({ st with self := freshFor jp cards2 }.push ((freshFor jp cards2).restComb [f, s] cards2),
          decide (0 ≤ stop) && decide (cards2.length ≤ stop))
      else untilReturn (Combination.secondBody stop f s cards2 (melds jp cards2)) (melds jp cards2)
        { st with self := freshFor jp cards2 }) := by
  have hst : Cached jp { st with self := freshFor jp cards2 } := ⟨rfl, rfl⟩
  by_cases hm : melds jp cards2 = []
  · rw [if_pos hm, if_pos hm, restComb_eq rfl _ h2]
    have hlogs := logs_push hst (stop_flag stop true [f, s] cards2 jp).symm
    exact ⟨hlogs.inv, hlogs.log_eq, hlogs.stop⟩
  · rw [if_neg hm, if_neg hm]
    have hlogs := untilReturn_upTo (melds jp cards2)
      (fun g _ st hst => secondBody_logs stop f s cards2 g hst) _ hst
    exact ⟨hlogs.inv, hlogs.log_eq, hlogs.stop⟩

theorem secondlifeBody_logs {jp : Int} (stop : Nat) (f : CardGroup) (cards1 : List PokerCard)
    (s : CardGroup) {st : SearchState} (hst : Cached jp st) :
    Logs (Cached jp) SearchState.cardCombs (stops stop) (arrangeSecondlife jp f cards1 s) st
      (Combination.secondlifeBody stop f cards1 (cards1.filter (isJoker · jp)) s st) := by
  unfold Combination.secondlifeBody arrangeSecondlife
  by_cases h2 : removeCards s cards1 = []
  · simp only [h2, if_true, true_or, fullComb_eq jp]
    exact logs_push hst (by simp [stops, comb])
  · have hfresh := refresh_eq hst.1 hst.2 (removeCards_filter s cards1 (isJoker · jp)).symm
    simp only [h2, if_false, false_or, hfresh]
    exact refreshed_logs stop f s h2 st

theorem fistlifeBody_logs {jp : Int} (stop : Nat) (hand : List PokerCard) (f : CardGroup)
    {st : SearchState} (hst : Cached jp st) :
    Logs (Cached jp) SearchState.cardCombs (stops stop) (arrangeFistlife jp hand f) st
      (Combination.fistlifeBody stop hand (hand.filter (isJoker · jp)) (straights jp hand) f st) := by
  unfold Combination.fistlifeBody arrangeFistlife
  by_cases h1 : removeCards f hand = []
  · simp only [h1, if_true]
    exact ⟨hst, by simp [upTo], rfl⟩
  · by_cases hm : removeCardGroup (removeCards f hand) (straights jp hand) = []
    · simp only [h1, hm, if_true, if_false, Combination.genValidCardGroup, hst.1]
      have hc : comb jp false [f] (removeCards f hand) =
          { isHasFirtlife := true, validCards := removeCards f hand
            score := cardScore (removeCards f hand) jp
            cardGroup := [f, { type := GROUP_INVALID, cards := removeCards f hand }] } := by
        simp [comb, h1]
      rw [hc]
      exact logs_push hst rfl
    · simp only [h1, hm, if_false, ← removeCards_filter]
      exact untilReturn_upTo _ (fun s _ st hst => secondlifeBody_logs stop f _ s hst) st hst

/-- **`search_all_group` pushes the enumeration up to the first arrangement that stops it**, whatever
the object held before. -/
theorem searchAllGroup_eq (self : Combination) (hand : List PokerCard) (stop : Nat) :
    (self.searchAllGroup hand stop).cardCombs =
      upTo (stops stop) (arrangements self.jokerPoint hand) := by
  unfold Combination.searchAllGroup arrangements
  change SearchState.cardCombs (if firstLives self.jokerPoint hand = [] then _ else _) = _
  by_cases hf : firstLives self.jokerPoint hand = []
  · simp [hf, SearchState.push, Combination.genValidCardGroup, noLifeComb, upTo]
  · simp only [hf, if_false]
    have hlogs := untilReturn_upTo (firstLives self.jokerPoint hand)
      (fun f _ st hst => fistlifeBody_logs stop hand f hst)
      { self := freshFor self.jokerPoint hand, cardCombs := [] } ⟨rfl, rfl⟩
    exact hlogs.log_eq.trans (List.nil_append _)

/-! ## The choice -/

/-- The last arrangement when it costs nothing, else the first of the cheapest. -/
def Picks (combs : List CombinationInfo) (c : CombinationInfo) : Prop :=
  (combs.getLast? = some c ∧ c.score = 0) ∨ FirstMin CombinationInfo.score combs c

theorem minComb_firstMin (front : CombinationInfo) (rest : List CombinationInfo) :
    FirstMin CombinationInfo.score (front :: rest) (Combination.minComb front (front :: rest)) := by
  unfold Combination.minComb
  rw [List.foldl_cons, if_neg (lt_irrefl _)]
  exact firstMin_foldl CombinationInfo.score front rest

/-- The arrangements `default_declare` chooses from. -/
def pushed (jp : Int) (hand : List PokerCard) : List CombinationInfo :=
  upTo (stops 0) (arrangements jp hand)

/-- The result as a function of the arrangements pushed. -/
def result (combs : List CombinationInfo) : Option (Nat × List CardGroup) :=
  match combs.head?, combs.getLast? with
  | some front, some back =>
    if back.score = 0 then some (back.score, back.cardGroup)
    else some ((Combination.minComb front combs).score, (Combination.minComb front combs).cardGroup)
  | _, _ => none

theorem defaultDeclare_eq (self : Combination) (hand : List PokerCard) (jp : Int) :
    (self.defaultDeclare hand jp).2 = result (pushed jp hand) := by
  have hs : (Combination.searchAllGroup { self with jokerPoint := jp } hand 0).cardCombs =
      pushed jp hand := searchAllGroup_eq ..
  unfold Combination.defaultDeclare result
  simp only [hs]
  rcases (pushed jp hand).head? with _ | front
  · rfl
  · rcases (pushed jp hand).getLast? with _ | back
    · rfl
    · by_cases h0 : back.score = 0
      · simp only [h0, if_true]
      · simp only [h0, if_false]

theorem result_of_getLast {combs : List CombinationInfo} {c : CombinationInfo}
    (hc : combs.getLast? = some c) (h0 : c.score = 0) : result combs = some (0, c.cardGroup) := by
  unfold result
  cases combs with
  | nil => cases hc
  | cons front rest => simp only [List.head?_cons, hc, h0, if_true]

theorem result_picks {combs : List CombinationInfo} {score : Nat} {groups : List CardGroup}
    (h : result combs = some (score, groups)) :
    ∃ c, Picks combs c ∧ score = c.score ∧ groups = c.cardGroup := by
  unfold result at h
  cases combs with
  | nil => cases h
  | cons front rest =>
    have hback := List.getLast?_eq_some_getLast (List.cons_ne_nil front rest)
    rw [List.head?_cons, hback] at h
    by_cases h0 : ((front :: rest).getLast (List.cons_ne_nil front rest)).score = 0
    · simp only [h0, if_true, Option.some.injEq, Prod.mk.injEq] at h
      exact ⟨_, Or.inl ⟨hback, h0⟩, h.1.symm.trans h0.symm, h.2.symm⟩
    · simp only [h0, if_false, Option.some.injEq, Prod.mk.injEq] at h
      exact ⟨_, Or.inr (minComb_firstMin front rest), h.1.symm, h.2.symm⟩

theorem result_isSome {combs : List CombinationInfo} (h : combs ≠ []) : ∃ r, result combs = some r := by
  unfold result
  cases combs with
  | nil => exact absurd rfl h
  | cons front rest =>
    rw [List.head?_cons, List.getLast?_eq_some_getLast h]
    by_cases h0 : ((front :: rest).getLast h).score = 0
    · simp only [h0, if_true]
      exact ⟨_, rfl⟩
    · simp only [h0, if_false]
      exact ⟨_, rfl⟩

/-- **What `default_declare` returns** is picked out of the arrangements pushed. -/
theorem defaultDeclare_picks {self : Combination} {hand : List PokerCard} {jp : Int} {score : Nat}
    {groups : List CardGroup} (h : (self.defaultDeclare hand jp).2 = some (score, groups)) :
    ∃ c, Picks (pushed jp hand) c ∧ score = c.score ∧ groups = c.cardGroup := by
  rw [defaultDeclare_eq] at h
  exact result_picks h

theorem defaultDeclare_isSome (self : Combination) {hand : List PokerCard} {jp : Int}
    (h : arrangements jp hand ≠ []) : ∃ r, (self.defaultDeclare hand jp).2 = some r := by
  rw [defaultDeclare_eq]
  exact result_isSome (upTo_ne_nil h)

end SparkFrame.Cards
