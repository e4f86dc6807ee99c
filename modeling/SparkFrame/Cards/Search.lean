import SparkFrame.Cards.Check
import SparkFrame.Cards.Choices

/-!
# The meld searches

`Combination` carries the three members the searches read: the jokers at hand, all selections of
them, and the wild point. Each search returns what the code appends to its output parameter.

* `toStraightFillJokerNum`, `combineWithJokerCard`, `searchStraightFlush` : straights;
* `searchThreeOfKind` : sets;
* `removeCards`, `removeCardGroup` : taking a group out of a hand, keeping the groups that still fit.
-/

namespace SparkFrame.Cards

open PokerCard

structure Combination where
  jokerCards : List PokerCard := []
  jokerCombines : List (List PokerCard) := []
  jokerPoint : Int := 0
deriving DecidableEq, Repr

namespace Combination

variable (self : Combination)

def searchJokerCards (allCards : List PokerCard) : List PokerCard :=
  allCards.filter (isJoker · self.jokerPoint)

/-! ## Straights -/

/-- The `fill_num` loop of `to_straight_fill_joker_num`, from `*it_last` on. -/
def fillLoop : PokerCard → Int → List PokerCard → Int
  | _, fillNum, [] => fillNum
  | last, fillNum, c :: cs =>
    if last.point = A then fillLoop c (fillNum + ((c.point : Int) - 1 - 1)) cs
    else fillLoop c (fillNum + ((c.point : Int) - last.point - 1)) cs

/-- `to_straight_fill_joker_num`: the least and the greatest number of jokers to add, `(0, 0)` when
there are not enough. -/
def toStraightFillJokerNum (cards : List PokerCard) : Int × Int :=
  match cards with
  | [] => (0, 0)
  | first :: rest =>
    let fillNum := fillLoop first 0 rest
    let jokerCardNum : Int := self.jokerCards.length
    let totalNum : Int := cards.length + fillNum
    let fillNum := if totalNum < 3 then fillNum + (3 - totalNum) else fillNum
    let fillNum := if fillNum = 0 then 1 else fillNum
    if fillNum > jokerCardNum then (0, 0)
    else (fillNum, fillNum + (jokerCardNum - fillNum))

/-- `combine_with_joker_card`. -/
def combineWithJokerCard (allCards : List PokerCard) : List CardGroup :=
  let (minFillNum, maxFillNum) := self.toStraightFillJokerNum allCards
  if minFillNum = 0 then []
  else (List.range (maxFillNum + 1 - minFillNum).toNat).flatMap fun (d : Nat) =>
    (self.jokerCombines.filter fun j => decide ((j.length : Int) = minFillNum + d)).map fun j =>
      { type := GROUP_STAIGHT, cards := sortCards (allCards ++ j) }

def searchStraightFlushSelectN (allCards : List PokerCard) (selectN : Nat) : List CardGroup :=
  if allCards.length < selectN then []
  else (selectCardCombine allCards selectN).flatMap fun hand =>
    (if isCardsPureStraight hand then [{ type := GROUP_STAIGHT, cards := hand }] else []) ++
    self.combineWithJokerCard hand ++
    -- the ace at the end is tried as a one as well
    (if 1 < hand.length ∧ hand.getLast?.map point = some A then
      self.combineWithJokerCard (hand.getLast?.toList ++ hand.dropLast) else [])

/-- `search_straight_flush_i`: first copies with the jokers, second copies on their own. -/
def searchStraightFlushI (flushCards repeatCard : List PokerCard) : List CardGroup :=
  (List.range' 1 (flushCards.length + self.jokerCards.length)).flatMap
    (self.searchStraightFlushSelectN flushCards) ++
  (List.range' 1 repeatCard.length).flatMap fun i =>
    ((selectCardCombine repeatCard i).filter isCardsPureStraight).map fun cards =>
      { type := GROUP_STAIGHT, cards := cards }

/-- The loop that splits the sorted cards of one color into `pop_cards` and `pop_repeat_cards`. -/
def popFlush (leftCards : List PokerCard) : List PokerCard × List PokerCard :=
  leftCards.foldl (fun (popCards, popRepeatCards) c =>
    if isJoker c self.jokerPoint then (popCards, popRepeatCards)
    else match popCards.getLast? with
      | none => (popCards ++ [c], popRepeatCards)
      | some back =>
        if back.point = c.point then (popCards, popRepeatCards ++ [c])
        else (popCards ++ [c], popRepeatCards)) ([], [])

/-- The keys of `flush_cards`, in the order of the map. -/
def flushColors (allCards : List PokerCard) : List Nat :=
  (allCards.map color).dedup.insertionSort (· ≤ ·)

def searchStraightFlush (allCards : List PokerCard) : List CardGroup :=
  (flushColors allCards).flatMap (fun col =>
    let (popCards, popRepeatCards) :=
      self.popFlush (sortCards (allCards.filter fun c => decide (c.color = col)))
    self.searchStraightFlushI popCards popRepeatCards) ++
  (self.jokerCombines.filter fun j => decide (3 ≤ j.length)).map fun j =>
    { type := GROUP_STAIGHT, cards := j }

def searchPureStraightFlush (cardGroup : List CardGroup) : List CardGroup :=
  cardGroup.filter fun g => isCardsPureStraight g.cards

/-! ## Sets -/

def searchThreeOfKindSelectN (allCards : List PokerCard) (selectN : Nat) : List CardGroup :=
  if allCards.length < selectN then []
  else (selectCardCombine allCards selectN).flatMap fun hand =>
    (if 2 < hand.length then [{ type := GROUP_THREE_KIND, cards := hand }] else []) ++
    self.jokerCombines.map fun j => { type := GROUP_THREE_KIND, cards := hand ++ j }

def searchThreeOfKindI (allCards repeatCard : List PokerCard) : List CardGroup :=
  (List.range' 2 3).flatMap (self.searchThreeOfKindSelectN allCards) ++
  (List.range' 3 2).flatMap fun i =>
    (selectCardCombine repeatCard i).map fun cards => { type := GROUP_THREE_KIND, cards := cards }

/-- The `while` loop of `search_three_of_kind` over the sorted cards, and the block after it. -/
def kindSearchLoop : List PokerCard → List PokerCard → List PokerCard → List CardGroup
  | [], popCards, popRepeatCards =>
    if 2 ≤ popCards.length then self.searchThreeOfKindI popCards popRepeatCards else []
  | c :: leftCards, popCards, popRepeatCards =>
    if (popCards = [] ∨ popCards.head?.map point = some c.point) ∧
        isJoker c self.jokerPoint = false then
      if c ∈ popCards then kindSearchLoop leftCards popCards (popRepeatCards ++ [c])
      else kindSearchLoop leftCards (popCards ++ [c]) popRepeatCards
    else
      (if 2 ≤ popCards.length then self.searchThreeOfKindI popCards popRepeatCards else []) ++
        kindSearchLoop leftCards [c] []

def searchThreeOfKind (allCards : List PokerCard) : List CardGroup :=
  self.kindSearchLoop (sortCards allCards) [] []

end Combination

/-! ## Removal -/

/-- `remove_cards`: each card of the group erases the first equal card, if there is one. -/
def removeCards (oneGroup : CardGroup) (allCards : List PokerCard) : List PokerCard :=
  oneGroup.cards.foldl (fun outCards c => outCards.erase c) allCards

/-- Finding every card in turn in the array, blanking what is found. -/
def isInCards : List PokerCard → List PokerCard → Bool
  | _, [] => true
  | arrCard, c :: cs => if c ∈ arrCard then isInCards (arrCard.replace c blank) cs else false

/-- `remove_card_group`: the groups whose cards are all in `allCards`, copied into an array of
`MAX_CARD_COUNT` cards. -/
def removeCardGroup (allCards : List PokerCard) (cardGroup : List CardGroup) : List CardGroup :=
  let arrCard := (allCards ++ List.replicate MAX_CARD_COUNT blank).take MAX_CARD_COUNT
  cardGroup.filter fun g => isInCards arrCard g.cards

end SparkFrame.Cards
