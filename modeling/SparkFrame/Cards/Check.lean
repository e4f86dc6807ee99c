import SparkFrame.Cards.Card

/-!
# The declaration checkers

* `isCardsPureStraight`, `isCardsStraight`, `isCardsThreeOfKind` : the three shape tests, each a loop
  over the cards in the order it is given;
* `checkLoseDeclare` : a losing declaration, in two passes over the groups, with its score;
* `isGroupsDeclare` : a winning declaration, in one pass;
* `countStraights_eq_some`, `scoreLoop_eq_true`, `checkLoseDeclare_eq_true`, `isGroupsDeclare_eq_true` :
  what the loops accept, as statements about the groups.
-/

namespace SparkFrame.Cards

open PokerCard

/-! ## Shapes -/

/-- The loop of `is_cards_pure_straight`; `first` is `*cards.begin()`, `last` is `*itLast`. -/
def pureLoop (first : PokerCard) : PokerCard → List PokerCard → Bool
  | _, [] => true
  | last, c :: cs =>
    if last.color ≠ c.color ∨ JOKER1 ≤ last.point ∨ JOKER1 ≤ c.point then false
    else if last.point + 1 ≠ c.point then
      -- a break in the run is accepted at an ace when the run began with a two
      if c.point ≠ A then false else decide (first.point = P2)
    else pureLoop first c cs

def isCardsPureStraight : List PokerCard → Bool
  | [] => false
  | first :: cs => if (first :: cs).length < 3 then false else pureLoop first first cs

/-- The comparison of two neighbouring non-jokers: the jokers needed between them, or `none` where
the code returns `false`. -/
def gapBetween (last c : PokerCard) : Option Int :=
  if last.color ≠ c.color then none
  else if (c.point : Int) - last.point = 0 then none
  else some ((c.point : Int) - last.point - 1)

/-- The first loop of `is_cards_straight`: joker count, jokers needed, and `tempcards`, whose last
card is what `itLast` points to. -/
def straightScan (jokerPoint : Int) :
    List PokerCard → Nat → Int → List PokerCard → Option (Nat × Int × List PokerCard)
  | [], jokerCount, need, temp => some (jokerCount, need, temp)
  | c :: cs, jokerCount, need, temp =>
    if isJoker c jokerPoint then straightScan jokerPoint cs (jokerCount + 1) need temp
    else match temp.getLast? with
      | none => straightScan jokerPoint cs jokerCount need (temp ++ [c])
      | some last =>
        match gapBetween last c with
        | none => none
        | some gap => straightScan jokerPoint cs jokerCount (need + gap) (temp ++ [c])

/-- The second loop, over the cards with the ace taken as one. -/
def aceLowScan : Option PokerCard → Int → List PokerCard → Option Int
  | _, need, [] => some need
  | none, need, c :: cs => aceLowScan (some c) need cs
  | some last, need, c :: cs =>
    match gapBetween last c with
    | none => none
    | some gap => aceLowScan (some c) (need + gap) cs

def aceToOne (c : PokerCard) : PokerCard := if c.point = A then { c with point := 1 } else c

def isCardsStraight (cards : List PokerCard) (jokerPoint : Int) : Bool :=
  if cards.length < 3 then false
  else match straightScan jokerPoint cards 0 0 [] with
    | none => false
    | some (jokerCount, need, temp) =>
      if need ≤ jokerCount then true
      else if jokerPoint = A ∨ temp.getLast?.map PokerCard.point ≠ some A then false
      else match aceLowScan none 0 (sortCards (temp.map aceToOne)) with
        | none => false
        | some need => decide (need ≤ jokerCount)

/-- The loop of `is_cards_three_of_kind`: the number of non-jokers, or `none` where it returns. -/
def kindLoop (jokerPoint : Int) : PokerCard → Bool → Nat → List PokerCard → Option Nat
  | _, _, unJokerCount, [] => some unJokerCount
  | last, isLastIsJoker, unJokerCount, c :: cs =>
    if isJoker c jokerPoint then kindLoop jokerPoint c true unJokerCount cs
    else if !isLastIsJoker && (decide (c.point ≠ last.point) || decide (c.color = last.color)) then none
    else kindLoop jokerPoint c false (unJokerCount + 1) cs

def isCardsThreeOfKind (oneGroup : List PokerCard) (jokerPoint : Int) : Bool :=
  match oneGroup with
  | [] => false
  | first :: rest =>
    if oneGroup.length < 3 ∨ 4 < oneGroup.length then false
    else
      match kindLoop jokerPoint first (isJoker first jokerPoint)
        (if isJoker first jokerPoint then 0 else 1) rest with
      | none => false
      | some unJokerCount => decide (2 ≤ unJokerCount)

/-! ## Declarations -/

/-- The first pass of `check_lose_declare`: pure straights and straights, or `none` on a group typed
as a straight that is none. -/
def countStraights (jokerPoint : Int) : List CardGroup → Nat → Nat → Option (Nat × Nat)
  | [], pureCount, straightCount => some (pureCount, straightCount)
  | g :: gs, pureCount, straightCount =>
    let cards := sortCards g.cards
    if g.type = GROUP_STAIGHT then
      if isCardsStraight cards jokerPoint then
        countStraights jokerPoint gs
          (if isCardsPureStraight cards then pureCount + 1 else pureCount) (straightCount + 1)
      else none
    else countStraights jokerPoint gs pureCount straightCount

/-- The second pass: the verdict and what `score` holds when it is reached. -/
def scoreLoop (jokerPoint : Int) (pureCount straightCount : Nat) :
    List CardGroup → Nat → Bool × Nat
  | [], score => (true, score)
  | g :: gs, score =>
    let cards := sortCards g.cards
    if g.type = GROUP_INVALID then
      scoreLoop jokerPoint pureCount straightCount gs (score + cardScore cards jokerPoint)
    else if g.type = GROUP_STAIGHT then
      if pureCount < 1 then (false, score)
      else scoreLoop jokerPoint pureCount straightCount gs score
    else if g.type = GROUP_THREE_KIND then
      if pureCount < 1 ∨ straightCount < 2 then (false, score)
      else if !isCardsThreeOfKind cards jokerPoint then (false, score)
      else scoreLoop jokerPoint pureCount straightCount gs score
    else (false, score)

/-- `check_lose_declare`: the verdict and the value left in `score`. -/
def checkLoseDeclare (groups : List CardGroup) (jokerPoint : Int) : Bool × Nat :=
  match countStraights jokerPoint groups 0 0 with
  | none => (false, 0)
  | some (pureCount, straightCount) => scoreLoop jokerPoint pureCount straightCount groups 0

/-- The loop of `is_groups_declare`: its two counters, or `none` where it returns. -/
def declareLoop (jokerPoint : Int) : List CardGroup → Nat → Nat → Option (Nat × Nat)
  | [], pureCount, straightCount => some (pureCount, straightCount)
  | g :: gs, pureCount, straightCount =>
    let cards := sortCards g.cards
    if g.type = GROUP_INVALID then none
    else if g.type = GROUP_STAIGHT then
      if isCardsStraight cards jokerPoint then
        declareLoop jokerPoint gs
          (if isCardsPureStraight cards then pureCount + 1 else pureCount) (straightCount + 1)
      else none
    else if g.type = GROUP_THREE_KIND then
      if isCardsThreeOfKind cards jokerPoint then declareLoop jokerPoint gs pureCount straightCount
      else none
    -- any other type is neither tested nor refused
    else declareLoop jokerPoint gs pureCount straightCount

def isGroupsDeclare (groups : List CardGroup) (jokerPoint : Int) : Bool :=
  match declareLoop jokerPoint groups 0 0 with
  | none => false
  | some (pureCount, straightCount) =>
    if pureCount < 1 ∨ straightCount < 2 then false else true

/-! ## What the loops accept -/

namespace CardGroup

def isStraight (g : CardGroup) : Bool := decide (g.type = GROUP_STAIGHT)

/-- A straight group whose cards, sorted, pass the pure test. -/
def isPure (g : CardGroup) : Bool := g.isStraight && isCardsPureStraight (sortCards g.cards)

/-- A group typed as a straight is one. -/
def straightOk (jp : Int) (g : CardGroup) : Bool :=
  !g.isStraight || isCardsStraight (sortCards g.cards) jp

/-- A group typed as a set is one. -/
def kindOk (jp : Int) (g : CardGroup) : Bool :=
  !decide (g.type = GROUP_THREE_KIND) || isCardsThreeOfKind (sortCards g.cards) jp

/-- The three types the code knows. -/
def isKnown (g : CardGroup) : Bool :=
  decide (g.type = GROUP_INVALID) || g.isStraight || decide (g.type = GROUP_THREE_KIND)

/-- The second pass goes on after `g`, given the counts of pure straights and of straights. -/
def accepts (jp : Int) (pureCount straightCount : Nat) (g : CardGroup) : Bool :=
  decide (g.type = GROUP_INVALID) ||
  (g.isStraight && decide (1 ≤ pureCount)) ||
  (decide (g.type = GROUP_THREE_KIND) && decide (1 ≤ pureCount) && decide (2 ≤ straightCount) &&
    isCardsThreeOfKind (sortCards g.cards) jp)

/-- What a group left over adds to the score. -/
def leftover (jp : Int) (g : CardGroup) : Nat :=
  if g.type = GROUP_INVALID then cardScore g.cards jp else 0

end CardGroup

open CardGroup

theorem kindOk_of_accepts {jp : Int} {p s : Nat} {g : CardGroup} (h : g.accepts jp p s = true) :
    g.kindOk jp = true := by
  have h02 : GROUP_THREE_KIND ≠ GROUP_INVALID := by decide
  have h12 : GROUP_THREE_KIND ≠ GROUP_STAIGHT := by decide
  simp only [accepts, kindOk, isStraight] at *
  grind

theorem countStraights_cons (jp : Int) (g : CardGroup) (gs : List CardGroup) (p s : Nat) :
    countStraights jp (g :: gs) p s =
      if g.straightOk jp then
        countStraights jp gs (p + if g.isPure then 1 else 0) (s + if g.isStraight then 1 else 0)
      else none := by
  by_cases ht : g.type = GROUP_STAIGHT
  · by_cases hs : isCardsStraight (sortCards g.cards) jp = true
    · by_cases hp : isCardsPureStraight (sortCards g.cards) = true <;>
        simp [countStraights, straightOk, isPure, isStraight, ht, hs, hp]
    · simp [countStraights, straightOk, isStraight, ht, hs]
  · simp [countStraights, straightOk, isPure, isStraight, ht]

theorem countStraights_eq_some {jp : Int} {groups : List CardGroup} {p s p' s' : Nat} :
    countStraights jp groups p s = some (p', s') ↔
      (∀ g ∈ groups, g.straightOk jp = true) ∧ p' = p + groups.countP isPure ∧
        s' = s + groups.countP isStraight := by
  induction groups generalizing p s with
  | nil =>
    simp [countStraights]
    omega
  | cons g gs ih =>
    rw [countStraights_cons]
    split
    · next hok =>
      rw [ih, List.forall_mem_cons, List.countP_cons, List.countP_cons]
      simp only [hok, true_and]
      constructor <;> rintro ⟨h₁, h₂, h₃⟩ <;> exact ⟨h₁, by omega, by omega⟩
    · next hok => simp [hok]

theorem scoreLoop_cons (jp : Int) (p s : Nat) (g : CardGroup) (gs : List CardGroup) (score : Nat) :
    scoreLoop jp p s (g :: gs) score =
      if g.accepts jp p s then scoreLoop jp p s gs (score + g.leftover jp) else (false, score) := by
  have h01 : GROUP_STAIGHT ≠ GROUP_INVALID := by decide
  have h02 : GROUP_THREE_KIND ≠ GROUP_INVALID := by decide
  have h12 : GROUP_THREE_KIND ≠ GROUP_STAIGHT := by decide
  by_cases h0 : g.type = GROUP_INVALID
  · simp [scoreLoop, accepts, leftover, h0, cardScore_perm (sortCards_perm g.cards)]
  · by_cases h1 : g.type = GROUP_STAIGHT
    · by_cases hp : p = 0 <;>
        simp [scoreLoop, accepts, leftover, isStraight, h01, h1, h12.symm, hp, Nat.one_le_iff_ne_zero]
    · by_cases h2 : g.type = GROUP_THREE_KIND
      · by_cases hs : isCardsThreeOfKind (sortCards g.cards) jp = true
        · by_cases hp : p = 0
          · simp [scoreLoop, accepts, isStraight, h02, h2, h12, hp]
          · by_cases h2s : s < 2 <;>
              simp [scoreLoop, accepts, leftover, isStraight, h02, h2, h12, hp, h2s, hs,
                Nat.not_lt.mp, Nat.not_le.mpr]
        · simp [scoreLoop, accepts, isStraight, h02, h2, h12, hs]
      · simp [scoreLoop, accepts, isStraight, h0, h1, h2]

theorem scoreLoop_eq_true {jp : Int} {p s : Nat} {groups : List CardGroup} {score score' : Nat} :
    scoreLoop jp p s groups score = (true, score') ↔
      (∀ g ∈ groups, g.accepts jp p s = true) ∧
        score' = score + (groups.map (leftover jp)).sum := by
  induction groups generalizing score with
  | nil =>
    simp [scoreLoop]
    omega
  | cons g gs ih =>
    rw [scoreLoop_cons]
    split
    · next hok =>
      rw [ih, List.forall_mem_cons, List.map_cons, List.sum_cons, Nat.add_assoc]
      simp only [hok, true_and]
    · next hok => simp [hok]

/-- **What `check_lose_declare` accepts, and with which score.** -/
theorem checkLoseDeclare_eq_true {jp : Int} {groups : List CardGroup} {score : Nat} :
    checkLoseDeclare groups jp = (true, score) ↔
      (∀ g ∈ groups, g.straightOk jp = true ∧
        g.accepts jp (groups.countP isPure) (groups.countP isStraight) = true) ∧
      score = (groups.map (leftover jp)).sum := by
  unfold checkLoseDeclare
  rcases h : countStraights jp groups 0 0 with _ | ⟨p, s⟩
  · have hno : ¬ ∀ g ∈ groups, g.straightOk jp = true := fun hall => by
      rw [countStraights_eq_some.mpr ⟨hall, rfl, rfl⟩] at h
      cases h
    simp only [Prod.mk.injEq, Bool.false_eq_true, false_and, false_iff]
    exact fun hall => hno fun g hg => (hall.1 g hg).1
  · obtain ⟨hall, rfl, rfl⟩ := countStraights_eq_some.mp h
    simp only [Nat.zero_add, scoreLoop_eq_true]
    exact and_congr_left fun _ => ⟨fun h g hg => ⟨hall g hg, h g hg⟩, fun h g hg => (h g hg).2⟩

theorem declareLoop_cons (jp : Int) (g : CardGroup) (gs : List CardGroup) (p s : Nat) :
    declareLoop jp (g :: gs) p s =
      if g.type ≠ GROUP_INVALID ∧ g.straightOk jp = true ∧ g.kindOk jp = true then
        declareLoop jp gs (p + if g.isPure then 1 else 0) (s + if g.isStraight then 1 else 0)
      else none := by
  have h01 : GROUP_STAIGHT ≠ GROUP_INVALID := by decide
  have h02 : GROUP_THREE_KIND ≠ GROUP_INVALID := by decide
  have h12 : GROUP_THREE_KIND ≠ GROUP_STAIGHT := by decide
  by_cases h0 : g.type = GROUP_INVALID
  · simp [declareLoop, h0]
  · by_cases h1 : g.type = GROUP_STAIGHT
    · by_cases hs : isCardsStraight (sortCards g.cards) jp = true
      · by_cases hp : isCardsPureStraight (sortCards g.cards) = true <;>
          simp [declareLoop, straightOk, kindOk, isPure, isStraight, h1, h01, h12.symm, hs, hp]
      · simp [declareLoop, straightOk, isStraight, h1, h01, hs]
    · by_cases h2 : g.type = GROUP_THREE_KIND
      · by_cases hs : isCardsThreeOfKind (sortCards g.cards) jp = true <;>
          simp [declareLoop, straightOk, kindOk, isPure, isStraight, h2, h02, h12, hs]
      · simp [declareLoop, straightOk, kindOk, isPure, isStraight, h0, h1, h2]

theorem declareLoop_eq_some {jp : Int} {groups : List CardGroup} {p s p' s' : Nat} :
    declareLoop jp groups p s = some (p', s') ↔
      (∀ g ∈ groups, g.type ≠ GROUP_INVALID ∧ g.straightOk jp = true ∧ g.kindOk jp = true) ∧
        p' = p + groups.countP isPure ∧ s' = s + groups.countP isStraight := by
  induction groups generalizing p s with
  | nil =>
    simp [declareLoop]
    omega
  | cons g gs ih =>
    rw [declareLoop_cons]
    split
    · next hok =>
      rw [ih, List.forall_mem_cons, List.countP_cons, List.countP_cons]
      constructor
      · rintro ⟨h₁, h₂, h₃⟩
        exact ⟨⟨hok, h₁⟩, by omega, by omega⟩
      · rintro ⟨⟨-, h₁⟩, h₂, h₃⟩
        exact ⟨h₁, by omega, by omega⟩
    · next hok =>
      simp only [reduceCtorEq, List.forall_mem_cons, hok, false_and]

/-- **What `is_groups_declare` accepts.** -/
theorem isGroupsDeclare_eq_true {jp : Int} {groups : List CardGroup} :
    isGroupsDeclare groups jp = true ↔
      (∀ g ∈ groups, g.type ≠ GROUP_INVALID ∧ g.straightOk jp = true ∧ g.kindOk jp = true) ∧
        1 ≤ groups.countP isPure ∧ 2 ≤ groups.countP isStraight := by
  unfold isGroupsDeclare
  rcases h : declareLoop jp groups 0 0 with _ | ⟨p, s⟩
  · have hno : ¬ ∀ g ∈ groups, g.type ≠ GROUP_INVALID ∧ g.straightOk jp = true ∧
        g.kindOk jp = true := fun hall => by
      rw [declareLoop_eq_some.mpr ⟨hall, rfl, rfl⟩] at h
      cases h
    simp only [Bool.false_eq_true, false_iff]
    exact fun hall => hno hall.1
  · obtain ⟨hall, rfl, rfl⟩ := declareLoop_eq_some.mp h
    simp only [Nat.zero_add]
    split <;> simp only [Bool.false_eq_true, false_iff, true_iff] <;> grind

end SparkFrame.Cards
