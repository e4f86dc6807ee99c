import SparkFrame.Cards.Arrange
import SparkFrame.Cards.Shapes
import SparkFrame.Lib.StdSort

/-!
# Which card to post

* `sortCombineFunc` : the order in which `post_best_card` prefers arrangements;
* `postValidGroupBigestCard` : the card taken out of the melds when nothing is left over;
* `caculateCardsRelation`, `postLessRelationCard` : the card least related to the others left over;
* `postBestCard` : the card and the score; `tieLoop` : its loop over equally good arrangements;
* `mem_postLessRelationCard` : it is one of the cards left over; `posted`, `posted_eq`,
  `postValidGroupBigestCard_mem` : it is the last card of its kind in a meld of four cards or more;
* `postSorted_rule` : what holds of either holds of the result.
-/

namespace SparkFrame.Cards

open PokerCard SparkFrame.Lib

/-- `sort_combine_func`: a first life, then a second life, then fewer cards left over. -/
def sortCombineFunc (leftComb rightComb : CombinationInfo) : Bool :=
  if leftComb.isHasFirtlife = rightComb.isHasFirtlife then
    if leftComb.isHasFirtlife = true ∧ leftComb.isHasSecondelife ≠ rightComb.isHasSecondelife then
      leftComb.isHasSecondelife
    else if leftComb.validCards.length ≠ rightComb.validCards.length then
      decide (leftComb.validCards.length < rightComb.validCards.length)
    else false
  else leftComb.isHasFirtlife

theorem sortCombineFunc_total (a b : CombinationInfo) :
    sortCombineFunc b a = false ∨ sortCombineFunc a b = false := by
  unfold sortCombineFunc
  grind

theorem sortCombineFunc_trans (a b c : CombinationInfo) (hab : sortCombineFunc b a = false)
    (hbc : sortCombineFunc c b = false) : sortCombineFunc c a = false := by
  unfold sortCombineFunc at *
  grind

/-- One of the sorts `std::sort` may be. -/
def combineSort : StdSort sortCombineFunc :=
  StdSort.insertion sortCombineFunc_total sortCombineFunc_trans

/-- `CardRelation`: a card and `m_relate_degree`. -/
structure CardRelation where
  card : PokerCard
  relateDegree : Int := 0
deriving DecidableEq, Repr

def CardRelation.add (r : CardRelation) (n : Int) : CardRelation :=
  { r with relateDegree := r.relateDegree + n }

@[simp] theorem CardRelation.add_card (r : CardRelation) (n : Int) : (r.add n).card = r.card := rfl

namespace Combination

/-! ## Out of the melds -/

/-- The loop over the sorted cards of a group, with `*itjoker` and `*itnojoker`, and the choice after
it. -/
def postOf (jokerPoint : Int) : PokerCard → PokerCard → Nat → List PokerCard → PokerCard
  | itJoker, itNojoker, nonjokerCount, [] => if nonjokerCount ≤ 1 then itJoker else itNojoker
  | itJoker, itNojoker, nonjokerCount, c :: cs =>
    if isJoker c jokerPoint then postOf jokerPoint c itNojoker nonjokerCount cs
    else postOf jokerPoint itJoker c (nonjokerCount + 1) cs

/-- The loop over the groups; `score` and `card` hold the best card so far. -/
def bigestLoop (jokerPoint : Int) : Int → PokerCard → List CardGroup → PokerCard
  | _, card, [] => card
  | score, card, g :: gs =>
    if g.cards.length < 4 then bigestLoop jokerPoint score card gs
    else match sortCards g.cards with
      | [] => bigestLoop jokerPoint score card gs
      | begin :: listCards =>
        let itPost := postOf jokerPoint begin begin 0 (begin :: listCards)
        if (itPost.getScore jokerPoint : Int) > score then
          bigestLoop jokerPoint (itPost.getScore jokerPoint) itPost gs
        else bigestLoop jokerPoint score card gs

/-- `post_valid_group_bigest_card`; `card` keeps its value when no group has four cards. -/
def postValidGroupBigestCard (cardGroups : List CardGroup) (jokerPoint : Int) (card : PokerCard) :
    PokerCard := bigestLoop jokerPoint (-1) card cardGroups

/-! ## Out of the cards left over -/

/-- The loop over the entries behind `it`, until a rank more than two away. -/
def relateLoop : CardRelation → List CardRelation → CardRelation × List CardRelation
  | it, [] => (it, [])
  | it, next :: rest =>
    let diff := ((next.card.point : Int) - it.card.point).natAbs
    if next.card.point = it.card.point then
      let (it', rest') := relateLoop (it.add 2) rest
      (it', next.add 2 :: rest')
    else if diff = 2 ∧ next.card.color = it.card.color then
      let (it', rest') := relateLoop (it.add 3) rest
      (it', next.add 3 :: rest')
    else if diff = 1 ∧ next.card.color = it.card.color then
      let (it', rest') := relateLoop (it.add 4) rest
      (it', next.add 4 :: rest')
    else if diff > 2 then (it, next :: rest)
    else
      let (it', rest') := relateLoop it rest
      (it', next :: rest')

/-- The loop from the first entry on for an ace `it`, until a rank above three, at the latest at `it`
itself. -/
def aceLoop : CardRelation → List CardRelation → CardRelation × List CardRelation
  | it, [] => (it, [])
  | it, next :: rest =>
    if next.card.point ≤ 3 then
      if next.card.color = it.card.color ∧ next.card.point = P2 then
        let (it', rest') := aceLoop (it.add 4) rest
        (it', next.add 4 :: rest')
      else if next.card.color = it.card.color ∧ next.card.point = P3 then
        let (it', rest') := aceLoop (it.add 3) rest
        (it', next.add 3 :: rest')
      else
        let (it', rest') := aceLoop it rest
        (it', next :: rest')
    else (it, next :: rest)

/-- One round of `caculate_cards_relation`, with `it` the entry at `i`. -/
def relationRound (cardRelation : List CardRelation) (i : Nat) : List CardRelation :=
  match cardRelation.drop i with
  | [] => cardRelation
  | it :: after =>
    let (it, after) := relateLoop it after
    let (it, before) :=
      if it.card.point = A then aceLoop it (cardRelation.take i) else (it, cardRelation.take i)
    before ++ it :: after

def caculateCardsRelation (cardRelation : List CardRelation) : List CardRelation :=
  (List.range cardRelation.length).foldl relationRound cardRelation

/-- The loop that splits the sorted cards into `first_cards` and `repeat_cards`. -/
def splitRelations (jokerPoint : Int) : List PokerCard → List CardRelation × List CardRelation
  | [] => ([], [])
  | c :: cards =>
    if isJoker c jokerPoint then splitRelations jokerPoint cards
    else
      match cards with
      | [] => ([{ card := c }], [])
      | next :: _ =>
        let (firstCards, repeatCards) := splitRelations jokerPoint cards
        if next = c then (firstCards, { card := c, relateDegree := -1 } :: repeatCards)
        else ({ card := c } :: firstCards, repeatCards)

/-- The step of the scan for the least degree; of equals the higher score wins. -/
def lessRelated (jokerPoint : Int) (itMin it : CardRelation) : CardRelation :=
  if it.relateDegree < itMin.relateDegree then it
  else if it.relateDegree = itMin.relateDegree ∧
      it.card.getScore jokerPoint > itMin.card.getScore jokerPoint then it
  else itMin

/-- `post_less_relation_card`, or `none` where the assertion on empty cards fails. -/
def postLessRelationCard (handCard : List PokerCard) (jokerPoint : Int) : Option PokerCard :=
  let cards := sortCards handCard
  let (firstCards, repeatCards) := splitRelations jokerPoint cards
  if firstCards = [] then cards.getLast?
  else match caculateCardsRelation firstCards ++ caculateCardsRelation repeatCards with
    | [] => none
    | begin :: rest => some (rest.foldl (lessRelated jokerPoint) begin).card

/-! ## The choice -/

/-- The loop over the arrangements as good as the first one. -/
def tieLoop (jokerPoint : Int) :
    CombinationInfo → PokerCard → Int → List CombinationInfo → Option (PokerCard × Int)
  | _, card, minScore, [] => some (card, minScore)
  | itMin, card, minScore, it :: combs =>
    if itMin.isHasFirtlife ≠ it.isHasFirtlife ∨ itMin.isHasSecondelife ≠ it.isHasSecondelife ∨
        itMin.validCards.length ≠ it.validCards.length then some (card, minScore)
    else if it.validCards = [] then
      some (postValidGroupBigestCard it.cardGroup jokerPoint card, 0)
    else match postLessRelationCard it.validCards jokerPoint with
      | none => none
      | some postcard =>
        let score : Int := it.score - postcard.getScore jokerPoint
        if score < minScore then tieLoop jokerPoint it postcard score combs
        else tieLoop jokerPoint itMin card minScore combs

/-- The choice among the sorted arrangements, or `none` where an assertion fails. -/
def postSorted (jokerPoint : Int) (card : PokerCard) : List CombinationInfo → Option (PokerCard × Int)
  | [] => none
  | itMin :: combs =>
    if itMin.validCards = [] then
      some (postValidGroupBigestCard itMin.cardGroup jokerPoint card, 0)
    else match postLessRelationCard itMin.validCards jokerPoint with
      | none => none
      | some card =>
        tieLoop jokerPoint itMin card (itMin.score - card.getScore jokerPoint) combs

/-- `post_best_card`: `card` and `score`; `card` comes in with the value its variable had. -/
def postBestCard (std : StdSort sortCombineFunc) (self : Combination) (handCard : List PokerCard)
    (jokerPoint : Int) (card : PokerCard) : Combination × Option (PokerCard × Int) :=
  let self := { self with jokerPoint := jokerPoint }
  let s := self.searchAllGroup handCard 1
  (s.self, postSorted jokerPoint card (std.sort s.cardCombs))

end Combination

open Combination

/-! ## One of the cards left over -/

section Relations

theorem relateLoop_cards (it : CardRelation) (rest : List CardRelation) :
    (relateLoop it rest).1.card = it.card ∧
      (relateLoop it rest).2.map CardRelation.card = rest.map CardRelation.card := by
  induction rest generalizing it with
  | nil => exact ⟨rfl, rfl⟩
  | cons next rest ih =>
    unfold relateLoop
    have hadd : ∀ n : Int, (relateLoop (it.add n) rest).1.card = it.card ∧
        (relateLoop (it.add n) rest).2.map CardRelation.card = rest.map CardRelation.card :=
      fun n => ih (it.add n)
    by_cases h2 : next.card.point = it.card.point
    · simp [h2, hadd]
    by_cases h3 : ((next.card.point : Int) - it.card.point).natAbs = 2 ∧
        next.card.color = it.card.color
    · simp [h2, h3, hadd]
    by_cases h4 : ((next.card.point : Int) - it.card.point).natAbs = 1 ∧
        next.card.color = it.card.color
    · simp [h2, h4, hadd]
    by_cases hfar : ((next.card.point : Int) - it.card.point).natAbs > 2
    · simp [h2, h3, h4, hfar]
    · simp [h2, h3, h4, hfar, ih]

theorem aceLoop_cards (it : CardRelation) (rest : List CardRelation) :
    (aceLoop it rest).1.card = it.card ∧
      (aceLoop it rest).2.map CardRelation.card = rest.map CardRelation.card := by
  induction rest generalizing it with
  | nil => exact ⟨rfl, rfl⟩
  | cons next rest ih =>
    unfold aceLoop
    have hadd : ∀ n : Int, (aceLoop (it.add n) rest).1.card = it.card ∧
        (aceLoop (it.add n) rest).2.map CardRelation.card = rest.map CardRelation.card :=
      fun n => ih (it.add n)
    by_cases hle : next.card.point ≤ 3
    · by_cases h4 : next.card.color = it.card.color ∧ next.card.point = P2
      · simp only [if_pos hle, if_pos h4, hadd, CardRelation.add_card, List.map_cons, and_self]
      by_cases h3 : next.card.color = it.card.color ∧ next.card.point = P3
      · simp only [if_pos hle, if_neg h4, if_pos h3, hadd, CardRelation.add_card, List.map_cons,
          and_self]
      · simp only [if_pos hle, if_neg h4, if_neg h3, ih, List.map_cons, and_self]
    · simp only [if_neg hle, and_self]

theorem relationRound_cards (rels : List CardRelation) (i : Nat) :
    (relationRound rels i).map CardRelation.card = rels.map CardRelation.card := by
  unfold relationRound
  have hsplit := List.take_append_drop i rels
  rcases hdrop : rels.drop i with _ | ⟨it, after⟩
  · rfl
  · rw [hdrop] at hsplit
    have hrel := relateLoop_cards it after
    have hace := aceLoop_cards (relateLoop it after).1 (rels.take i)
    conv_rhs => rw [← hsplit]
    by_cases hA : it.card.point = A
    · simp only [hrel, if_pos hA, List.map_append, List.map_cons, hace]
    · simp only [hrel, if_neg hA, List.map_append, List.map_cons]

theorem caculateCardsRelation_cards (rels : List CardRelation) :
    (caculateCardsRelation rels).map CardRelation.card = rels.map CardRelation.card := by
  unfold caculateCardsRelation
  induction List.range rels.length using List.reverseRecOn with
  | nil => rfl
  | append_singleton l i ih =>
    rw [List.foldl_append, List.foldl_cons, List.foldl_nil, relationRound_cards, ih]

theorem splitRelations_mem {jp : Int} {cards : List PokerCard} {r : CardRelation}
    (hr : r ∈ (splitRelations jp cards).1 ∨ r ∈ (splitRelations jp cards).2) : r.card ∈ cards := by
  induction cards with
  | nil => simp [splitRelations] at hr
  | cons c cards ih =>
    unfold splitRelations at hr
    by_cases hj : isJoker c jp = true
    · rw [if_pos hj] at hr
      exact List.mem_cons_of_mem c (ih hr)
    · rw [if_neg hj] at hr
      rcases cards with _ | ⟨next, cards⟩
      · simp at hr
        simp [hr]
      · simp only at hr
        by_cases hn : next = c
        · simp only [if_pos hn, List.mem_cons] at hr
          rcases hr with hr | rfl | hr
          · exact List.mem_cons_of_mem c (ih (Or.inl hr))
          · exact List.mem_cons_self
          · exact List.mem_cons_of_mem c (ih (Or.inr hr))
        · simp only [if_neg hn, List.mem_cons] at hr
          rcases hr with (rfl | hr) | hr
          · exact List.mem_cons_self
          · exact List.mem_cons_of_mem c (ih (Or.inl hr))
          · exact List.mem_cons_of_mem c (ih (Or.inr hr))

theorem foldl_lessRelated_mem (jp : Int) (begin : CardRelation) (rest : List CardRelation) :
    rest.foldl (lessRelated jp) begin ∈ begin :: rest := by
  induction rest generalizing begin with
  | nil => exact List.mem_singleton_self begin
  | cons it rest ih =>
    rw [List.foldl_cons]
    have hstep : lessRelated jp begin it = begin ∨ lessRelated jp begin it = it := by
      unfold lessRelated
      split_ifs <;> simp
    have hmem := ih (lessRelated jp begin it)
    rcases List.mem_cons.mp hmem with heq | hmem
    · rw [heq]
      rcases hstep with h | h <;> simp [h]
    · exact List.mem_cons_of_mem _ (List.mem_cons_of_mem _ hmem)

/-- **The card is one of those left over.** -/
theorem mem_postLessRelationCard {cards : List PokerCard} (hne : cards ≠ []) (jp : Int) :
    ∃ c, postLessRelationCard cards jp = some c ∧ c ∈ cards := by
  unfold postLessRelationCard
  have hsort : sortCards cards ≠ [] := by
    intro hnil
    exact hne (List.Perm.nil_eq (hnil ▸ sortCards_perm cards)).symm
  by_cases hfirst : (splitRelations jp (sortCards cards)).1 = []
  · refine ⟨(sortCards cards).getLast hsort, ?_, mem_sortCards.mp (List.getLast_mem hsort)⟩
    simp only [hfirst, if_true]
    exact List.getLast?_eq_some_getLast hsort
  · simp only [hfirst, if_false]
    have hcards := caculateCardsRelation_cards (splitRelations jp (sortCards cards)).1
    have hmem : ∀ r ∈ caculateCardsRelation (splitRelations jp (sortCards cards)).1 ++
        caculateCardsRelation (splitRelations jp (sortCards cards)).2, r.card ∈ cards := by
      intro r hr
      have hr' := List.mem_map_of_mem (f := CardRelation.card) hr
      rw [List.map_append, hcards, caculateCardsRelation_cards, List.mem_append, List.mem_map,
        List.mem_map] at hr'
      rcases hr' with ⟨r', hr', heq⟩ | ⟨r', hr', heq⟩
      · exact mem_sortCards.mp (heq ▸ splitRelations_mem (Or.inl hr'))
      · exact mem_sortCards.mp (heq ▸ splitRelations_mem (Or.inr hr'))
    rcases hall : caculateCardsRelation (splitRelations jp (sortCards cards)).1 ++
        caculateCardsRelation (splitRelations jp (sortCards cards)).2 with _ | ⟨begin, rest⟩
    · rw [(List.append_eq_nil_iff.mp hall).1, List.map_nil] at hcards
      exact absurd (List.map_eq_nil_iff.mp hcards.symm) hfirst
    · rw [hall] at hmem
      exact ⟨_, rfl, hmem _ (foldl_lessRelated_mem jp begin rest)⟩

end Relations

/-! ## A card of a meld -/

section Melds

/-- The card `post_valid_group_bigest_card` looks at in a group. -/
def posted (jp : Int) (g : CardGroup) : PokerCard :=
  match sortCards g.cards with
  | [] => blank
  | begin :: listCards => postOf jp begin begin 0 (begin :: listCards)

theorem postOf_eq (jp : Int) (itJoker itNojoker : PokerCard) (n : Nat) (l : List PokerCard) :
    postOf jp itJoker itNojoker n l =
      if n + (plain jp l).length ≤ 1 then (wild jp l).getLastD itJoker
      else (plain jp l).getLastD itNojoker := by
  induction l generalizing itJoker itNojoker n with
  | nil => rfl
  | cons c l ih =>
    unfold postOf
    by_cases hj : isJoker c jp = true
    · rw [if_pos hj, ih, plain_cons_of_isJoker hj, wild_cons_of_isJoker hj, List.getLastD_cons]
    · have hj' := Bool.eq_false_iff.mpr hj
      rw [if_neg hj, ih, plain_cons_of_not hj', wild_cons_of_not hj', List.getLastD_cons,
        List.length_cons, Nat.add_right_comm, Nat.add_assoc]

/-- **The last non-joker of a group with two of them, else its last joker.** -/
theorem posted_eq (jp : Int) {g : CardGroup} (h4 : 4 ≤ g.cards.length) :
    (2 ≤ (plain jp g.cards).length ∧
      (plain jp (sortCards g.cards)).getLast? = some (posted jp g)) ∨
    ((plain jp g.cards).length ≤ 1 ∧
      (wild jp (sortCards g.cards)).getLast? = some (posted jp g)) := by
  have hplain : (plain jp (sortCards g.cards)).length = (plain jp g.cards).length :=
    (plain_perm (sortCards_perm g.cards)).length_eq
  have hlen := length_wild_add_length_plain jp (sortCards g.cards)
  have hlen4 : 4 ≤ (sortCards g.cards).length := by rwa [length_sortCards]
  have hlast : ∀ {l : List PokerCard} {d : PokerCard}, l ≠ [] → l.getLast? = some (l.getLastD d) := by
    intro l d hne
    rw [List.getLastD_eq_getLast?, List.getLast?_eq_some_getLast hne, Option.getD_some]
  unfold posted
  rcases hs : sortCards g.cards with _ | ⟨begin, rest⟩
  · rw [hs] at hlen4
    exact absurd hlen4 (by simp)
  · rw [hs] at hplain hlen hlen4
    simp only [postOf_eq, Nat.zero_add]
    by_cases h1 : (plain jp (begin :: rest)).length ≤ 1
    · rw [if_pos h1]
      refine Or.inr ⟨hplain ▸ h1, hlast (List.ne_nil_of_length_pos (by omega))⟩
    · rw [if_neg h1]
      refine Or.inl ⟨by omega, hlast (List.ne_nil_of_length_pos (by omega))⟩

theorem bigestLoop_cons_of_four {jp score : Int} {card : PokerCard} {g : CardGroup}
    {gs : List CardGroup} (h4 : 4 ≤ g.cards.length) :
    bigestLoop jp score card (g :: gs) =
      if ((posted jp g).getScore jp : Int) > score then
        bigestLoop jp ((posted jp g).getScore jp) (posted jp g) gs
      else bigestLoop jp score card gs := by
  have hlen : (sortCards g.cards).length = g.cards.length := length_sortCards g.cards
  rw [bigestLoop, if_neg (not_lt.mpr h4)]
  unfold posted
  rcases hs : sortCards g.cards with _ | ⟨begin, rest⟩
  · rw [hs] at hlen
    simp only [List.length_nil] at hlen
    omega
  · rfl

theorem bigestLoop_or (jp score : Int) (card : PokerCard) (gs : List CardGroup) :
    bigestLoop jp score card gs = card ∨
      ∃ g ∈ gs, 4 ≤ g.cards.length ∧ bigestLoop jp score card gs = posted jp g := by
  induction gs generalizing score card with
  | nil => exact Or.inl rfl
  | cons g gs ih =>
    have htail : ∀ {c : PokerCard}, (∃ g' ∈ gs, 4 ≤ g'.cards.length ∧ c = posted jp g') →
        ∃ g' ∈ g :: gs, 4 ≤ g'.cards.length ∧ c = posted jp g' := by
      rintro c ⟨g', hg', h⟩
      exact ⟨g', List.mem_cons_of_mem g hg', h⟩
    by_cases h4 : 4 ≤ g.cards.length
    · rw [bigestLoop_cons_of_four h4]
      by_cases hgt : ((posted jp g).getScore jp : Int) > score
      · rw [if_pos hgt]
        rcases ih ((posted jp g).getScore jp) (posted jp g) with h | h
        · exact Or.inr ⟨g, List.mem_cons_self, h4, h⟩
        · exact Or.inr (htail h)
      · rw [if_neg hgt]
        exact (ih score card).imp_right htail
    · rw [bigestLoop, if_pos (not_le.mp h4)]
      exact (ih score card).imp_right htail

/-- **With a meld of four cards or more the card comes out of such a meld.** -/
theorem postValidGroupBigestCard_mem (jp : Int) (card : PokerCard) {gs : List CardGroup}
    (h : ∃ g ∈ gs, 4 ≤ g.cards.length) :
    ∃ g ∈ gs, 4 ≤ g.cards.length ∧ postValidGroupBigestCard gs jp card = posted jp g := by
  unfold postValidGroupBigestCard
  induction gs with
  | nil =>
    obtain ⟨g, hg, -⟩ := h
    exact absurd hg (List.not_mem_nil)
  | cons g gs ih =>
    by_cases h4 : 4 ≤ g.cards.length
    · rw [bigestLoop_cons_of_four h4, if_pos (by omega)]
      rcases bigestLoop_or jp ((posted jp g).getScore jp) (posted jp g) gs with hp | ⟨g', hg', hp⟩
      · exact ⟨g, List.mem_cons_self, h4, hp⟩
      · exact ⟨g', List.mem_cons_of_mem g hg', hp⟩
    · rw [bigestLoop, if_pos (not_le.mp h4)]
      obtain ⟨g', hg', hp⟩ := ih (by
        obtain ⟨g', hg', h4'⟩ := h
        rcases List.mem_cons.mp hg' with rfl | hg'
        · exact absurd h4' h4
        · exact ⟨g', hg', h4'⟩)
      exact ⟨g', List.mem_cons_of_mem g hg', hp⟩

end Melds

/-! ## The result -/

section Result

variable {jp : Int} {P : PokerCard → Int → Prop}

theorem tieLoop_rule {itMin : CombinationInfo} {card : PokerCard} {minScore : Int}
    {combs : List CombinationInfo} (hne : itMin.validCards ≠ []) (h : P card minScore)
    (hleft : ∀ c ∈ combs, c.validCards ≠ [] → ∀ d ∈ c.validCards, P d (c.score - d.getScore jp)) :
    ∃ card' score, tieLoop jp itMin card minScore combs = some (card', score) ∧ P card' score := by
  induction combs generalizing itMin card minScore with
  | nil => exact ⟨card, minScore, rfl, h⟩
  | cons it combs ih =>
    have htail : ∀ c ∈ combs, c.validCards ≠ [] → ∀ d ∈ c.validCards, P d (c.score - d.getScore jp) :=
      fun c hc => hleft c (List.mem_cons_of_mem it hc)
    unfold tieLoop
    by_cases htie : itMin.isHasFirtlife ≠ it.isHasFirtlife ∨
        itMin.isHasSecondelife ≠ it.isHasSecondelife ∨ itMin.validCards.length ≠ it.validCards.length
    · rw [if_pos htie]
      exact ⟨card, minScore, rfl, h⟩
    · -- as many cards left over as in front, so there are some
      have hit : it.validCards ≠ [] := by
        simp only [not_or, not_not] at htie
        apply List.ne_nil_of_length_pos
        rw [← htie.2.2]
        exact List.length_pos_iff.mpr hne
      obtain ⟨d, hd, hmem⟩ := mem_postLessRelationCard hit jp
      rw [if_neg htie, if_neg hit]
      simp only [hd]
      by_cases hlt : (it.score : Int) - d.getScore jp < minScore
      · rw [if_pos hlt]
        exact ih hit (hleft it List.mem_cons_self hit d hmem) htail
      · rw [if_neg hlt]
        exact ih hne h htail

/-- What holds of every card left over, and of the card taken out of the melds of an arrangement
without any, holds of the result. -/
theorem postSorted_rule {combs : List CombinationInfo} (hne : combs ≠ []) (card : PokerCard)
    (hleft : ∀ c ∈ combs, c.validCards ≠ [] → ∀ d ∈ c.validCards, P d (c.score - d.getScore jp))
    (hfull : ∀ c ∈ combs, c.validCards = [] →
      P (postValidGroupBigestCard c.cardGroup jp card) 0) :
    ∃ card' score, postSorted jp card combs = some (card', score) ∧ P card' score := by
  rcases combs with _ | ⟨itMin, combs⟩
  · exact absurd rfl hne
  · rw [postSorted]
    by_cases hnil : itMin.validCards = []
    · rw [if_pos hnil]
      exact ⟨_, _, rfl, hfull itMin List.mem_cons_self hnil⟩
    · obtain ⟨d, hd, hmem⟩ := mem_postLessRelationCard hnil jp
      rw [if_neg hnil]
      simp only [hd]
      exact tieLoop_rule hnil (hleft itMin List.mem_cons_self hnil d hmem)
        fun c hc => hleft c (List.mem_cons_of_mem itMin hc)

theorem postBestCard_eq (std : StdSort sortCombineFunc) (self : Combination) (hand : List PokerCard)
    (jp : Int) (card : PokerCard) : (self.postBestCard std hand jp card).2 =
      Combination.postSorted jp card (std.sort (upTo (stops 1) (arrangements jp hand))) := by
  have hpushed : (Combination.searchAllGroup { self with jokerPoint := jp } hand 1).cardCombs =
      upTo (stops 1) (arrangements jp hand) := searchAllGroup_eq ..
  rw [← hpushed]
  rfl

end Result

end SparkFrame.Cards
