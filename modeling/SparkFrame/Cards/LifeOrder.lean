import SparkFrame.Cards.Optimal
import SparkFrame.Cards.SearchOrder

/-!
# In which order the search lists first lives

* `EndsWild`, `GivesJoker` : a pure straight of four to eleven cards with a joker at its end, and the
  same straight without one of its jokers;
* `drop_last_joker` : without its last joker it is a pure straight still, and one the search finds;
* `firstLives_hasBefore` : the search lists that one first;
* `not_endsWild_of_full` : so a search that stops when one card is left over does not stop at a full
  arrangement with such a first life.
-/

namespace SparkFrame.Cards

open PokerCard SparkFrame.Lib

/-- A pure straight of four to eleven cards that ends in a joker. -/
structure EndsWild (jp : Int) (g : CardGroup) : Prop where
  pure : isCardsPureStraight g.cards = true
  four : 4 ≤ g.cards.length
  eleven : g.cards.length ≤ 11
  last : ∀ x ∈ (sortCards g.cards).getLast?, isJoker x jp = true

/-- `g'` is the pure straight `g` without one of its jokers. -/
def GivesJoker (jp : Int) (g g' : CardGroup) : Prop :=
  isCardsPureStraight g'.cards = true ∧ DropsJoker jp g g'

section Drop

variable {jp : Int} {g : CardGroup} {H J : List PokerCard}

theorem not_endsWild_of_plain (h : ∀ c ∈ g.cards, isJoker c jp = false) : ¬ EndsWild jp g := by
  intro hwild
  have hlen := length_sortCards g.cards
  have h4 := hwild.four
  have hne : sortCards g.cards ≠ [] := List.ne_nil_of_length_pos (by omega)
  have hj := hwild.last _ (List.getLast?_eq_some_getLast hne)
  rw [h _ (mem_sortCards.mp (List.getLast_mem hne))] at hj
  cases hj

/-- **Without its last joker** it is a pure straight still, the jokers fill its gaps, and where they
did with the ace high they do again. -/
theorem drop_last_joker (hv : ∀ c ∈ H ++ J, c.isValidCard = true) (hr : Rising H)
    (hH : ∀ c ∈ H, isJoker c jp = false) (hJ : ∀ c ∈ J, isJoker c jp = true)
    (h : EndsWild jp { type := GROUP_STAIGHT, cards := sortCards (H ++ J) }) :
    ∃ J', J'.Sublist J ∧ J'.length + 1 = J.length ∧ isCardsPureStraight (sortCards (H ++ J')) = true ∧
      (∃ j, isJoker j jp = true ∧ (sortCards (H ++ J)).Perm (j :: sortCards (H ++ J'))) ∧
      Fits H J'.length ∧
      (J' ≠ [] → gapSum (points H) ≤ J.length → gapSum (points H) ≤ J'.length) := by
  have hpure := h.pure
  have hlast := h.last
  have h4 := h.four
  have h11 := h.eleven
  have hsorted := sortCards_sorted (H ++ J)
  have hperm := sortCards_perm (H ++ J)
  simp only [sortCards_idem] at hpure hlast h4 h11
  have hplain : plain jp (sortCards (H ++ J)) = H := plain_eq_of_sorted hsorted hperm hr hH hJ
  have hwild : (wild jp (sortCards (H ++ J))).length = J.length := (wild_of_perm hperm hH hJ).length_eq
  have hvT : ∀ c ∈ sortCards (H ++ J), c.isValidCard = true := fun c hc => hv c (mem_sortCards.mp hc)
  obtain ⟨init, x, hT⟩ : ∃ init x, sortCards (H ++ J) = init ++ [x] := by
    rcases List.eq_nil_or_concat (sortCards (H ++ J)) with hnil | ⟨init, x, hc⟩
    · rw [hnil] at h4
      exact absurd h4 (by simp)
    · exact ⟨init, x, by rw [hc, List.concat_eq_append]⟩
  have hx : isJoker x jp = true := hlast x (by rw [hT]; simp)
  have hxJ : x ∈ J := by
    have hmem : x ∈ H ++ J := hperm.mem_iff.mp (by rw [hT]; simp)
    rcases List.mem_append.mp hmem with hxH | hxJ
    · rw [hH x hxH] at hx
      cases hx
    · exact hxJ
  have hinit : init.Perm (H ++ J.erase x) := by
    have hcons : (x :: init).Perm (x :: (H ++ J.erase x)) := by
      have hmid := ((List.perm_cons_erase hxJ).append_left H).trans List.perm_middle
      have hT' : (x :: init).Perm (sortCards (H ++ J)) := by
        rw [hT]
        exact (List.perm_append_comm : (init ++ [x]).Perm _).symm
      exact hT'.trans (hperm.trans hmid)
    exact hcons.cons_inv
  have hinitsorted : init.Pairwise PokerCard.le := by
    rw [hT] at hsorted
    exact (List.pairwise_append.mp hsorted).1
  have hsort : sortCards (H ++ J.erase x) = init := by
    rw [← sortCards_eq_of_perm hinit, sortCards_eq_self hinitsorted]
  have hJ' : ∀ c ∈ J.erase x, isJoker c jp = true := fun c hc => hJ c (List.mem_of_mem_erase hc)
  have hlenJ := List.length_erase_of_mem hxJ
  have hposJ := List.length_pos_of_mem hxJ
  have hlenT : init.length + 1 = (sortCards (H ++ J)).length := by
    rw [hT, List.length_append, List.length_singleton]
  have hpure' : isCardsPureStraight init = true := by
    rw [hT] at hpure
    exact isCardsPureStraight_init (by omega) hpure
  have hfits : Fits H (J.erase x).length := by
    have heq : plain jp init = H := plain_eq_of_sorted hinitsorted hinit hr hH hJ'
    rw [← (wild_of_perm hinit hH hJ').length_eq, ← heq]
    refine fits_of_pure hinitsorted (fun c hc => hvT c ?_) (heq.symm ▸ hr) hpure'
    rw [hT]
    exact List.mem_append_left _ hc
  refine ⟨J.erase x, List.erase_sublist, by omega, by rw [hsort]; exact hpure', ⟨x, hx, ?_⟩, hfits, ?_⟩
  · rw [hsort, hT]
    exact List.perm_append_comm
  · intro hne hgap
    have hpos := List.length_pos_iff.mpr hne
    have hneq := gapSum_ne_of_pure hsorted hvT (hplain.symm ▸ hr) hpure (by omega) h11
    rw [hplain, hwild] at hneq
    omega

end Drop

/-! ## The straights of one selection -/

section Block

variable {jp : Int} {cards H : List PokerCard}

/-- The straights made of one selection of non-jokers. -/
def lifeBlock (self : Combination) (hand : List PokerCard) : List CardGroup :=
  (if isCardsPureStraight hand then [{ type := GROUP_STAIGHT, cards := hand }] else []) ++
    self.combineWithJokerCard hand ++
    (if 1 < hand.length ∧ hand.getLast?.map point = some A then
      self.combineWithJokerCard (hand.getLast?.toList ++ hand.dropLast) else [])

theorem combineWithJokerCard_sorted (self : Combination) (hand : List PokerCard) :
    (self.combineWithJokerCard hand).Pairwise fun a b => a.cards.length ≤ b.cards.length := by
  unfold Combination.combineWithJokerCard
  generalize self.toStraightFillJokerNum hand = nums
  obtain ⟨lo, hi⟩ := nums
  by_cases h0 : lo = 0
  · simp only [h0, if_true]
    exact List.Pairwise.nil
  · simp only [h0, if_false]
    have hlen : ∀ (d : ℕ) (g : CardGroup), g ∈ ((self.jokerCombines.filter fun j =>
        decide ((j.length : Int) = lo + d)).map fun j =>
          ({ type := GROUP_STAIGHT, cards := sortCards (hand ++ j) } : CardGroup)) →
        (g.cards.length : Int) = hand.length + (lo + d) := by
      intro d g hg
      obtain ⟨j, hj, rfl⟩ := List.mem_map.mp hg
      have := of_decide_eq_true (List.mem_filter.mp hj).2
      simp only [length_sortCards, List.length_append, Nat.cast_add, this]
    rw [List.pairwise_flatMap]
    constructor
    · intro d _
      refine List.Pairwise.imp_of_mem ?_
        (List.pairwise_of_forall (R := fun _ _ => True) fun _ _ => trivial)
      intro a b ha hb _
      have h1 := hlen d a ha
      have h2 := hlen d b hb
      omega
    · refine List.pairwise_lt_range.imp ?_
      intro d e hde a ha b hb
      have h1 := hlen d a ha
      have h2 := hlen e b hb
      omega

theorem exists_giving (hvc : ∀ c ∈ cards, c.isValidCard = true) (hr : Rising H)
    (hH : ∀ c ∈ H, c.isValidCard = true ∧ isJoker c jp = false) {J : List PokerCard}
    (hJ : J.Sublist (wild jp cards))
    (hQ : EndsWild jp { type := GROUP_STAIGHT, cards := sortCards (H ++ J) }) :
    ∃ J', J'.Sublist (wild jp cards) ∧ J'.length + 1 = J.length ∧ Fits H J'.length ∧
      (J' ≠ [] → gapSum (points H) ≤ J.length → gapSum (points H) ≤ J'.length) ∧
      GivesJoker jp { type := GROUP_STAIGHT, cards := sortCards (H ++ J) }
        { type := GROUP_STAIGHT, cards := sortCards (H ++ J') } := by
  have hJw : ∀ c ∈ J, c ∈ cards ∧ isJoker c jp = true := fun c hc => mem_wild.mp (hJ.subset hc)
  have hvHJ : ∀ c ∈ H ++ J, c.isValidCard = true := fun c hc =>
    (List.mem_append.mp hc).elim (fun hc => (hH c hc).1) fun hc => hvc c (hJw c hc).1
  obtain ⟨J', hsub, hlen, hpure, hperm, hfits, hhigh⟩ := drop_last_joker hvHJ hr
    (fun c hc => (hH c hc).2) (fun c hc => (hJw c hc).2) hQ
  exact ⟨J', hsub.trans hJ, hlen, hfits, hhigh, hpure, hperm⟩

/-- **In one selection the straight without its last joker comes first.** -/
theorem lifeBlock_hasBefore (hvc : ∀ c ∈ cards, c.isValidCard = true) (hne : H ≠ [])
    (hr : Rising H) (hH : ∀ c ∈ H, c.isValidCard = true ∧ isJoker c jp = false) :
    HasBefore (EndsWild jp) (GivesJoker jp) (lifeBlock (freshFor jp cards) H) := by
  have hs := freshFor_hasSelections jp cards
  have hv : ∀ c ∈ H, 2 ≤ c.point ∧ c.point ≤ 14 := by
    intro c hc
    have := point_of_not_isJoker (hH c hc).1 (hH c hc).2
    exact ⟨this.1, this.2.1⟩
  have hself : ∀ {a : CardGroup},
      GivesJoker jp a { type := GROUP_STAIGHT, cards := sortCards (H ++ []) } →
      ∃ b ∈ (if isCardsPureStraight H then
        [({ type := GROUP_STAIGHT, cards := H } : CardGroup)] else []), GivesJoker jp a b := by
    intro a ha
    rw [List.append_nil, sortCards_eq_self hr.sorted] at ha
    rw [if_pos ha.1]
    exact ⟨_, List.mem_singleton_self _, ha⟩
  have hfirst : HasBefore (EndsWild jp) (GivesJoker jp) (if isCardsPureStraight H then
      [({ type := GROUP_STAIGHT, cards := H } : CardGroup)] else []) := by
    refine hasBefore_of_not fun a ha => not_endsWild_of_plain ?_
    by_cases hp : isCardsPureStraight H = true
    · rw [if_pos hp, List.mem_singleton] at ha
      rw [ha]
      exact fun c hc => (hH c hc).2
    · rw [if_neg hp] at ha
      exact absurd ha (List.not_mem_nil)
  have hhigh : HasBefore (EndsWild jp) (GivesJoker jp) ((if isCardsPureStraight H then
      [({ type := GROUP_STAIGHT, cards := H } : CardGroup)] else []) ++
        (freshFor jp cards).combineWithJokerCard H) := by
    refine hasBefore_append_of_key (fun g => g.cards.length) hfirst
      (combineWithJokerCard_sorted _ H) ?_
    intro a ha hQ
    obtain ⟨J, ⟨hJ, -⟩, hgap, -, rfl⟩ :=
      (mem_combine_rising hs hne hr fun c hc => (hv c hc).2).mp ha
    obtain ⟨J', hJ', hlen, hfits, hagain, hgives⟩ := exists_giving hvc hr hH hJ hQ
    by_cases hnil : J' = []
    · rw [hnil] at hgives
      exact Or.inl (hself hgives)
    · refine Or.inr ⟨_, (mem_combine_rising hs hne hr fun c hc => (hv c hc).2).mpr
        ⟨J', ⟨hJ', hnil⟩, hagain hnil hgap, hfits.1, rfl⟩, ?_, hgives⟩
      simp only [length_sortCards, List.length_append]
      omega
  refine hasBefore_append_of_key (fun g => g.cards.length) hhigh ?_ ?_
  · by_cases hif : 1 < H.length ∧ H.getLast?.map point = some A
    · rw [if_pos hif]
      exact combineWithJokerCard_sorted _ _
    · rw [if_neg hif]
      exact List.Pairwise.nil
  · intro a ha hQ
    obtain ⟨J, ⟨hJ, -⟩, h1, hA, -, -, rfl⟩ := (mem_combine_low hs hne hr hv).mp ha
    obtain ⟨J', hJ', hlen, hfits, -, hgives⟩ := exists_giving hvc hr hH hJ hQ
    by_cases hnil : J' = []
    · rw [hnil] at hgives
      obtain ⟨b, hb, hR⟩ := hself hgives
      exact Or.inl ⟨b, List.mem_append_left _ hb, hR⟩
    · rcases hfits.2 with hgap | ⟨-, hgap⟩
      · exact Or.inl ⟨_, List.mem_append_right _ ((mem_combine_rising hs hne hr
          fun c hc => (hv c hc).2).mpr ⟨J', ⟨hJ', hnil⟩, hgap, hfits.1, rfl⟩), hgives⟩
      · refine Or.inr ⟨_, (mem_combine_low hs hne hr hv).mpr
          ⟨J', ⟨hJ', hnil⟩, h1, hA, hgap, hfits.1, rfl⟩, ?_, hgives⟩
        simp only [length_sortCards, List.length_append]
        omega

end Block

/-! ## All straights -/

section All

variable {jp : Int} {cards : List PokerCard}

theorem straights_hasBefore (h : Playable cards) :
    HasBefore (EndsWild jp) (GivesJoker jp) (straights jp cards) := by
  have hnil : HasBefore (EndsWild jp) (GivesJoker jp) [] := hasBefore_of_not (by simp)
  unfold straights Combination.searchStraightFlush
  refine HasBefore.append (flatMap_closed hnil (fun hl hm => hl.append hm) fun col _ => ?_)
    (hasBefore_of_not fun g hg hQ => ?_)
  · change HasBefore _ _ ((freshFor jp cards).searchStraightFlushI (popOf jp cards col).1
      (popOf jp cards col).2)
    have hpop := popOf_ok jp cards col
    unfold Combination.searchStraightFlushI
    refine HasBefore.append (flatMap_closed hnil (fun hl hm => hl.append hm) fun n hn => ?_)
      (hasBefore_of_not fun g hg => not_endsWild_of_plain ?_)
    · unfold Combination.searchStraightFlushSelectN
      by_cases hlt : (popOf jp cards col).1.length < n
      · rw [if_pos hlt]
        exact hnil
      · rw [if_neg hlt]
        refine flatMap_closed hnil (fun hl hm => hl.append hm) fun H hH => ?_
        have hsub := mem_selectCardCombine.mp hH
        have hpos := (List.mem_range'_1.mp hn).1
        refine lifeBlock_hasBefore h.valid (List.ne_nil_of_length_pos (by omega))
          (hpop.rising.sublist hsub.1) fun c hc => ?_
        have hm := mem_plain.mp (hpop.mem_plain (hsub.1.subset hc)).1
        exact ⟨h.valid c hm.1, hm.2⟩
    · obtain ⟨n, -, hg⟩ := List.mem_flatMap.mp hg
      obtain ⟨R, hR, rfl⟩ := List.mem_map.mp hg
      have hsub := (mem_selectCardCombine.mp (List.mem_filter.mp hR).1).1
      intro c hc
      exact (mem_plain.mp (hpop.subperm.subset (List.mem_append_right _ (hsub.subset hc)))).2
  · obtain ⟨J, hJ, rfl⟩ := List.mem_map.mp hg
    have hsub := ((freshFor_hasSelections jp cards J).mp (List.mem_filter.mp hJ).1).1
    have hpure := hQ.pure
    rw [isCardsPureStraight_of_wild fun c hc => (mem_wild.mp (hsub.subset hc)).2] at hpure
    cases hpure

/-- **Before a first life that ends in a joker the search lists it without one of its jokers.** -/
theorem firstLives_hasBefore (h : Playable cards) :
    HasBefore (EndsWild jp) (GivesJoker jp) (firstLives jp cards) :=
  (straights_hasBefore h).filter fun _ _ _ _ _ hR => hR.1

end All

/-! ## The search that stops at one card -/

section Stop

variable {jp : Int} {hand : List PokerCard}

theorem Dealt.three_le_of_mem_straights (hd : Dealt hand) {g : CardGroup}
    (hg : g ∈ straights jp hand) : 3 ≤ g.cards.length := by
  obtain ⟨H, J, hrun, hperm, -⟩ := straights_sound hd.playable.valid hd.count_le hg
  rw [hperm.length_eq, List.length_append]
  exact hrun.fits.1

theorem Dealt.three_le_of_mem_melds (hd : Dealt hand) {g : CardGroup} (hg : g ∈ melds jp hand) :
    3 ≤ g.cards.length := by
  unfold melds at hg
  rcases List.mem_append.mp hg with hg | hg
  · exact hd.three_le_of_mem_straights hg
  · obtain ⟨K, J, hkind, -, hcards⟩ := kinds_sound hd.count_le hg
    rw [hcards, List.length_append]
    exact hkind.three

theorem Dealt.melds_mono (hd : Dealt hand) {cards : List PokerCard} (hsub : cards.Subperm hand)
    {g : CardGroup} (hg : g ∈ melds jp cards) : ∃ g' ∈ melds jp hand, g'.cards.Perm g.cards := by
  have hcount := (hd.mono hsub).count_le
  have hgsub := (subperm_of_mem_melds (hd.mono hsub).playable.valid hg).trans hsub
  unfold melds at hg ⊢
  rcases List.mem_append.mp hg with hg | hg
  · obtain ⟨H, J, hrun, hperm, -⟩ := straights_sound (hd.mono hsub).playable.valid hcount hg
    obtain ⟨g', hg', -, hcards⟩ := straights_complete hd.playable.valid hrun
      (hperm.symm.subperm.trans hgsub)
    exact ⟨g', List.mem_append_left _ hg', hcards.trans hperm.symm⟩
  · obtain ⟨K, J, hkind, h4, hcards⟩ := kinds_sound hcount hg
    obtain ⟨g', hg', -, hperm⟩ := kinds_complete hkind h4 (hcards ▸ hgsub)
    exact ⟨g', List.mem_append_right _ hg', hperm.trans (List.Perm.of_eq hcards.symm)⟩

theorem exists_stop (hd : Dealt hand) {f f' s : CardGroup} {rest : List CardGroup} {j : PokerCard}
    (hf' : f' ∈ firstLives jp hand) (hfj : f.cards.Perm (j :: f'.cards)) (hs : s ∈ straights jp hand)
    (hrest : ∀ g ∈ rest, g ∈ melds jp (removeCards s (removeCards f hand))) (hlen : rest.length ≤ 2)
    (htakes : Takes (f :: s :: rest) hand []) :
    ∃ c ∈ arrangeFistlife jp hand f', stops 1 c = true := by
  have hsub' := (hd.playable.straights_subperm (mem_straights_of_firstLife hf').1).2
  have hcards2 : (removeCards s (removeCards f hand)).Subperm
      (removeCards s (removeCards f' hand)) := by
    rw [removeCards_eq_diff s, removeCards_eq_diff s]
    refine List.Subperm.diff_right ?_ s.cards
    exact (List.sublist_cons_self j _).subperm.trans (removeCards_drops htakes.1 hsub' hfj).subperm
  have hd2 : Dealt (removeCards s (removeCards f' hand)) := (hd.remove f').remove s
  have hne : ∀ {g : CardGroup}, 3 ≤ g.cards.length → g.cards ≠ [] :=
    fun h3 => List.ne_nil_of_length_pos (lt_of_lt_of_le (by decide) h3)
  have hfound : ∀ T ∈ rest.map CardGroup.cards, T ≠ [] ∧
      ∃ g ∈ melds jp (removeCards s (removeCards f' hand)), g.cards.Perm T := by
    intro T hT
    obtain ⟨g, hg, rfl⟩ := List.mem_map.mp hT
    exact ⟨hne ((hd2.mono hcards2).three_le_of_mem_melds (hrest g hg)),
      hd2.melds_mono hcards2 (hrest g hg)⟩
  have hand_eq : hand.Perm (f'.cards ++ (s.cards ++ ((rest.map CardGroup.cards).flatten ++ [j]))) := by
    refine htakes.perm.symm.trans ?_
    rw [List.append_nil, List.flatMap_cons, List.flatMap_cons, ← List.flatMap_def]
    refine (hfj.append_right _).trans ?_
    simp only [← List.append_assoc]
    exact (List.perm_append_comm : ([j] ++ _).Perm _)
  obtain ⟨groups, left, hc, hleft⟩ := exists_comb hd.playable hs
    (hne (hd.three_le_of_mem_straights hs)) _ (by rw [List.length_map]; exact hlen) hfound hand_eq
  exact ⟨_, hc, decide_eq_true hleft.length_le⟩

/-- **A full arrangement at which the search stops**, with all before it leaving two cards over or
more, does not begin with a straight that ends in a joker. -/
theorem not_endsWild_of_full (hd : Dealt hand) (hne : hand ≠ []) {l₁ l₂ : List CombinationInfo}
    {c : CombinationInfo} (hsplit : arrangements jp hand = l₁ ++ c :: l₂)
    (hfirst : ∀ b ∈ l₁, stops 1 b = false) (hnil : c.validCards = []) :
    ∃ f s rest, f ∈ firstLives jp hand ∧ s ∈ straights jp hand ∧
      (∀ g ∈ rest, g ∈ melds jp (removeCards s (removeCards f hand))) ∧ rest.length ≤ 2 ∧
      Takes (f :: s :: rest) hand [] ∧ c.cardGroup = f :: s :: rest ∧ ¬ EndsWild jp f := by
  unfold arrangements at hsplit
  by_cases hf : firstLives jp hand = []
  · rw [if_pos hf] at hsplit
    have hc : c ∈ [noLifeComb jp hand] := hsplit ▸ List.mem_append_right l₁ List.mem_cons_self
    rw [List.mem_singleton.mp hc] at hnil
    exact absurd hnil hne
  · rw [if_neg hf] at hsplit
    obtain ⟨lives, f, lives', b₁, b₂, hlives, hfc, rfl, -⟩ := flatMap_split hsplit
    have hfmem : f ∈ firstLives jp hand := hlives ▸ List.mem_append_right lives List.mem_cons_self
    have hc : c ∈ arrangeFistlife jp hand f := hfc ▸ List.mem_append_right b₁ List.mem_cons_self
    rcases mem_arrangeFistlife hd.playable hfmem hc with
      ⟨left, hleft, -, rfl⟩ | ⟨s, rest, left, hs, hrest, hlen, htakes, rfl⟩
    · exact absurd hnil hleft
    · obtain rfl : left = [] := hnil
      refine ⟨f, s, rest, hfmem, hs, hrest, hlen, htakes, List.append_nil _, fun hwild => ?_⟩
      obtain ⟨f', hf', -, j, -, hfj⟩ :=
        firstLives_hasBefore hd.playable lives f lives' hlives hwild
      have hf'mem : f' ∈ firstLives jp hand := hlives ▸ List.mem_append_left _ hf'
      obtain ⟨c', hc', hstop⟩ := exists_stop hd hf'mem hfj hs hrest hlen htakes
      have hmem : c' ∈ lives.flatMap (arrangeFistlife jp hand) ++ b₁ :=
        List.mem_append_left _ (List.mem_flatMap.mpr ⟨f', hf', hc'⟩)
      rw [hfirst c' hmem] at hstop
      cases hstop

end Stop

end SparkFrame.Cards
