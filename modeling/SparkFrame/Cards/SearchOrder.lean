import SparkFrame.Cards.Verdict

/-!
# In which order the search lists what it finds

* `melds_hasBefore`, `melds_hasAfter` : before a set of more than four cards the same set with a joker
  less is listed, behind it the same set with another joker;
* `arrangements_hasBefore`, `arrangements_hasAfter` : so an arrangement with such a set has one
  before it that costs no more, and one behind it as long as jokers are left over.
-/

namespace SparkFrame.Cards

open PokerCard SparkFrame.Lib

/-! ## The order of the melds -/

/-- `g` is `g'` with one more joker. -/
def DropsJoker (jp : Int) (g g' : CardGroup) : Prop :=
  ∃ j, isJoker j jp = true ∧ g.cards.Perm (j :: g'.cards)

/-- `g'` is `g` with the joker `j` as well. -/
def AddsJoker (j : PokerCard) (g g' : CardGroup) : Prop := g'.cards.Perm (g.cards ++ [j])

/-- The sets made of one selection of non-jokers. -/
def kindBlock (self : Combination) (K : List PokerCard) : List CardGroup :=
  (if 2 < K.length then [{ type := GROUP_THREE_KIND, cards := K }] else []) ++
    self.jokerCombines.map fun j => { type := GROUP_THREE_KIND, cards := K ++ j }

theorem selections_sorted (cards : List PokerCard) (lo hi : Nat) :
    (caculateAllCardsCombines cards lo hi).Pairwise fun a b => a.length ≤ b.length := by
  unfold caculateAllCardsCombines
  rw [List.pairwise_flatMap]
  constructor
  · intro n _
    refine List.Pairwise.imp_of_mem ?_ (List.pairwise_of_forall (R := fun _ _ => True) fun _ _ => trivial)
    intro a b ha hb _
    rw [(mem_selectCardCombine.mp ha).2, (mem_selectCardCombine.mp hb).2]
  · refine (List.pairwise_lt_range' (n := _)).imp ?_
    intro m n hmn a ha b hb
    rw [(mem_selectCardCombine.mp ha).2, (mem_selectCardCombine.mp hb).2]
    exact hmn.le

theorem kindBlock_sorted (jp : Int) (cards K : List PokerCard) :
    (kindBlock (freshFor jp cards) K).Pairwise fun a b => a.cards.length ≤ b.cards.length := by
  unfold kindBlock
  rw [List.pairwise_append]
  refine ⟨?_, ?_, ?_⟩
  · by_cases h2 : 2 < K.length
    · rw [if_pos h2]
      exact List.pairwise_singleton _ _
    · rw [if_neg h2]
      exact List.Pairwise.nil
  · rw [List.pairwise_map]
    refine (selections_sorted _ 1 _).imp ?_
    intro a b hab
    simp only [List.length_append]
    omega
  · intro a ha b hb
    obtain ⟨J, -, rfl⟩ := List.mem_map.mp hb
    by_cases h2 : 2 < K.length
    · rw [if_pos h2, List.mem_singleton] at ha
      rw [ha]
      simp
    · rw [if_neg h2] at ha
      exact absurd ha (List.not_mem_nil)

theorem mem_kindBlock {jp : Int} {cards K : List PokerCard} {g : CardGroup} :
    g ∈ kindBlock (freshFor jp cards) K ↔
      (2 < K.length ∧ g = { type := GROUP_THREE_KIND, cards := K }) ∨
      ∃ J, (J.Sublist (wild jp cards) ∧ J ≠ []) ∧ g = { type := GROUP_THREE_KIND, cards := K ++ J } := by
  unfold kindBlock
  rw [List.mem_append, List.mem_map]
  refine or_congr ?_ (exists_congr fun J => ?_)
  · by_cases h2 : 2 < K.length
    · rw [if_pos h2, List.mem_singleton]
      simp [h2]
    · rw [if_neg h2]
      simp [h2]
  · rw [freshFor_hasSelections, eq_comm]
    rfl

section Closed

variable {jp : Int} {cards : List PokerCard} {P : List CardGroup → Prop}

/-- A property of lists that survives `++` holds of the sets of one rank once it holds of the sets of
each selection and of lists without an oversized set. -/
theorem searchThreeOfKindI_closed (happ : ∀ {l m}, P l → P m → P (l ++ m))
    (hsmall : ∀ {l : List CardGroup}, (∀ g ∈ l, ¬ Oversized g) → P l)
    (hblock : ∀ K, (∀ c ∈ K, isJoker c jp = false) → K.length ≤ 4 →
      P (kindBlock (freshFor jp cards) K)) {pop rep : List PokerCard} (hok : RankOk jp pop rep)
    (h2 : 2 ≤ pop.length) : P ((freshFor jp cards).searchThreeOfKindI pop rep) := by
  have hnil : P [] := hsmall (by simp)
  unfold Combination.searchThreeOfKindI
  refine happ (flatMap_closed hnil happ fun n hn => ?_)
    (flatMap_closed hnil happ fun n hn => hsmall ?_)
  · rw [List.mem_range'_1] at hn
    unfold Combination.searchThreeOfKindSelectN
    by_cases hlt : pop.length < n
    · rw [if_pos hlt]
      exact hnil
    · rw [if_neg hlt]
      refine flatMap_closed hnil happ fun K hK => hblock K ?_ ?_
      · exact fun c hc => hok.plain h2 c ((mem_selectCardCombine.mp hK).1.subset hc)
      · rw [(mem_selectCardCombine.mp hK).2]
        omega
  · intro g hg hover
    obtain ⟨K, hK, rfl⟩ := List.mem_map.mp hg
    rw [List.mem_range'_1] at hn
    have hlen := (mem_selectCardCombine.mp hK).2
    have := hover.2
    simp only at this
    omega

/-- A property that survives `++` and holds of the sets of one rank holds of what the loop lists. -/
theorem kindSearchLoop_closed (happ : ∀ {l m}, P l → P m → P (l ++ m)) (hnil : P [])
    (hI : ∀ {pop rep}, RankOk jp pop rep → 2 ≤ pop.length →
      P ((freshFor jp cards).searchThreeOfKindI pop rep)) {l pop rep : List PokerCard}
    (hok : RankOk jp pop rep) : P ((freshFor jp cards).kindSearchLoop l pop rep) := by
  have hend : ∀ {pop rep}, RankOk jp pop rep →
      P (if 2 ≤ pop.length then (freshFor jp cards).searchThreeOfKindI pop rep else []) := by
    intro pop rep hok
    by_cases h2 : 2 ≤ pop.length
    · rw [if_pos h2]
      exact hI hok h2
    · rw [if_neg h2]
      exact hnil
  induction l generalizing pop rep with
  | nil => exact hend hok
  | cons c l ih =>
    rw [Combination.kindSearchLoop]
    by_cases hc : (pop = [] ∨ pop.head?.map point = some c.point) ∧
        isJoker c (freshFor jp cards).jokerPoint = false
    · rw [if_pos hc]
      by_cases hmem : c ∈ pop
      · rw [if_pos hmem]
        exact ih (hok.again hmem)
      · rw [if_neg hmem]
        exact ih (hok.push hc.1 hc.2 hmem)
    · rw [if_neg hc]
      exact happ (hend hok) (ih (rankOk_singleton _ c))

/-- So it holds of all melds: no straight is an oversized set. -/
theorem melds_closed (h : Playable cards) (happ : ∀ {l m}, P l → P m → P (l ++ m))
    (hsmall : ∀ {l : List CardGroup}, (∀ g ∈ l, ¬ Oversized g) → P l)
    (hblock : ∀ K, (∀ c ∈ K, isJoker c jp = false) → K.length ≤ 4 →
      P (kindBlock (freshFor jp cards) K)) : P (melds jp cards) := by
  refine happ (hsmall fun g hg hover => ?_) (kindSearchLoop_closed happ (hsmall (by simp))
    (searchThreeOfKindI_closed happ hsmall hblock) (rankOk_nil jp))
  have ht := (h.straights_subperm hg).1
  rw [hover.1] at ht
  exact absurd ht (by decide)

end Closed

/-- **Before an oversized set the search lists the same set with a joker less.** -/
theorem melds_hasBefore {jp : Int} {cards : List PokerCard} (h : Playable cards) :
    HasBefore Oversized (DropsJoker jp) (melds jp cards) := by
  refine melds_closed h (fun hl hm => hl.append hm) (fun hl => hasBefore_of_not hl) ?_
  intro K hK h4
  refine hasBefore_of_key (fun g => g.cards.length) (kindBlock_sorted jp cards K) ?_
  intro g hg hover
  rcases mem_kindBlock.mp hg with ⟨-, rfl⟩ | ⟨J, ⟨hJ, hne⟩, rfl⟩
  · exact absurd hover.2 (by simpa using h4)
  · obtain ⟨j, J', rfl⟩ := List.exists_cons_of_ne_nil hne
    have hj : isJoker j jp = true := (mem_wild.mp (hJ.subset List.mem_cons_self)).2
    have hsize := hover.2
    simp only [List.length_append, List.length_cons] at hsize
    by_cases hJ' : J' = []
    · subst hJ'
      refine ⟨{ type := GROUP_THREE_KIND, cards := K },
        mem_kindBlock.mpr (Or.inl ⟨by simp at hsize; omega, rfl⟩), by simp, j, hj, ?_⟩
      exact List.perm_append_comm
    · refine ⟨{ type := GROUP_THREE_KIND, cards := K ++ J' },
        mem_kindBlock.mpr (Or.inr ⟨J', ⟨(List.sublist_cons_self j J').trans hJ, hJ'⟩, rfl⟩), by simp,
        j, hj, ?_⟩
      exact List.perm_middle

/-- **Behind an oversized set the search lists the same set with another joker**, if there is one. -/
theorem melds_hasAfter {jp : Int} {cards rest : List PokerCard} {j : PokerCard} (h : Playable cards)
    (hrest : rest.Subperm cards) (hj : isJoker j jp = true) :
    HasAfter (fun g => Oversized g ∧ (g.cards ++ [j]).Subperm rest) (AddsJoker j)
      (melds jp cards) := by
  refine melds_closed h (fun hl hm => hl.append hm)
    (fun hl => hasAfter_of_not fun g hg hover => hl g hg hover.1) ?_
  intro K hK h4
  refine hasAfter_of_key (fun g => g.cards.length) (kindBlock_sorted jp cards K) ?_
  rintro g hg ⟨hover, hsub⟩
  rcases mem_kindBlock.mp hg with ⟨-, rfl⟩ | ⟨J, ⟨hJ, hne⟩, rfl⟩
  · exact absurd hover.2 (by simpa using h4)
  · have hwild : ∀ c ∈ J ++ [j], isJoker c jp = true := by
      intro c hc
      rcases List.mem_append.mp hc with hc | hc
      · exact (mem_wild.mp (hJ.subset hc)).2
      · rw [List.mem_singleton.mp hc]
        exact hj
    have hsub' : (K ++ (J ++ [j])).Subperm cards := by
      rw [← List.append_assoc]
      exact hsub.trans hrest
    obtain ⟨J', hperm, hJ'⟩ := exists_wild_sublist hK hwild hsub'
    have hlen := hperm.length_eq
    rw [List.length_append, List.length_singleton] at hlen
    refine ⟨{ type := GROUP_THREE_KIND, cards := K ++ J' },
      mem_kindBlock.mpr (Or.inr ⟨J', ⟨hJ', List.ne_nil_of_length_pos (by omega)⟩, rfl⟩), ?_, ?_⟩
    · simp only [List.length_append]
      omega
    · have hp := hperm.append_left K
      rw [← List.append_assoc] at hp
      exact hp

/-! ## The order of the arrangements -/

section Order

variable {jp : Int} {f s : CardGroup} {cards2 : List PokerCard}

theorem cardScore_remove (jp : Int) (g : CardGroup) {cards : List PokerCard} (h : g.cards.Subperm cards) :
    cardScore g.cards jp + cardScore (removeCards g cards) jp = cardScore cards jp := by
  rw [← cardScore_append, cardScore_perm (removeCards_perm h)]

theorem mem_arrangeSecond {g : CardGroup} {c : CombinationInfo} :
    c ∈ arrangeSecond jp f s cards2 g →
      c = comb jp true [f, s, g] (removeCards g cards2) ∨
      ∃ k ∈ removeCardGroup (removeCards g cards2) (melds jp cards2),
        c = comb jp true [f, s, g, k] (removeCards k (removeCards g cards2)) := by
  intro hc
  unfold arrangeSecond at hc
  by_cases h3 : removeCards g cards2 = [] ∨
      removeCardGroup (removeCards g cards2) (melds jp cards2) = []
  · rw [if_pos h3, List.mem_singleton] at hc
    exact Or.inl hc
  · rw [if_neg h3, List.mem_flatMap] at hc
    obtain ⟨k, hk, hc⟩ := hc
    exact Or.inr ⟨k, hk, List.mem_singleton.mp hc⟩

theorem mem_fourth (h : Playable cards2) {g k : CardGroup} :
    k ∈ removeCardGroup (removeCards g cards2) (melds jp cards2) ↔
      k ∈ melds jp cards2 ∧ k.cards.Subperm (removeCards g cards2) := by
  constructor
  · intro hk
    have hkm : k ∈ melds jp cards2 := (List.mem_filter.mp hk).1
    exact (h.mem_kept (removeCards_subperm g _) (subperm_of_mem_melds h.valid hkm)).mp hk
  · intro hk
    exact (h.mem_kept (removeCards_subperm g _) (subperm_of_mem_melds h.valid hk.1)).mpr hk

theorem arrangeSecond_ne_nil (g : CardGroup) : arrangeSecond jp f s cards2 g ≠ [] := by
  unfold arrangeSecond
  by_cases h3 : removeCards g cards2 = [] ∨
      removeCardGroup (removeCards g cards2) (melds jp cards2) = []
  · rw [if_pos h3]
    exact List.cons_ne_nil _ _
  · rw [if_neg h3]
    rw [not_or] at h3
    obtain ⟨k, rest, hk⟩ := List.exists_cons_of_ne_nil h3.2
    rw [hk, List.flatMap_cons]
    exact List.cons_ne_nil _ _

theorem score_le_of_mem_arrangeSecond {g : CardGroup} {c : CombinationInfo}
    (hc : c ∈ arrangeSecond jp f s cards2 g) : c.score ≤ cardScore (removeCards g cards2) jp := by
  rcases mem_arrangeSecond hc with rfl | ⟨k, -, rfl⟩
  · exact le_refl _
  · exact cardScore_le_of_subperm (removeCards_subperm k _) jp

theorem cardScore_cons_joker {j : PokerCard} (hj : isJoker j jp = true) (cards : List PokerCard) :
    cardScore (j :: cards) jp = cardScore cards jp := by
  unfold cardScore
  rw [List.map_cons, List.sum_cons, getScore_of_isJoker hj, Nat.zero_add]

theorem removeCards_drops {g g' : CardGroup} {j : PokerCard} {cards : List PokerCard}
    (hsub : g.cards.Subperm cards) (hsub' : g'.cards.Subperm cards)
    (hperm : g.cards.Perm (j :: g'.cards)) :
    (j :: removeCards g cards).Perm (removeCards g' cards) := by
  have hall := (removeCards_perm hsub).trans (removeCards_perm hsub').symm
  have hmid := (hperm.symm.append_right (removeCards g cards)).trans hall
  rw [List.cons_append] at hmid
  exact (List.perm_append_left_iff g'.cards).mp (List.perm_middle.trans hmid)

theorem arrangeSecond_drops (h : Playable cards2) {g g' : CardGroup} (hg : g ∈ melds jp cards2)
    (hg' : g' ∈ melds jp cards2) (hdrop : DropsJoker jp g g') {c : CombinationInfo}
    (hc : c ∈ arrangeSecond jp f s cards2 g) :
    ∃ c' ∈ arrangeSecond jp f s cards2 g', c'.score ≤ c.score := by
  obtain ⟨j, hj, hperm⟩ := hdrop
  have hsub := subperm_of_mem_melds h.valid hg
  have hsub' := subperm_of_mem_melds h.valid hg'
  have hleft := removeCards_drops hsub hsub' hperm
  have hscore : cardScore (removeCards g' cards2) jp = cardScore (removeCards g cards2) jp := by
    rw [← cardScore_perm hleft, cardScore_cons_joker hj]
  rcases mem_arrangeSecond hc with rfl | ⟨k, hk, rfl⟩
  · have hne : arrangeSecond jp f s cards2 g' ≠ [] := arrangeSecond_ne_nil g'
    obtain ⟨c', rest, hc'⟩ := List.exists_cons_of_ne_nil hne
    have hmem : c' ∈ arrangeSecond jp f s cards2 g' := hc' ▸ List.mem_cons_self
    exact ⟨c', hmem, (score_le_of_mem_arrangeSecond hmem).trans hscore.le⟩
  · obtain ⟨hkm, hk3⟩ := (mem_fourth h).mp hk
    have hk3' : k.cards.Subperm (removeCards g' cards2) :=
      (hk3.trans (List.sublist_cons_self j _).subperm).trans hleft.subperm
    have hkept : k ∈ removeCardGroup (removeCards g' cards2) (melds jp cards2) :=
      (mem_fourth h).mpr ⟨hkm, hk3'⟩
    refine ⟨comb jp true [f, s, g', k] (removeCards k (removeCards g' cards2)), ?_, ?_⟩
    · unfold arrangeSecond
      have hne : ¬ (removeCards g' cards2 = [] ∨
          removeCardGroup (removeCards g' cards2) (melds jp cards2) = []) := by
        rw [not_or]
        refine ⟨fun hnil => ?_, List.ne_nil_of_mem hkept⟩
        rw [hnil] at hleft
        exact List.cons_ne_nil _ _ hleft.eq_nil
      rw [if_neg hne]
      exact List.mem_flatMap.mpr ⟨k, hkept, List.mem_singleton_self _⟩
    · change cardScore _ jp ≤ cardScore _ jp
      have h1 := cardScore_remove jp k hk3
      have h2 := cardScore_remove jp k hk3'
      omega

theorem hasOversized_comb {second : Bool} {groups : List CardGroup} {left : List PokerCard}
    (h : HasOversized (comb jp second groups left)) : ∃ g ∈ groups, Oversized g := by
  obtain ⟨g, hg, hover⟩ := h
  rw [comb_cardGroup] at hg
  rcases List.mem_append.mp hg with hg | hg
  · exact ⟨g, hg, hover⟩
  · exact absurd ((mem_leftGroup hg).symm.trans hover.1) (by decide)

theorem not_oversized_of_straight {hand : List PokerCard} (h : Playable hand) {g : CardGroup}
    (hg : g ∈ straights jp hand) : ¬ Oversized g := by
  intro hover
  exact absurd ((h.straights_subperm hg).1.symm.trans hover.1) (by decide)

theorem oversized_of_lives {g : CardGroup} {rest : List CardGroup} {left : List PokerCard}
    (hf : ¬ Oversized f) (hs : ¬ Oversized s)
    (h : HasOversized (comb jp true (f :: s :: g :: rest) left)) :
    Oversized g ∨ ∃ k ∈ rest, Oversized k := by
  obtain ⟨k, hk, hover⟩ := hasOversized_comb h
  simp only [List.mem_cons] at hk
  rcases hk with rfl | rfl | rfl | hk
  · exact absurd hover hf
  · exact absurd hover hs
  · exact Or.inl hover
  · exact Or.inr ⟨k, hk, hover⟩

theorem fourth_hasBefore (h : Playable cards2) (hf : ¬ Oversized f) (hs : ¬ Oversized s)
    {g : CardGroup} (hg : ¬ Oversized g) :
    HasBefore HasOversized (fun c c' => c'.score ≤ c.score)
      ((removeCardGroup (removeCards g cards2) (melds jp cards2)).flatMap fun k =>
        [comb jp true [f, s, g, k] (removeCards k (removeCards g cards2))]) := by
  have hkept : HasBefore Oversized (DropsJoker jp)
      (removeCardGroup (removeCards g cards2) (melds jp cards2)) := by
    refine (melds_hasBefore h).filter ?_
    intro k hk k' hk' hin hdrop
    have hkin := ((mem_fourth h).mp (List.mem_filter.mpr ⟨hk, hin⟩)).2
    obtain ⟨j, -, hperm⟩ := hdrop
    have hkin' : k'.cards.Subperm (removeCards g cards2) :=
      ((List.sublist_cons_self j _).subperm.trans hperm.symm.subperm).trans hkin
    exact (List.mem_filter.mp ((mem_fourth h).mpr ⟨hk', hkin'⟩)).2
  refine HasBefore.flatMap fun l₁ k l₂ hl x c y hsplit hQ => Or.inr ?_
  have hc : c = comb jp true [f, s, g, k] (removeCards k (removeCards g cards2)) := by
    refine List.mem_singleton.mp ?_
    rw [hsplit]
    exact List.mem_append_right _ List.mem_cons_self
  subst hc
  have hk : Oversized k := by
    rcases oversized_of_lives hf hs hQ with hover | ⟨k', hk', hover⟩
    · exact absurd hover hg
    · rwa [List.mem_singleton.mp hk'] at hover
  obtain ⟨k', hk', j, hj, hperm⟩ := hkept l₁ k l₂ hl hk
  refine ⟨k', hk', _, List.mem_singleton_self _, ?_⟩
  change cardScore _ jp ≤ cardScore _ jp
  have hin : ∀ {a}, a ∈ l₁ ++ k :: l₂ → a.cards.Subperm (removeCards g cards2) := by
    intro a ha
    exact ((mem_fourth h).mp (hl ▸ ha)).2
  have h1 := cardScore_remove jp k (hin (List.mem_append_right _ List.mem_cons_self))
  have h2 := cardScore_remove jp k' (hin (List.mem_append_left _ hk'))
  have hkk := cardScore_perm hperm jp
  rw [cardScore_cons_joker hj] at hkk
  omega

/-- **Before an arrangement with an oversized set there is one that costs no more**, for fixed first
and second life. -/
theorem arrangeSecond_hasBefore (h : Playable cards2) (hf : ¬ Oversized f) (hs : ¬ Oversized s) :
    HasBefore HasOversized (fun c c' => c'.score ≤ c.score)
      ((melds jp cards2).flatMap (arrangeSecond jp f s cards2)) := by
  refine HasBefore.flatMap fun l₁ g l₂ hl x c y hsplit hQ => ?_
  have hmem : ∀ {k}, k ∈ l₁ ∨ k = g → k ∈ melds jp cards2 := by
    intro k hk
    rw [hl]
    rcases hk with hk | rfl
    · exact List.mem_append_left _ hk
    · exact List.mem_append_right _ List.mem_cons_self
  by_cases hg : Oversized g
  · obtain ⟨g', hg', hdrop⟩ := melds_hasBefore h l₁ g l₂ hl hg
    have hc : c ∈ arrangeSecond jp f s cards2 g := by
      rw [hsplit]
      exact List.mem_append_right _ List.mem_cons_self
    exact Or.inr ⟨g', hg', arrangeSecond_drops h (hmem (Or.inr rfl)) (hmem (Or.inl hg')) hdrop hc⟩
  · refine Or.inl ?_
    have hsub := subperm_of_mem_melds h.valid (hmem (Or.inr rfl))
    unfold arrangeSecond at hsplit
    by_cases h3 : removeCards g cards2 = [] ∨
        removeCardGroup (removeCards g cards2) (melds jp cards2) = []
    · rw [if_pos h3] at hsplit
      have hc : c = comb jp true [f, s, g] (removeCards g cards2) := by
        have : c ∈ [comb jp true [f, s, g] (removeCards g cards2)] := by
          rw [hsplit]
          exact List.mem_append_right _ List.mem_cons_self
        exact List.mem_singleton.mp this
      rw [hc] at hQ
      rcases oversized_of_lives hf hs hQ with hover | ⟨k, hk, -⟩
      · exact absurd hover hg
      · exact absurd hk (List.not_mem_nil)
    · rw [if_neg h3] at hsplit
      exact fourth_hasBefore h hf hs hg x c y hsplit hQ

/-- All that is left over are jokers, at least one, although a set is oversized. -/
def WastesJoker (jp : Int) (c : CombinationInfo) : Prop :=
  c.validCards ≠ [] ∧ (∀ d ∈ c.validCards, isJoker d jp = true) ∧ HasOversized c

theorem fourth_hasAfter (h : Playable cards2) (hf : ¬ Oversized f) (hs : ¬ Oversized s)
    {g : CardGroup} (hg : ¬ Oversized g) :
    HasAfter (WastesJoker jp) (fun _ _ => True)
      ((removeCardGroup (removeCards g cards2) (melds jp cards2)).flatMap fun k =>
        [comb jp true [f, s, g, k] (removeCards k (removeCards g cards2))]) := by
  refine HasAfter.flatMap fun l₁ k l₂ hl x c y hsplit hQ => Or.inr ?_
  have hc : c = comb jp true [f, s, g, k] (removeCards k (removeCards g cards2)) := by
    refine List.mem_singleton.mp ?_
    rw [hsplit]
    exact List.mem_append_right _ List.mem_cons_self
  subst hc
  have hk : Oversized k := by
    rcases oversized_of_lives hf hs hQ.2.2 with hover | ⟨k', hk', hover⟩
    · exact absurd hover hg
    · rwa [List.mem_singleton.mp hk'] at hover
  obtain ⟨j, rest, hleft⟩ := List.exists_cons_of_ne_nil hQ.1
  have hjmem : j ∈ removeCards k (removeCards g cards2) := by
    change removeCards k (removeCards g cards2) = j :: rest at hleft
    rw [hleft]
    exact List.mem_cons_self
  have hkmem : k ∈ removeCardGroup (removeCards g cards2) (melds jp cards2) := by
    rw [hl]
    exact List.mem_append_right _ List.mem_cons_self
  have hsub : (k.cards ++ [j]).Subperm (removeCards g cards2) :=
    ((List.singleton_sublist.mpr hjmem).append_left k.cards).subperm.trans
      (removeCards_perm ((mem_fourth h).mp hkmem).2).subperm
  have hkept := (melds_hasAfter h (removeCards_subperm g cards2) (hQ.2.1 j hjmem)).filter
    (p := fun g' => isInCards _ g'.cards) (fun a ha b hb hadd =>
      (List.mem_filter.mp ((mem_fourth h).mpr ⟨hb, hadd.subperm.trans ha.2⟩)).2)
  obtain ⟨k', hk', -⟩ := hkept l₁ k l₂ hl ⟨hk, hsub⟩
  exact ⟨k', hk', _, List.mem_singleton_self _, trivial⟩

/-- **Behind an arrangement that leaves a joker over next to an oversized set there is another**, for
fixed first and second life. -/
theorem arrangeSecond_hasAfter (h : Playable cards2) (hf : ¬ Oversized f) (hs : ¬ Oversized s) :
    HasAfter (WastesJoker jp) (fun _ _ => True)
      ((melds jp cards2).flatMap (arrangeSecond jp f s cards2)) := by
  refine HasAfter.flatMap fun l₁ g l₂ hl x c y hsplit hQ => ?_
  have hgm : g ∈ melds jp cards2 := hl ▸ List.mem_append_right _ List.mem_cons_self
  have hc : c ∈ arrangeSecond jp f s cards2 g := by
    rw [hsplit]
    exact List.mem_append_right _ List.mem_cons_self
  by_cases hg : Oversized g
  · obtain ⟨j, rest, hleft⟩ := List.exists_cons_of_ne_nil hQ.1
    have hj : j ∈ c.validCards := hleft ▸ List.mem_cons_self
    have hjmem : j ∈ removeCards g cards2 := by
      rcases mem_arrangeSecond hc with rfl | ⟨k, -, rfl⟩
      · exact hj
      · exact (removeCards_subperm k _).subset hj
    have hsub : (g.cards ++ [j]).Subperm cards2 :=
      ((List.singleton_sublist.mpr hjmem).append_left g.cards).subperm.trans
        (removeCards_perm (subperm_of_mem_melds h.valid hgm)).subperm
    obtain ⟨g', hg', -⟩ := melds_hasAfter h (List.Subperm.refl cards2) (hQ.2.1 j hj) l₁ g l₂ hl
      ⟨hg, hsub⟩
    have hne : arrangeSecond jp f s cards2 g' ≠ [] := arrangeSecond_ne_nil g'
    obtain ⟨c', rest', hc'⟩ := List.exists_cons_of_ne_nil hne
    exact Or.inr ⟨g', hg', c', hc' ▸ List.mem_cons_self, trivial⟩
  · refine Or.inl ?_
    unfold arrangeSecond at hsplit
    by_cases h3 : removeCards g cards2 = [] ∨
        removeCardGroup (removeCards g cards2) (melds jp cards2) = []
    · rw [if_pos h3] at hsplit
      have hc : c = comb jp true [f, s, g] (removeCards g cards2) := by
        refine List.mem_singleton.mp ?_
        rw [hsplit]
        exact List.mem_append_right _ List.mem_cons_self
      rw [hc] at hQ
      rcases oversized_of_lives hf hs hQ.2.2 with hover | ⟨k, hk, -⟩
      · exact absurd hover hg
      · exact absurd hk (List.not_mem_nil)
    · rw [if_neg h3] at hsplit
      exact fourth_hasAfter h hf hs hg x c y hsplit hQ

end Order

section Whole

variable {jp : Int} {hand : List PokerCard}

/-- A property of lists that survives `++` holds of all arrangements once it holds of those with a
given first and second life and of lists without an oversized set. -/
theorem arrangements_closed (h : Playable hand) {P : List CombinationInfo → Prop}
    (happ : ∀ {l m}, P l → P m → P (l ++ m))
    (hsmall : ∀ {l : List CombinationInfo}, (∀ c ∈ l, ¬ HasOversized c) → P l)
    (hsecond : ∀ f s cards2, Playable cards2 → ¬ Oversized f → ¬ Oversized s →
      P ((melds jp cards2).flatMap (arrangeSecond jp f s cards2))) : P (arrangements jp hand) := by
  have hnil : P [] := hsmall (by simp)
  have hone : ∀ (second : Bool) (groups : List CardGroup) (left : List PokerCard),
      (∀ g ∈ groups, ¬ Oversized g) → P [comb jp second groups left] := by
    intro second groups left hgroups
    refine hsmall fun c hc hover => ?_
    rw [List.mem_singleton.mp hc] at hover
    obtain ⟨g, hg, hg'⟩ := hasOversized_comb hover
    exact hgroups g hg hg'
  unfold arrangements
  by_cases hfl : firstLives jp hand = []
  · rw [if_pos hfl]
    refine hsmall fun c hc hover => ?_
    rw [List.mem_singleton.mp hc] at hover
    obtain ⟨g, hg, ht, -⟩ := hover
    rw [List.mem_singleton.mp hg] at ht
    exact absurd (show GROUP_INVALID = GROUP_THREE_KIND from ht) (by decide)
  · rw [if_neg hfl]
    refine flatMap_closed hnil happ fun f hf => ?_
    have hf' := not_oversized_of_straight h (mem_straights_of_firstLife hf).1
    unfold arrangeFistlife
    by_cases h1 : removeCards f hand = []
    · rw [if_pos h1]
      exact hnil
    · rw [if_neg h1]
      by_cases hsec : removeCardGroup (removeCards f hand) (straights jp hand) = []
      · rw [if_pos hsec]
        exact hone false [f] _ (by simpa using hf')
      · rw [if_neg hsec]
        refine flatMap_closed hnil happ fun s hs => ?_
        have hs' := not_oversized_of_straight h (List.mem_filter.mp hs).1
        unfold arrangeSecondlife
        by_cases h2 : removeCards s (removeCards f hand) = [] ∨
            melds jp (removeCards s (removeCards f hand)) = []
        · rw [if_pos h2]
          exact hone true [f, s] _ (by simp [hf', hs'])
        · rw [if_neg h2]
          exact hsecond f s _ ((h.remove f).remove s) hf' hs'

theorem arrangements_hasBefore (h : Playable hand) :
    HasBefore HasOversized (fun c c' => c'.score ≤ c.score) (arrangements jp hand) :=
  arrangements_closed h (fun hl hm => hl.append hm) (fun hl => hasBefore_of_not hl)
    fun _ _ _ h2 hf hs => arrangeSecond_hasBefore h2 hf hs

theorem arrangements_hasAfter (h : Playable hand) :
    HasAfter (WastesJoker jp) (fun _ _ => True) (arrangements jp hand) :=
  arrangements_closed h (fun hl hm => hl.append hm)
    (fun hl => hasAfter_of_not fun c hc hw => hl c hc hw.2.2)
    fun _ _ _ h2 hf hs => arrangeSecond_hasAfter h2 hf hs

end Whole

end SparkFrame.Cards
