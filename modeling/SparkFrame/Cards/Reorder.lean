import SparkFrame.Cards.Optimal

/-!
# The order of cards and groups

* `Rearranges`, `Rearranged` : a group with its cards in another order, and groups in another order;
* `declare_rearranged` : **neither validator sees the order**;
* `straights_rearranges`, `melds_rearranges`, `arrangements_score` : what the searches find in a hand
  whose cards come in another order;
* `defaultDeclare_reorder` : **nor does the score of `default_declare` depend on it**.
-/

namespace SparkFrame.Cards

open PokerCard CardGroup

/-- The same group with its cards in another order. -/
structure Rearranges (g g' : CardGroup) : Prop where
  type : g'.type = g.type
  cards : g'.cards.Perm g.cards

/-- The same groups in another order, each with its cards in another order. -/
def Rearranged (groups groups' : List CardGroup) : Prop :=
  ∃ mid, groups.Perm mid ∧ List.Forall₂ Rearranges mid groups'

/-! ## The validators -/

section Validators

variable {jp : Int} {groups groups' : List CardGroup}

theorem Rearranged.map_perm {β : Type} {f : CardGroup → β}
    (hf : ∀ {g g'}, Rearranges g g' → f g' = f g) (h : Rearranged groups groups') :
    (groups'.map f).Perm (groups.map f) := by
  obtain ⟨mid, hperm, hmid⟩ := h
  have hmap : groups'.map f = mid.map f := by
    clear hperm
    induction hmid with
    | nil => rfl
    | cons hg _ ih => rw [List.map_cons, List.map_cons, hf hg, ih]
  rw [hmap]
  exact (hperm.map f).symm

theorem Rearranged.forall_iff {p : CardGroup → Bool}
    (hp : ∀ {g g'}, Rearranges g g' → p g' = p g) (h : Rearranged groups groups') :
    (∀ g ∈ groups', p g = true) ↔ ∀ g ∈ groups, p g = true := by
  have hall : ∀ l : List CardGroup, (∀ g ∈ l, p g = true) ↔ ∀ b ∈ l.map p, b = true := by
    intro l
    rw [List.forall_mem_map]
  rw [hall, hall]
  exact forall_congr' fun b => imp_congr_left (h.map_perm hp).mem_iff

theorem Rearranged.countP_eq {p : CardGroup → Bool}
    (hp : ∀ {g g'}, Rearranges g g' → p g' = p g) (h : Rearranged groups groups') :
    groups'.countP p = groups.countP p := by
  have hcount := (h.map_perm hp).countP_eq id
  rwa [List.countP_map, List.countP_map] at hcount

namespace Rearranges

variable {g g' : CardGroup} (h : Rearranges g g')

include h

theorem sortCards_eq : sortCards g'.cards = sortCards g.cards := sortCards_eq_of_perm h.cards

theorem isStraight_eq : g'.isStraight = g.isStraight := by
  rw [isStraight, h.type]
  rfl

theorem isPure_eq : g'.isPure = g.isPure := by rw [isPure, h.isStraight_eq, h.sortCards_eq, isPure]

theorem straightOk_eq : g'.straightOk jp = g.straightOk jp := by
  rw [straightOk, h.isStraight_eq, h.sortCards_eq, straightOk]

theorem kindOk_eq : g'.kindOk jp = g.kindOk jp := by
  rw [kindOk, h.type, h.sortCards_eq, kindOk]

theorem accepts_eq (p s : Nat) : g'.accepts jp p s = g.accepts jp p s := by
  rw [accepts, h.type, h.isStraight_eq, h.sortCards_eq, accepts]

theorem leftover_eq : g'.leftover jp = g.leftover jp := by
  rw [leftover, h.type, cardScore_perm h.cards, leftover]

end Rearranges

theorem isGroupsDeclare_rearranged (h : Rearranged groups groups') :
    isGroupsDeclare groups' jp = true ↔ isGroupsDeclare groups jp = true := by
  have hok := h.forall_iff (p := fun g => decide (g.type ≠ GROUP_INVALID) && g.straightOk jp &&
    g.kindOk jp) fun hg => by rw [hg.type, hg.straightOk_eq, hg.kindOk_eq]
  simp only [Bool.and_eq_true, decide_eq_true_eq, and_assoc] at hok
  rw [isGroupsDeclare_eq_true, isGroupsDeclare_eq_true, hok, h.countP_eq Rearranges.isPure_eq,
    h.countP_eq Rearranges.isStraight_eq]

theorem checkLoseDeclare_rearranged (h : Rearranged groups groups') {score : Nat} :
    checkLoseDeclare groups' jp = (true, score) ↔ checkLoseDeclare groups jp = (true, score) := by
  have hok := h.forall_iff (p := fun g => g.straightOk jp &&
    g.accepts jp (groups.countP isPure) (groups.countP isStraight))
    fun hg => by rw [hg.straightOk_eq, hg.accepts_eq]
  simp only [Bool.and_eq_true] at hok
  have hsum := (h.map_perm (f := leftover jp) Rearranges.leftover_eq).sum_nat
  rw [checkLoseDeclare_eq_true, checkLoseDeclare_eq_true, h.countP_eq Rearranges.isPure_eq,
    h.countP_eq Rearranges.isStraight_eq, hok, hsum]

/-- **The validators do not see the order** of the groups, nor of the cards in them: the verdicts are
the same, and so is the score that is computed when the declaration is accepted. -/
theorem declare_rearranged (jp : Int) (h : Rearranged groups groups') :
    isGroupsDeclare groups' jp = isGroupsDeclare groups jp ∧
      (checkLoseDeclare groups' jp).1 = (checkLoseDeclare groups jp).1 ∧
      ((checkLoseDeclare groups jp).1 = true →
        (checkLoseDeclare groups' jp).2 = (checkLoseDeclare groups jp).2) := by
  have hverdict : ∀ l : List CardGroup, (checkLoseDeclare l jp).1 = true ↔
      ∃ score, checkLoseDeclare l jp = (true, score) := by
    intro l
    refine ⟨fun h => ⟨(checkLoseDeclare l jp).2, Prod.ext h rfl⟩, ?_⟩
    rintro ⟨score, hs⟩
    rw [hs]
  refine ⟨Bool.eq_iff_iff.mpr (isGroupsDeclare_rearranged h), Bool.eq_iff_iff.mpr ?_, ?_⟩
  · rw [hverdict, hverdict]
    exact exists_congr fun score => checkLoseDeclare_rearranged h
  · intro haccept
    have hs : checkLoseDeclare groups jp = (true, (checkLoseDeclare groups jp).2) :=
      Prod.ext haccept rfl
    rw [(checkLoseDeclare_rearranged h).mpr hs]

/-- A lost declaration told back to front. -/
theorem declare_rearranged_swapped :
    isGroupsDeclare [⟨0, [⟨3, 9⟩, ⟨1, 8⟩]⟩, ⟨1, [⟨1, 4⟩, ⟨1, 2⟩, ⟨1, 3⟩]⟩] 5 =
        isGroupsDeclare [⟨1, [⟨1, 2⟩, ⟨1, 3⟩, ⟨1, 4⟩]⟩, ⟨0, [⟨1, 8⟩, ⟨3, 9⟩]⟩] 5 ∧
      (checkLoseDeclare [⟨0, [⟨3, 9⟩, ⟨1, 8⟩]⟩, ⟨1, [⟨1, 4⟩, ⟨1, 2⟩, ⟨1, 3⟩]⟩] 5).1 =
        (checkLoseDeclare [⟨1, [⟨1, 2⟩, ⟨1, 3⟩, ⟨1, 4⟩]⟩, ⟨0, [⟨1, 8⟩, ⟨3, 9⟩]⟩] 5).1 ∧
      (checkLoseDeclare [⟨0, [⟨3, 9⟩, ⟨1, 8⟩]⟩, ⟨1, [⟨1, 4⟩, ⟨1, 2⟩, ⟨1, 3⟩]⟩] 5).2 = 17 := by
  have h : Rearranged [⟨1, [⟨1, 2⟩, ⟨1, 3⟩, ⟨1, 4⟩]⟩, ⟨0, [⟨1, 8⟩, ⟨3, 9⟩]⟩]
      [⟨0, [⟨3, 9⟩, ⟨1, 8⟩]⟩, ⟨1, [⟨1, 4⟩, ⟨1, 2⟩, ⟨1, 3⟩]⟩] :=
    ⟨[⟨0, [⟨1, 8⟩, ⟨3, 9⟩]⟩, ⟨1, [⟨1, 2⟩, ⟨1, 3⟩, ⟨1, 4⟩]⟩], by decide,
      .cons ⟨rfl, by decide⟩ (.cons ⟨rfl, by decide⟩ .nil)⟩
  obtain ⟨hwin, hlose, hscore⟩ := declare_rearranged 5 h
  exact ⟨hwin, hlose, (hscore (by decide)).trans (by decide)⟩

end Validators

/-! ## The searches -/

section Searches

variable {jp : Int} {cards cards' : List PokerCard}

theorem exists_sublist_of_perm {α : Type} {l l' J : List α} (h : l.Perm l') (hJ : J.Sublist l) :
    ∃ J' : List α, J'.Sublist l' ∧ J'.Perm J := by
  obtain ⟨J', hperm, hsub⟩ := hJ.subperm.trans h.subperm
  exact ⟨J', hsub, hperm⟩

theorem popOf_eq_of_perm (h : cards.Perm cards') (col : Nat) : popOf jp cards' col = popOf jp cards col := by
  unfold popOf flushCards
  rw [sortCards_eq_of_perm (h.filter _)]
  rfl

/-- **The straights of a hand in another order.** A pure one is found as it is. -/
theorem straights_rearranges (hv : ∀ c ∈ cards, c.isValidCard = true) (h : cards.Perm cards')
    {g : CardGroup} (hg : g ∈ straights jp cards) :
    ∃ g' ∈ straights jp cards', Rearranges g g' ∧ (isCardsPureStraight g.cards = true → g' = g) := by
  have hv' : ∀ c ∈ cards', c.isValidCard = true := fun c hc => hv c (h.symm.subset hc)
  simp only [mem_straights hv']
  rw [mem_straights hv] at hg
  cases hg with
  | run col H J hH hne hJ hfits =>
    obtain ⟨J', hJ', hperm⟩ := exists_sublist_of_perm (wild_perm h) hJ
    have hsort : sortCards (H ++ J') = sortCards (H ++ J) := sortCards_eq_of_perm (hperm.append_left H)
    rw [← popOf_eq_of_perm h] at hH
    refine ⟨_, .run col H J' hH hne hJ' (hperm.length_eq ▸ hfits), ⟨rfl, ?_⟩, fun _ => by rw [hsort]⟩
    rw [hsort]
  | second col R hR hpure =>
    rw [← popOf_eq_of_perm h] at hR
    exact ⟨_, .second col R hR hpure, ⟨rfl, List.Perm.refl R⟩, fun _ => rfl⟩
  | jokers J hJ h3 =>
    obtain ⟨J', hJ', hperm⟩ := exists_sublist_of_perm (wild_perm h) hJ
    refine ⟨_, .jokers J' hJ' (hperm.length_eq ▸ h3), ⟨rfl, hperm⟩, fun hpure => ?_⟩
    rw [isCardsPureStraight_of_wild fun c hc => (mem_wild.mp (hJ.subset hc)).2] at hpure
    cases hpure

theorem searchThreeOfKindI_rearranges {self self' : Combination} (hs : HasSelections self)
    (hs' : HasSelections self') (hj : self.jokerCards.Perm self'.jokerCards)
    {pop rep : List PokerCard} {g : CardGroup} (hg : g ∈ self.searchThreeOfKindI pop rep) :
    ∃ g' ∈ self'.searchThreeOfKindI pop rep, Rearranges g g' := by
  simp only [mem_searchThreeOfKindI hs']
  rw [mem_searchThreeOfKindI hs] at hg
  cases hg with
  | mixed K J hK h2 h4 hJ h3 =>
    obtain ⟨J', hJ', hperm⟩ := exists_sublist_of_perm hj hJ
    exact ⟨_, .mixed K J' hK h2 h4 hJ' (hperm.length_eq ▸ h3), rfl, hperm.append_left K⟩
  | second K hK h3 h4 => exact ⟨_, .second K hK h3 h4, rfl, List.Perm.refl K⟩

/-- The loop meets the same ranks, whatever the order of the jokers. -/
theorem kindSearchLoop_rearranges {self self' : Combination} (hs : HasSelections self)
    (hs' : HasSelections self') (hj : self.jokerCards.Perm self'.jokerCards)
    (hp : self'.jokerPoint = self.jokerPoint) {l pop rep : List PokerCard} {g : CardGroup}
    (hg : g ∈ self.kindSearchLoop l pop rep) :
    ∃ g' ∈ self'.kindSearchLoop l pop rep, Rearranges g g' := by
  have hend : ∀ {pop rep : List PokerCard},
      g ∈ (if 2 ≤ pop.length then self.searchThreeOfKindI pop rep else []) →
      ∃ g' ∈ (if 2 ≤ pop.length then self'.searchThreeOfKindI pop rep else []), Rearranges g g' := by
    intro pop rep hg
    by_cases h2 : 2 ≤ pop.length
    · rw [if_pos h2] at hg ⊢
      exact searchThreeOfKindI_rearranges hs hs' hj hg
    · rw [if_neg h2] at hg
      exact absurd hg (List.not_mem_nil)
  induction l generalizing pop rep with
  | nil => exact hend hg
  | cons c l ih =>
    rw [Combination.kindSearchLoop] at hg ⊢
    rw [hp]
    by_cases hc : (pop = [] ∨ pop.head?.map point = some c.point) ∧ isJoker c self.jokerPoint = false
    · rw [if_pos hc] at hg ⊢
      by_cases hmem : c ∈ pop
      · rw [if_pos hmem] at hg ⊢
        exact ih hg
      · rw [if_neg hmem] at hg ⊢
        exact ih hg
    · rw [if_neg hc, List.mem_append] at hg
      rw [if_neg hc]
      rcases hg with hg | hg
      · obtain ⟨g', hg', hr⟩ := hend hg
        exact ⟨g', List.mem_append_left _ hg', hr⟩
      · obtain ⟨g', hg', hr⟩ := ih hg
        exact ⟨g', List.mem_append_right _ hg', hr⟩

/-- **The melds of a hand in another order.** -/
theorem melds_rearranges (hv : ∀ c ∈ cards, c.isValidCard = true) (h : cards.Perm cards')
    {g : CardGroup} (hg : g ∈ melds jp cards) : ∃ g' ∈ melds jp cards', Rearranges g g' := by
  unfold melds at hg ⊢
  rcases List.mem_append.mp hg with hg | hg
  · obtain ⟨g', hg', hr, -⟩ := straights_rearranges hv h hg
    exact ⟨g', List.mem_append_left _ hg', hr⟩
  · have hloop := kindSearchLoop_rearranges (freshFor_hasSelections jp cards)
      (freshFor_hasSelections jp cards') (wild_perm h) rfl hg
    rw [sortCards_eq_of_perm h] at hloop
    obtain ⟨g', hg', hr⟩ := hloop
    exact ⟨g', List.mem_append_right _ hg', hr⟩

end Searches

/-! ## The arrangements -/

/-- Every group is in the other list, its cards in some order. -/
def Covers (gs gs' : List CardGroup) : Prop := ∀ g ∈ gs, ∃ g' ∈ gs', Rearranges g g'

/-- Every score is met in the other list. -/
def SameScores (combs combs' : List CombinationInfo) : Prop :=
  ∀ c ∈ combs, ∃ c' ∈ combs', c'.score = c.score

theorem Covers.eq_nil_iff {gs gs' : List CardGroup} (h : Covers gs gs') (h' : Covers gs' gs) :
    gs = [] ↔ gs' = [] := by
  have hnil : ∀ {l l' : List CardGroup}, Covers l l' → l' = [] → l = [] := by
    intro l l' h hl'
    rw [List.eq_nil_iff_forall_not_mem]
    intro g hg
    obtain ⟨g', hg', -⟩ := h g hg
    rw [hl'] at hg'
    exact List.not_mem_nil hg'
  exact ⟨hnil h', hnil h⟩

theorem Rearranges.symm {g g' : CardGroup} (h : Rearranges g g') : Rearranges g' g :=
  ⟨h.type.symm, h.cards.symm⟩

theorem SameScores.singleton {c c' : CombinationInfo} (h : c'.score = c.score) : SameScores [c] [c'] := by
  intro d hd
  rw [List.mem_singleton.mp hd]
  exact ⟨c', List.mem_singleton_self c', h⟩

theorem SameScores.flatMap {gs gs' : List CardGroup} {f f' : CardGroup → List CombinationInfo}
    (h : Covers gs gs') (hf : ∀ g ∈ gs, ∀ g' ∈ gs', Rearranges g g' → SameScores (f g) (f' g')) :
    SameScores (gs.flatMap f) (gs'.flatMap f') := by
  intro c hc
  obtain ⟨g, hg, hc⟩ := List.mem_flatMap.mp hc
  obtain ⟨g', hg', hr⟩ := h g hg
  obtain ⟨c', hc', heq⟩ := hf g hg g' hg' hr c hc
  exact ⟨c', List.mem_flatMap.mpr ⟨g', hg', hc'⟩, heq⟩

theorem SameScores.ite {p p' : Prop} [Decidable p] [Decidable p'] (hp : p ↔ p')
    {l l' m m' : List CombinationInfo} (hl : SameScores l l') (hm : ¬ p → SameScores m m') :
    SameScores (if p then l else m) (if p' then l' else m') := by
  by_cases h : p
  · rw [if_pos h, if_pos (hp.mp h)]
    exact hl
  · rw [if_neg h, if_neg (h ∘ hp.mpr)]
    exact hm h

theorem removeCards_rearranges {g g' : CardGroup} (h : Rearranges g g') {cards cards' : List PokerCard}
    (hp : cards.Perm cards') : (removeCards g cards).Perm (removeCards g' cards') := by
  rw [removeCards_eq_diff, removeCards_eq_diff]
  exact hp.diff h.cards.symm

section Arrangements

variable {jp : Int} {f f' s s' g g' : CardGroup} {hand hand' cards cards' : List PokerCard}

theorem nil_iff_of_perm (h : cards.Perm cards') : cards = [] ↔ cards' = [] := by
  constructor
  · intro hnil
    exact (hnil ▸ h).symm.eq_nil
  · intro hnil
    exact (hnil ▸ h).eq_nil

theorem kept_covers (h : Playable hand) (hh : hand.Perm hand') (hp : cards.Perm cards')
    (hs : cards.Subperm hand) {gs gs' : List CardGroup} (hgs : ∀ g ∈ gs, g.cards.Subperm hand)
    (hc : Covers gs gs') : Covers (removeCardGroup cards gs) (removeCardGroup cards' gs') := by
  intro g hg
  have hfit := (h.mem_kept hs (hgs g (List.mem_of_mem_filter hg))).mp hg
  obtain ⟨g', hg', hr⟩ := hc g hfit.1
  refine ⟨g', ?_, hr⟩
  have h' : Playable hand' := h.mono hh.symm.subperm
  refine (h'.mem_kept ((hp.symm.subperm.trans hs).trans hh.subperm) ?_).mpr ⟨hg', ?_⟩
  · exact hr.cards.subperm.trans ((hgs g hfit.1).trans hh.subperm)
  · exact hr.cards.subperm.trans (hfit.2.trans hp.subperm)

variable (jp) in
theorem straights_covers (h : Playable cards) (hp : cards.Perm cards') :
    Covers (straights jp cards) (straights jp cards') := by
  intro g hg
  obtain ⟨g', hg', hr, -⟩ := straights_rearranges h.valid hp hg
  exact ⟨g', hg', hr⟩

variable (jp) in
theorem melds_covers (h : Playable cards) (hp : cards.Perm cards') :
    Covers (melds jp cards) (melds jp cards') := fun _ => melds_rearranges h.valid hp

theorem comb_score (second second' : Bool) (groups groups' : List CardGroup) (hp : cards.Perm cards') :
    (comb jp second' groups' cards').score = (comb jp second groups cards).score :=
  cardScore_perm hp.symm jp

theorem arrangeSecond_scores (h : Playable cards) (hp : cards.Perm cards') (hg : Rearranges g g') :
    SameScores (arrangeSecond jp f s cards g) (arrangeSecond jp f' s' cards' g') := by
  have h' : Playable cards' := h.mono hp.symm.subperm
  have h3 := removeCards_rearranges hg hp
  have hmelds : ∀ {l : List PokerCard}, Playable l → ∀ k ∈ melds jp l, k.cards.Subperm l :=
    fun hl k hk => subperm_of_mem_melds hl.valid hk
  have hcov := kept_covers h hp h3 (removeCards_subperm g cards) (hmelds h) (melds_covers jp h hp)
  have hcov' := kept_covers h' hp.symm h3.symm (removeCards_subperm g' cards') (hmelds h')
    (melds_covers jp h' hp.symm)
  unfold arrangeSecond
  refine SameScores.ite (or_congr (nil_iff_of_perm h3) (hcov.eq_nil_iff hcov')) ?_ fun _ => ?_
  · exact .singleton (comb_score _ _ _ _ h3)
  · refine .flatMap hcov fun k _ k' _ hk => ?_
    exact .singleton (comb_score _ _ _ _ (removeCards_rearranges hk h3))

theorem arrangeSecondlife_scores (h : Playable cards) (hp : cards.Perm cards') (hs : Rearranges s s') :
    SameScores (arrangeSecondlife jp f cards s) (arrangeSecondlife jp f' cards' s') := by
  have h2 := removeCards_rearranges hs hp
  have hplay := h.remove s
  have hcov : Covers (melds jp _) (melds jp _) := melds_covers _ hplay h2
  have hcov' : Covers (melds jp _) (melds jp _) := melds_covers _ (hplay.mono h2.symm.subperm) h2.symm
  unfold arrangeSecondlife
  refine SameScores.ite (or_congr (nil_iff_of_perm h2) (hcov.eq_nil_iff hcov')) ?_ fun _ => ?_
  · exact .singleton (comb_score _ _ _ _ h2)
  · exact .flatMap hcov fun g _ g' _ hg => arrangeSecond_scores hplay h2 hg

theorem arrangeFistlife_scores (h : Playable hand) (hp : hand.Perm hand') (hf : Rearranges f f') :
    SameScores (arrangeFistlife jp hand f) (arrangeFistlife jp hand' f') := by
  have h' : Playable hand' := h.mono hp.symm.subperm
  have h1 := removeCards_rearranges hf hp
  have hstr : ∀ {l : List PokerCard}, Playable l → ∀ k ∈ straights jp l, k.cards.Subperm l :=
    fun hl k hk => (hl.straights_subperm hk).2
  have hcov := kept_covers h hp h1 (removeCards_subperm f hand) (hstr h) (straights_covers jp h hp)
  have hcov' := kept_covers h' hp.symm h1.symm (removeCards_subperm f' hand') (hstr h')
    (straights_covers jp h' hp.symm)
  unfold arrangeFistlife
  refine SameScores.ite (nil_iff_of_perm h1) (fun c hc => absurd hc (List.not_mem_nil)) fun _ => ?_
  refine SameScores.ite (hcov.eq_nil_iff hcov') (.singleton (comb_score _ _ _ _ h1)) fun _ => ?_
  exact .flatMap hcov fun s _ s' _ hs => arrangeSecondlife_scores (h.remove f) h1 hs

theorem firstLives_covers (h : Playable hand) (hp : hand.Perm hand') :
    Covers (firstLives jp hand) (firstLives jp hand') := by
  intro f hf
  obtain ⟨hst, hpure⟩ := mem_straights_of_firstLife hf
  obtain ⟨f', hf', hr, heq⟩ := straights_rearranges h.valid hp hst
  refine ⟨f', List.mem_filter.mpr ⟨hf', ?_⟩, hr⟩
  rw [heq hpure]
  exact hpure

/-- **The scores of the arrangements of a hand in another order.** -/
theorem arrangements_scores (h : Playable hand) (hp : hand.Perm hand') :
    SameScores (arrangements jp hand) (arrangements jp hand') := by
  have hcov : Covers (firstLives jp hand) (firstLives jp hand') := firstLives_covers h hp
  have hcov' : Covers (firstLives jp hand') (firstLives jp hand) :=
    firstLives_covers (h.mono hp.symm.subperm) hp.symm
  unfold arrangements
  refine SameScores.ite (hcov.eq_nil_iff hcov') ?_ fun _ => ?_
  · exact .singleton (cardScore_perm hp.symm jp)
  · exact .flatMap hcov fun f _ f' _ hf => arrangeFistlife_scores h hp hf

end Arrangements

/-! ## The result -/

section Result

variable {self self' : Combination} {jp : Int} {hand hand' : List PokerCard} {score : Nat}
  {groups : List CardGroup}

theorem exists_arrangement_of_result (hres : (self.defaultDeclare hand jp).2 = some (score, groups)) :
    ∃ c ∈ arrangements jp hand, c.score = score := by
  obtain ⟨c, hpick, rfl, -⟩ := defaultDeclare_picks hres
  exact ⟨c, mem_of_picks hpick, rfl⟩

theorem defaultDeclare_score_le (h : Playable hand) (hp : hand.Perm hand') {score' : Nat}
    {groups' : List CardGroup} (hres : (self.defaultDeclare hand jp).2 = some (score, groups))
    (hres' : (self'.defaultDeclare hand' jp).2 = some (score', groups')) : score' ≤ score := by
  obtain ⟨c, hc, rfl⟩ := exists_arrangement_of_result hres
  obtain ⟨c', hc', heq⟩ := arrangements_scores h hp c hc
  rw [← heq]
  exact defaultDeclare_le (h.mono hp.symm.subperm) hres' hc'

/-- **How the player has ordered the cards does not change the score.** -/
theorem defaultDeclare_reorder (self self' : Combination) (jp : Int)
    (hlen : hand.length ≤ MAX_CARD_COUNT) (hv : ∀ c ∈ hand, c.isValidCard = true)
    (hp : hand.Perm hand') (hres : (self.defaultDeclare hand jp).2 = some (score, groups)) :
    ∃ groups', (self'.defaultDeclare hand' jp).2 = some (score, groups') := by
  have h : Playable hand := ⟨hlen, hv⟩
  obtain ⟨c, hc, -⟩ := exists_arrangement_of_result hres
  obtain ⟨c', hc', -⟩ := arrangements_scores h hp c hc
  obtain ⟨⟨score', groups'⟩, hres'⟩ := defaultDeclare_isSome self' (List.ne_nil_of_mem hc')
  have hle := defaultDeclare_score_le h hp hres hres'
  have hge := defaultDeclare_score_le (h.mono hp.symm.subperm) hp.symm hres' hres
  exact ⟨groups', by rw [hres', le_antisymm hle hge]⟩

/-- A first life, a wild card and a king, in two orders. -/
theorem defaultDeclare_reorder_five :
    ∃ groups', (Combination.defaultDeclare {} [⟨2, 13⟩, ⟨1, 4⟩, ⟨3, 7⟩, ⟨1, 2⟩, ⟨1, 3⟩] 7).2 =
      some (10, groups') := by
  have hscore : (Combination.defaultDeclare {} [⟨1, 2⟩, ⟨1, 3⟩, ⟨1, 4⟩, ⟨3, 7⟩, ⟨2, 13⟩] 7).2.map
      Prod.fst = some 10 := by decide +kernel
  obtain ⟨⟨score, groups⟩, hres, hten⟩ := Option.map_eq_some_iff.mp hscore
  obtain rfl : score = 10 := hten
  exact defaultDeclare_reorder {} {} 7 (by decide) (by decide) (by decide) hres

end Result

end SparkFrame.Cards
