import SparkFrame.Cards.Optimal

/-!
# Hands laid out completely

* `Complete`, `SetsFit` : the whole hand laid out in melds whose sets take any number of jokers, and
  the hands where no such layout has a set of more than four cards;
* `complete_of_arrangement`, `exists_arrangement_of_complete`, `setsFit_iff` : these layouts are the
  arrangements of the search that leave nothing over;
* `setsFit_of_few` : few suits of a rank and few jokers make no large sets;
* `checkLoseDeclare_defaultDeclare` : where the sets fit, the checker accepts the result of the
  arranger, with the same score.
-/

namespace SparkFrame.Cards

open PokerCard SparkFrame.Lib

/-! ## Layouts -/

/-- A set with any number of jokers. -/
structure IsWideSet (jp : Int) (T : List PokerCard) : Prop where
  three : 3 ≤ T.length
  two : 2 ≤ (plain jp T).length
  oneRank : OneRank (plain jp T)

/-- The whole hand laid out in straights, at least two and one of them pure, and sets with any number
of jokers. -/
structure Complete (jp : Int) (hand : List PokerCard) (runs sets : List (List PokerCard)) : Prop where
  partition : (runs.flatten ++ sets.flatten).Perm hand
  straight : ∀ T ∈ runs, IsStraight jp T
  set : ∀ T ∈ sets, IsWideSet jp T
  pure : ∃ T ∈ runs, isCardsPureStraight (sortCards T) = true
  lives : 2 ≤ runs.length

/-- No complete layout of the hand has a set of more than four cards. -/
def SetsFit (jp : Int) (hand : List PokerCard) : Prop :=
  ∀ runs sets, Complete jp hand runs sets → ∀ T ∈ sets, T.length ≤ 4

section Layout

variable {jp : Int} {hand cards : List PokerCard}

theorem Dealt.isStraight_of_mem (hd : Dealt cards) {g : CardGroup} (hg : g ∈ straights jp cards) :
    IsStraight jp g.cards := by
  obtain ⟨H, J, hrun, hperm, -⟩ := straights_sound hd.playable.valid hd.count_le hg
  have hplain := plain_of_perm hperm hrun.plain hrun.wild
  have hwild := wild_of_perm hperm hrun.plain hrun.wild
  have hsub := (hd.playable.straights_subperm hg).2
  have hpoints : ∀ c ∈ H, 2 ≤ c.point ∧ c.point ≤ 14 := by
    intro c hc
    have hmem : c ∈ g.cards := hperm.mem_iff.mpr (List.mem_append_left _ hc)
    have hp := point_of_not_isJoker (hd.playable.valid c (hsub.subset hmem)) (hrun.plain c hc)
    exact ⟨hp.1, hp.2.1⟩
  obtain ⟨h3, hfilled⟩ := (fits_iff_filled hrun.rising hpoints).mp hrun.fits
  have hcolor : H.Pairwise fun a b => a.color = b.color := hrun.rising.imp fun hab => hab.1
  have hsuit : OneSuit H := ⟨common_of_pairwise hcolor, hrun.rising.points_lt.imp fun hlt => hlt.ne⟩
  refine ⟨?_, hsuit.perm hplain, ?_⟩
  · rwa [hperm.length_eq, List.length_append]
  · rw [hwild.length_eq]
    exact hfilled.perm hplain.symm

theorem Dealt.isWideSet_of_mem (hd : Dealt cards) {g : CardGroup}
    (hg : g ∈ (freshFor jp cards).searchThreeOfKind cards) : IsWideSet jp g.cards := by
  obtain ⟨K, J, hkind, -, hcards⟩ := kinds_sound hd.count_le hg
  have hplain : plain jp g.cards = K := by
    rw [hcards]
    exact plain_parts hkind.plain hkind.wild
  refine ⟨?_, ?_, ?_⟩
  · rw [hcards, List.length_append]
    exact hkind.three
  · rw [hplain]
    exact hkind.two
  · rw [hplain]
    exact hkind.oneRank

theorem Dealt.exists_runs_sets (hd : Dealt cards) {rest : List CardGroup}
    (hrest : ∀ g ∈ rest, g ∈ melds jp cards) :
    ∃ runs sets : List (List PokerCard), (runs.flatten ++ sets.flatten).Perm
        (rest.flatMap CardGroup.cards) ∧ (∀ T ∈ runs, IsStraight jp T) ∧
      (∀ T ∈ sets, IsWideSet jp T) ∧ ∀ g ∈ rest, g.type = GROUP_THREE_KIND → g.cards ∈ sets := by
  induction rest with
  | nil => exact ⟨[], [], by simp⟩
  | cons g rest ih =>
    obtain ⟨runs, sets, hperm, hruns, hsets, hmem⟩ :=
      ih fun g' hg' => hrest g' (List.mem_cons_of_mem g hg')
    rw [List.flatMap_cons]
    have hg := hrest g List.mem_cons_self
    unfold melds at hg
    rcases List.mem_append.mp hg with hg | hg
    · refine ⟨g.cards :: runs, sets, ?_, ?_, hsets, ?_⟩
      · rw [List.flatten_cons, List.append_assoc]
        exact hperm.append_left g.cards
      · exact List.forall_mem_cons.mpr ⟨hd.isStraight_of_mem hg, hruns⟩
      · refine List.forall_mem_cons.mpr ⟨fun ht => ?_, hmem⟩
        exact absurd ((hd.playable.straights_subperm hg).1.symm.trans ht) (by decide)
    · refine ⟨runs, g.cards :: sets, ?_, hruns, ?_, ?_⟩
      · rw [List.flatten_cons]
        refine List.Perm.trans ?_ (hperm.append_left g.cards)
        rw [← List.append_assoc, ← List.append_assoc]
        exact List.perm_append_comm.append_right sets.flatten
      · exact List.forall_mem_cons.mpr ⟨hd.isWideSet_of_mem hg, hsets⟩
      · refine List.forall_mem_cons.mpr ⟨fun _ => List.mem_cons_self, fun g' hg' ht => ?_⟩
        exact List.mem_cons_of_mem _ (hmem g' hg' ht)

/-- **An arrangement that leaves nothing over is a complete layout.** -/
theorem complete_of_arrangement (hd : Dealt hand) {c : CombinationInfo} (hc : Arrangement jp hand c)
    (hfull : c.validCards = []) {k : CardGroup} (hk : k ∈ c.cardGroup)
    (ht : k.type = GROUP_THREE_KIND) : ∃ runs sets, Complete jp hand runs sets ∧ k.cards ∈ sets := by
  cases hc with
  | noLife =>
    rw [List.mem_singleton.mp hk] at ht
    exact absurd (show GROUP_INVALID = GROUP_THREE_KIND from ht) (by decide)
  | one f left hne => exact absurd hfull hne
  | two f s rest left hf hs hrest hlen htakes =>
    obtain rfl : left = [] := hfull
    have hd2 : Dealt (removeCards s (removeCards f hand)) := (hd.remove f).remove s
    obtain ⟨runs, sets, hperm, hruns, hsets, hmem⟩ := hd2.exists_runs_sets hrest
    have hfs := (mem_straights_of_firstLife hf).1
    have hpure : isCardsPureStraight (sortCards f.cards) = true :=
      (Bool.and_eq_true_iff.mp (hd.isPure_firstLife hf)).2
    refine ⟨f.cards :: s.cards :: runs, sets, ⟨?_, ?_, hsets, ⟨_, List.mem_cons_self, hpure⟩, ?_⟩, ?_⟩
    · have hall := htakes.perm
      rw [List.append_nil, List.flatMap_cons, List.flatMap_cons] at hall
      refine List.Perm.trans ?_ hall
      rw [List.flatten_cons, List.flatten_cons, List.append_assoc, List.append_assoc]
      exact (hperm.append_left s.cards).append_left f.cards
    · exact List.forall_mem_cons.mpr ⟨hd.isStraight_of_mem hfs,
        List.forall_mem_cons.mpr ⟨hd.isStraight_of_mem hs, hruns⟩⟩
    · simp only [List.length_cons]
      omega
    · rw [comb_cardGroup, show leftGroup ([] : List PokerCard) = [] from rfl, List.append_nil] at hk
      rcases List.mem_cons.mp hk with rfl | hk
      · exact absurd ((hd.playable.straights_subperm hfs).1.symm.trans ht) (by decide)
      · rcases List.mem_cons.mp hk with rfl | hk
        · exact absurd ((hd.playable.straights_subperm hs).1.symm.trans ht) (by decide)
        · exact hmem k hk ht

theorem OneRank.length_le_four {K : List PokerCard} (h : OneRank K)
    (hv : ∀ c ∈ K, c.isValidCard = true) (hj : ∀ c ∈ K, isJoker c jp = false) : K.length ≤ 4 := by
  have hnodup : (K.map color).Nodup := List.pairwise_map.mpr (h.imp fun hab => hab.2)
  have hcolors : K.map color ⊆ [1, 2, 3, 4] := by
    intro suit hsuit
    obtain ⟨c, hc, rfl⟩ := List.mem_map.mp hsuit
    have hp := point_of_not_isJoker (hv c hc) (hj c hc)
    have hvc := hv c hc
    unfold PokerCard.isValidCard at hvc
    rw [if_neg (by simp only [JOKER1]; omega), decide_eq_true_eq] at hvc
    simp only [spades, diamonds] at hvc
    simp only [List.mem_cons, List.not_mem_nil, or_false]
    omega
  have hle := (List.subperm_of_subset hnodup hcolors).length_le
  rwa [List.length_map] at hle

theorem Dealt.exists_wideSet (hd : Dealt cards) {T : List PokerCard} (h : IsWideSet jp T)
    (hsub : T.Subperm cards) :
    ∃ g ∈ melds jp cards, g.type = GROUP_THREE_KIND ∧ g.cards.Perm T := by
  have hlen := length_wild_add_length_plain jp T
  have hperm : (plain jp T ++ wild jp T).Perm T :=
    List.perm_append_comm.trans (wild_append_plain_perm jp T)
  have hplain : ∀ c ∈ plain jp T, isJoker c jp = false := fun c hc => (mem_plain.mp hc).2
  have h3 := h.three
  have hkind : IsKind jp (plain jp T) (wild jp T) :=
    ⟨h.oneRank, h.two, by omega, hplain, fun c hc => (mem_wild.mp hc).2⟩
  have h4 : (plain jp T).length ≤ 4 := by
    refine h.oneRank.length_le_four (fun c hc => ?_) hplain
    exact hd.playable.valid c (hsub.subset (mem_plain.mp hc).1)
  obtain ⟨g, hg, ht, hcards⟩ := kinds_complete hkind h4 (hperm.subperm.trans hsub)
  exact ⟨g, List.mem_append_right _ hg, ht, hcards.trans hperm⟩

/-- A complete layout with a set: a pure straight, a straight, the set and at most one more meld. -/
theorem Complete.shape {runs sets : List (List PokerCard)} {T : List PokerCard}
    (h : Complete jp hand runs sets) (hlen : hand.length ≤ MAX_CARD_COUNT) (hT : T ∈ sets) :
    ∃ P S, ∃ others : List (List PokerCard), isCardsPureStraight (sortCards P) = true ∧
      IsStraight jp P ∧ IsStraight jp S ∧ (∀ X ∈ others, IsStraight jp X ∨ IsWideSet jp X) ∧
      others.length ≤ 1 ∧ hand.Perm (P ++ (S ++ (T ++ others.flatten))) := by
  obtain ⟨P, hP, hpure⟩ := h.pure
  have hruns := List.perm_cons_erase hP
  have hsets := List.perm_cons_erase hT
  have hlives := h.lives
  rw [hruns.length_eq, List.length_cons] at hlives
  obtain ⟨S, runs', hS⟩ : ∃ S runs', runs.erase P = S :: runs' :=
    List.exists_cons_of_length_pos (by omega)
  rw [hS] at hruns
  have hrun : ∀ X ∈ P :: S :: runs', IsStraight jp X :=
    fun X hX => h.straight X (hruns.mem_iff.mpr hX)
  have hothers : ∀ X ∈ runs' ++ sets.erase T, IsStraight jp X ∨ IsWideSet jp X := by
    intro X hX
    rcases List.mem_append.mp hX with hX | hX
    · exact Or.inl (hrun X (by simp [hX]))
    · exact Or.inr (h.set X (List.mem_of_mem_erase hX))
  have hflat : hand.Perm (P ++ (S ++ (T ++ (runs' ++ sets.erase T).flatten))) := by
    refine h.partition.symm.trans ((hruns.flatten.append hsets.flatten).trans ?_)
    simp only [List.flatten_cons, List.flatten_append, List.append_assoc]
    refine (List.Perm.append_left S ?_).append_left P
    rw [← List.append_assoc, ← List.append_assoc T]
    exact List.perm_append_comm.append_right _
  refine ⟨P, S, runs' ++ sets.erase T, hpure, hrun P (by simp), hrun S (by simp), hothers, ?_, hflat⟩
  have hcount := three_mul_le_of_melds (l := runs' ++ sets.erase T) fun X hX =>
    (hothers X hX).elim IsStraight.three IsWideSet.three
  have hP3 := (hrun P (by simp)).three
  have hS3 := (hrun S (by simp)).three
  have hT3 := (h.set T hT).three
  have hsum := hflat.length_eq
  simp only [List.length_append, MAX_CARD_COUNT] at hcount hsum hlen ⊢
  omega

theorem ne_nil_of_three {X : List PokerCard} (h3 : 3 ≤ X.length) : X ≠ [] :=
  List.ne_nil_of_length_pos (lt_of_lt_of_le (by decide) h3)

theorem Dealt.exists_wideMeld (hd : Dealt cards) {X : List PokerCard} (h : IsStraight jp X ∨ IsWideSet jp X)
    (hsub : X.Subperm cards) : ∃ k ∈ melds jp cards, k.cards.Perm X := by
  rcases h with hX | hX
  · obtain ⟨k, hk, hkX⟩ := hd.exists_straight hX hsub
    exact ⟨k, List.mem_append_left _ hk, hkX⟩
  · obtain ⟨k, hk, -, hkX⟩ := hd.exists_wideSet hX hsub
    exact ⟨k, hk, hkX⟩

/-- After two lives and a meld, the search lays out the meld that is left, if there is one. -/
theorem Dealt.exists_arrangeSecond (hd : Dealt cards) (f s : CardGroup) {g : CardGroup}
    {others : List (List PokerCard)} (hothers : ∀ X ∈ others, IsStraight jp X ∨ IsWideSet jp X)
    (hlen : others.length ≤ 1) (hrest : (removeCards g cards).Perm others.flatten) :
    ∃ c ∈ arrangeSecond jp f s cards g, c.validCards = [] ∧ g ∈ c.cardGroup := by
  rcases others with _ | ⟨X, others'⟩
  · have hnil : removeCards g cards = [] := hrest.eq_nil
    refine ⟨comb jp true [f, s, g] _, ?_, hnil, ?_⟩
    · unfold arrangeSecond
      rw [if_pos (Or.inl hnil)]
      exact List.mem_singleton_self _
    · rw [comb_cardGroup]
      simp
  · obtain rfl : others' = [] := by simpa using hlen
    rw [List.flatten_singleton] at hrest
    have hX := hothers X List.mem_cons_self
    have hX3 : 3 ≤ X.length := hX.elim IsStraight.three IsWideSet.three
    obtain ⟨k, hk, hkX⟩ := hd.exists_wideMeld hX (hrest.symm.subperm.trans (removeCards_subperm g _))
    have hne : removeCards g cards ≠ [] := by
      intro hnil
      rw [hnil] at hrest
      exact ne_nil_of_three hX3 hrest.nil_eq.symm
    have hnone : (removeCards k (removeCards g cards)).Perm [] :=
      removeCards_perm_rest hkX (by rwa [List.append_nil])
    refine ⟨comb jp true [f, s, g, k] _, mem_arrangeSecond_of_fourth hd.playable hne hk
      (hkX.subperm.trans hrest.symm.subperm), hnone.eq_nil, ?_⟩
    rw [comb_cardGroup]
    simp

/-- **A complete layout is met by the search**, with the set it is about. -/
theorem exists_arrangement_of_complete (hd : Dealt hand) {runs sets : List (List PokerCard)}
    (h : Complete jp hand runs sets) {T : List PokerCard} (hT : T ∈ sets) :
    ∃ c ∈ arrangements jp hand, c.validCards = [] ∧
      ∃ k ∈ c.cardGroup, k.type = GROUP_THREE_KIND ∧ k.cards.Perm T := by
  obtain ⟨P, S, others, hpure, hP, hS, hothers, hlen, hflat⟩ := h.shape hd.length_le hT
  obtain ⟨f, hf, hfP⟩ := hd.exists_straight hP (subperm_of_perm_append hflat)
  have hfpure : isCardsPureStraight (sortCards f.cards) = true := by
    rwa [sortCards_eq_of_perm hfP]
  have hfirst : f ∈ firstLives jp hand := by
    obtain ⟨d, hd', hj⟩ := exists_plain_of_pure jp hfpure
    exact hd.mem_firstLives hf ⟨d, mem_sortCards.mp hd', hj⟩ hfpure
  have hcards1 := removeCards_perm_rest hfP hflat
  obtain ⟨s, hs, hsS⟩ :=
    hd.exists_straight hS ((subperm_of_perm_append hcards1).trans (removeCards_subperm f hand))
  have hcards2 := removeCards_perm_rest hsS hcards1
  have hd2 : Dealt (removeCards s (removeCards f hand)) := (hd.remove f).remove s
  obtain ⟨g, hg, ht, hgT⟩ := hd2.exists_wideSet (h.set T hT) (subperm_of_perm_append hcards2)
  have hcards3 := removeCards_perm_rest hgT hcards2
  obtain ⟨c, hc, hnil, hgc⟩ := hd2.exists_arrangeSecond f s hothers hlen hcards3
  refine ⟨c, ?_, hnil, g, hgc, ht, hgT⟩
  have hsecond : c ∈ arrangeSecondlife jp f (removeCards f hand) s :=
    mem_arrangeSecondlife_of_meld
      (ne_nil_of_perm_append hcards2 (ne_nil_of_three (h.set T hT).three)) hg hc
  exact mem_arrangements_of_firstLife hfirst (mem_arrangeFistlife_of_second hd.playable
    (ne_nil_of_perm_append hcards1 (ne_nil_of_three hS.three)) hs
    (hsS.subperm.trans (subperm_of_perm_append hcards1)) hsecond)

/-- **The condition leaves out exactly the hands for which the search lists an arrangement with a set
of more than four cards and nothing left over.** -/
theorem setsFit_iff (hd : Dealt hand) :
    SetsFit jp hand ↔ ∀ c ∈ arrangements jp hand, c.validCards = [] → ¬ HasOversized c := by
  constructor
  · rintro hfit c hc hnil ⟨g, hg, ht, h4⟩
    obtain ⟨runs, sets, hlayout, hsets⟩ :=
      complete_of_arrangement hd (arrangement_of_mem hd.playable hc) hnil hg ht
    exact absurd (hfit runs sets hlayout g.cards hsets) (not_le.mpr h4)
  · intro hnone runs sets hlayout T hT
    by_contra h4
    obtain ⟨c, hc, hnil, g, hg, ht, hgT⟩ := exists_arrangement_of_complete hd hlayout hT
    refine hnone c hc hnil ⟨g, hg, ht, ?_⟩
    rw [hgT.length_eq]
    exact not_le.mp h4

/-- The suits in which a rank is in the hand. -/
def suitsOf (point : Nat) (cards : List PokerCard) : List Nat :=
  ((cards.filter fun c => decide (c.point = point)).map color).dedup

/-- **With no more than four suits of a rank and jokers together no set is too large.** -/
theorem setsFit_of_few
    (h : ∀ c ∈ plain jp hand, (suitsOf c.point (plain jp hand)).length + (wild jp hand).length ≤ 4) :
    SetsFit jp hand := by
  intro runs sets hlayout T hT
  have hset := hlayout.set T hT
  have hsub : T.Subperm hand := by
    refine List.Subperm.trans ?_ hlayout.partition.subperm
    exact ((List.sublist_flatten_of_mem hT).trans (List.sublist_append_right _ _)).subperm
  obtain ⟨c, K, hK⟩ : ∃ c K, plain jp T = c :: K :=
    List.exists_cons_of_length_pos (Nat.lt_of_lt_of_le Nat.zero_lt_two hset.two)
  have hc : c ∈ plain jp T := hK ▸ List.mem_cons_self
  have hplain : (plain jp T).Subperm (plain jp hand) := hsub.filter _
  have hsuits : (plain jp T).length ≤ (suitsOf c.point (plain jp hand)).length := by
    rw [← List.length_map (f := color)]
    refine (List.subperm_of_subset ?_ ?_).length_le
    · exact List.pairwise_map.mpr (hset.oneRank.imp fun hab => hab.2)
    · intro suit hsuit
      obtain ⟨d, hd, rfl⟩ := List.mem_map.mp hsuit
      refine List.mem_dedup.mpr (List.mem_map_of_mem (List.mem_filter.mpr ⟨hplain.subset hd, ?_⟩))
      exact decide_eq_true (hset.oneRank.point_eq d hd c hc)
  have hwild : (wild jp T).length ≤ (wild jp hand).length := (hsub.filter _).length_le
  have hlen := length_wild_add_length_plain jp T
  have hfew := h c (hplain.subset hc)
  omega

end Layout

/-- A pure straight, a straight, three kings and one joker. -/
def kingsAndJoker : List PokerCard :=
  [⟨1, 3⟩, ⟨1, 4⟩, ⟨1, 5⟩, ⟨2, 6⟩, ⟨2, 7⟩, ⟨2, 8⟩, ⟨1, 13⟩, ⟨2, 13⟩, ⟨3, 13⟩, ⟨0, 15⟩]

/-- With a second joker and a nine the sets no longer fit, but the search first meets the jokers in a
straight of their own with the six. -/
example : (Combination.defaultDeclare {} (⟨2, 9⟩ :: ⟨0, 16⟩ :: kingsAndJoker) 0).2.map
    (fun r => checkLoseDeclare r.2 0) = some (true, 0) := by decide +kernel

end SparkFrame.Cards
