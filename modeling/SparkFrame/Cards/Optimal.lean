import SparkFrame.Cards.Agree
import SparkFrame.Cards.Legal
import SparkFrame.Cards.Pure

/-!
# The arranger is optimal

* `mem_arrangements_of_firstLife` and what follows it : a way into each nesting level of the search;
* `exists_arrangement` : a pure straight, a straight and at most two melds are arranged at no more
  than the cost of what they leave;
* `arrangements_ne_nil` : a hand of 13 cards or more has an arrangement, although a first life that
  takes all of it is passed over;
* `defaultDeclare_optimal` : no legal arrangement leaves less than the result.
-/

namespace SparkFrame.Cards

open PokerCard SparkFrame.Lib

/-! ## Into the loops -/

section Into

variable {jp : Int} {hand cards1 cards2 : List PokerCard} {f s g : CardGroup} {c : CombinationInfo}

theorem mem_arrangements_of_firstLife (hf : f ∈ firstLives jp hand)
    (hc : c ∈ arrangeFistlife jp hand f) : c ∈ arrangements jp hand := by
  unfold arrangements
  rw [if_neg (List.ne_nil_of_mem hf)]
  exact List.mem_flatMap.mpr ⟨f, hf, hc⟩

theorem mem_arrangeFistlife_of_second (h : Playable hand) (hne : removeCards f hand ≠ [])
    (hs : s ∈ straights jp hand) (hsub : s.cards.Subperm (removeCards f hand))
    (hc : c ∈ arrangeSecondlife jp f (removeCards f hand) s) : c ∈ arrangeFistlife jp hand f := by
  have hmem : s ∈ removeCardGroup (removeCards f hand) (straights jp hand) :=
    (h.mem_kept (removeCards_subperm f hand) (h.straights_subperm hs).2).mpr ⟨hs, hsub⟩
  unfold arrangeFistlife
  rw [if_neg hne, if_neg (List.ne_nil_of_mem hmem)]
  exact List.mem_flatMap.mpr ⟨s, hmem, hc⟩

theorem mem_arrangeSecondlife_of_meld (hne : removeCards s cards1 ≠ [])
    (hg : g ∈ melds jp (removeCards s cards1))
    (hc : c ∈ arrangeSecond jp f s (removeCards s cards1) g) :
    c ∈ arrangeSecondlife jp f cards1 s := by
  unfold arrangeSecondlife
  rw [if_neg (not_or.mpr ⟨hne, List.ne_nil_of_mem hg⟩)]
  exact List.mem_flatMap.mpr ⟨g, hg, hc⟩

theorem mem_arrangeSecond_of_fourth (h : Playable cards2) {k : CardGroup}
    (hne : removeCards g cards2 ≠ []) (hk : k ∈ melds jp cards2)
    (hsub : k.cards.Subperm (removeCards g cards2)) :
    comb jp true [f, s, g, k] (removeCards k (removeCards g cards2)) ∈
      arrangeSecond jp f s cards2 g := by
  have hmem := (mem_fourth h).mpr ⟨hk, hsub⟩
  unfold arrangeSecond
  rw [if_neg (not_or.mpr ⟨hne, List.ne_nil_of_mem hmem⟩)]
  exact List.mem_flatMap.mpr ⟨k, hmem, List.mem_singleton_self _⟩

/-- Whatever the third and fourth melds, nothing is left over that the third one does not leave. -/
theorem exists_arrangeSecond (jp : Int) (f s : CardGroup) (cards2 : List PokerCard) (g : CardGroup) :
    ∃ groups left, comb jp true groups left ∈ arrangeSecond jp f s cards2 g ∧
      left.Subperm (removeCards g cards2) := by
  have hne : arrangeSecond jp f s cards2 g ≠ [] := arrangeSecond_ne_nil g
  obtain ⟨c, rest, hc⟩ := List.exists_cons_of_ne_nil hne
  have hmem : c ∈ arrangeSecond jp f s cards2 g := hc ▸ List.mem_cons_self
  rcases mem_arrangeSecond hmem with rfl | ⟨k, -, rfl⟩
  · exact ⟨_, _, hmem, List.Subperm.refl _⟩
  · exact ⟨_, _, hmem, removeCards_subperm k _⟩

theorem exists_arrangeSecondlife (jp : Int) (f : CardGroup) (cards1 : List PokerCard)
    (s : CardGroup) :
    ∃ groups left, comb jp true groups left ∈ arrangeSecondlife jp f cards1 s ∧
      left.Subperm (removeCards s cards1) := by
  by_cases h2 : removeCards s cards1 = [] ∨ melds jp (removeCards s cards1) = []
  · unfold arrangeSecondlife
    rw [if_pos h2]
    exact ⟨_, _, List.mem_singleton_self _, List.Subperm.refl _⟩
  · rw [not_or] at h2
    obtain ⟨g, rest, hg⟩ := List.exists_cons_of_ne_nil h2.2
    have hmem : g ∈ melds jp (removeCards s cards1) := hg ▸ List.mem_cons_self
    obtain ⟨groups, left, hc, hsub⟩ := exists_arrangeSecond jp f s (removeCards s cards1) g
    exact ⟨groups, left, mem_arrangeSecondlife_of_meld h2.1 hmem hc,
      hsub.trans (removeCards_subperm g _)⟩

theorem exists_of_firstLife (hf : f ∈ firstLives jp hand) (hne : removeCards f hand ≠ []) :
    ∃ c ∈ arrangements jp hand, c.score ≤ cardScore (removeCards f hand) jp := by
  have hex : ∃ c ∈ arrangeFistlife jp hand f, c.score ≤ cardScore (removeCards f hand) jp := by
    unfold arrangeFistlife
    rw [if_neg hne]
    by_cases hsec : removeCardGroup (removeCards f hand) (straights jp hand) = []
    · rw [if_pos hsec]
      exact ⟨_, List.mem_singleton_self _, le_refl _⟩
    · rw [if_neg hsec]
      obtain ⟨s, rest, hs⟩ := List.exists_cons_of_ne_nil hsec
      obtain ⟨groups, left, hc, hsub⟩ := exists_arrangeSecondlife jp f (removeCards f hand) s
      refine ⟨_, List.mem_flatMap.mpr ⟨s, hs ▸ List.mem_cons_self, hc⟩, ?_⟩
      exact cardScore_le_of_subperm (hsub.trans (removeCards_subperm s _)) jp
  obtain ⟨c, hc, hle⟩ := hex
  exact ⟨c, mem_arrangements_of_firstLife hf hc, hle⟩

/-- Taking a meld out of a hand that is the meld and more leaves the more. -/
theorem removeCards_perm_rest {T rest : List PokerCard} (hg : g.cards.Perm T)
    (hand_eq : hand.Perm (T ++ rest)) : (removeCards g hand).Perm rest := by
  have hsub : g.cards.Subperm hand :=
    (hg.subperm.trans (List.sublist_append_left T rest).subperm).trans hand_eq.symm.subperm
  have hall := (removeCards_perm hsub).trans (hand_eq.trans (hg.symm.append_right rest))
  exact (List.perm_append_left_iff g.cards).mp hall

theorem ne_nil_of_perm_append {l T rest : List PokerCard} (h : l.Perm (T ++ rest)) (hT : T ≠ []) :
    l ≠ [] := by
  rintro rfl
  exact hT (List.append_eq_nil_iff.mp h.nil_eq.symm).1

end Into

/-! ## Legal arrangements are met -/

section Meets

variable {jp : Int} {hand P S left : List PokerCard}

theorem subperm_of_perm_append {T rest cards : List PokerCard} (h : cards.Perm (T ++ rest)) :
    T.Subperm cards := (List.sublist_append_left T rest).subperm.trans h.symm.subperm

/-- **A first life, a straight and at most two melds that the search finds** are arranged so that no
more is left over than they leave. -/
theorem exists_comb (h : Playable hand) {f s : CardGroup} (hs : s ∈ straights jp hand)
    (hS : s.cards ≠ []) (rest : List (List PokerCard)) (h2 : rest.length ≤ 2)
    (hrest : ∀ T ∈ rest, T ≠ [] ∧
      ∃ g ∈ melds jp (removeCards s (removeCards f hand)), g.cards.Perm T)
    (hand_eq : hand.Perm (f.cards ++ (s.cards ++ (rest.flatten ++ left)))) :
    ∃ groups left', comb jp true groups left' ∈ arrangeFistlife jp hand f ∧ left'.Subperm left := by
  have hcards1 := removeCards_perm_rest (List.Perm.refl f.cards) hand_eq
  have hne1 := ne_nil_of_perm_append hcards1 hS
  have hcards2 := removeCards_perm_rest (List.Perm.refl s.cards) hcards1
  have hinto : ∀ {c}, c ∈ arrangeSecondlife jp f (removeCards f hand) s → c ∈ arrangeFistlife jp hand f :=
    fun hc => mem_arrangeFistlife_of_second h hne1 hs (subperm_of_perm_append hcards1) hc
  match rest with
  | [] =>
    obtain ⟨groups, left', hc, hsub⟩ := exists_arrangeSecondlife jp f (removeCards f hand) s
    exact ⟨groups, left', hinto hc, hsub.trans hcards2.subperm⟩
  | X :: rest' =>
    obtain ⟨hX, g, hg, hgX⟩ := hrest X List.mem_cons_self
    rw [List.flatten_cons, List.append_assoc] at hcards2
    have hne2 := ne_nil_of_perm_append hcards2 hX
    have hcards3 := removeCards_perm_rest hgX hcards2
    match rest' with
    | [] =>
      obtain ⟨groups, left', hc, hsub⟩ :=
        exists_arrangeSecond jp f s (removeCards s (removeCards f hand)) g
      exact ⟨groups, left', hinto (mem_arrangeSecondlife_of_meld hne2 hg hc),
        hsub.trans hcards3.subperm⟩
    | Y :: rest'' =>
      obtain ⟨hY, k, hk, hkY⟩ := hrest Y (by simp)
      obtain rfl : rest'' = [] := by simpa using h2
      rw [List.flatten_cons, List.append_assoc] at hcards3
      have hne3 := ne_nil_of_perm_append hcards3 hY
      have hYsub := subperm_of_perm_append hcards3
      have hcards4 := removeCards_perm_rest hkY hcards3
      exact ⟨_, _, hinto (mem_arrangeSecondlife_of_meld hne2 hg (mem_arrangeSecond_of_fourth
        ((h.remove f).remove s) hne3 hk (hkY.subperm.trans hYsub))), hcards4.subperm⟩

/-- **A pure straight, a straight and at most two melds** are arranged at no more than the cost of
what they leave. -/
theorem exists_arrangement (hd : Dealt hand) (hP : IsPure P) (hS : IsStraight jp S)
    (rest : List (List PokerCard)) (hrest : ∀ T ∈ rest, IsMeld jp T) (h2 : rest.length ≤ 2)
    (hand_eq : hand.Perm (P ++ (S ++ (rest.flatten ++ left)))) :
    ∃ c ∈ arrangements jp hand, c.score ≤ cardScore left jp := by
  obtain ⟨f, hf, hfP⟩ := hd.exists_firstLife hP (subperm_of_perm_append hand_eq) jp
  have hcards1 := removeCards_perm_rest hfP hand_eq
  have hSsub := subperm_of_perm_append hcards1
  obtain ⟨s, hs, hsS⟩ := hd.exists_straight hS (hSsub.trans (removeCards_subperm f hand))
  have hcards2 := removeCards_perm_rest hsS hcards1
  have hsne : s.cards ≠ [] := by
    apply List.ne_nil_of_length_pos
    rw [hsS.length_eq]
    exact lt_of_lt_of_le (by decide) hS.three
  have hmelds : ∀ T ∈ rest, T ≠ [] ∧
      ∃ g ∈ melds jp (removeCards s (removeCards f hand)), g.cards.Perm T := by
    intro T hT
    refine ⟨List.ne_nil_of_length_pos (lt_of_lt_of_le (by decide) (hrest T hT).three), ?_⟩
    apply ((hd.remove f).remove s).exists_meld (hrest T hT)
    exact (List.sublist_flatten_of_mem hT).subperm.trans (subperm_of_perm_append hcards2)
  have hall : hand.Perm (f.cards ++ (s.cards ++ (rest.flatten ++ left))) :=
    hand_eq.trans (hfP.symm.append (hsS.symm.append_right _))
  obtain ⟨groups, left', hc, hsub⟩ := exists_comb hd.playable hs hsne rest h2 hmelds hall
  exact ⟨_, mem_arrangements_of_firstLife hf hc, cardScore_le_of_subperm hsub jp⟩

theorem gapSum_le_zero_of_thirteen {cards : List PokerCard} (hlen : 13 ≤ cards.length)
    (hpoints : ∀ c ∈ cards, 2 ≤ c.point ∧ c.point ≤ 14) : gapSum (points cards) ≤ 0 := by
  rcases cards with _ | ⟨a, l⟩
  · simp [points]
  · have hlast := hpoints _ (List.getLast_mem (List.cons_ne_nil a l))
    have hfirst := hpoints a List.mem_cons_self
    have heq := gapSum_eq_last_sub_head a.point (points l)
    have hgl : (a.point :: points l).getLast (List.cons_ne_nil _ _) =
        ((a :: l).getLast (List.cons_ne_nil a l)).point :=
      List.getLast_map (f := point) (l := a :: l) (h := List.cons_ne_nil _ _)
    rw [List.length_cons] at hlen
    rw [hgl] at heq
    show gapSum (a.point :: points l) ≤ 0
    rw [heq]
    unfold points
    rw [List.length_map]
    omega

theorem exists_split (hv : ∀ c ∈ hand, c.isValidCard = true) (h : IsPure hand)
    (hlen : 13 ≤ hand.length) :
    ∃ P S, IsPure P ∧ IsPure S ∧ hand.Perm (P ++ S) := by
  have hpoints : ∀ c ∈ sortCards hand, 2 ≤ c.point ∧ c.point ≤ 14 := by
    intro c hc
    exact h.point_bounds hv c (mem_sortCards.mp hc)
  have hr := h.suit.rising_sort
  have hperm := sortCards_perm hand
  have hsplit := List.take_append_drop 3 (sortCards hand)
  have hgap : gapSum (points (sortCards hand)) ≤ 0 :=
    gapSum_le_zero_of_thirteen (by rw [length_sortCards]; exact hlen) hpoints
  have hsum : gapSum (points ((sortCards hand).take 3)) +
      gapSum (points ((sortCards hand).drop 3)) ≤ 0 := by
    refine le_trans (gapSum_append_le ?_) ?_
    · unfold points
      rw [← List.map_append, hsplit]
      exact hr.points_lt
    · unfold points
      rw [← List.map_append, hsplit]
      exact hgap
  have hpart : ∀ {l : List PokerCard}, l.Sublist (sortCards hand) → 3 ≤ l.length →
      gapSum (points l) ≤ 0 → IsPure l := by
    intro l hl h3 hg
    have hrl := hr.sublist hl
    have hpl : ∀ c ∈ l, 2 ≤ c.point ∧ c.point ≤ 14 := fun c hc => hpoints c (hl.subset hc)
    refine ⟨h3, (h.suit.perm hperm).sublist hl, fun c hc => (hpl c hc).2, ?_⟩
    exact ((fits_iff_filled hrl hpl).mp ⟨h3, Or.inl hg⟩).2
  have hnn : ∀ {l : List PokerCard}, l.Sublist (sortCards hand) → 0 ≤ gapSum (points l) :=
    fun hl => (hr.sublist hl).gapSum_nonneg
  have htake := List.take_sublist 3 (sortCards hand)
  have hdrop := List.drop_sublist 3 (sortCards hand)
  have h1 := hnn htake
  have h2 := hnn hdrop
  refine ⟨(sortCards hand).take 3, (sortCards hand).drop 3, hpart htake ?_ (by omega),
    hpart hdrop ?_ (by omega), ?_⟩
  · rw [List.length_take, length_sortCards]
    omega
  · rw [List.length_drop, length_sortCards]
    omega
  · rw [hsplit]
    exact hperm.symm

end Meets

/-! ## There is an arrangement -/

section Exists

variable {jp : Int} {hand : List PokerCard}

theorem exists_plain_of_pure (jp : Int) {l : List PokerCard} (hl : isCardsPureStraight l = true) :
    ∃ d ∈ l, isJoker d jp = false := by
  by_contra hno
  have hwild : ∀ d ∈ l, isJoker d jp = true := fun d hd => by
    by_contra hj
    exact hno ⟨d, hd, Bool.eq_false_iff.mpr hj⟩
  rw [isCardsPureStraight_of_wild hwild] at hl
  cases hl

theorem exists_triple_of_pure {l : List PokerCard} (hl : isCardsPureStraight l = true) :
    ∃ a b c, [a, b, c].Sublist l ∧ isCardsPureStraight [a, b, c] = true := by
  rcases l with _ | ⟨a, _ | ⟨b, _ | ⟨c, rest⟩⟩⟩
  case cons.cons.cons =>
    exact ⟨a, b, c, List.sublist_append_left [a, b, c] rest,
      pureLoop_append (l := [b, c]) (m := rest) hl⟩
  all_goals cases hl

/-- **Three of the cards of a first life make one as well.** -/
theorem exists_small_firstLife (hd : Dealt hand) {f : CardGroup} (hf : f ∈ firstLives jp hand) :
    ∃ f' ∈ firstLives jp hand, f'.cards.length = 3 := by
  obtain ⟨hst, hpure⟩ := mem_straights_of_firstLife hf
  obtain ⟨H, J, hrun, hperm, hsorted⟩ := straights_sound hd.playable.valid hd.count_le hst
  have hfsub := (hd.playable.straights_subperm hst).2
  have hsorted : f.cards.Pairwise PokerCard.le := by
    refine hsorted.resolve_right fun hH => ?_
    obtain ⟨d, hd', hj⟩ := exists_plain_of_pure jp hpure
    rw [hperm.mem_iff, hH] at hd'
    exact absurd (hrun.wild d hd') (by rw [hj]; exact Bool.false_ne_true)
  obtain ⟨a, b, c, hsub, htriple⟩ := exists_triple_of_pure hpure
  have hsort3 := List.Pairwise.sublist hsub hsorted
  have hv : ∀ d ∈ [a, b, c], d.isValidCard = true :=
    fun d hd' => hd.playable.valid d (hfsub.subset (hsub.subset hd'))
  have hrise : Rising (plain jp [a, b, c]) := by
    have hH : plain jp f.cards = H :=
      plain_eq_of_sorted hsorted hperm hrun.rising hrun.plain hrun.wild
    have hs : (plain jp [a, b, c]).Sublist (plain jp f.cards) := hsub.filter _
    rw [hH] at hs
    exact hrun.rising.sublist hs
  have hrun3 : IsRun jp (plain jp [a, b, c]) (wild jp [a, b, c]) :=
    ⟨hrise, fun d hd' => (mem_plain.mp hd').2, fun d hd' => (mem_wild.mp hd').2,
      fits_of_pure hsort3 hv hrise htriple⟩
  have hperm3 : (plain jp [a, b, c] ++ wild jp [a, b, c]).Perm [a, b, c] :=
    List.perm_append_comm.trans (wild_append_plain_perm jp [a, b, c])
  obtain ⟨g, hg, -, hgc⟩ := straights_complete hd.playable.valid hrun3
    (hperm3.subperm.trans (hsub.subperm.trans hfsub))
  have hg3 := hgc.trans hperm3
  refine ⟨g, hd.mem_firstLives hg ?_ ?_, hg3.length_eq⟩
  · obtain ⟨d, hd', hj⟩ := exists_plain_of_pure jp htriple
    exact ⟨d, hg3.mem_iff.mpr hd', hj⟩
  · rw [sortCards_eq_of_perm hg3, sortCards_eq_self hsort3]
    exact htriple

theorem arrangements_ne_nil (jp : Int) (hd : Dealt hand) (hlen : 4 ≤ hand.length) : arrangements jp hand ≠ [] := by
  rcases hfl : firstLives jp hand with _ | ⟨f, rest⟩
  · unfold arrangements
    rw [if_pos hfl]
    exact List.cons_ne_nil _ _
  · have hf : f ∈ firstLives jp hand := hfl ▸ List.mem_cons_self
    obtain ⟨f', hf', h3⟩ := exists_small_firstLife hd hf
    have hsub := (hd.playable.straights_subperm (mem_straights_of_firstLife hf').1).2
    have hne : removeCards f' hand ≠ [] := by
      intro hnil
      have hl := (removeCards_perm hsub).length_eq
      rw [hnil, List.append_nil] at hl
      omega
    obtain ⟨c, hc, -⟩ := exists_of_firstLife hf' hne
    exact List.ne_nil_of_mem hc

end Exists

/-! ## The result -/

section Result

variable {jp : Int} {hand : List PokerCard}

/-- The result costs no more than any arrangement of the search, cut off or not. -/
theorem defaultDeclare_le {self : Combination} (h : Playable hand) {score : Nat}
    {groups : List CardGroup} (hres : (self.defaultDeclare hand jp).2 = some (score, groups))
    {c : CombinationInfo} (hc : c ∈ arrangements jp hand) : score ≤ c.score := by
  rcases hfull : firstFull jp hand with _ | c'
  · obtain ⟨c', hpick, rfl, -⟩ := defaultDeclare_picks hres
    rw [pushed_eq_arrangements hfull] at hpick
    rcases hpick with ⟨-, h0⟩ | hmin
    · rw [h0]
      exact Nat.zero_le _
    · exact hmin.le c hc
  · rw [(defaultDeclare_of_firstFull self h hfull).1, Option.some.injEq, Prod.mk.injEq] at hres
    rw [← hres.1]
    exact Nat.zero_le _

variable {runs sets : List (List PokerCard)} {left : List PokerCard}

theorem Legal.sets_eq_nil (h : Legal jp hand runs sets left) (hlen : runs.length < 2) :
    sets = [] := by
  by_contra hne
  have h2 := h.lives hne
  omega

theorem three_mul_le_of_melds {l : List (List PokerCard)} (h : ∀ T ∈ l, 3 ≤ T.length) :
    3 * l.length ≤ l.flatten.length := by
  induction l with
  | nil => simp
  | cons T l ih =>
    have h3 := h T List.mem_cons_self
    have hl := ih fun T' hT' => h T' (List.mem_cons_of_mem _ hT')
    rw [List.flatten_cons, List.length_append, List.length_cons]
    omega

theorem exists_arrangement_of_no_run (hd : Dealt hand) (hlen : 13 ≤ hand.length)
    (h : Legal jp hand [] sets left) : ∃ c ∈ arrangements jp hand, c.score ≤ cardScore left jp := by
  have hleft : left.Perm hand := by
    have hpart := h.partition
    rw [h.sets_eq_nil (by simp)] at hpart
    exact hpart
  obtain ⟨c, hmem⟩ := List.exists_mem_of_ne_nil _ (arrangements_ne_nil jp hd (by omega))
  have harr := arrangement_of_mem hd.playable hmem
  refine ⟨c, hmem, ?_⟩
  rw [harr.score_eq, cardScore_perm hleft]
  exact cardScore_le_of_subperm harr.validCards_subperm jp

theorem exists_arrangement_of_one_run (hd : Dealt hand) (hlen : 13 ≤ hand.length)
    {P : List PokerCard} (hP : IsPure P) (hflat : hand.Perm (P ++ left)) :
    ∃ c ∈ arrangements jp hand, c.score ≤ cardScore left jp := by
  obtain ⟨f, hf, hfP⟩ := hd.exists_firstLife hP (subperm_of_perm_append hflat) jp
  have hcards1 := removeCards_perm_rest hfP hflat
  by_cases hleft : left = []
  · -- the whole hand is one pure straight, which the search passes over
    rw [hleft, List.append_nil] at hflat
    have hv : ∀ c ∈ P, c.isValidCard = true :=
      fun c hc => hd.playable.valid c (hflat.symm.subset hc)
    obtain ⟨P', S, hP', hS, hsplit⟩ := exists_split hv hP (hflat.length_eq ▸ hlen)
    refine exists_arrangement hd hP' (hS.isStraight jp) [] (by simp) (by simp) ?_
    rw [hleft]
    simpa using hflat.trans hsplit
  · have hne : removeCards f hand ≠ [] := by
      intro hnil
      rw [hnil] at hcards1
      exact hleft hcards1.symm.eq_nil
    obtain ⟨c, hc, hle⟩ := exists_of_firstLife hf hne
    exact ⟨c, hc, hle.trans (cardScore_perm hcards1 jp).le⟩

/-- A pure straight, a second straight and the other melds, of which the hand holds at most two. -/
theorem exists_arrangement_of_runs (hd : Dealt hand) {P S : List PokerCard} (hP : IsPure P)
    (hS : IsStraight jp S) {melds : List (List PokerCard)} (hmelds : ∀ T ∈ melds, IsMeld jp T)
    (hflat : hand.Perm (P ++ (S ++ (melds.flatten ++ left)))) :
    ∃ c ∈ arrangements jp hand, c.score ≤ cardScore left jp := by
  refine exists_arrangement hd hP hS melds hmelds ?_ hflat
  have hlen := hflat.length_eq
  have hmax := hd.length_le
  have hP3 := hP.three
  have hS3 := hS.three
  have hcount := three_mul_le_of_melds fun T hT => (hmelds T hT).three
  simp only [List.length_append, MAX_CARD_COUNT] at hlen hmax hcount ⊢
  omega

theorem exists_arrangement_of_legal (hd : Dealt hand) (hlen : 13 ≤ hand.length)
    (h : Legal jp hand runs sets left) :
    ∃ c ∈ arrangements jp hand, c.score ≤ cardScore left jp := by
  by_cases hruns : runs = []
  · subst hruns
    exact exists_arrangement_of_no_run hd hlen h
  · obtain ⟨P, hPmem, hP⟩ := h.pure (Or.inl hruns)
    have hperm := List.perm_cons_erase hPmem
    have hflat : hand.Perm (P ++ ((runs.erase P).flatten ++ (sets.flatten ++ left))) := by
      refine h.partition.symm.trans ?_
      rw [← List.append_assoc P, ← List.flatten_cons]
      exact hperm.flatten.append_right _
    have hstr : ∀ T ∈ runs.erase P, IsStraight jp T :=
      fun T hT => h.straight T (List.mem_of_mem_erase hT)
    have hcount := hperm.length_eq
    rcases hrest : runs.erase P with _ | ⟨S, rest⟩
    · rw [hrest] at hflat hcount
      rw [h.sets_eq_nil (by rw [hcount]; simp)] at hflat
      exact exists_arrangement_of_one_run hd hlen hP hflat
    · rw [hrest] at hflat hstr
      have hmelds : ∀ T ∈ rest ++ sets, IsMeld jp T := by
        intro T hT
        rcases List.mem_append.mp hT with hT | hT
        · exact Or.inl (hstr T (List.mem_cons_of_mem _ hT))
        · exact Or.inr (h.set T hT)
      refine exists_arrangement_of_runs hd hP (hstr S List.mem_cons_self) hmelds ?_
      rw [List.flatten_cons, List.append_assoc] at hflat
      rw [List.flatten_append, List.append_assoc]
      exact hflat

end Result

/-- **The result of `default_declare` leaves no more than any legal arrangement of the hand.** -/
theorem defaultDeclare_optimal (self : Combination) (hand : List PokerCard) (jp : Int)
    (hlen : hand.length = 13 ∨ hand.length = 14) (hpack : hand.Subperm twoDeck) :
    ∃ score groups, (self.defaultDeclare hand jp).2 = some (score, groups) ∧
      ∀ runs sets left, Legal jp hand runs sets left → score ≤ cardScore left jp := by
  have hd : Dealt hand := ⟨by simp only [MAX_CARD_COUNT]; omega, hpack⟩
  have h13 : 13 ≤ hand.length := by omega
  obtain ⟨⟨score, groups⟩, hres⟩ := defaultDeclare_isSome self
    (arrangements_ne_nil jp hd (by omega))
  refine ⟨score, groups, hres, ?_⟩
  intro runs sets left hlegal
  obtain ⟨c, hc, hle⟩ := exists_arrangement_of_legal hd h13 hlegal
  exact (defaultDeclare_le hd.playable hres hc).trans hle

/-- All thirteen spades, which the search must not take as one first life. -/
theorem defaultDeclare_optimal_spades :
    ∃ score groups, (Combination.defaultDeclare {}
        [⟨1, 2⟩, ⟨1, 3⟩, ⟨1, 4⟩, ⟨1, 5⟩, ⟨1, 6⟩, ⟨1, 7⟩, ⟨1, 8⟩, ⟨1, 9⟩, ⟨1, 10⟩, ⟨1, 11⟩, ⟨1, 12⟩,
          ⟨1, 13⟩, ⟨1, 14⟩] 0).2 = some (score, groups) ∧
      ∀ runs sets left, Legal 0
        [⟨1, 2⟩, ⟨1, 3⟩, ⟨1, 4⟩, ⟨1, 5⟩, ⟨1, 6⟩, ⟨1, 7⟩, ⟨1, 8⟩, ⟨1, 9⟩, ⟨1, 10⟩, ⟨1, 11⟩, ⟨1, 12⟩,
          ⟨1, 13⟩, ⟨1, 14⟩] runs sets left → score ≤ cardScore left 0 :=
  defaultDeclare_optimal {} _ 0 (Or.inl rfl) (List.subperm_ext_iff.mpr (by decide +kernel))

end SparkFrame.Cards
