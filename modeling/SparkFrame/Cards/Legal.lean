import SparkFrame.Cards.Verdict

/-!
# Legal arrangements

The rules of the game, on the cards of a meld as a collection.

* `IsStraight`, `IsPure`, `IsSet` : the three melds; `Legal` : a hand laid out by the rules;
* `fits_iff_filled` : the gap sums of the code count the missing ranks;
* `exists_isRun`, `exists_firstLife`, `exists_meld` : a meld in the hand is found by the searches.
-/

namespace SparkFrame.Cards

open PokerCard SparkFrame.Lib

/-! ## The rules -/

/-- The rank of a card with the ace above the king. -/
def aceHigh (c : PokerCard) : ℕ := c.point

/-- The rank of a card with the ace below the two. -/
def aceLow (c : PokerCard) : ℕ := if c.point = A then 1 else c.point

/-- The ranks missing between the cards. -/
def gaps (rank : PokerCard → ℕ) (cards : List PokerCard) : Finset ℕ :=
  missing (cards.map rank).toFinset

/-- `k` cards fill the gaps, the ace high or low. -/
def Filled (cards : List PokerCard) (k : ℕ) : Prop :=
  (gaps aceHigh cards).card ≤ k ∨ (gaps aceLow cards).card ≤ k

/-- Cards of one suit and distinct ranks. -/
structure OneSuit (cards : List PokerCard) : Prop where
  color : ∀ a ∈ cards, ∀ b ∈ cards, a.color = b.color
  nodup : (points cards).Nodup

/-- A straight: the jokers fill the gaps of the other cards. -/
structure IsStraight (jp : Int) (T : List PokerCard) : Prop where
  three : 3 ≤ T.length
  suit : OneSuit (plain jp T)
  filled : Filled (plain jp T) (wild jp T).length

/-- A pure straight: every card, wild or not, at face value. -/
structure IsPure (T : List PokerCard) : Prop where
  three : 3 ≤ T.length
  suit : OneSuit T
  faces : ∀ c ∈ T, c.point ≤ A
  consecutive : Filled T 0

structure IsSet (jp : Int) (T : List PokerCard) : Prop where
  three : 3 ≤ T.length
  four : T.length ≤ 4
  two : 2 ≤ (plain jp T).length
  oneRank : OneRank (plain jp T)

/-- A hand laid out as straights, sets and cards left over. -/
structure Legal (jp : Int) (hand : List PokerCard) (runs sets : List (List PokerCard))
    (left : List PokerCard) : Prop where
  partition : (runs.flatten ++ (sets.flatten ++ left)).Perm hand
  straight : ∀ T ∈ runs, IsStraight jp T
  set : ∀ T ∈ sets, IsSet jp T
  pure : runs ≠ [] ∨ sets ≠ [] → ∃ T ∈ runs, IsPure T
  lives : sets ≠ [] → 2 ≤ runs.length

/-! ## Straights -/

theorem OneSuit.sublist {l cards : List PokerCard} (h : OneSuit cards) (hs : l.Sublist cards) :
    OneSuit l :=
  ⟨fun a ha b hb => h.color a (hs.subset ha) b (hs.subset hb), h.nodup.sublist (hs.map point)⟩

theorem OneSuit.perm {l cards : List PokerCard} (h : OneSuit cards) (hp : l.Perm cards) :
    OneSuit l :=
  ⟨fun a ha b hb => h.color a (hp.subset ha) b (hp.subset hb),
    ((hp.map point).nodup_iff).mpr h.nodup⟩

theorem gaps_perm (rank : PokerCard → ℕ) {l m : List PokerCard} (h : l.Perm m) :
    gaps rank l = gaps rank m := by
  unfold gaps
  rw [List.toFinset_eq_of_perm _ _ (h.map rank)]

theorem Filled.perm {l m : List PokerCard} {k : ℕ} (h : Filled l k) (hp : l.Perm m) :
    Filled m k := by
  unfold Filled at h ⊢
  rwa [← gaps_perm aceHigh hp, ← gaps_perm aceLow hp]

theorem OneSuit.rising_sort {cards : List PokerCard} (h : OneSuit cards) :
    Rising (sortCards cards) := by
  have hnodup : (sortCards cards).Pairwise fun a b => a.point ≠ b.point :=
    List.pairwise_map.mp (h.perm (sortCards_perm cards)).nodup
  refine ((sortCards_sorted cards).and hnodup).imp_of_mem fun ha hb hab => ?_
  refine ⟨h.color _ (mem_sortCards.mp ha) _ (mem_sortCards.mp hb), ?_⟩
  rcases hab.1 with hlt | ⟨heq, -⟩
  · exact hlt
  · exact absurd heq hab.2

theorem gaps_aceHigh {H : List PokerCard} (h : Rising H) :
    ((gaps aceHigh H).card : ℤ) = gapSum (points H) := card_missing h.points_lt

theorem gaps_aceLow_concat {init : List PokerCard} {a : PokerCard} (h : Rising (init ++ [a]))
    (hv : ∀ c ∈ init ++ [a], 2 ≤ c.point ∧ c.point ≤ 14) (ha : a.point = A) :
    ((gaps aceLow (init ++ [a])).card : ℤ) = gapSum (1 :: points init) := by
  have hinit : init.map aceLow = points init := by
    refine List.map_congr_left fun c hc => if_neg ?_
    have hlt := ((List.pairwise_append.mp h).2.2 c hc a (List.mem_singleton_self a)).2
    omega
  have hset : ((init ++ [a]).map aceLow).toFinset = (1 :: points init).toFinset := by
    rw [List.map_append, hinit, List.map_singleton, aceLow, if_pos ha]
    exact List.toFinset_eq_of_perm _ _ List.perm_append_comm
  have hsorted : (1 :: points init).Pairwise (· < ·) := by
    refine List.pairwise_cons.mpr ⟨fun p hp => ?_, (h.sublist (List.sublist_append_left _ _)).points_lt⟩
    obtain ⟨c, hc, rfl⟩ := List.mem_map.mp hp
    exact (hv c (List.mem_append_left _ hc)).1
  unfold gaps
  rw [hset, card_missing hsorted]

theorem gaps_aceLow_of_no_ace {cards : List PokerCard} (h : ∀ c ∈ cards, c.point ≠ A) :
    gaps aceLow cards = gaps aceHigh cards := by
  unfold gaps
  rw [List.map_congr_left fun c hc => show aceLow c = aceHigh c from if_neg (h c hc)]

/-- **The code's gap sums count the missing ranks.** -/
theorem fits_iff_filled {H : List PokerCard} {k : ℕ} (h : Rising H)
    (hv : ∀ c ∈ H, 2 ≤ c.point ∧ c.point ≤ 14) : Fits H k ↔ 3 ≤ H.length + k ∧ Filled H k := by
  unfold Fits Filled
  refine and_congr_right fun _ => ?_
  have hhigh : (gaps aceHigh H).card ≤ k ↔ gapSum (points H) ≤ k := by
    rw [← gaps_aceHigh h, Nat.cast_le]
  rw [hhigh]
  rcases List.eq_nil_or_concat H with rfl | ⟨init, a, rfl⟩
  · simp [gaps, points, missing]
  · rw [List.concat_eq_append] at h hv hhigh ⊢
    rw [List.getLast?_concat, List.dropLast_concat, Option.map_some, Option.some_inj]
    by_cases ha : a.point = A
    · rw [← gaps_aceLow_concat h hv ha, Nat.cast_le]
      simp only [ha, true_and]
    · have hno : ∀ c ∈ init ++ [a], c.point ≠ A := by
        intro c hc
        rcases List.mem_append.mp hc with hc' | hc'
        · exact h.point_ne_ace (fun d hd => (hv d hd).2) c (by rwa [List.dropLast_concat])
        · rwa [List.mem_singleton.mp hc']
      rw [gaps_aceLow_of_no_ace hno, hhigh]
      simp only [ha, false_and, or_false, or_self]

section Melds

variable {jp : Int} {hand T : List PokerCard}

theorem exists_isRun (hv : ∀ c ∈ T, c.isValidCard = true) (h : IsStraight jp T) :
    ∃ H J, IsRun jp H J ∧ T.Perm (H ++ J) := by
  have hperm := sortCards_perm (plain jp T)
  have hplain : ∀ c ∈ sortCards (plain jp T), c ∈ T ∧ isJoker c jp = false :=
    fun c hc => mem_plain.mp (mem_sortCards.mp hc)
  refine ⟨sortCards (plain jp T), wild jp T,
    ⟨h.suit.rising_sort, fun c hc => (hplain c hc).2, fun c hc => (mem_wild.mp hc).2, ?_⟩, ?_⟩
  · rw [fits_iff_filled h.suit.rising_sort]
    · have hlen := length_wild_add_length_plain jp T
      have h3 := h.three
      refine ⟨?_, h.filled.perm hperm.symm⟩
      rw [length_sortCards]
      omega
    · intro c hc
      have hp := point_of_not_isJoker (hv c (hplain c hc).1) (hplain c hc).2
      exact ⟨hp.1, hp.2.1⟩
  · exact (wild_append_plain_perm jp T).symm.trans
      (List.perm_append_comm.trans (hperm.symm.append_right _))

/-- The non-jokers of a pure straight miss only ranks its jokers have. -/
theorem IsPure.isStraight (h : IsPure T) (jp : Int) : IsStraight jp T := by
  have hsub : (plain jp T).Sublist T := List.filter_sublist
  refine ⟨h.three, h.suit.sublist hsub, ?_⟩
  have hgap : ∀ rank : PokerCard → ℕ, (gaps rank T).card ≤ 0 →
      (gaps rank (plain jp T)).card ≤ (wild jp T).length := by
    intro rank h0
    have hempty : gaps rank T = ∅ := Finset.card_eq_zero.mp (Nat.le_zero.mp h0)
    have hsubset : gaps rank (plain jp T) ⊆ ((wild jp T).map rank).toFinset := by
      intro x hx
      have hranks : ((plain jp T).map rank).toFinset ⊆ (T.map rank).toFinset := by
        intro y hy
        rw [List.mem_toFinset] at hy ⊢
        exact (hsub.map rank).subset hy
      have hx' := Finset.mem_sdiff.mp (missing_subset_sdiff hranks hempty hx)
      rw [List.mem_toFinset, List.mem_toFinset] at hx'
      obtain ⟨c, hc, rfl⟩ := List.mem_map.mp hx'.1
      rw [List.mem_toFinset]
      refine List.mem_map_of_mem (mem_wild.mpr ⟨hc, ?_⟩)
      by_contra hj
      exact hx'.2 (List.mem_map_of_mem (mem_plain.mpr ⟨hc, Bool.eq_false_iff.mpr hj⟩))
    refine (Finset.card_le_card hsubset).trans ?_
    exact (List.toFinset_card_le _).trans (List.length_map _).le
  exact h.consecutive.imp (hgap aceHigh) (hgap aceLow)

theorem IsPure.point_bounds (hv : ∀ c ∈ T, c.isValidCard = true) (h : IsPure T) :
    ∀ c ∈ T, 2 ≤ c.point ∧ c.point ≤ 14 := by
  intro c hc
  have hvc := hv c hc
  have hle := h.faces c hc
  unfold PokerCard.isValidCard at hvc
  simp only [A] at hle
  rw [if_neg (by simp only [JOKER1]; omega), decide_eq_true_eq] at hvc
  exact ⟨hvc.2.2.1, hle⟩

theorem IsPure.isCardsPureStraight_sort (hv : ∀ c ∈ T, c.isValidCard = true) (h : IsPure T) :
    isCardsPureStraight (sortCards T) = true := by
  have hpoints : ∀ c ∈ sortCards T, 2 ≤ c.point ∧ c.point ≤ 14 := by
    intro c hc
    exact h.point_bounds hv c (mem_sortCards.mp hc)
  rw [isCardsPureStraight_iff h.suit.rising_sort hpoints,
    fits_iff_filled h.suit.rising_sort hpoints, length_sortCards]
  exact ⟨h.three, h.consecutive.perm (sortCards_perm T).symm⟩

theorem IsPure.exists_plain (h : IsPure T) (jp : Int) : ∃ c ∈ T, isJoker c jp = false := by
  by_contra hno
  have hall : ∀ c ∈ T, (c.point : Int) = jp := by
    intro c hc
    have hj : isJoker c jp = true := by
      by_contra hj
      exact hno ⟨c, hc, Bool.eq_false_iff.mpr hj⟩
    have hle := h.faces c hc
    unfold isJoker at hj
    rcases of_decide_eq_true hj with hj | hj
    · exact hj
    · simp only [JOKER1, A] at hj hle
      omega
  obtain ⟨a, b, T', rfl⟩ : ∃ a b T', T = a :: b :: T' := by
    rcases T with _ | ⟨a, _ | ⟨b, T'⟩⟩
    · exact absurd h.three (by simp)
    · exact absurd h.three (by simp)
    · exact ⟨a, b, T', rfl⟩
  have hne : a.point ≠ b.point := by
    have hnd := h.suit.nodup
    unfold points at hnd
    rw [List.map_cons, List.map_cons, List.nodup_cons] at hnd
    exact fun heq => hnd.1 (heq ▸ List.mem_cons_self)
  have ha := hall a (by simp)
  have hb := hall b (by simp)
  omega

/-- A straight in the hand is found, with its cards sorted unless they are all jokers. -/
theorem Dealt.exists_straight (hd : Dealt hand) (h : IsStraight jp T) (hsub : T.Subperm hand) :
    ∃ g ∈ straights jp hand, g.cards.Perm T := by
  have hv : ∀ c ∈ T, c.isValidCard = true := fun c hc => hd.playable.valid c (hsub.subset hc)
  obtain ⟨H, J, hrun, hperm⟩ := exists_isRun hv h
  obtain ⟨g, hg, -, hcards⟩ := straights_complete hd.playable.valid hrun
    (hperm.symm.subperm.trans hsub)
  exact ⟨g, hg, hcards.trans hperm.symm⟩

/-- A straight found whose sorted cards pass the pure test is a first life. -/
theorem Dealt.mem_firstLives (hd : Dealt hand) {g : CardGroup} (hg : g ∈ straights jp hand)
    (hplain : ∃ c ∈ g.cards, isJoker c jp = false)
    (hpure : isCardsPureStraight (sortCards g.cards) = true) : g ∈ firstLives jp hand := by
  refine List.mem_filter.mpr ⟨hg, ?_⟩
  obtain ⟨H, J, hrun, hperm, hsorted | hH⟩ :=
    straights_sound hd.playable.valid hd.count_le hg
  · rwa [sortCards_eq_self hsorted] at hpure
  · obtain ⟨c, hc, hj⟩ := hplain
    rw [hperm.mem_iff, hH] at hc
    exact absurd (hrun.wild c hc) (by rw [hj]; exact Bool.false_ne_true)

/-- **A pure straight in the hand is tried as the first life.** -/
theorem Dealt.exists_firstLife (hd : Dealt hand) (h : IsPure T) (hsub : T.Subperm hand) (jp : Int) :
    ∃ f ∈ firstLives jp hand, f.cards.Perm T := by
  obtain ⟨f, hf, hperm⟩ := hd.exists_straight (h.isStraight jp) hsub
  have hv : ∀ c ∈ T, c.isValidCard = true := fun c hc => hd.playable.valid c (hsub.subset hc)
  refine ⟨f, hd.mem_firstLives hf ?_ ?_, hperm⟩
  · obtain ⟨c, hc, hj⟩ := h.exists_plain jp
    exact ⟨c, hperm.mem_iff.mpr hc, hj⟩
  · rw [sortCards_eq_of_perm hperm]
    exact h.isCardsPureStraight_sort hv

/-- A straight or a set. -/
def IsMeld (jp : Int) (T : List PokerCard) : Prop := IsStraight jp T ∨ IsSet jp T

theorem IsMeld.three (h : IsMeld jp T) : 3 ≤ T.length := by
  rcases h with h | h
  · exact h.three
  · exact h.three

/-- **A meld in the hand is found.** -/
theorem Dealt.exists_meld (hd : Dealt hand) (h : IsMeld jp T) (hsub : T.Subperm hand) :
    ∃ g ∈ melds jp hand, g.cards.Perm T := by
  unfold melds
  rcases h with h | h
  · obtain ⟨g, hg, hperm⟩ := hd.exists_straight h hsub
    exact ⟨g, List.mem_append_left _ hg, hperm⟩
  · have hlen := length_wild_add_length_plain jp T
    have hperm : (plain jp T ++ wild jp T).Perm T :=
      List.perm_append_comm.trans (wild_append_plain_perm jp T)
    have h3 := h.three
    have h4 := h.four
    have hkind : IsKind jp (plain jp T) (wild jp T) :=
      ⟨h.oneRank, h.two, by omega, fun c hc => (mem_plain.mp hc).2, fun c hc => (mem_wild.mp hc).2⟩
    obtain ⟨g, hg, -, hcards⟩ := kinds_complete hkind (by omega) (hperm.subperm.trans hsub)
    exact ⟨g, List.mem_append_right _ hg, hcards.trans hperm⟩

end Melds

end SparkFrame.Cards
