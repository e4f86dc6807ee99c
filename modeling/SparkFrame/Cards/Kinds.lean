import SparkFrame.Cards.Straights

/-!
# The sets a hand holds

* `IsKind` : a set as its non-jokers and its jokers, of any size;
* `mem_searchThreeOfKindI` : the sets made of the copies of one rank;
* `kindSearchLoop_sound`, `kindSearchLoop_complete` : the loop takes the ranks one by one;
* `kinds_sound`, `kinds_complete` : what `search_three_of_kind` finds;
* `subperm_of_mem_melds` : whatever is found is in the hand, copies counted.
-/

namespace SparkFrame.Cards

open PokerCard SparkFrame.Lib

/-! ## The sets of one rank -/

/-- A set of any size, as its non-jokers and its jokers. -/
structure IsKind (jp : Int) (K J : List PokerCard) : Prop where
  oneRank : OneRank K
  two : 2 ≤ K.length
  three : 3 ≤ K.length + J.length
  plain : ∀ c ∈ K, isJoker c jp = false
  wild : ∀ c ∈ J, isJoker c jp = true

/-- The sets made of the first copies `pop` and the second copies `rep` of one rank. -/
inductive KindOf (jokers pop rep : List PokerCard) : CardGroup → Prop
  | mixed (K J : List PokerCard) (hK : K.Sublist pop) (h2 : 2 ≤ K.length) (h4 : K.length ≤ 4)
      (hJ : J.Sublist jokers) (h3 : 3 ≤ K.length + J.length) :
      KindOf jokers pop rep { type := GROUP_THREE_KIND, cards := K ++ J }
  | second (K : List PokerCard) (hK : K.Sublist rep) (h3 : 3 ≤ K.length) (h4 : K.length ≤ 4) :
      KindOf jokers pop rep { type := GROUP_THREE_KIND, cards := K }

theorem mem_searchThreeOfKindSelectN {self : Combination} (hs : HasSelections self)
    {pop : List PokerCard} {n : Nat} (hn : 2 ≤ n) {g : CardGroup} :
    g ∈ self.searchThreeOfKindSelectN pop n ↔
      ∃ K J, (K.Sublist pop ∧ K.length = n) ∧ J.Sublist self.jokerCards ∧
        3 ≤ K.length + J.length ∧ g = { type := GROUP_THREE_KIND, cards := K ++ J } := by
  unfold Combination.searchThreeOfKindSelectN
  by_cases hlt : pop.length < n
  · rw [if_pos hlt]
    refine ⟨fun h => absurd h (List.not_mem_nil), ?_⟩
    rintro ⟨K, J, ⟨hsub, hlen⟩, -⟩
    have := hsub.length_le
    omega
  · rw [if_neg hlt, List.mem_flatMap]
    refine exists_congr fun K => ?_
    rw [mem_selectCardCombine, List.mem_append, List.mem_map]
    constructor
    · rintro ⟨hK, hg | ⟨J, hJ, rfl⟩⟩
      · by_cases h3 : 2 < K.length
        · rw [if_pos h3, List.mem_singleton] at hg
          exact ⟨[], hK, List.nil_sublist _, h3, by rw [hg, List.append_nil]⟩
        · rw [if_neg h3] at hg
          exact absurd hg (List.not_mem_nil)
      · have hJ := (hs J).mp hJ
        have := List.length_pos_iff.mpr hJ.2
        exact ⟨J, hK, hJ.1, by omega, rfl⟩
    · rintro ⟨J, hK, hJ, h3, rfl⟩
      refine ⟨hK, ?_⟩
      by_cases hJne : J = []
      · subst hJne
        rw [List.length_nil, Nat.add_zero] at h3
        rw [if_pos (show 2 < K.length from h3), List.append_nil]
        exact Or.inl (List.mem_singleton_self _)
      · exact Or.inr ⟨J, (hs J).mpr ⟨hJ, hJne⟩, rfl⟩

theorem mem_searchThreeOfKindI {self : Combination} (hs : HasSelections self)
    {pop rep : List PokerCard} {g : CardGroup} :
    g ∈ self.searchThreeOfKindI pop rep ↔ KindOf self.jokerCards pop rep g := by
  unfold Combination.searchThreeOfKindI
  rw [List.mem_append, List.mem_flatMap, List.mem_flatMap]
  constructor
  · rintro (⟨n, hn, hg⟩ | ⟨n, hn, hg⟩)
    · rw [List.mem_range'_1] at hn
      obtain ⟨K, J, hK, hJ, h3, rfl⟩ := (mem_searchThreeOfKindSelectN hs hn.1).mp hg
      exact .mixed K J hK.1 (by omega) (by omega) hJ h3
    · rw [List.mem_range'_1] at hn
      obtain ⟨K, hK, rfl⟩ := List.mem_map.mp hg
      rw [mem_selectCardCombine] at hK
      exact .second K hK.1 (by omega) (by omega)
  · intro hg
    cases hg with
    | mixed K J hK h2 h4 hJ h3 =>
      refine Or.inl ⟨K.length, List.mem_range'_1.mpr ⟨h2, by omega⟩, ?_⟩
      exact (mem_searchThreeOfKindSelectN hs h2).mpr ⟨K, J, ⟨hK, rfl⟩, hJ, h3, rfl⟩
    | second K hK h3 h4 =>
      refine Or.inr ⟨K.length, List.mem_range'_1.mpr ⟨h3, by omega⟩, List.mem_map.mpr ⟨K, ?_, rfl⟩⟩
      exact mem_selectCardCombine.mpr ⟨hK, rfl⟩

/-! ## The loop over the ranks -/

/-- What `pop_cards` and `pop_repeat_cards` hold in the loop over the sorted hand. -/
structure RankOk (jp : Int) (pop rep : List PokerCard) : Prop where
  same : ∀ a ∈ pop, ∀ b ∈ pop, a.point = b.point
  nodup : pop.Nodup
  plain : 2 ≤ pop.length → ∀ c ∈ pop, isJoker c jp = false
  rep : rep ⊆ pop

theorem rankOk_singleton (jp : Int) (c : PokerCard) : RankOk jp [c] [] := by
  refine ⟨?_, List.nodup_singleton c, ?_, List.nil_subset _⟩
  · intro a ha b hb
    rw [List.mem_singleton.mp ha, List.mem_singleton.mp hb]
  · intro h
    exact absurd h (by simp)

section RankStep

variable {jp : Int} {pop rep : List PokerCard} {c : PokerCard}

theorem RankOk.point_eq (h : RankOk jp pop rep)
    (hc : pop = [] ∨ pop.head?.map point = some c.point) : ∀ d ∈ pop, d.point = c.point := by
  intro d hd
  rcases pop with _ | ⟨a, pop⟩
  · exact absurd hd (List.not_mem_nil)
  · have ha : a.point = c.point := by simpa using hc
    rw [h.same d hd a List.mem_cons_self, ha]

theorem RankOk.push (h : RankOk jp pop rep)
    (hc : pop = [] ∨ pop.head?.map point = some c.point) (hj : isJoker c jp = false)
    (hnew : c ∉ pop) : RankOk jp (pop ++ [c]) rep := by
  have hpt := h.point_eq hc
  have hall : ∀ d ∈ pop ++ [c], d.point = c.point := by
    intro d hd
    rcases List.mem_append.mp hd with hd | hd
    · exact hpt d hd
    · rw [List.mem_singleton.mp hd]
  refine ⟨?_, ?_, ?_, ?_⟩
  · intro a ha b hb
    rw [hall a ha, hall b hb]
  · rw [List.nodup_append]
    refine ⟨h.nodup, List.nodup_singleton c, ?_⟩
    intro a ha b hb
    rw [List.mem_singleton.mp hb]
    rintro rfl
    exact hnew ha
  · intro _ d hd
    rw [isJoker_eq_of_point (hall d hd), hj]
  · exact fun d hd => List.mem_append_left _ (h.rep hd)

theorem RankOk.again (h : RankOk jp pop rep) (hold : c ∈ pop) : RankOk jp pop (rep ++ [c]) := by
  refine ⟨h.same, h.nodup, h.plain, ?_⟩
  intro d hd
  rcases List.mem_append.mp hd with hd | hd
  · exact h.rep hd
  · rw [List.mem_singleton.mp hd]
    exact hold

end RankStep

theorem kindSearchLoop_sound {self : Combination} {l pop rep : List PokerCard}
    (h : RankOk self.jokerPoint pop rep) {g : CardGroup}
    (hg : g ∈ self.kindSearchLoop l pop rep) :
    ∃ pop' rep', RankOk self.jokerPoint pop' rep' ∧ 2 ≤ pop'.length ∧
      (pop' ++ rep').Subperm (pop ++ rep ++ l) ∧ g ∈ self.searchThreeOfKindI pop' rep' := by
  induction l generalizing pop rep with
  | nil =>
    rw [Combination.kindSearchLoop] at hg
    by_cases h2 : 2 ≤ pop.length
    · rw [if_pos h2] at hg
      exact ⟨pop, rep, h, h2, by rw [List.append_nil], hg⟩
    · rw [if_neg h2] at hg
      exact absurd hg (List.not_mem_nil)
  | cons c l ih =>
    rw [Combination.kindSearchLoop] at hg
    by_cases hc : (pop = [] ∨ pop.head?.map point = some c.point) ∧ isJoker c self.jokerPoint = false
    · rw [if_pos hc] at hg
      by_cases hmem : c ∈ pop
      · rw [if_pos hmem] at hg
        obtain ⟨pop', rep', hok, h2, hsub, hg'⟩ := ih (h.again hmem) hg
        refine ⟨pop', rep', hok, h2, hsub.trans (List.Perm.subperm ?_), hg'⟩
        simp only [List.append_assoc, List.singleton_append, List.Perm.refl]
      · rw [if_neg hmem] at hg
        obtain ⟨pop', rep', hok, h2, hsub, hg'⟩ := ih (h.push hc.1 hc.2 hmem) hg
        refine ⟨pop', rep', hok, h2, hsub.trans (List.Perm.subperm ?_), hg'⟩
        simp only [List.append_assoc, List.singleton_append]
        exact List.perm_middle.symm.append_left pop
    · rw [if_neg hc, List.mem_append] at hg
      rcases hg with hg | hg
      · by_cases h2 : 2 ≤ pop.length
        · rw [if_pos h2] at hg
          exact ⟨pop, rep, h, h2, (List.sublist_append_left _ _).subperm, hg⟩
        · rw [if_neg h2] at hg
          exact absurd hg (List.not_mem_nil)
      · obtain ⟨pop', rep', hok, h2, hsub, hg'⟩ := ih (rankOk_singleton _ c) hg
        refine ⟨pop', rep', hok, h2, hsub.trans ?_, hg'⟩
        exact (List.sublist_append_right _ _).subperm

theorem OneRank.nodup {K : List PokerCard} (h : OneRank K) : K.Nodup :=
  List.Pairwise.imp (fun hab => fun heq => hab.2 (congrArg color heq)) h

section Complete

variable {jp : Int} {K l pop rep pop' : List PokerCard} {c : PokerCard}

theorem mem_or_mem_of_taken (hmem : ∀ k ∈ K, k ∈ pop ∨ k ∈ c :: l) (hpop : pop ⊆ pop')
    (hc : c ∈ pop') : ∀ k ∈ K, k ∈ pop' ∨ k ∈ l := by
  intro k hk
  rcases hmem k hk with hk | hk
  · exact Or.inl (hpop hk)
  · rcases List.mem_cons.mp hk with rfl | hk
    · exact Or.inl hc
    · exact Or.inr hk

/-- Where a round ends before all cards of a rank are taken, it has taken none of them. -/
theorem RankOk.not_begun (h : RankOk jp pop rep) (hpc : ∀ a ∈ pop, a.point ≤ c.point)
    (hcl : ∀ b ∈ l, c.point ≤ b.point)
    (hc : ¬((pop = [] ∨ pop.head?.map point = some c.point) ∧ isJoker c jp = false))
    (hK : OneRank K) (hKj : ∀ k ∈ K, isJoker k jp = false)
    (hmem : ∀ k ∈ K, k ∈ pop ∨ k ∈ c :: l) (hsub : ¬K ⊆ pop) : ∀ k ∈ K, k ∉ pop := by
  intro k hk hpop
  obtain ⟨k', hk', hkpop⟩ : ∃ k' ∈ K, k' ∉ pop := by
    by_contra hno
    exact hsub fun k' hk' => by
      by_contra hkpop
      exact hno ⟨k', hk', hkpop⟩
  have hck : c.point ≤ k'.point := by
    rcases List.mem_cons.mp ((hmem k' hk').resolve_left hkpop) with rfl | hkl
    · exact le_refl _
    · exact hcl k' hkl
  have hkc := hpc k hpop
  have hkk := hK.point_eq k hk k' hk'
  have hpt : k.point = c.point := by omega
  apply hc
  refine ⟨Or.inr ?_, ?_⟩
  · rcases pop with _ | ⟨a, pop⟩
    · exact absurd hpop (List.not_mem_nil)
    · have ha := h.same a List.mem_cons_self k hpop
      simp [ha, hpt]
  · rw [← isJoker_eq_of_point hpt]
    exact hKj k hk

/-- The cards of one rank are together in a sorted hand, so they are taken in one round. -/
theorem kindSearchLoop_complete (self : Combination) (h : RankOk self.jokerPoint pop rep)
    (hl : l.Pairwise PokerCard.le) (hpl : ∀ a ∈ pop, ∀ b ∈ l, a.point ≤ b.point)
    (hK : OneRank K) (h2 : 2 ≤ K.length) (hKj : ∀ c ∈ K, isJoker c self.jokerPoint = false)
    (hmem : ∀ c ∈ K, c ∈ pop ∨ c ∈ l) :
    ∃ pop' rep', K ⊆ pop' ∧
      ∀ g ∈ self.searchThreeOfKindI pop' rep', g ∈ self.kindSearchLoop l pop rep := by
  have htwo : ∀ {pop' : List PokerCard}, K ⊆ pop' → 2 ≤ pop'.length := fun hsub =>
    le_trans h2 (List.subperm_of_subset hK.nodup hsub).length_le
  induction l generalizing pop rep with
  | nil =>
    have hsub : K ⊆ pop := fun c hc => (hmem c hc).resolve_right (List.not_mem_nil)
    refine ⟨pop, rep, hsub, ?_⟩
    intro g hg
    rw [Combination.kindSearchLoop, if_pos (htwo hsub)]
    exact hg
  | cons c l ih =>
    obtain ⟨hcl, hl⟩ := List.pairwise_cons.mp hl
    have hle : ∀ b ∈ l, c.point ≤ b.point := by
      intro b hb
      have := hcl b hb
      unfold PokerCard.le at this
      omega
    have hpl' : ∀ a ∈ pop, ∀ b ∈ l, a.point ≤ b.point :=
      fun a ha b hb => hpl a ha b (List.mem_cons_of_mem _ hb)
    rw [Combination.kindSearchLoop]
    by_cases hc : (pop = [] ∨ pop.head?.map point = some c.point) ∧ isJoker c self.jokerPoint = false
    · rw [if_pos hc]
      by_cases hin : c ∈ pop
      · rw [if_pos hin]
        exact ih (h.again hin) hl hpl' (mem_or_mem_of_taken hmem (List.Subset.refl pop) hin)
      · rw [if_neg hin]
        refine ih (h.push hc.1 hc.2 hin) hl ?_ (mem_or_mem_of_taken hmem
          (List.subset_append_left _ _) (List.mem_append_right _ (List.mem_singleton_self _)))
        intro a ha b hb
        rcases List.mem_append.mp ha with ha | ha
        · exact hpl' a ha b hb
        · rw [List.mem_singleton.mp ha]
          exact hle b hb
    · rw [if_neg hc]
      by_cases hsub : K ⊆ pop
      · refine ⟨pop, rep, hsub, fun g hg => List.mem_append_left _ ?_⟩
        rw [if_pos (htwo hsub)]
        exact hg
      · -- a card of the rank still to come shows that the rank has not begun
        have hnone := h.not_begun (fun a ha => hpl a ha c List.mem_cons_self) hle hc hK hKj hmem hsub
        obtain ⟨pop', rep', hsub', hall⟩ := ih (rankOk_singleton _ c) hl
          (fun a ha b hb => by rw [List.mem_singleton.mp ha]; exact hle b hb)
          (mem_or_mem_of_taken (fun k hk => Or.inr ((hmem k hk).resolve_left (hnone k hk)))
            (List.nil_subset _) (List.mem_singleton_self _))
        exact ⟨pop', rep', hsub', fun g hg => List.mem_append_right _ (hall g hg)⟩

end Complete

/-! ## The whole search -/

theorem rankOk_nil (jp : Int) : RankOk jp [] [] :=
  ⟨by simp, List.nodup_nil, by simp, List.nil_subset _⟩

section Kinds

variable {jp : Int} {cards : List PokerCard}

/-- Every set found comes from the copies of one rank of the hand and its jokers. -/
theorem kindOf_of_mem {g : CardGroup} (hg : g ∈ (freshFor jp cards).searchThreeOfKind cards) :
    ∃ pop rep, RankOk jp pop rep ∧ 2 ≤ pop.length ∧ (pop ++ rep).Subperm cards ∧
      KindOf (wild jp cards) pop rep g := by
  unfold Combination.searchThreeOfKind at hg
  obtain ⟨pop, rep, hok, h2, hsub, hg⟩ := kindSearchLoop_sound (rankOk_nil _) hg
  refine ⟨pop, rep, hok, h2, hsub.trans (sortCards_perm cards).subperm, ?_⟩
  exact (mem_searchThreeOfKindI (freshFor_hasSelections jp cards)).mp hg

theorem kinds_subperm {g : CardGroup} (hg : g ∈ (freshFor jp cards).searchThreeOfKind cards) :
    g.type = GROUP_THREE_KIND ∧ g.cards.Subperm cards := by
  obtain ⟨pop, rep, hok, h2, hsub, hkind⟩ := kindOf_of_mem hg
  cases hkind with
  | mixed K J hK hK2 hK4 hJ h3 =>
    have hKpop : K.Subperm cards := (hK.trans (List.sublist_append_left _ _)).subperm.trans hsub
    have hplain : K.Subperm (plain jp cards) := by
      have hf : (plain jp K).Subperm (plain jp cards) := hKpop.filter _
      rwa [plain_eq_self fun c hc => hok.plain h2 c (hK.subset hc)] at hf
    exact ⟨rfl, append_subperm hplain hJ⟩
  | second K hK h3 h4 =>
    exact ⟨rfl, (hK.trans (List.sublist_append_right _ _)).subperm.trans hsub⟩

theorem RankOk.oneRank {pop rep K : List PokerCard} (h : RankOk jp pop rep) (hnd : K.Nodup)
    (hK : K ⊆ pop) : OneRank K := by
  refine hnd.imp_of_mem fun ha hb hab => ?_
  have hpt := h.same _ (hK ha) _ (hK hb)
  refine ⟨hpt, fun hcol => hab ?_⟩
  cases ‹PokerCard›
  cases ‹PokerCard›
  simp_all

/-- **Every set found is one**, with at most four non-jokers. -/
theorem kinds_sound (h2 : ∀ c, cards.count c ≤ 2) {g : CardGroup}
    (hg : g ∈ (freshFor jp cards).searchThreeOfKind cards) :
    ∃ K J, IsKind jp K J ∧ K.length ≤ 4 ∧ g.cards = K ++ J := by
  obtain ⟨pop, rep, hok, hpop2, hsub, hkind⟩ := kindOf_of_mem hg
  cases hkind with
  | mixed K J hK hK2 hK4 hJ h3 =>
    refine ⟨K, J, ⟨hok.oneRank (hok.nodup.sublist hK) hK.subset, hK2, h3, ?_, ?_⟩, hK4, rfl⟩
    · exact fun c hc => hok.plain hpop2 c (hK.subset hc)
    · exact fun c hc => (mem_wild.mp (hJ.subset hc)).2
  | second K hK h3 h4 =>
    have hnodup : K.Nodup := by
      rw [List.nodup_iff_count_le_one]
      intro c
      by_cases hc : c ∈ K
      · have hcount := hsub.count_le c
        have hpos := List.count_pos_iff.mpr (hok.rep (hK.subset hc))
        have hle := hK.count_le c
        rw [List.count_append] at hcount
        have := h2 c
        omega
      · rw [List.count_eq_zero_of_not_mem hc]
        exact Nat.zero_le 1
    have hKpop : K ⊆ pop := fun c hc => hok.rep (hK.subset hc)
    refine ⟨K, [], ⟨hok.oneRank hnodup hKpop, by omega, by simpa using h3, ?_, by simp⟩, h4, ?_⟩
    · exact fun c hc => hok.plain hpop2 c (hKpop hc)
    · rw [List.append_nil]

/-- **Every set in the hand is found.** -/
theorem kinds_complete {K J : List PokerCard} (hkind : IsKind jp K J) (h4 : K.length ≤ 4)
    (hsub : (K ++ J).Subperm cards) :
    ∃ g ∈ (freshFor jp cards).searchThreeOfKind cards,
      g.type = GROUP_THREE_KIND ∧ g.cards.Perm (K ++ J) := by
  obtain ⟨J', hperm, hJ'⟩ := exists_wild_sublist hkind.plain hkind.wild hsub
  have hmem : ∀ c ∈ K, c ∈ ([] : List PokerCard) ∨ c ∈ sortCards cards := fun c hc =>
    Or.inr (mem_sortCards.mpr (hsub.subset (List.mem_append_left _ hc)))
  obtain ⟨pop, rep, hKpop, hall⟩ := kindSearchLoop_complete (freshFor jp cards)
    (rankOk_nil _) (sortCards_sorted cards) (by simp) hkind.oneRank hkind.two hkind.plain hmem
  obtain ⟨K', hK', hsubK⟩ := List.subperm_of_subset hkind.oneRank.nodup hKpop
  refine ⟨{ type := GROUP_THREE_KIND, cards := K' ++ J' }, hall _ ?_, rfl, hK'.append hperm⟩
  rw [mem_searchThreeOfKindI (freshFor_hasSelections jp cards)]
  have hlenK := hK'.length_eq
  have hlenJ := hperm.length_eq
  exact .mixed K' J' hsubK (hlenK ▸ hkind.two) (hlenK ▸ h4) hJ' (by have := hkind.three; omega)

/-- **What is found is in the hand**, copies counted. -/
theorem subperm_of_mem_melds (hv : ∀ c ∈ cards, c.isValidCard = true) {g : CardGroup}
    (hg : g ∈ melds jp cards) : g.cards.Subperm cards := by
  unfold melds at hg
  rcases List.mem_append.mp hg with hg | hg
  · exact ((mem_straights hv).mp hg).subperm
  · exact (kinds_subperm hg).2

end Kinds

end SparkFrame.Cards
