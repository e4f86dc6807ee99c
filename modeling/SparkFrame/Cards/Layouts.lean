import SparkFrame.Cards.Post
import SparkFrame.Cards.Pure
import SparkFrame.Cards.Verdict

/-!
# Layouts the checker accepts

* `Achievable` : the cards can be laid out so that `check_lose_declare` accepts with a given score;
* `RunOf`, `WideMeld` : a straight, or a set with any number of jokers; `WideMeld.split` : the checker
  accepts it once the jokers over four cards are put aside;
* `achievable_of_twoLives`, `achievable_of_oneLife`, `achievable_of_noLife` : enough for `Achievable`;
* `RunOf.erase_posted`, `WideMeld.erase_posted`, `PureRun.erase_posted` : a meld of four cards or more
  stays one without the card `post_valid_group_bigest_card` looks at.
-/

namespace SparkFrame.Cards

open PokerCard SparkFrame.Lib CardGroup Combination

/-- The cards can be laid out in groups that `check_lose_declare` accepts with `score`. -/
def Achievable (jp : Int) (cards : List PokerCard) (score : Nat) : Prop :=
  ∃ groups : List CardGroup, (groups.flatMap CardGroup.cards).Perm cards ∧
    checkLoseDeclare groups jp = (true, score)

/-! ## Melds as collections of cards -/

/-- A straight, its cards in any order. -/
def RunOf (jp : Int) (T : List PokerCard) : Prop := ∃ H J, IsRun jp H J ∧ T.Perm (H ++ J)

/-- A straight, or a set that may have more jokers than the checker takes. -/
def WideMeld (jp : Int) (T : List PokerCard) : Prop :=
  RunOf jp T ∨ ∃ K J, IsKind jp K J ∧ K.length ≤ 4 ∧ T.Perm (K ++ J)

/-- A straight that passes the pure test as well. -/
structure PureRun (jp : Int) (T : List PokerCard) : Prop where
  run : RunOf jp T
  pure : isCardsPureStraight (sortCards T) = true

section Melds

variable {jp : Int} {T : List PokerCard}

theorem RunOf.isCardsStraight_sort (hv : ∀ c ∈ T, c.isValidCard = true) (h : RunOf jp T) :
    isCardsStraight (sortCards T) jp = true := by
  obtain ⟨H, J, hrun, hperm⟩ := h
  exact hrun.isCardsStraight_sort hv hperm

theorem RunOf.passes (hv : ∀ c ∈ T, c.isValidCard = true) (h : RunOf jp T) :
    Passes jp { type := GROUP_STAIGHT, cards := T } := Or.inl ⟨rfl, h.isCardsStraight_sort hv⟩

/-- **A wide meld is a group the checker lets pass and some jokers.** -/
theorem WideMeld.split (hv : ∀ c ∈ T, c.isValidCard = true) (h : WideMeld jp T) :
    ∃ g J, Passes jp g ∧ (g.cards ++ J).Perm T ∧ ∀ c ∈ J, isJoker c jp = true := by
  rcases h with hrun | ⟨K, J, hkind, h4, hperm⟩
  · exact ⟨_, [], hrun.passes hv, by rw [List.append_nil], by simp⟩
  · have hlenK := hkind.two
    have h3 := hkind.three
    have htake : (J.take (4 - K.length)).length = min (4 - K.length) J.length := List.length_take
    have hwild : ∀ c ∈ J.take (4 - K.length), isJoker c jp = true :=
      fun c hc => hkind.wild c (List.mem_of_mem_take hc)
    have hsort : (plain jp (sortCards (K ++ J.take (4 - K.length)))).Perm K :=
      plain_of_perm (sortCards_perm _) hkind.plain hwild
    refine ⟨{ type := GROUP_THREE_KIND, cards := K ++ J.take (4 - K.length) },
      J.drop (4 - K.length), Or.inr ⟨rfl, ?_⟩, ?_, fun c hc => hkind.wild c (List.mem_of_mem_drop hc)⟩
    · refine isCardsThreeOfKind_of_oneRank ?_ ?_ ?_ (oneRank_perm hsort.symm hkind.oneRank)
      · rw [length_sortCards, List.length_append]
        omega
      · rw [length_sortCards, List.length_append]
        omega
      · rw [hsort.length_eq]
        exact hlenK
    · rw [List.append_assoc, List.take_append_drop]
      exact hperm.symm

theorem WideMeld.split_all {rest : List (List PokerCard)}
    (hv : ∀ c ∈ rest.flatten, c.isValidCard = true) (h : ∀ T ∈ rest, WideMeld jp T) :
    ∃ (gs : List CardGroup) (J : List PokerCard), (∀ g ∈ gs, Passes jp g) ∧
      (gs.flatMap CardGroup.cards ++ J).Perm rest.flatten ∧
      ∀ c ∈ J, isJoker c jp = true := by
  induction rest with
  | nil => exact ⟨[], [], by simp, by simp, by simp⟩
  | cons T rest ih =>
    rw [List.flatten_cons] at hv
    obtain ⟨g, J, hg, hgperm, hJ⟩ := (h T List.mem_cons_self).split
      fun c hc => hv c (List.mem_append_left _ hc)
    obtain ⟨gs, J', hgs, hgsperm, hJ'⟩ := ih (fun c hc => hv c (List.mem_append_right _ hc))
      fun T' hT' => h T' (List.mem_cons_of_mem T hT')
    refine ⟨g :: gs, J ++ J', List.forall_mem_cons.mpr ⟨hg, hgs⟩, ?_, ?_⟩
    · rw [List.flatMap_cons, List.flatten_cons]
      refine List.Perm.trans ?_ (hgperm.append hgsperm)
      simp only [List.append_assoc]
      refine List.Perm.append_left _ ?_
      simp only [← List.append_assoc]
      exact List.perm_append_comm.append_right J'
    · exact fun c hc => (List.mem_append.mp hc).elim (hJ c) (hJ' c)

end Melds

/-! ## Enough to be accepted -/

section Achieve

variable {jp : Int} {cards P S left : List PokerCard}

theorem leftGroup_cards (left : List PokerCard) :
    (leftGroup left).flatMap CardGroup.cards = left := by
  unfold leftGroup
  by_cases hl : left = []
  · rw [if_pos hl, hl]
    rfl
  · rw [if_neg hl]
    exact List.append_nil left

theorem PureRun.isPure {T : List PokerCard} (h : PureRun jp T) :
    CardGroup.isPure { type := GROUP_STAIGHT, cards := T } = true := by
  unfold CardGroup.isPure
  rw [h.pure]
  rfl

/-- **A pure straight, a straight, wide melds, and what is left over.** -/
theorem achievable_of_twoLives (hv : ∀ c ∈ cards, c.isValidCard = true) (hP : PureRun jp P)
    (hS : RunOf jp S) {rest : List (List PokerCard)} (hrest : ∀ T ∈ rest, WideMeld jp T)
    (hcards : cards.Perm (P ++ (S ++ (rest.flatten ++ left)))) :
    Achievable jp cards (cardScore left jp) := by
  have hmem : ∀ c ∈ P ++ (S ++ (rest.flatten ++ left)), c.isValidCard = true :=
    fun c hc => hv c (hcards.mem_iff.mpr hc)
  have hvP : ∀ c ∈ P, c.isValidCard = true := fun c hc => hmem c (List.mem_append_left _ hc)
  have hvS : ∀ c ∈ S, c.isValidCard = true := fun c hc => hmem c (by simp [hc])
  obtain ⟨gs, J, hgs, hperm, hJ⟩ := WideMeld.split_all (fun c hc => hmem c (by simp [hc])) hrest
  have hscore : cardScore (J ++ left) jp = cardScore left jp := by
    rw [cardScore_append, cardScore_eq_zero_of_jokers hJ, Nat.zero_add]
  refine ⟨{ type := GROUP_STAIGHT, cards := P } :: ({ type := GROUP_STAIGHT, cards := S } :: gs) ++
    leftGroup (J ++ left), ?_, ?_⟩
  · rw [List.flatMap_append, leftGroup_cards, List.flatMap_cons, List.flatMap_cons]
    refine List.Perm.trans ?_ hcards.symm
    simp only [List.append_assoc]
    refine (List.Perm.append_left S ?_).append_left P
    rw [← List.append_assoc]
    exact hperm.append_right left
  · rw [← hscore]
    refine checkLoseDeclare_of_passes hP.isPure ?_ ?_
    · exact List.forall_mem_cons.mpr ⟨hP.run.passes hvP, List.forall_mem_cons.mpr
        ⟨hS.passes hvS, hgs⟩⟩
    · intro g _
      rw [List.countP_cons_of_pos rfl, List.countP_cons_of_pos rfl]
      exact Or.inr (by omega)

theorem achievable_of_oneLife (hv : ∀ c ∈ cards, c.isValidCard = true) (hP : PureRun jp P)
    (hcards : cards.Perm (P ++ left)) : Achievable jp cards (cardScore left jp) := by
  have hvP : ∀ c ∈ P, c.isValidCard = true :=
    fun c hc => hv c (hcards.mem_iff.mpr (List.mem_append_left _ hc))
  refine ⟨{ type := GROUP_STAIGHT, cards := P } :: [] ++ leftGroup left, ?_, ?_⟩
  · rw [List.flatMap_append, leftGroup_cards, List.flatMap_cons]
    simpa using hcards.symm
  · refine checkLoseDeclare_of_passes hP.isPure ?_ ?_
    · rw [List.forall_mem_singleton]
      exact hP.run.passes hvP
    · rw [List.forall_mem_singleton]
      exact Or.inl rfl

theorem achievable_of_noLife (jp : Int) (cards : List PokerCard) :
    Achievable jp cards (cardScore cards jp) := by
  refine ⟨[{ type := GROUP_INVALID, cards := cards }], by simp, ?_⟩
  rw [checkLoseDeclare_eq_true]
  refine ⟨?_, (Nat.add_zero _).symm⟩
  rw [List.forall_mem_singleton]
  exact invalid_ok rfl

end Achieve

/-! ## A meld without the card posted -/

section Erase

variable {jp : Int} {g : CardGroup}

theorem erase_perm_of_perm {T m : List PokerCard} {x : PokerCard} (h : T.Perm (x :: m)) :
    (T.erase x).Perm m := by
  have := h.erase x
  rwa [List.erase_cons_head] at this

theorem IsRun.init {init J : List PokerCard} {x : PokerCard} (h : IsRun jp (init ++ [x]) J)
    (hv : ∀ c ∈ init ++ [x], c.isValidCard = true) (h3 : 3 ≤ init.length + J.length) :
    IsRun jp init J := by
  have hsub : init.Sublist (init ++ [x]) := List.sublist_append_left _ _
  have hinit := h.rising.sublist hsub
  refine ⟨hinit, fun c hc => h.plain c (hsub.subset hc), h.wild, h3, Or.inl ?_⟩
  rcases h.fits.2 with hgap | ⟨-, hgap⟩
  · have hle : gapSum (points init) + gapSum (points [x]) ≤ gapSum (points init ++ points [x]) := by
      apply gapSum_append_le
      unfold points
      rw [← List.map_append]
      exact h.rising.points_lt
    unfold points at hle hgap
    rw [← List.map_append, List.map_singleton, gapSum_singleton] at hle
    unfold points
    omega
  · rw [List.dropLast_concat] at hgap
    have hone : (1 :: points init).Pairwise (· < ·) := by
      refine List.pairwise_cons.mpr ⟨fun p hp => ?_, hinit.points_lt⟩
      obtain ⟨c, hc, rfl⟩ := List.mem_map.mp hp
      have hc' := hsub.subset hc
      have := (point_of_not_isJoker (hv c hc') (h.plain c hc')).1
      omega
    have hle := gapSum_append_le (l := [1]) (m := points init) hone
    rw [gapSum_singleton, List.singleton_append] at hle
    omega

/-- A straight with one non-joker at most needs no more than three cards. -/
theorem isRun_of_short {H J : List PokerCard} (hH : ∀ c ∈ H, isJoker c jp = false)
    (hJ : ∀ c ∈ J, isJoker c jp = true) (h1 : H.length ≤ 1) (h3 : 3 ≤ H.length + J.length) :
    IsRun jp H J := by
  rcases H with _ | ⟨x, _ | ⟨y, H⟩⟩
  · exact ⟨List.Pairwise.nil, hH, hJ, h3, Or.inl (Int.natCast_nonneg _)⟩
  · exact ⟨List.pairwise_singleton _ _, hH, hJ, h3, Or.inl (Int.natCast_nonneg _)⟩
  · exact absurd h1 (by simp)

theorem length_of_perm {T H J : List PokerCard} (h : T.Perm (H ++ J)) :
    T.length = H.length + J.length := by
  rw [h.length_eq, List.length_append]

theorem RunOf.erase_posted (hv : ∀ c ∈ g.cards, c.isValidCard = true) (h4 : 4 ≤ g.cards.length)
    (h : RunOf jp g.cards) : RunOf jp (g.cards.erase (posted jp g)) := by
  obtain ⟨H, J, hrun, hperm⟩ := h
  have hlen := length_of_perm hperm
  have hsort := (sortCards_perm g.cards).trans hperm
  have hplain := (plain_of_perm hperm hrun.plain hrun.wild).length_eq
  rcases posted_eq jp h4 with ⟨-, hlast⟩ | ⟨h1, hlast⟩
  · rw [plain_eq_of_sorted (sortCards_sorted _) hsort hrun.rising hrun.plain hrun.wild] at hlast
    obtain ⟨init, rfl⟩ := List.getLast?_eq_some_iff.mp hlast
    rw [List.length_append, List.length_singleton] at hlen
    refine ⟨init, J, hrun.init (fun c hc => hv c (hperm.mem_iff.mpr (List.mem_append_left _ hc)))
      (by omega), erase_perm_of_perm (hperm.trans ?_)⟩
    rw [List.append_assoc]
    exact List.perm_middle
  · have hx : posted jp g ∈ J :=
      (wild_of_perm hsort hrun.plain hrun.wild).mem_iff.mp (List.mem_of_getLast? hlast)
    have hJ := List.length_erase_of_mem hx
    refine ⟨H, J.erase (posted jp g), isRun_of_short hrun.plain
      (fun c hc => hrun.wild c (List.mem_of_mem_erase hc)) (by omega) (by omega), ?_⟩
    refine erase_perm_of_perm (hperm.trans ?_)
    exact ((List.perm_cons_erase hx).append_left H).trans List.perm_middle

theorem WideMeld.erase_posted (hv : ∀ c ∈ g.cards, c.isValidCard = true)
    (h4 : 4 ≤ g.cards.length) (h : WideMeld jp g.cards) :
    WideMeld jp (g.cards.erase (posted jp g)) := by
  rcases h with h | ⟨K, J, hkind, hK4, hperm⟩
  · exact Or.inl (h.erase_posted hv h4)
  · have hlen := length_of_perm hperm
    have hplain := (plain_of_perm hperm hkind.plain hkind.wild).length_eq
    have h2 := hkind.two
    rcases posted_eq jp h4 with ⟨-, hlast⟩ | ⟨h1, -⟩
    · have hx : posted jp g ∈ K := (plain_of_perm ((sortCards_perm g.cards).trans hperm)
        hkind.plain hkind.wild).mem_iff.mp (List.mem_of_getLast? hlast)
      have hK := List.length_erase_of_mem hx
      have herase : (g.cards.erase (posted jp g)).Perm (K.erase (posted jp g) ++ J) :=
        erase_perm_of_perm (hperm.trans ((List.perm_cons_erase hx).append_right J))
      have hplain' : ∀ c ∈ K.erase (posted jp g), isJoker c jp = false :=
        fun c hc => hkind.plain c (List.mem_of_mem_erase hc)
      by_cases h3 : 3 ≤ K.length
      · refine Or.inr ⟨_, J, ⟨?_, by omega, by omega, hplain', hkind.wild⟩, by omega, herase⟩
        exact List.Pairwise.sublist List.erase_sublist hkind.oneRank
      · -- two of a rank without one of them: a card and jokers
        exact Or.inl ⟨_, J, isRun_of_short hplain' hkind.wild (by omega) (by omega), herase⟩
    · omega

theorem two_plain_of_pure {init : List PokerCard} {x : PokerCard} (hx : isJoker x jp = false)
    (hv : x.isValidCard = true) (hs : (init ++ [x]).Pairwise PokerCard.le) (h3 : 3 ≤ init.length)
    (h : isCardsPureStraight (init ++ [x]) = true) : 2 ≤ (plain jp (init ++ [x])).length := by
  obtain ⟨a, b, c, rest, rfl⟩ : ∃ a b c rest, init = a :: b :: c :: rest := by
    rcases init with _ | ⟨a, _ | ⟨b, _ | ⟨c, rest⟩⟩⟩
    · exact absurd h3 (by simp)
    · exact absurd h3 (by simp)
    · exact absurd h3 (by simp)
    · exact ⟨a, b, c, rest, rfl⟩
  have hx14 := (point_of_not_isJoker hv hx).2.1
  have hle : ∀ d ∈ a :: b :: c :: rest, d.point ≤ 14 := by
    intro d hd
    have := (List.pairwise_append.mp hs).2.2 d hd x (List.mem_singleton_self x)
    unfold PokerCard.le at this
    omega
  have hshape := pure_triple (a := a) (b := b) (c := c)
    (pureLoop_append (l := [b, c]) (m := rest ++ [x]) h)
  have hone : isJoker a jp = false ∨ isJoker b jp = false := by
    by_contra hno
    rw [not_or, Bool.not_eq_false, Bool.not_eq_false] at hno
    have ha := hle a (by simp)
    have hb := hle b (by simp)
    simp only [isJoker, decide_eq_true_eq] at hno
    simp only [JOKER1] at hno
    omega
  rw [plain_concat hx, List.length_append, List.length_singleton]
  have hpos : 0 < (plain jp (a :: b :: c :: rest)).length := by
    rw [List.length_pos_iff_exists_mem]
    rcases hone with ha | hb
    · exact ⟨a, mem_plain.mpr ⟨by simp, ha⟩⟩
    · exact ⟨b, mem_plain.mpr ⟨by simp, hb⟩⟩
  omega

/-- **A pure straight of four cards or more gives up its last card**, unless that is a joker. -/
theorem PureRun.erase_posted (hv : ∀ c ∈ g.cards, c.isValidCard = true)
    (h4 : 4 ≤ g.cards.length) (h : PureRun jp g.cards)
    (hlast : ∀ x ∈ (sortCards g.cards).getLast?, isJoker x jp = false) :
    PureRun jp (g.cards.erase (posted jp g)) := by
  refine ⟨h.run.erase_posted hv h4, ?_⟩
  have hlen := length_sortCards g.cards
  obtain ⟨init, x, hsort⟩ : ∃ init x, sortCards g.cards = init ++ [x] := by
    rcases List.eq_nil_or_concat (sortCards g.cards) with hnil | ⟨init, x, hc⟩
    · rw [hnil, List.length_nil] at hlen
      omega
    · exact ⟨init, x, by rw [hc, List.concat_eq_append]⟩
  have hsorted := sortCards_sorted g.cards
  have hperm := sortCards_perm g.cards
  have hpure := h.pure
  rw [hsort] at hlast hlen hsorted hperm hpure
  have hx : isJoker x jp = false := hlast x (by simp)
  have hvx : x.isValidCard = true := hv x (hperm.mem_iff.mp (by simp))
  rw [List.length_append, List.length_singleton] at hlen
  have h2 := two_plain_of_pure hx hvx hsorted (by omega) hpure
  have hposted : posted jp g = x := by
    have hplain : (plain jp (init ++ [x])).length = (plain jp g.cards).length :=
      (plain_perm hperm).length_eq
    rcases posted_eq jp h4 with ⟨-, hp⟩ | ⟨h1, -⟩
    · rw [hsort, plain_concat hx, List.getLast?_concat, Option.some.injEq] at hp
      exact hp.symm
    · omega
  have herase : (g.cards.erase (posted jp g)).Perm init := by
    rw [hposted]
    exact erase_perm_of_perm (hperm.symm.trans List.perm_append_comm)
  rw [sortCards_eq_of_perm herase, sortCards_eq_self (List.pairwise_append.mp hsorted).1]
  exact isCardsPureStraight_init (by omega) hpure

end Erase

end SparkFrame.Cards
