import SparkFrame.Cards.PureRule
import SparkFrame.Cards.Shapes
import SparkFrame.Lib.Windows

/-!
# The straight test and the rule for straights

The test counts gaps; the rule gives every card a position.

* `Placed`, `StraightRule` : the rule, for a relation that says where a non-joker may stand;
* `exists_positions_iff` : the jokers stand wherever the non-jokers leave room;
* `placed_iff` : for non-jokers whose ranks ascend, room is a matter of gaps;
* `isCardsStraight_iff_straightRule` : **the test follows the rule, with all aces high or all aces
  low**; `straight_twoAces` : a run with an ace at either end.
-/

namespace SparkFrame.Cards

open PokerCard SparkFrame.Lib

/-- The cards take distinct positions in a row out of `1, .., 14`, non-jokers where they may
stand. -/
def Placed (jp : Int) (stands : PokerCard → ℕ → Prop) (cards : List PokerCard) : Prop :=
  ∃ lo positions, 1 ≤ lo ∧ lo + cards.length ≤ 15 ∧
    positions.Perm (List.range' lo cards.length) ∧
    List.Forall₂ (fun c p => isJoker c jp = false → stands c p) cards positions

/-- Three cards or more, the non-jokers of one suit, in a row once the jokers have their ranks. -/
structure StraightRule (jp : Int) (stands : PokerCard → ℕ → Prop) (cards : List PokerCard) :
    Prop where
  three : 3 ≤ cards.length
  suit : ∀ a ∈ plain jp cards, ∀ b ∈ plain jp cards, a.color = b.color
  placed : Placed jp stands cards

/-! ## Positions -/

section Positions

variable {jp : Int} {cards : List PokerCard} {f : PokerCard → ℕ} {positions free : List ℕ}

theorem exists_free (h : List.Forall₂ (fun c p => isJoker c jp = false → p = f c) cards positions) :
    ∃ free, ((plain jp cards).map f ++ free).Perm positions := by
  induction h with
  | nil => exact ⟨[], List.Perm.nil⟩
  | @cons c p cards positions hc _ ih =>
    obtain ⟨free, ih⟩ := ih
    by_cases hj : isJoker c jp = true
    · rw [plain_cons_of_isJoker hj]
      exact ⟨p :: free, List.perm_middle.trans (ih.cons p)⟩
    · have hj' := Bool.eq_false_iff.mpr hj
      rw [plain_cons_of_not hj', List.map_cons, ← hc hj']
      exact ⟨free, ih.cons p⟩

theorem exists_positions (h : free.length = (wild jp cards).length) :
    ∃ positions, List.Forall₂ (fun c p => isJoker c jp = false → p = f c) cards positions ∧
      positions.Perm ((plain jp cards).map f ++ free) := by
  induction cards generalizing free with
  | nil =>
    obtain rfl := List.length_eq_zero_iff.mp h
    exact ⟨[], List.Forall₂.nil, List.Perm.nil⟩
  | cons c cards ih =>
    by_cases hj : isJoker c jp = true
    · rw [wild_cons_of_isJoker hj, List.length_cons] at h
      rcases free with _ | ⟨p, free⟩
      · cases h
      · obtain ⟨positions, hfor, hperm⟩ := ih (Nat.succ.inj h)
        rw [plain_cons_of_isJoker hj]
        refine ⟨p :: positions, List.Forall₂.cons (fun hno => absurd hj (by simp [hno])) hfor, ?_⟩
        exact (hperm.cons p).trans List.perm_middle.symm
    · have hj' := Bool.eq_false_iff.mpr hj
      rw [wild_cons_of_not hj'] at h
      obtain ⟨positions, hfor, hperm⟩ := ih h
      rw [plain_cons_of_not hj']
      exact ⟨f c :: positions, List.Forall₂.cons (fun _ => rfl) hfor, hperm.cons (f c)⟩

/-- **Jokers fill up.** Positions for all cards are positions for the non-jokers and others. -/
theorem exists_positions_iff {row : List ℕ} (hrow : row.length = cards.length) :
    (∃ positions, positions.Perm row ∧
      List.Forall₂ (fun c p => isJoker c jp = false → p = f c) cards positions) ↔
      ∃ free, ((plain jp cards).map f ++ free).Perm row := by
  constructor
  · rintro ⟨positions, hperm, hfor⟩
    exact (exists_free hfor).imp fun _ hfree => hfree.trans hperm
  · rintro ⟨free, hperm⟩
    have hlen := hperm.length_eq
    rw [List.length_append, List.length_map, hrow, ← length_wild_add_length_plain jp cards] at hlen
    have hfree : free.length = (wild jp cards).length := by omega
    obtain ⟨positions, hfor, hpos⟩ := exists_positions (f := f) hfree
    exact ⟨positions, hpos.trans hperm, hfor⟩

theorem placed_iff_window : Placed jp (fun c p => p = f c) cards ↔
    ((plain jp cards).map f).Nodup ∧ ∃ lo, 1 ≤ lo ∧ lo + cards.length ≤ 15 ∧
      ∀ x ∈ (plain jp cards).map f, lo ≤ x ∧ x < lo + cards.length := by
  have hrow : ∀ lo, (∃ positions, positions.Perm (List.range' lo cards.length) ∧
      List.Forall₂ (fun c p => isJoker c jp = false → p = f c) cards positions) ↔
      ((plain jp cards).map f).Nodup ∧
        ∀ x ∈ (plain jp cards).map f, lo ≤ x ∧ x < lo + cards.length := fun lo =>
    (exists_positions_iff List.length_range').trans exists_append_perm_range'_iff
  constructor
  · rintro ⟨lo, positions, h1, h15, hperm, hfor⟩
    obtain ⟨hnodup, hin⟩ := (hrow lo).mp ⟨positions, hperm, hfor⟩
    exact ⟨hnodup, lo, h1, h15, hin⟩
  · rintro ⟨hnodup, lo, h1, h15, hin⟩
    obtain ⟨positions, hperm, hfor⟩ := (hrow lo).mpr ⟨hnodup, hin⟩
    exact ⟨lo, positions, h1, h15, hperm, hfor⟩

/-- **Room is a matter of gaps** when the ranks of the non-jokers, put in order, ascend. -/
theorem placed_iff {l : List ℕ} (hperm : ((plain jp cards).map f).Perm l)
    (hlt : l.Pairwise (· < ·)) (hin : ∀ x ∈ l, 1 ≤ x ∧ x ≤ 14) (hn : cards.length ≤ 14) :
    Placed jp (fun c p => p = f c) cards ↔ gapSum l ≤ (wild jp cards).length := by
  have hlen := length_wild_add_length_plain jp cards
  have hl := hperm.length_eq
  rw [List.length_map] at hl
  have hnodup : ((plain jp cards).map f).Nodup :=
    hperm.nodup_iff.mpr (hlt.imp fun h => h.ne)
  have hwindow := exists_window_iff hlt hin hn
  rw [placed_iff_window, and_iff_right hnodup]
  simp only [hperm.mem_iff]
  rw [hwindow]
  omega

end Positions

/-! ## The test and the rule -/

section Rule

variable {jp : Int} {cards H : List PokerCard}

theorem isCardsStraight_sorted_iff (hs : cards.Pairwise PokerCard.le)
    (hv : ∀ c ∈ cards, c.isValidCard = true) :
    isCardsStraight cards jp = true ↔
      Rising (plain jp cards) ∧ Fits (plain jp cards) (wild jp cards).length := by
  have h : isCardsStraight (sortCards cards) jp = true ↔ _ := isCardsStraight_sort_iff hv
  rw [sortCards_eq_self hs] at h
  rw [h]
  constructor
  · rintro ⟨H, hperm, hrise, hfits⟩
    obtain rfl := eq_of_perm_of_sorted hperm hrise.sorted (plain_sorted hs)
    exact ⟨hrise, hfits⟩
  · rintro ⟨hrise, hfits⟩
    exact ⟨plain jp cards, List.Perm.refl _, hrise, hfits⟩

theorem plain_points (hv : ∀ c ∈ cards, c.isValidCard = true) :
    ∀ c ∈ plain jp cards, 2 ≤ c.point ∧ c.point ≤ 14 := fun c hc =>
  have hc := mem_plain.mp hc
  have h := point_of_not_isJoker (hv c hc.1) hc.2
  ⟨h.1, h.2.1⟩

theorem points_bounds (hv : ∀ c ∈ H, 2 ≤ c.point ∧ c.point ≤ 14) :
    ∀ x ∈ points H, 1 ≤ x ∧ x ≤ 14 := by
  intro x hx
  obtain ⟨c, hc, rfl⟩ := List.mem_map.mp hx
  have := hv c hc
  omega

/-- With the ace of ascending cards as a one, their ranks ascend from it. -/
theorem Rising.low_ranks {init : List PokerCard} {a : PokerCard} (h : Rising (init ++ [a]))
    (hv : ∀ c ∈ init ++ [a], 2 ≤ c.point ∧ c.point ≤ 14) (ha : a.point = A) :
    ((init ++ [a]).map (rank 1)).Perm (1 :: points init) ∧
      (1 :: points init).Pairwise (· < ·) ∧ ∀ x ∈ 1 :: points init, 1 ≤ x ∧ x ≤ 14 := by
  obtain ⟨hinit, -, hlast⟩ := List.pairwise_append.mp h
  have hv' : ∀ c ∈ init, 2 ≤ c.point ∧ c.point ≤ 14 := fun c hc => hv c (List.mem_append_left _ hc)
  have hother : ∀ c ∈ init, c.point ≠ A := fun c hc hcA => by
    have := (hlast c hc a (List.mem_singleton_self a)).2
    omega
  refine ⟨?_, List.pairwise_cons.mpr ⟨fun p hp => ?_, Rising.points_lt hinit⟩,
    List.forall_mem_cons.mpr ⟨by omega, points_bounds hv'⟩⟩
  · rw [List.map_append, map_rank_of_no_ace hother, List.map_singleton, rank, if_pos ha]
    exact List.perm_append_comm
  · obtain ⟨c, hc, rfl⟩ := List.mem_map.mp hp
    exact (hv' c hc).1

theorem rising_of_ranks {ace : ℕ} (hs : H.Pairwise PokerCard.le)
    (hsuit : ∀ a ∈ H, ∀ b ∈ H, a.color = b.color) (hnodup : (H.map (rank ace)).Nodup) :
    Rising H := by
  have hne : H.Pairwise fun a b => rank ace a ≠ rank ace b := List.pairwise_map.mp hnodup
  refine List.Pairwise.imp_of_mem (fun {a b} ha hb hab => ⟨hsuit a ha b hb, ?_⟩) (hs.and hne)
  have hpoint : a.point ≠ b.point := by
    intro heq
    apply hab.2
    rw [rank, rank, heq]
  have hle := hab.1
  unfold PokerCard.le at hle
  omega

theorem Rising.suit (h : Rising H) : ∀ a ∈ H, ∀ b ∈ H, a.color = b.color :=
  common_of_pairwise (List.Pairwise.imp (fun hab => hab.1) h)

theorem placed_high_iff (hrise : Rising (plain jp cards))
    (hpoints : ∀ c ∈ plain jp cards, 2 ≤ c.point ∧ c.point ≤ 14) (hn : cards.length ≤ 14) {ace : ℕ}
    (hace : ace = A ∨ ∀ c ∈ plain jp cards, c.point ≠ A) :
    Placed jp (fun c p => p = rank ace c) cards ↔
      gapSum (points (plain jp cards)) ≤ (wild jp cards).length :=
  placed_iff (List.Perm.of_eq (points_of_rank hace)) hrise.points_lt (points_bounds hpoints) hn

theorem placed_low_iff (hrise : Rising (plain jp cards))
    (hpoints : ∀ c ∈ plain jp cards, 2 ≤ c.point ∧ c.point ≤ 14) (hn : cards.length ≤ 14)
    {init : List PokerCard} {a : PokerCard} (hinit : plain jp cards = init ++ [a])
    (ha : a.point = A) :
    Placed jp (fun c p => p = rank 1 c) cards ↔
      gapSum (1 :: points init) ≤ (wild jp cards).length := by
  rw [hinit] at hrise hpoints
  obtain ⟨hperm, hlt, hin⟩ := hrise.low_ranks hpoints ha
  rw [← hinit] at hperm
  exact placed_iff hperm hlt hin hn

/-- **The test follows the rule, with all aces high or all aces low.** -/
theorem isCardsStraight_iff_straightRule (hs : cards.Pairwise PokerCard.le)
    (hv : ∀ c ∈ cards, c.isValidCard = true) (hn : cards.length ≤ 14) :
    isCardsStraight cards jp = true ↔
      ∃ ace, (ace = A ∨ ace = 1) ∧ StraightRule jp (fun c p => p = rank ace c) cards := by
  have hpoints : ∀ c ∈ plain jp cards, 2 ≤ c.point ∧ c.point ≤ 14 := plain_points hv
  have hunprinted : ∀ c ∈ plain jp cards, c.point < JOKER1 := fun c hc =>
    Nat.lt_succ_of_le (hpoints c hc).2
  have hlen := length_wild_add_length_plain jp cards
  rw [isCardsStraight_sorted_iff hs hv]
  constructor
  · rintro ⟨hrise, h3, hgap | ⟨hlast, hgap⟩⟩
    · exact ⟨A, Or.inl rfl, by omega, hrise.suit,
        (placed_high_iff hrise hpoints hn (Or.inl rfl)).mpr hgap⟩
    · obtain ⟨c, hc, hcA⟩ := Option.map_eq_some_iff.mp hlast
      obtain ⟨init, a, hinit, ha⟩ := exists_concat_ace (plain_sorted hs) hunprinted
        ⟨c, List.mem_of_getLast? hc, hcA⟩
      rw [hinit, List.dropLast_concat] at hgap
      exact ⟨1, Or.inr rfl, by omega, hrise.suit,
        (placed_low_iff hrise hpoints hn hinit ha).mpr hgap⟩
  · rintro ⟨ace, hace, h3, hsuit, hplaced⟩
    have hrise := rising_of_ranks (plain_sorted hs) hsuit (placed_iff_window.mp hplaced).1
    refine ⟨hrise, by omega, ?_⟩
    by_cases hhigh : ace = A ∨ ∀ c ∈ plain jp cards, c.point ≠ A
    · exact Or.inl ((placed_high_iff hrise hpoints hn hhigh).mp hplaced)
    · rw [not_or] at hhigh
      obtain rfl := hace.resolve_left hhigh.1
      obtain ⟨init, a, hinit, ha⟩ := exists_concat_ace (plain_sorted hs) hunprinted
        (by simpa using hhigh.2)
      refine Or.inr ⟨?_, ?_⟩
      · rw [hinit, List.getLast?_concat, Option.map_some, ha]
      · rw [hinit, List.dropLast_concat]
        exact (placed_low_iff hrise hpoints hn hinit ha).mp hplaced

end Rule

/-- Ace, two and a wild nine. -/
theorem straight_aceLow : isCardsStraight [⟨1, 2⟩, ⟨2, 9⟩, ⟨1, 14⟩] 9 = true ↔
    ∃ ace, (ace = A ∨ ace = 1) ∧
      StraightRule 9 (fun c p => p = rank ace c) [⟨1, 2⟩, ⟨2, 9⟩, ⟨1, 14⟩] :=
  isCardsStraight_iff_straightRule (by decide) (by decide) (by decide)

/-- **An ace at either end.** Two aces and all other ranks of a suit have positions `1, .., 14`, and
the test rejects them. -/
theorem straight_twoAces :
    ¬ ∀ (jp : Int) (cards : List PokerCard), cards.Pairwise PokerCard.le →
      (∀ c ∈ cards, c.isValidCard = true) → cards.length ≤ 14 →
      (isCardsStraight cards jp = true ↔
        StraightRule jp (fun c p => p = rank A c ∨ p = rank 1 c) cards) := by
  intro h
  have hiff := h 0 ((List.range' 2 13).map (⟨1, ·⟩) ++ [⟨1, 14⟩]) (by decide) (by decide) (by decide)
  refine absurd (hiff.mpr ⟨by decide, by decide, 1, List.range' 2 13 ++ [1], by decide, by decide,
    by decide, ?_⟩) (by decide)
  simp [List.range'_succ, rank, A]

end SparkFrame.Cards
