import SparkFrame.Cards.Straights

/-!
# Sorted cards that pass the pure test

The test takes them at face value, jokers included, and looks no further than an ace it accepts as a
one.

* `pureLoop_append`, `isCardsPureStraight_init`, `pure_triple` : the first cards pass as well;
* `Consecutive`, `pure_shape` : consecutive cards, or such cards from two on, an ace and anything;
* `fits_of_pure` : the jokers among them fill the gaps of the others;
* `gapSum_ne_of_pure` : with two jokers and at most eleven cards one of them is not needed for that.
-/

namespace SparkFrame.Cards

open PokerCard SparkFrame.Lib

/-! ## The first cards -/

theorem pureLoop_append {first last : PokerCard} {l m : List PokerCard}
    (h : pureLoop first last (l ++ m) = true) : pureLoop first last l = true := by
  induction l generalizing last with
  | nil => rfl
  | cons c l ih =>
    rw [List.cons_append, pureLoop] at h
    rw [pureLoop]
    by_cases hcol : last.color ≠ c.color ∨ JOKER1 ≤ last.point ∨ JOKER1 ≤ c.point
    · rw [if_pos hcol] at h
      cases h
    · rw [if_neg hcol] at h ⊢
      by_cases hnext : last.point + 1 ≠ c.point
      · rw [if_pos hnext] at h ⊢
        exact h
      · rw [if_neg hnext] at h ⊢
        exact ih h

theorem isCardsPureStraight_init {init : List PokerCard} {x : PokerCard} (h3 : 3 ≤ init.length)
    (h : isCardsPureStraight (init ++ [x]) = true) : isCardsPureStraight init = true := by
  rcases init with _ | ⟨first, cs⟩
  · exact absurd h3 (by simp)
  · rw [List.cons_append, isCardsPureStraight] at h
    rw [isCardsPureStraight, if_neg (not_lt.mpr h3)]
    have hlen : ¬ (first :: (cs ++ [x])).length < 3 := by
      simp only [List.length_cons, List.length_append] at h3 ⊢
      omega
    rw [if_neg hlen] at h
    exact pureLoop_append h

theorem pureLoop_cons {first last c : PokerCard} {cs : List PokerCard}
    (h : pureLoop first last (c :: cs) = true) :
    (last.point + 1 = c.point ∧ c.point < JOKER1 ∧ pureLoop first c cs = true) ∨
      (c.point = A ∧ first.point = P2) := by
  rw [pureLoop] at h
  by_cases hcol : last.color ≠ c.color ∨ JOKER1 ≤ last.point ∨ JOKER1 ≤ c.point
  · rw [if_pos hcol] at h
    cases h
  · rw [if_neg hcol] at h
    by_cases hnext : last.point + 1 ≠ c.point
    · rw [if_pos hnext] at h
      by_cases hA : c.point ≠ A
      · rw [if_pos hA] at h
        cases h
      · rw [if_neg hA] at h
        exact Or.inr ⟨not_not.mp hA, of_decide_eq_true h⟩
    · rw [if_neg hnext] at h
      simp only [not_or, not_le] at hcol
      exact Or.inl ⟨not_not.mp hnext, hcol.2.2, h⟩

theorem pure_triple {a b c : PokerCard} (h : isCardsPureStraight [a, b, c] = true) :
    (a.point + 1 = b.point ∧ b.point + 1 = c.point) ∨
    (a.point = 2 ∧ b.point = 3 ∧ c.point = 14) ∨ (a.point = 2 ∧ b.point = 14) := by
  rcases pureLoop_cons h with ⟨hab, -, hbc⟩ | ⟨hb, ha⟩
  · rcases pureLoop_cons hbc with ⟨hbc, -, -⟩ | ⟨hc, ha⟩
    · exact Or.inl ⟨hab, hbc⟩
    · simp only [A, P2] at hc ha
      exact Or.inr (Or.inl ⟨ha, by omega, hc⟩)
  · exact Or.inr (Or.inr ⟨ha, hb⟩)

/-! ## The shape of all the cards -/

/-- Consecutive ranks below the printed jokers. -/
def Consecutive (l : List PokerCard) : Prop :=
  l.IsChain fun a b => a.point + 1 = b.point ∧ b.point < JOKER1

namespace Consecutive

variable {l : List PokerCard}

theorem ascending (h : Consecutive l) :
    l.Pairwise fun a b => a.point < b.point ∧ b.point < JOKER1 := by
  have : IsTrans PokerCard fun a b => a.point < b.point ∧ b.point < JOKER1 :=
    ⟨fun _ _ _ h₁ h₂ => ⟨h₁.1.trans h₂.1, h₂.2⟩⟩
  refine List.isChain_iff_pairwise.mp (List.IsChain.imp ?_ h)
  intro a b hab
  exact ⟨by omega, hab.2⟩

theorem points_lt (h : Consecutive l) : (points l).Pairwise (· < ·) :=
  List.pairwise_map.mpr (h.ascending.imp fun hab => hab.1)

theorem gapSum_eq_zero (h : Consecutive l) : gapSum (points l) = 0 := by
  induction l with
  | nil => rfl
  | cons a l ih =>
    cases l with
    | nil => rfl
    | cons b l =>
      obtain ⟨hab, hl⟩ := List.isChain_cons_cons.mp h
      rw [gapSum_points_cons_cons, ih hl]
      omega

theorem gapSum_plain_le (jp : Int) (h : Consecutive l) :
    gapSum (points (plain jp l)) ≤ (wild jp l).length := by
  have hsub : (points (plain jp l)).Sublist (points l) := List.filter_sublist.map point
  have hle := gapSum_sublist_le hsub h.points_lt
  have hlen := length_wild_add_length_plain jp l
  unfold points at hle
  rw [List.length_map, List.length_map] at hle
  have hzero := h.gapSum_eq_zero
  unfold points at hzero ⊢
  omega

theorem length_wild_le_one (jp : Int) (h : Consecutive l) : (wild jp l).length ≤ 1 := by
  have hpair : (wild jp l).Pairwise fun a b => a.point < b.point ∧ b.point < JOKER1 :=
    h.ascending.sublist List.filter_sublist
  rcases hw : wild jp l with _ | ⟨a, _ | ⟨b, rest⟩⟩
  · simp
  · simp
  · rw [hw] at hpair
    have hab := (List.pairwise_cons.mp hpair).1 b List.mem_cons_self
    have ha := (mem_wild.mp (hw ▸ List.mem_cons_self : a ∈ wild jp l)).2
    have hb := (mem_wild.mp (hw ▸ List.mem_cons_of_mem a List.mem_cons_self : b ∈ wild jp l)).2
    simp only [isJoker, decide_eq_true_eq] at ha hb
    simp only [JOKER1] at ha hb hab
    omega

end Consecutive

theorem pureLoop_shape {first last : PokerCard} {cs : List PokerCard}
    (h : pureLoop first last cs = true) :
    Consecutive (last :: cs) ∨ ∃ run a rest, cs = run ++ a :: rest ∧ Consecutive (last :: run) ∧
      a.point = A ∧ first.point = P2 := by
  induction cs generalizing last with
  | nil => exact Or.inl (List.isChain_singleton last)
  | cons c cs ih =>
    rcases pureLoop_cons h with ⟨hnext, hlt, hcs⟩ | ⟨hA, h2⟩
    · rcases ih hcs with hcon | ⟨run, a, rest, rfl, hcon, hA, h2⟩
      · exact Or.inl (List.isChain_cons_cons.mpr ⟨⟨hnext, hlt⟩, hcon⟩)
      · exact Or.inr ⟨c :: run, a, rest, rfl, List.isChain_cons_cons.mpr ⟨⟨hnext, hlt⟩, hcon⟩,
          hA, h2⟩
    · exact Or.inr ⟨[], c, cs, rfl, List.isChain_singleton last, hA, h2⟩

/-- **Consecutive cards, or such cards from two on, an ace and anything.** -/
theorem pure_shape {T : List PokerCard} (h : isCardsPureStraight T = true) :
    Consecutive T ∨ ∃ first run a rest, T = first :: run ++ a :: rest ∧
      Consecutive (first :: run) ∧ a.point = A ∧ first.point = P2 := by
  rcases T with _ | ⟨first, cs⟩
  · cases h
  · rw [isCardsPureStraight] at h
    by_cases hlen : (first :: cs).length < 3
    · rw [if_pos hlen] at h
      cases h
    · rw [if_neg hlen] at h
      rcases pureLoop_shape h with hcon | ⟨run, a, rest, rfl, hcon, hA, h2⟩
      · exact Or.inl hcon
      · exact Or.inr ⟨first, run, a, rest, rfl, hcon, hA, h2⟩

theorem length_of_pure {T : List PokerCard} (h : isCardsPureStraight T = true) : 3 ≤ T.length := by
  rcases T with _ | ⟨first, cs⟩
  · cases h
  · rw [isCardsPureStraight] at h
    by_contra hlen
    rw [if_pos (not_le.mp hlen)] at h
    cases h

/-! ## The jokers among the cards -/

section Jokers

variable {jp : Int} {run rest T : List PokerCard} {a : PokerCard}

/-- Behind an ace that passed there are only jokers. -/
theorem wild_behind_ace (hs : (run ++ a :: rest).Pairwise PokerCard.le)
    (hv : ∀ c ∈ run ++ a :: rest, c.isValidCard = true)
    (hr : Rising (plain jp (run ++ a :: rest))) (hA : a.point = A) :
    ∀ c ∈ rest, isJoker c jp = true := by
  intro c hc
  by_contra hno
  have hj := Bool.eq_false_iff.mpr hno
  have hpt := point_of_not_isJoker (hv c (by simp [hc])) hj
  have hle := (List.pairwise_cons.mp (List.pairwise_append.mp hs).2.1).1 c hc
  unfold PokerCard.le at hle
  simp only [A] at hA
  have hac : a.point = c.point := by omega
  have hja : isJoker a jp = false := by rw [isJoker_eq_of_point hac, hj]
  rw [plain_append, plain_cons_of_not hja] at hr
  have hlt := (List.pairwise_cons.mp (List.pairwise_append.mp hr).2.1).1 c (mem_plain.mpr ⟨hc, hj⟩)
  omega

/-- **The jokers among sorted cards that pass the pure test fill the gaps of the others.** -/
theorem fits_of_pure (hs : T.Pairwise PokerCard.le) (hv : ∀ c ∈ T, c.isValidCard = true)
    (hr : Rising (plain jp T)) (h : isCardsPureStraight T = true) :
    Fits (plain jp T) (wild jp T).length := by
  have hlen := length_wild_add_length_plain jp T
  have h3 := length_of_pure h
  refine ⟨by omega, ?_⟩
  rcases pure_shape h with hcon | ⟨first, run, a, rest, rfl, hcon, hA, h2⟩
  · exact Or.inl (hcon.gapSum_plain_le jp)
  · have hrest := wild_behind_ace hs hv hr hA
    have hwild : (wild jp (first :: run)).length ≤ (wild jp (first :: run ++ a :: rest)).length :=
      ((List.sublist_append_left _ _).filter _).length_le
    have hle := hcon.gapSum_plain_le jp
    rw [plain_append]
    by_cases hj : isJoker a jp = true
    · rw [plain_cons_of_isJoker hj, plain_eq_nil hrest, List.append_nil]
      exact Or.inl (by omega)
    · rw [plain_cons_of_not (Bool.eq_false_iff.mpr hj), plain_eq_nil hrest, List.getLast?_concat,
        List.dropLast_concat]
      refine Or.inr ⟨congrArg some hA, ?_⟩
      have hone : (1 :: points (first :: run)).Pairwise (· < ·) := by
        refine List.pairwise_cons.mpr ⟨fun p hp => ?_, hcon.points_lt⟩
        have hpt := List.pairwise_cons.mp hcon.points_lt
        simp only [P2] at h2
        rcases List.mem_cons.mp hp with rfl | hp
        · omega
        · have := hpt.1 p hp
          omega
      have hsub : (1 :: points (plain jp (first :: run))).Sublist (1 :: points (first :: run)) :=
        (List.filter_sublist.map point).cons_cons 1
      have hgap := gapSum_sublist_le hsub hone
      have hzero := hcon.gapSum_eq_zero
      have hsplit := length_wild_add_length_plain jp (first :: run)
      rw [gapSum_one_cons, hzero] at hgap
      unfold points at hgap ⊢
      simp only [List.length_cons, List.length_map, P2] at hgap hsplit h2
      omega

/-- **With two jokers or more, and eleven cards at most, the gaps are not as many as the jokers.** -/
theorem gapSum_ne_of_pure (hs : T.Pairwise PokerCard.le) (hv : ∀ c ∈ T, c.isValidCard = true)
    (hr : Rising (plain jp T)) (h : isCardsPureStraight T = true) (h2 : 2 ≤ (wild jp T).length)
    (h11 : T.length ≤ 11) : gapSum (points (plain jp T)) ≠ (wild jp T).length := by
  have hlen := length_wild_add_length_plain jp T
  rcases pure_shape h with hcon | ⟨first, run, a, rest, rfl, hcon, hA, hfirst⟩
  · have := hcon.length_wild_le_one jp
    omega
  · have hrest := wild_behind_ace hs hv hr hA
    have hsplit := length_wild_add_length_plain jp (first :: run)
    have hle := hcon.gapSum_plain_le jp
    have hone := hcon.length_wild_le_one jp
    by_cases hj : isJoker a jp = true
    · have hwild : (wild jp (first :: run ++ a :: rest)).length =
          (wild jp (first :: run)).length + ((wild jp rest).length + 1) := by
        rw [wild_append, List.length_append, wild_cons_of_isJoker hj, List.length_cons]
      rw [plain_append, plain_cons_of_isJoker hj, plain_eq_nil hrest, List.append_nil, hwild]
      omega
    · have hplain : plain jp (first :: run ++ a :: rest) = plain jp (first :: run) ++ [a] := by
        rw [plain_append, plain_cons_of_not (Bool.eq_false_iff.mpr hj), plain_eq_nil hrest]
      rw [hplain] at hlen ⊢
      rcases hH : plain jp (first :: run) with _ | ⟨c, H⟩
      · simp only [List.nil_append, points, List.map_singleton, gapSum_singleton]
        omega
      · -- the cards reach from two or three to the ace
        have hc : c.point ≤ 3 := by
          by_cases hf : isJoker first jp = true
          · rw [plain_cons_of_isJoker hf] at hH
            rcases run with _ | ⟨d, run⟩
            · cases hH
            · have hd := (List.isChain_cons_cons.mp hcon).1
              have hdj : isJoker d jp = false := by
                simp only [isJoker, decide_eq_true_eq] at hf
                simp only [isJoker, decide_eq_false_iff_not]
                simp only [JOKER1, P2] at hf hd hfirst ⊢
                omega
              rw [plain_cons_of_not hdj, List.cons.injEq] at hH
              rw [← hH.1]
              simp only [P2] at hfirst
              omega
          · rw [plain_cons_of_not (Bool.eq_false_iff.mpr hf), List.cons.injEq] at hH
            rw [← hH.1, hfirst]
            decide
        rw [hH] at hlen
        have hgap := gapSum_eq_last_sub_head c.point (points (H ++ [a]))
        have hlast : (c.point :: points (H ++ [a])).getLast (List.cons_ne_nil _ _) = a.point := by
          simp [points]
        rw [hlast] at hgap
        change gapSum (c.point :: points (H ++ [a])) ≠ _
        rw [hgap]
        unfold points
        simp only [List.length_map, List.length_append, List.length_cons, List.length_nil, A] at hlen h11 hA ⊢
        omega

end Jokers

end SparkFrame.Cards
