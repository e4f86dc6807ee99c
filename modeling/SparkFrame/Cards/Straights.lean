import SparkFrame.Cards.Arrange
import SparkFrame.Cards.Shapes

/-!
# The straights a hand holds

* `fillLoop_eq`, `mem_combineWithJokerCard` : the jokers added to a run are those that fill its gaps;
* `IsRun`, `mem_selection` : a straight as non-jokers and jokers; the straights of one selection;
* `PopOk`, `popFlush_ok` : one copy of every rank of a color, ascending, and the other copies;
* `mem_straights` : what `search_straight_flush` finds; `straights_sound`, `straights_complete`.
-/

namespace SparkFrame.Cards

open PokerCard SparkFrame.Lib

/-! ## Filling a run with jokers -/

theorem fillLoop_eq {last : PokerCard} {n : Int} {cs : List PokerCard}
    (h : ∀ c ∈ (last :: cs).dropLast, c.point ≠ A) :
    Combination.fillLoop last n cs = n + gapSum (points (last :: cs)) := by
  induction cs generalizing last n with
  | nil => simp [Combination.fillLoop, points]
  | cons c cs ih =>
    rw [List.dropLast_cons_cons, List.forall_mem_cons] at h
    rw [Combination.fillLoop, if_neg h.1, ih h.2, gapSum_points_cons_cons, Int.add_assoc]

/-- Only the last card of a run can be the ace. -/
theorem Rising.point_ne_ace {H : List PokerCard} (h : Rising H) (hA : ∀ c ∈ H, c.point ≤ 14) :
    ∀ c ∈ H.dropLast, c.point ≠ A := by
  rcases List.eq_nil_or_concat H with rfl | ⟨init, a, rfl⟩
  · simp
  · intro c hc
    rw [List.concat_eq_append, List.dropLast_concat] at hc
    rw [List.concat_eq_append] at h hA
    have hlt := ((List.pairwise_append.mp h).2.2 c hc a (List.mem_singleton_self a)).2
    have ha := hA a (by simp)
    simp only [A]
    omega

/-- The object holds the selections of its jokers. -/
def HasSelections (self : Combination) : Prop :=
  ∀ J, J ∈ self.jokerCombines ↔ J.Sublist self.jokerCards ∧ J ≠ []

theorem freshFor_hasSelections (jp : Int) (cards : List PokerCard) :
    HasSelections (freshFor jp cards) := by
  intro J
  unfold freshFor
  rw [mem_caculateAllCardsCombines]
  constructor
  · intro h
    exact ⟨h.1, List.ne_nil_of_length_pos h.2.1⟩
  · intro h
    exact ⟨h.1, List.length_pos_iff.mpr h.2, h.1.length_le⟩

theorem mem_combineWithJokerCard {self : Combination} (hs : HasSelections self)
    {first : PokerCard} {rest : List PokerCard} {need : Int} (h0 : 0 ≤ need)
    (hneed : Combination.fillLoop first 0 rest = need) {g : CardGroup} :
    g ∈ self.combineWithJokerCard (first :: rest) ↔
      ∃ J, (J.Sublist self.jokerCards ∧ J ≠ []) ∧ need ≤ J.length ∧
        3 ≤ (first :: rest).length + J.length ∧
        g = { type := GROUP_STAIGHT, cards := sortCards (first :: rest ++ J) } := by
  unfold Combination.combineWithJokerCard
  rw [Combination.toStraightFillJokerNum, hneed]
  have hlen : 1 ≤ (first :: rest).length := Nat.succ_le_succ (Nat.zero_le _)
  generalize hcards : first :: rest = cards at *
  have hmin : ∃ m : Int, 1 ≤ m ∧ need ≤ m ∧ 3 ≤ cards.length + m ∧
      (∀ n : ℕ, 1 ≤ n → need ≤ n → 3 ≤ cards.length + n → m ≤ n) ∧
      (if (if (cards.length : Int) + need < 3 then need + (3 - (cards.length + need)) else need) = 0
        then 1 else
        if (cards.length : Int) + need < 3 then need + (3 - (cards.length + need)) else need) = m := by
    refine ⟨_, ?_, ?_, ?_, ?_, rfl⟩
    · split <;> split <;> omega
    · split <;> split <;> omega
    · split <;> split <;> omega
    · intro n h1 h2 h3
      split <;> split <;> omega
  obtain ⟨m, h1, h2, h3, hleast, hm⟩ := hmin
  simp only [hm]
  by_cases hjok : m > self.jokerCards.length
  · simp only [if_pos hjok, if_true, List.not_mem_nil, false_iff]
    rintro ⟨J, ⟨hsub, hne⟩, hJ, h3J, -⟩
    have := hleast J.length (List.length_pos_iff.mpr hne) hJ h3J
    have := hsub.length_le
    omega
  · have hm0 : m ≠ 0 := by omega
    simp only [if_neg hjok, hm0, if_false, List.mem_flatMap, List.mem_map, List.mem_filter,
      List.mem_range, decide_eq_true_eq]
    constructor
    · rintro ⟨d, hd, J, ⟨hJ, hlenJ⟩, rfl⟩
      exact ⟨J, (hs J).mp hJ, by omega, by omega, rfl⟩
    · rintro ⟨J, hJ, hgap, h3J, rfl⟩
      have hle := hleast J.length (List.length_pos_iff.mpr hJ.2) hgap h3J
      have hsub := hJ.1.length_le
      exact ⟨(J.length - m).toNat, by omega, J, ⟨(hs J).mpr hJ, by omega⟩, rfl⟩

/-! ## One selection of non-jokers -/

/-- A straight, as its non-jokers in ascending order and its jokers. -/
structure IsRun (jp : Int) (H J : List PokerCard) : Prop where
  rising : Rising H
  plain : ∀ c ∈ H, isJoker c jp = false
  wild : ∀ c ∈ J, isJoker c jp = true
  fits : Fits H J.length

theorem gapSum_one_cons {x : PokerCard} {xs : List PokerCard} :
    gapSum (1 :: points (x :: xs)) = (x.point : Int) - 1 - 1 + gapSum (points (x :: xs)) := rfl

theorem mem_combine_rising {self : Combination} (hs : HasSelections self) {H : List PokerCard}
    (hne : H ≠ []) (hr : Rising H) (hA : ∀ c ∈ H, c.point ≤ 14) {g : CardGroup} :
    g ∈ self.combineWithJokerCard H ↔
      ∃ J, (J.Sublist self.jokerCards ∧ J ≠ []) ∧ gapSum (points H) ≤ J.length ∧
        3 ≤ H.length + J.length ∧ g = { type := GROUP_STAIGHT, cards := sortCards (H ++ J) } := by
  cases H with
  | nil => exact absurd rfl hne
  | cons first rest =>
    refine mem_combineWithJokerCard hs hr.gapSum_nonneg ?_
    rw [fillLoop_eq (hr.point_ne_ace hA), zero_add]

/-- The ace moved to the front, where the fill loop takes it as a one. -/
theorem mem_combine_rotated {self : Combination} (hs : HasSelections self) {H : List PokerCard}
    {a : PokerCard} (ha : a.point = A) (hne : H ≠ []) (hr : Rising (H ++ [a]))
    (hv : ∀ c ∈ H, 2 ≤ c.point ∧ c.point ≤ 14) {g : CardGroup} :
    g ∈ self.combineWithJokerCard (a :: H) ↔
      ∃ J, (J.Sublist self.jokerCards ∧ J ≠ []) ∧ gapSum (1 :: points H) ≤ J.length ∧
        3 ≤ (H ++ [a]).length + J.length ∧
        g = { type := GROUP_STAIGHT, cards := sortCards (H ++ [a] ++ J) } := by
  cases H with
  | nil => exact absurd rfl hne
  | cons x xs =>
    have hH : Rising (x :: xs) := hr.sublist (List.sublist_append_left _ _)
    have hx := (hv x List.mem_cons_self).1
    have hnn := hH.gapSum_nonneg
    have hloop : Combination.fillLoop a 0 (x :: xs) = gapSum (1 :: points (x :: xs)) := by
      rw [Combination.fillLoop, if_pos ha,
        fillLoop_eq (hH.point_ne_ace fun c hc => (hv c hc).2), gapSum_one_cons]
      omega
    have hsort : ∀ J, sortCards (a :: x :: xs ++ J) = sortCards (x :: xs ++ [a] ++ J) := by
      intro J
      refine sortCards_eq_of_perm (List.Perm.append_right J ?_)
      exact (List.perm_append_comm : ([a] ++ (x :: xs)).Perm _)
    rw [mem_combineWithJokerCard hs (by rw [gapSum_one_cons]; omega) hloop]
    simp only [hsort, List.length_append, List.length_cons, List.length_nil]

theorem mem_combine_low {self : Combination} (hs : HasSelections self) {H : List PokerCard}
    (hne : H ≠ []) (hr : Rising H) (hv : ∀ c ∈ H, 2 ≤ c.point ∧ c.point ≤ 14) {g : CardGroup} :
    g ∈ (if 1 < H.length ∧ H.getLast?.map point = some A then
        self.combineWithJokerCard (H.getLast?.toList ++ H.dropLast) else []) ↔
      ∃ J, (J.Sublist self.jokerCards ∧ J ≠ []) ∧ 1 < H.length ∧ H.getLast?.map point = some A ∧
        gapSum (1 :: points H.dropLast) ≤ J.length ∧ 3 ≤ H.length + J.length ∧
        g = { type := GROUP_STAIGHT, cards := sortCards (H ++ J) } := by
  rcases List.eq_nil_or_concat H with rfl | ⟨init, a, rfl⟩
  · exact absurd rfl hne
  · rw [List.concat_eq_append] at hr hv ⊢
    by_cases hif : 1 < (init ++ [a]).length ∧ (init ++ [a]).getLast?.map point = some A
    · have ha : a.point = A := by simpa using hif.2
      have hinit : init ≠ [] := by
        intro hnil
        rw [hnil] at hif
        exact absurd hif.1 (by simp)
      rw [if_pos hif, List.getLast?_concat, List.dropLast_concat, Option.toList_some,
        List.singleton_append, mem_combine_rotated hs ha hinit hr
          (fun c hc => hv c (List.mem_append_left _ hc))]
      constructor
      · rintro ⟨J, hJ, hg, h3, rfl⟩
        exact ⟨J, hJ, hif.1, by simp [ha], hg, h3, rfl⟩
      · rintro ⟨J, hJ, -, -, hg, h3, rfl⟩
        exact ⟨J, hJ, hg, h3, rfl⟩
    · rw [if_neg hif]
      simp only [List.not_mem_nil, false_iff]
      rintro ⟨J, -, h1, h2, -⟩
      exact hif ⟨h1, h2⟩

/-- **The straights made from one selection**: the selection with every set of jokers that fits. -/
theorem mem_selection {self : Combination} (hs : HasSelections self) {H : List PokerCard}
    (hne : H ≠ []) (hr : Rising H) (hv : ∀ c ∈ H, 2 ≤ c.point ∧ c.point ≤ 14) {g : CardGroup} :
    g ∈ (if isCardsPureStraight H then [({ type := GROUP_STAIGHT, cards := H } : CardGroup)] else []) ++
        self.combineWithJokerCard H ++
        (if 1 < H.length ∧ H.getLast?.map point = some A then
          self.combineWithJokerCard (H.getLast?.toList ++ H.dropLast) else []) ↔
      ∃ J, J.Sublist self.jokerCards ∧ Fits H J.length ∧
        g = { type := GROUP_STAIGHT, cards := sortCards (H ++ J) } := by
  have hpure : g ∈ (if isCardsPureStraight H then
        [({ type := GROUP_STAIGHT, cards := H } : CardGroup)] else []) ↔
      Fits H 0 ∧ g = { type := GROUP_STAIGHT, cards := sortCards (H ++ []) } := by
    rw [← isCardsPureStraight_iff hr hv, List.append_nil, sortCards_eq_self hr.sorted]
    by_cases hp : isCardsPureStraight H = true <;> simp [hp]
  rw [List.mem_append, List.mem_append, hpure, mem_combine_rising hs hne hr (fun c hc => (hv c hc).2),
    mem_combine_low hs hne hr hv]
  constructor
  · rintro ((⟨hf, rfl⟩ | ⟨J, hJ, hg, h3, rfl⟩) | ⟨J, hJ, -, ha, hg, h3, rfl⟩)
    · exact ⟨[], List.nil_sublist _, hf, rfl⟩
    · exact ⟨J, hJ.1, ⟨h3, Or.inl hg⟩, rfl⟩
    · exact ⟨J, hJ.1, ⟨h3, Or.inr ⟨ha, hg⟩⟩, rfl⟩
  · rintro ⟨J, hJ, hf, rfl⟩
    by_cases hJne : J = []
    · subst hJne
      exact Or.inl (Or.inl ⟨hf, rfl⟩)
    · rcases hf.2 with hg | ⟨ha, hg⟩
      · exact Or.inl (Or.inr ⟨J, ⟨hJ, hJne⟩, hg, hf.1, rfl⟩)
      · by_cases h1 : 1 < H.length
        · exact Or.inr ⟨J, ⟨hJ, hJne⟩, h1, ha, hg, hf.1, rfl⟩
        · -- a lone ace has no gap either way
          refine Or.inl (Or.inr ⟨J, ⟨hJ, hJne⟩, ?_, hf.1, rfl⟩)
          obtain ⟨c, rfl⟩ := List.length_eq_one_iff.mp
            (by have := List.length_pos_iff.mpr hne; omega : H.length = 1)
          simp [points]

/-! ## The cards of one color -/

/-- What `popFlush` makes of the sorted cards `l`. -/
structure PopOk (jp : Int) (l pop rep : List PokerCard) : Prop where
  perm : (pop ++ rep).Perm (plain jp l)
  points_lt : pop.Pairwise fun a b => a.point < b.point
  cover : ∀ c ∈ plain jp l, ∃ d ∈ pop, d.point = c.point
  rep_sublist : rep.Sublist (plain jp l)

/-- The last card taken has the greatest point so far. -/
theorem PopOk.le_getLast {jp : Int} {l pop rep : List PokerCard} (h : PopOk jp l pop rep)
    {back : PokerCard} (hback : pop.getLast? = some back) : ∀ c ∈ plain jp l, c.point ≤ back.point := by
  intro c hc
  obtain ⟨d, hd, hdc⟩ := h.cover c hc
  obtain ⟨init, rfl⟩ := List.getLast?_eq_some_iff.mp hback
  rcases List.mem_append.mp hd with hinit | hlast
  · have := (List.pairwise_append.mp h.points_lt).2.2 d hinit back (List.mem_singleton_self back)
    omega
  · rw [List.mem_singleton.mp hlast] at hdc
    omega

theorem plain_append (jp : Int) (l m : List PokerCard) :
    plain jp (l ++ m) = plain jp l ++ plain jp m := List.filter_append ..

theorem wild_append (jp : Int) (l m : List PokerCard) :
    wild jp (l ++ m) = wild jp l ++ wild jp m := List.filter_append ..

theorem plain_concat {jp : Int} {l : List PokerCard} {c : PokerCard} (hc : isJoker c jp = false) :
    plain jp (l ++ [c]) = plain jp l ++ [c] := by
  rw [plain_append, plain_cons_of_not hc]
  rfl

section PopStep

variable {jp : Int} {l pop rep : List PokerCard} {c : PokerCard}

theorem PopOk.skip (h : PopOk jp l pop rep) (hc : isJoker c jp = true) :
    PopOk jp (l ++ [c]) pop rep := by
  have hplain : plain jp (l ++ [c]) = plain jp l := by
    rw [plain_append, plain_cons_of_isJoker hc]
    exact List.append_nil _
  exact ⟨hplain ▸ h.perm, h.points_lt, hplain ▸ h.cover, hplain ▸ h.rep_sublist⟩

theorem PopOk.push (h : PopOk jp l pop rep) (hc : isJoker c jp = false)
    (hlt : ∀ d ∈ pop, d.point < c.point) : PopOk jp (l ++ [c]) (pop ++ [c]) rep := by
  refine ⟨?_, ?_, ?_, ?_⟩
  · rw [plain_concat hc, List.append_assoc]
    exact (List.perm_append_comm.append_left pop).trans
      (List.append_assoc .. ▸ h.perm.append_right [c])
  · refine List.pairwise_append.mpr ⟨h.points_lt, List.pairwise_singleton _ _, ?_⟩
    intro d hd e he
    rw [List.mem_singleton.mp he]
    exact hlt d hd
  · rw [plain_concat hc]
    intro d hd
    rcases List.mem_append.mp hd with hd | hd
    · obtain ⟨e, he, hed⟩ := h.cover d hd
      exact ⟨e, List.mem_append_left _ he, hed⟩
    · exact ⟨c, by simp, by rw [List.mem_singleton.mp hd]⟩
  · rw [plain_concat hc]
    exact h.rep_sublist.trans (List.sublist_append_left _ _)

theorem PopOk.again (h : PopOk jp l pop rep) (hc : isJoker c jp = false)
    (hback : ∃ d ∈ pop, d.point = c.point) : PopOk jp (l ++ [c]) pop (rep ++ [c]) := by
  refine ⟨?_, h.points_lt, ?_, ?_⟩
  · rw [plain_concat hc, ← List.append_assoc]
    exact h.perm.append_right [c]
  · rw [plain_concat hc]
    intro d hd
    rcases List.mem_append.mp hd with hd | hd
    · exact h.cover d hd
    · rw [List.mem_singleton.mp hd]
      exact hback
  · rw [plain_concat hc]
    exact h.rep_sublist.append (List.Sublist.refl [c])

end PopStep

theorem popFlush_ok (self : Combination) {l : List PokerCard} (hs : l.Pairwise PokerCard.le) :
    PopOk self.jokerPoint l (self.popFlush l).1 (self.popFlush l).2 := by
  induction l using List.reverseRecOn with
  | nil => exact ⟨List.Perm.refl _, List.Pairwise.nil, by simp [plain], List.Sublist.refl _⟩
  | append_singleton l c ih =>
    obtain ⟨hl, -, hlc⟩ := List.pairwise_append.mp hs
    have ih := ih hl
    unfold Combination.popFlush at ih ⊢
    rw [List.foldl_concat]
    generalize List.foldl _ ([], []) l = acc at ih ⊢
    obtain ⟨pop, rep⟩ := acc
    by_cases hc : isJoker c self.jokerPoint = true
    · simp only [if_pos hc]
      exact ih.skip hc
    · have hc' := Bool.eq_false_iff.mpr hc
      simp only [if_neg hc]
      rcases hback : pop.getLast? with _ | back
      · rw [List.getLast?_eq_none_iff] at hback
        exact ih.push hc' (by simp [hback])
      · have hpop : ∀ d ∈ pop, d ∈ plain self.jokerPoint l := fun d hd =>
          ih.perm.mem_iff.mp (List.mem_append_left _ hd)
        by_cases heq : back.point = c.point
        · simp only [if_pos heq]
          exact ih.again hc' ⟨back, List.mem_of_getLast? hback, heq⟩
        · simp only [if_neg heq]
          refine ih.push hc' fun d hd => ?_
          have hle := ih.le_getLast hback d (hpop d hd)
          have hbc := hlc back (mem_plain.mp (hpop back (List.mem_of_getLast? hback))).1 c
            (List.mem_singleton_self c)
          unfold PokerCard.le at hbc
          omega

/-- The cards of color `col`, sorted. -/
def flushCards (col : Nat) (cards : List PokerCard) : List PokerCard :=
  sortCards (cards.filter fun c => decide (c.color = col))

theorem mem_flushCards {col : Nat} {cards : List PokerCard} {c : PokerCard} :
    c ∈ flushCards col cards ↔ c ∈ cards ∧ c.color = col := by
  simp [flushCards]

section Flush

variable {jp : Int} {col : Nat} {cards pop rep : List PokerCard}

theorem PopOk.mem_plain (h : PopOk jp (flushCards col cards) pop rep) {c : PokerCard}
    (hc : c ∈ pop) : c ∈ plain jp cards ∧ c.color = col := by
  have hm := SparkFrame.Cards.mem_plain.mp (h.perm.mem_iff.mp (List.mem_append_left rep hc))
  have hf := mem_flushCards.mp hm.1
  exact ⟨SparkFrame.Cards.mem_plain.mpr ⟨hf.1, hm.2⟩, hf.2⟩

theorem PopOk.rising (h : PopOk jp (flushCards col cards) pop rep) : Rising pop :=
  h.points_lt.imp_of_mem fun ha hb hab => ⟨(h.mem_plain ha).2.trans (h.mem_plain hb).2.symm, hab⟩

theorem PopOk.mem_pop (h : PopOk jp (flushCards col cards) pop rep) {c : PokerCard}
    (hc : c ∈ plain jp cards) (hcol : c.color = col) : c ∈ pop := by
  have hm := SparkFrame.Cards.mem_plain.mp hc
  obtain ⟨d, hd, hdc⟩ := h.cover c
    (SparkFrame.Cards.mem_plain.mpr ⟨mem_flushCards.mpr ⟨hm.1, hcol⟩, hm.2⟩)
  have hcd : c = d := by
    obtain ⟨cc, cp⟩ := c
    obtain ⟨dc, dp⟩ := d
    have := (h.mem_plain hd).2
    simp_all
  exact hcd ▸ hd

theorem PopOk.subperm (h : PopOk jp (flushCards col cards) pop rep) :
    (pop ++ rep).Subperm (plain jp cards) := by
  have hfl : (plain jp (flushCards col cards)).Subperm (plain jp cards) :=
    ((sortCards_perm _).subperm.trans (List.filter_sublist.subperm)).filter _
  exact h.perm.subperm.trans hfl

/-- With at most two copies of a card in the hand, the second copies ascend as well. -/
theorem PopOk.rising_rep (h : PopOk jp (flushCards col cards) pop rep)
    (h2 : ∀ c, cards.count c ≤ 2) : Rising rep := by
  have hsorted : rep.Pairwise PokerCard.le :=
    List.Pairwise.sublist h.rep_sublist (plain_sorted (sortCards_sorted _))
  have hmem : ∀ c ∈ rep, c ∈ plain jp cards ∧ c.color = col := by
    intro c hc
    have hm := SparkFrame.Cards.mem_plain.mp (h.rep_sublist.subset hc)
    have hf := mem_flushCards.mp hm.1
    exact ⟨SparkFrame.Cards.mem_plain.mpr ⟨hf.1, hm.2⟩, hf.2⟩
  have hnodup : rep.Nodup := by
    rw [List.nodup_iff_count_le_one]
    intro c
    by_cases hc : c ∈ rep
    · have hpop := List.count_pos_iff.mpr (h.mem_pop (hmem c hc).1 (hmem c hc).2)
      have hcount := h.subperm.count_le c
      have hle : (plain jp cards).count c ≤ cards.count c := List.filter_sublist.count_le c
      rw [List.count_append] at hcount
      have := h2 c
      omega
    · rw [List.count_eq_zero_of_not_mem hc]
      exact Nat.zero_le 1
  refine (hsorted.and hnodup).imp_of_mem fun ha hb hab => ?_
  refine ⟨(hmem _ ha).2.trans (hmem _ hb).2.symm, ?_⟩
  have hcol := (hmem _ ha).2.trans (hmem _ hb).2.symm
  rcases hab.1 with hlt | ⟨hpt, -⟩
  · exact hlt
  · exact absurd (by cases ‹PokerCard›; cases ‹PokerCard›; simp_all) hab.2

end Flush

/-! ## Straights -/

theorem mem_searchStraightFlushI {self : Combination} (hs : HasSelections self)
    {pop rep : List PokerCard} (hr : Rising pop) (hv : ∀ c ∈ pop, 2 ≤ c.point ∧ c.point ≤ 14)
    {g : CardGroup} :
    g ∈ self.searchStraightFlushI pop rep ↔
      (∃ H, H.Sublist pop ∧ H ≠ [] ∧ ∃ J, J.Sublist self.jokerCards ∧ Fits H J.length ∧
        g = { type := GROUP_STAIGHT, cards := sortCards (H ++ J) }) ∨
      ∃ R, R.Sublist rep ∧ isCardsPureStraight R = true ∧
        g = { type := GROUP_STAIGHT, cards := R } := by
  have hsel : ∀ n, 1 ≤ n → (g ∈ self.searchStraightFlushSelectN pop n ↔
      ∃ H, (H.Sublist pop ∧ H.length = n) ∧ ∃ J, J.Sublist self.jokerCards ∧ Fits H J.length ∧
        g = { type := GROUP_STAIGHT, cards := sortCards (H ++ J) }) := by
    intro n hn
    unfold Combination.searchStraightFlushSelectN
    by_cases hlt : pop.length < n
    · rw [if_pos hlt]
      refine ⟨fun h => absurd h (List.not_mem_nil), ?_⟩
      rintro ⟨H, ⟨hsub, hlen⟩, -⟩
      have := hsub.length_le
      omega
    · rw [if_neg hlt, List.mem_flatMap]
      refine exists_congr fun H => ?_
      rw [mem_selectCardCombine]
      refine and_congr_right fun hH => ?_
      have hne : H ≠ [] := List.ne_nil_of_length_pos (by omega)
      exact mem_selection hs hne (hr.sublist hH.1) (fun c hc => hv c (hH.1.subset hc))
  unfold Combination.searchStraightFlushI
  rw [List.mem_append, List.mem_flatMap, List.mem_flatMap]
  refine or_congr ⟨?_, ?_⟩ ⟨?_, ?_⟩
  · rintro ⟨n, hn, hg⟩
    rw [List.mem_range'_1] at hn
    obtain ⟨H, ⟨hsub, hlen⟩, hJ⟩ := (hsel n hn.1).mp hg
    exact ⟨H, hsub, List.ne_nil_of_length_pos (by omega), hJ⟩
  · rintro ⟨H, hsub, hne, hJ⟩
    have hpos := List.length_pos_iff.mpr hne
    have hle := hsub.length_le
    exact ⟨H.length, List.mem_range'_1.mpr ⟨hpos, by omega⟩, (hsel _ hpos).mpr ⟨H, ⟨hsub, rfl⟩, hJ⟩⟩
  · rintro ⟨n, -, hg⟩
    rw [List.mem_map] at hg
    obtain ⟨R, hR, rfl⟩ := hg
    rw [List.mem_filter, mem_selectCardCombine] at hR
    exact ⟨R, hR.1.1, hR.2, rfl⟩
  · rintro ⟨R, hsub, hp, rfl⟩
    have hpos : 1 ≤ R.length := by
      rcases R with _ | ⟨a, R⟩
      · simp [isCardsPureStraight] at hp
      · exact Nat.succ_le_succ (Nat.zero_le _)
    have hle := hsub.length_le
    refine ⟨R.length, List.mem_range'_1.mpr ⟨hpos, by omega⟩, List.mem_map.mpr ⟨R, ?_, rfl⟩⟩
    exact List.mem_filter.mpr ⟨mem_selectCardCombine.mpr ⟨hsub, rfl⟩, hp⟩

/-- The first and the other copies of the cards of one color. -/
def popOf (jp : Int) (cards : List PokerCard) (col : Nat) : List PokerCard × List PokerCard :=
  (freshFor jp cards).popFlush (flushCards col cards)

theorem popOf_ok (jp : Int) (cards : List PokerCard) (col : Nat) :
    PopOk jp (flushCards col cards) (popOf jp cards col).1 (popOf jp cards col).2 :=
  popFlush_ok (freshFor jp cards) (sortCards_sorted _)

/-- What the straights of a hand are made of. -/
inductive StraightOf (jp : Int) (cards : List PokerCard) : CardGroup → Prop
  | run (col : Nat) (H J : List PokerCard) (hH : H.Sublist (popOf jp cards col).1) (hne : H ≠ [])
      (hJ : J.Sublist (wild jp cards)) (hfits : Fits H J.length) :
      StraightOf jp cards { type := GROUP_STAIGHT, cards := sortCards (H ++ J) }
  | second (col : Nat) (R : List PokerCard) (hR : R.Sublist (popOf jp cards col).2)
      (hpure : isCardsPureStraight R = true) :
      StraightOf jp cards { type := GROUP_STAIGHT, cards := R }
  | jokers (J : List PokerCard) (hJ : J.Sublist (wild jp cards)) (h3 : 3 ≤ J.length) :
      StraightOf jp cards { type := GROUP_STAIGHT, cards := J }

theorem point_of_mem_pop {jp : Int} {cards : List PokerCard}
    (hv : ∀ c ∈ cards, c.isValidCard = true) (col : Nat) :
    ∀ c ∈ (popOf jp cards col).1, 2 ≤ c.point ∧ c.point ≤ 14 := by
  intro c hc
  have hm := mem_plain.mp ((popOf_ok jp cards col).mem_plain hc).1
  have hp := point_of_not_isJoker (hv c hm.1) hm.2
  exact ⟨hp.1, hp.2.1⟩

theorem mem_flushColors {cards : List PokerCard} {col : Nat} :
    col ∈ Combination.flushColors cards ↔ ∃ c ∈ cards, c.color = col := by
  unfold Combination.flushColors
  rw [(List.perm_insertionSort _ _).mem_iff, List.mem_dedup, List.mem_map]

theorem popOf_eq_nil {jp : Int} {cards : List PokerCard} {col : Nat}
    (h : ¬ ∃ c ∈ cards, c.color = col) : popOf jp cards col = ([], []) := by
  have hnil : cards.filter (fun c => decide (c.color = col)) = [] := by
    rw [List.filter_eq_nil_iff]
    intro c hc hcol
    exact h ⟨c, hc, of_decide_eq_true hcol⟩
  unfold popOf flushCards
  rw [hnil]
  rfl

/-- **What the search finds**, by an object that holds the jokers of the cards. -/
theorem mem_searchStraightFlush {self : Combination} {cards : List PokerCard}
    (hs : HasSelections self) (hj : self.jokerCards = wild self.jokerPoint cards)
    (hv : ∀ c ∈ cards, c.isValidCard = true) {g : CardGroup} :
    g ∈ self.searchStraightFlush cards ↔ StraightOf self.jokerPoint cards g := by
  unfold Combination.searchStraightFlush
  rw [List.mem_append, List.mem_flatMap, List.mem_map]
  have hI : ∀ col, g ∈ self.searchStraightFlushI (popOf self.jokerPoint cards col).1
      (popOf self.jokerPoint cards col).2 ↔ _ := fun col => mem_searchStraightFlushI hs
    (popOf_ok self.jokerPoint cards col).rising (point_of_mem_pop hv col)
  rw [hj] at hI
  constructor
  · rintro (⟨col, -, hg⟩ | ⟨J, hJ, rfl⟩)
    · rcases (hI col).mp hg with ⟨H, hH, hne, J, hJ, hf, rfl⟩ | ⟨R, hR, hp, rfl⟩
      · exact .run col H J hH hne hJ hf
      · exact .second col R hR hp
    · rw [List.mem_filter, hs, hj] at hJ
      exact .jokers J hJ.1.1 (of_decide_eq_true hJ.2)
  · intro hg
    cases hg with
    | run col H J hH hne hJ hf =>
      refine Or.inl ⟨col, ?_, (hI col).mpr (Or.inl ⟨H, hH, hne, J, hJ, hf, rfl⟩)⟩
      rw [mem_flushColors]
      by_contra hno
      rw [popOf_eq_nil hno] at hH
      exact hne (List.sublist_nil.mp hH)
    | second col R hR hp =>
      refine Or.inl ⟨col, ?_, (hI col).mpr (Or.inr ⟨R, hR, hp, rfl⟩)⟩
      rw [mem_flushColors]
      by_contra hno
      rw [popOf_eq_nil hno, List.sublist_nil] at hR
      subst hR
      simp [isCardsPureStraight] at hp
    | jokers J hJ h3 =>
      refine Or.inr ⟨J, List.mem_filter.mpr ⟨(hs J).mpr ⟨?_, ?_⟩, decide_eq_true h3⟩, rfl⟩
      · rw [hj]
        exact hJ
      · exact List.ne_nil_of_length_pos (by omega)

/-- **The straights found in a hand.** -/
theorem mem_straights {jp : Int} {cards : List PokerCard} (hv : ∀ c ∈ cards, c.isValidCard = true)
    {g : CardGroup} : g ∈ straights jp cards ↔ StraightOf jp cards g :=
  mem_searchStraightFlush (freshFor_hasSelections jp cards) rfl hv

theorem StraightOf.type_eq {jp : Int} {cards : List PokerCard} {g : CardGroup}
    (h : StraightOf jp cards g) : g.type = GROUP_STAIGHT := by
  cases h <;> rfl

theorem append_subperm {jp : Int} {cards H J : List PokerCard} (hH : H.Subperm (plain jp cards))
    (hJ : J.Sublist (wild jp cards)) : (H ++ J).Subperm cards :=
  (List.perm_append_comm.subperm.trans
    ((hJ.subperm.append hH))).trans (wild_append_plain_perm jp cards).subperm

theorem StraightOf.subperm {jp : Int} {cards : List PokerCard} {g : CardGroup}
    (h : StraightOf jp cards g) : g.cards.Subperm cards := by
  cases h with
  | run col H J hH hne hJ hf =>
    have hpop := (List.sublist_append_left _ _).subperm.trans (popOf_ok jp cards col).subperm
    exact (sortCards_perm _).subperm.trans (append_subperm (hH.subperm.trans hpop) hJ)
  | second col R hR hp =>
    have hrep := (List.sublist_append_right _ _).subperm.trans (popOf_ok jp cards col).subperm
    exact (hR.subperm.trans hrep).trans List.filter_sublist.subperm
  | jokers J hJ h3 => exact hJ.subperm.trans List.filter_sublist.subperm

theorem isRun_of_pure {jp : Int} {R : List PokerCard} (hr : Rising R)
    (hR : ∀ c ∈ R, c.isValidCard = true ∧ isJoker c jp = false)
    (hp : isCardsPureStraight R = true) : IsRun jp R [] := by
  refine ⟨hr, fun c hc => (hR c hc).2, by simp, ?_⟩
  have hv : ∀ c ∈ R, 2 ≤ c.point ∧ c.point ≤ 14 := by
    intro c hc
    have := point_of_not_isJoker (hR c hc).1 (hR c hc).2
    exact ⟨this.1, this.2.1⟩
  exact (isCardsPureStraight_iff hr hv).mp hp

/-- **Every straight found is one**, and its cards are sorted unless they are all jokers. -/
theorem straights_sound {jp : Int} {cards : List PokerCard}
    (hv : ∀ c ∈ cards, c.isValidCard = true) (h2 : ∀ c, cards.count c ≤ 2) {g : CardGroup}
    (hg : g ∈ straights jp cards) :
    ∃ H J, IsRun jp H J ∧ g.cards.Perm (H ++ J) ∧ (g.cards.Pairwise PokerCard.le ∨ H = []) := by
  rw [mem_straights hv] at hg
  cases hg with
  | run col H J hH hne hJ hf =>
    have hpop := popOf_ok jp cards col
    refine ⟨H, J, ⟨hpop.rising.sublist hH, ?_, ?_, hf⟩, sortCards_perm _, Or.inl (sortCards_sorted _)⟩
    · exact fun c hc => (mem_plain.mp (hpop.mem_plain (hH.subset hc)).1).2
    · exact fun c hc => (mem_wild.mp (hJ.subset hc)).2
  | second col R hR hp =>
    have hpop := popOf_ok jp cards col
    have hr := (hpop.rising_rep h2).sublist hR
    have hRv : ∀ c ∈ R, c.isValidCard = true ∧ isJoker c jp = false := by
      intro c hc
      have hm := mem_plain.mp (hpop.subperm.subset (List.mem_append_right _ (hR.subset hc)))
      exact ⟨hv c hm.1, hm.2⟩
    refine ⟨R, [], isRun_of_pure hr hRv hp, ?_, Or.inl hr.sorted⟩
    rw [List.append_nil]
  | jokers J hJ h3 =>
    refine ⟨[], J, ⟨List.Pairwise.nil, by simp, ?_, ?_⟩, List.Perm.refl _, Or.inr rfl⟩
    · exact fun c hc => (mem_wild.mp (hJ.subset hc)).2
    · exact ⟨by simpa using h3, Or.inl (Int.natCast_nonneg _)⟩

theorem plain_eq_self {jp : Int} {l : List PokerCard} (h : ∀ c ∈ l, isJoker c jp = false) :
    plain jp l = l := List.filter_eq_self.mpr fun c hc => by simp [h c hc]

theorem wild_eq_self {jp : Int} {l : List PokerCard} (h : ∀ c ∈ l, isJoker c jp = true) :
    wild jp l = l := List.filter_eq_self.mpr h

theorem plain_eq_nil {jp : Int} {l : List PokerCard} (h : ∀ c ∈ l, isJoker c jp = true) :
    plain jp l = [] := List.filter_eq_nil_iff.mpr fun c hc => by simp [h c hc]

theorem wild_eq_nil {jp : Int} {l : List PokerCard} (h : ∀ c ∈ l, isJoker c jp = false) :
    wild jp l = [] := List.filter_eq_nil_iff.mpr fun c hc => by simp [h c hc]

section Parts

variable {jp : Int} {H J cards : List PokerCard}

theorem plain_parts (hH : ∀ c ∈ H, isJoker c jp = false) (hJ : ∀ c ∈ J, isJoker c jp = true) :
    plain jp (H ++ J) = H := by
  rw [plain_append, plain_eq_self hH, plain_eq_nil hJ, List.append_nil]

theorem wild_parts (hH : ∀ c ∈ H, isJoker c jp = false) (hJ : ∀ c ∈ J, isJoker c jp = true) :
    wild jp (H ++ J) = J := by
  rw [wild_append, wild_eq_nil hH, wild_eq_self hJ, List.nil_append]

theorem plain_of_perm (h : cards.Perm (H ++ J)) (hH : ∀ c ∈ H, isJoker c jp = false)
    (hJ : ∀ c ∈ J, isJoker c jp = true) : (plain jp cards).Perm H := by
  have hp : (plain jp cards).Perm (plain jp (H ++ J)) := plain_perm h
  rwa [plain_parts hH hJ] at hp

theorem wild_of_perm (h : cards.Perm (H ++ J)) (hH : ∀ c ∈ H, isJoker c jp = false)
    (hJ : ∀ c ∈ J, isJoker c jp = true) : (wild jp cards).Perm J := by
  have hw : (wild jp cards).Perm (wild jp (H ++ J)) := wild_perm h
  rwa [wild_parts hH hJ] at hw

theorem plain_eq_of_sorted (hs : cards.Pairwise PokerCard.le) (h : cards.Perm (H ++ J))
    (hr : Rising H) (hH : ∀ c ∈ H, isJoker c jp = false) (hJ : ∀ c ∈ J, isJoker c jp = true) :
    plain jp cards = H :=
  eq_of_perm_of_sorted (plain_of_perm h hH hJ) (plain_sorted hs) hr.sorted

theorem IsRun.isCardsStraight_sort (h : IsRun jp H J) (hv : ∀ c ∈ cards, c.isValidCard = true)
    (hperm : cards.Perm (H ++ J)) : isCardsStraight (sortCards cards) jp = true := by
  rw [isCardsStraight_sort_iff hv]
  refine ⟨H, (plain_of_perm hperm h.plain h.wild).symm, h.rising, ?_⟩
  rw [(wild_of_perm hperm h.plain h.wild).length_eq]
  exact h.fits

theorem plain_subperm (hH : ∀ c ∈ H, isJoker c jp = false) (hJ : ∀ c ∈ J, isJoker c jp = true)
    (h : (H ++ J).Subperm cards) : H.Subperm (plain jp cards) := by
  have hf : (plain jp (H ++ J)).Subperm (plain jp cards) := h.filter _
  rwa [plain_parts hH hJ] at hf

theorem exists_wild_sublist (hH : ∀ c ∈ H, isJoker c jp = false)
    (hJ : ∀ c ∈ J, isJoker c jp = true) (h : (H ++ J).Subperm cards) :
    ∃ J' : List PokerCard, J'.Perm J ∧ J'.Sublist (wild jp cards) := by
  have hf : (wild jp (H ++ J)).Subperm (wild jp cards) := h.filter _
  rwa [wild_parts hH hJ] at hf

end Parts

/-- **Every straight in the hand is found.** -/
theorem straights_complete {jp : Int} {cards H J : List PokerCard}
    (hv : ∀ c ∈ cards, c.isValidCard = true) (hrun : IsRun jp H J)
    (hsub : (H ++ J).Subperm cards) :
    ∃ g ∈ straights jp cards, g.type = GROUP_STAIGHT ∧ g.cards.Perm (H ++ J) := by
  obtain ⟨J', hperm, hJ'⟩ := exists_wild_sublist hrun.plain hrun.wild hsub
  have hfits : Fits H J'.length := hperm.length_eq ▸ hrun.fits
  rcases H with _ | ⟨first, rest⟩
  · refine ⟨_, (mem_straights hv).mpr (.jokers J' hJ' ?_), rfl, hperm⟩
    simpa using hfits.1
  · have hpop := popOf_ok jp cards first.color
    have hplain := plain_subperm hrun.plain hrun.wild hsub
    have hmem : first :: rest ⊆ (popOf jp cards first.color).1 := by
      intro c hc
      refine hpop.mem_pop (hplain.subset hc) ?_
      rcases List.mem_cons.mp hc with rfl | hc
      · rfl
      · exact ((List.pairwise_cons.mp hrun.rising).1 c hc).1.symm
    have hnodup : (first :: rest).Nodup :=
      List.Pairwise.imp (fun hab => by rintro rfl; exact absurd hab.2 (lt_irrefl _)) hrun.rising
    have hsublist : (first :: rest).Sublist (popOf jp cards first.color).1 :=
      List.sublist_of_subperm_of_pairwise (List.subperm_of_subset hnodup hmem) hrun.rising.sorted
        hpop.rising.sorted
    refine ⟨_, (mem_straights hv).mpr (.run first.color _ J' hsublist (List.cons_ne_nil _ _) hJ' hfits),
      rfl, ?_⟩
    exact (sortCards_perm _).trans (hperm.append_left _)

end SparkFrame.Cards
