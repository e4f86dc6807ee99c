import SparkFrame.Cards.Check
import SparkFrame.Lib.Gaps

/-!
# What the shape tests accept

Each test is read off the non-jokers of the list, in their order, and the number of jokers.

* `plain`, `wild` : the non-jokers and the jokers of a list;
* `Links` : neighbours of one color and different points; `isCardsStraight_iff` : the straight test
  is a chain of links whose gaps, with the ace high or low, the jokers fill;
* `Rising`, `Fits` : ascending cards of one color, and the jokers that fill them to a straight;
  `isCardsStraight_sort_iff`, `isCardsPureStraight_iff` : the two tests in these terms;
* `OneRank`, `isCardsThreeOfKind_of_oneRank` : enough for the set test.
-/

namespace SparkFrame.Cards

open PokerCard SparkFrame.Lib

/-! ## Non-jokers and jokers -/

def plain (jp : Int) (cards : List PokerCard) : List PokerCard := cards.filter fun c => !isJoker c jp

def wild (jp : Int) (cards : List PokerCard) : List PokerCard := cards.filter (isJoker · jp)

def points (cards : List PokerCard) : List ℕ := cards.map point

theorem isJoker_eq_of_point {a b : PokerCard} {jp : Int} (h : a.point = b.point) :
    isJoker a jp = isJoker b jp := by
  unfold isJoker
  rw [h]

section Split

variable {jp : Int} {cards : List PokerCard}

theorem mem_plain {c : PokerCard} : c ∈ plain jp cards ↔ c ∈ cards ∧ isJoker c jp = false := by
  simp [plain]

theorem mem_wild {c : PokerCard} : c ∈ wild jp cards ↔ c ∈ cards ∧ isJoker c jp = true := by
  simp [wild]

theorem plain_perm {l₁ l₂ : List PokerCard} (h : l₁.Perm l₂) : (plain jp l₁).Perm (plain jp l₂) :=
  h.filter _

theorem wild_perm {l₁ l₂ : List PokerCard} (h : l₁.Perm l₂) : (wild jp l₁).Perm (wild jp l₂) :=
  h.filter _

theorem wild_append_plain_perm (jp : Int) (cards : List PokerCard) :
    (wild jp cards ++ plain jp cards).Perm cards := List.filter_append_perm _ _

theorem length_wild_add_length_plain (jp : Int) (cards : List PokerCard) :
    (wild jp cards).length + (plain jp cards).length = cards.length := by
  rw [← List.length_append, (wild_append_plain_perm jp cards).length_eq]

theorem plain_sorted (h : cards.Pairwise PokerCard.le) : (plain jp cards).Pairwise PokerCard.le :=
  h.filter _

theorem plain_cons_of_isJoker {c : PokerCard} (h : isJoker c jp = true) :
    plain jp (c :: cards) = plain jp cards := by simp [plain, h]

theorem plain_cons_of_not {c : PokerCard} (h : isJoker c jp = false) :
    plain jp (c :: cards) = c :: plain jp cards := by simp [plain, h]

theorem wild_cons_of_isJoker {c : PokerCard} (h : isJoker c jp = true) :
    wild jp (c :: cards) = c :: wild jp cards := by simp [wild, h]

theorem wild_cons_of_not {c : PokerCard} (h : isJoker c jp = false) :
    wild jp (c :: cards) = wild jp cards := by simp [wild, h]

end Split

/-! ## Straights -/

/-- Two neighbouring non-jokers the straight test lets pass. -/
def Links (a b : PokerCard) : Prop := a.color = b.color ∧ a.point ≠ b.point

instance : DecidableRel Links := fun _ _ => inferInstanceAs (Decidable (_ ∧ _))

theorem gapBetween_eq (a b : PokerCard) :
    gapBetween a b = if Links a b then some ((b.point : Int) - a.point - 1) else none := by
  unfold gapBetween Links
  by_cases hc : a.color = b.color
  · by_cases hp : a.point = b.point
    · simp [hc, hp]
    · have : ¬ ((b.point : Int) - a.point = 0) := by omega
      simp [hc, hp, this]
  · simp [hc]

theorem gapSum_points_cons_cons (a b : PokerCard) (l : List PokerCard) :
    gapSum (points (a :: b :: l)) = ((b.point : Int) - a.point - 1) + gapSum (points (b :: l)) := rfl

theorem straightScan_eq_some {jp : Int} {cards : List PokerCard} {k : Nat} {need : Int}
    {temp : List PokerCard} {r : Nat × Int × List PokerCard} :
    straightScan jp cards k need temp = some r ↔
      (temp.getLast?.toList ++ plain jp cards).IsChain Links ∧
        r = (k + (wild jp cards).length,
          need + gapSum (points (temp.getLast?.toList ++ plain jp cards)), temp ++ plain jp cards) := by
  induction cards generalizing k need temp with
  | nil => rcases temp.getLast? with _ | last <;> simp [straightScan, plain, wild, points, eq_comm]
  | cons c cards ih =>
    by_cases hc : isJoker c jp = true
    · rw [straightScan, if_pos hc, ih, plain_cons_of_isJoker hc, wild_cons_of_isJoker hc,
        List.length_cons, Nat.add_right_comm, Nat.add_assoc]
    · have hc' := Bool.eq_false_iff.mpr hc
      rw [straightScan, if_neg hc, plain_cons_of_not hc', wild_cons_of_not hc']
      rcases h : temp.getLast? with _ | last
      · simp [ih]
      · simp only [gapBetween_eq, Option.toList_some, List.singleton_append,
          List.isChain_cons_cons, gapSum_points_cons_cons]
        by_cases hl : Links last c
        · simp only [hl, if_true, ih, List.getLast?_concat, Option.toList_some,
            List.singleton_append, true_and, List.append_assoc, add_assoc]
        · simp only [hl, if_false, false_and, reduceCtorEq]

theorem straightScan_start {jp : Int} {cards : List PokerCard} {r : Nat × Int × List PokerCard} :
    straightScan jp cards 0 0 [] = some r ↔ (plain jp cards).IsChain Links ∧
      r = ((wild jp cards).length, gapSum (points (plain jp cards)), plain jp cards) := by
  simp [straightScan_eq_some]

theorem aceLowScan_eq_some {last : Option PokerCard} {need need' : Int} {cs : List PokerCard} :
    aceLowScan last need cs = some need' ↔
      (last.toList ++ cs).IsChain Links ∧ need' = need + gapSum (points (last.toList ++ cs)) := by
  induction cs generalizing need last with
  | nil => rcases last with _ | last <;> simp [aceLowScan, points, eq_comm]
  | cons c cs ih =>
    rcases last with _ | last
    · simp [aceLowScan, ih]
    · rw [aceLowScan, gapBetween_eq]
      simp only [Option.toList_some, List.singleton_append, List.isChain_cons_cons,
        gapSum_points_cons_cons]
      by_cases hl : Links last c
      · simp only [hl, if_true, ih, Option.toList_some, List.singleton_append, true_and, add_assoc]
      · simp only [hl, if_false, false_and, reduceCtorEq]

theorem aceLowScan_start {cs : List PokerCard} {need : Int} :
    aceLowScan none 0 cs = some need ↔ cs.IsChain Links ∧ need = gapSum (points cs) := by
  simp [aceLowScan_eq_some]

/-- The gaps with the ace at the end taken as one. -/
def LowFits (jp : Int) (cards : List PokerCard) (k : Nat) : Prop :=
  jp ≠ A ∧ cards.getLast?.map point = some A ∧
    (sortCards (cards.map aceToOne)).IsChain Links ∧
    gapSum (points (sortCards (cards.map aceToOne))) ≤ k

/-- **The straight test**, for cards in any order. -/
theorem isCardsStraight_iff {jp : Int} {cards : List PokerCard} :
    isCardsStraight cards jp = true ↔
      3 ≤ cards.length ∧ (plain jp cards).IsChain Links ∧
        (gapSum (points (plain jp cards)) ≤ (wild jp cards).length ∨
          LowFits jp (plain jp cards) (wild jp cards).length) := by
  unfold isCardsStraight
  by_cases hlen : cards.length < 3
  · simp only [hlen, if_true, Bool.false_eq_true, false_iff]
    omega
  · rw [if_neg hlen]
    rcases hscan : straightScan jp cards 0 0 [] with _ | ⟨k, need, temp⟩
    · simp only [Bool.false_eq_true, false_iff]
      rintro ⟨-, hch, -⟩
      rw [straightScan_start.mpr ⟨hch, rfl⟩] at hscan
      cases hscan
    · obtain ⟨hch, heq⟩ := straightScan_start.mp hscan
      simp only [Prod.mk.injEq] at heq
      obtain ⟨rfl, rfl, rfl⟩ := heq
      by_cases hneed : gapSum (points (plain jp cards)) ≤ (wild jp cards).length
      · simp only [hneed, if_true, true_iff]
        exact ⟨by omega, hch, Or.inl trivial⟩
      · simp only [hneed, if_false, false_or, LowFits]
        by_cases hA : jp = A ∨ (plain jp cards).getLast?.map point ≠ some A
        · rw [if_pos hA]
          simp only [Bool.false_eq_true, false_iff]
          rintro ⟨-, -, h₁, h₂, -⟩
          exact hA.elim h₁ (fun h => h h₂)
        · rw [if_neg hA]
          simp only [not_or, not_not] at hA
          rcases hlow : aceLowScan none 0 (sortCards ((plain jp cards).map aceToOne)) with _ | need'
          · simp only [Bool.false_eq_true, false_iff]
            rintro ⟨-, -, -, -, hc, -⟩
            rw [aceLowScan_start.mpr ⟨hc, rfl⟩] at hlow
            cases hlow
          · obtain ⟨hc, rfl⟩ := aceLowScan_start.mp hlow
            simp only [decide_eq_true_eq]
            exact ⟨fun h => ⟨by omega, hch, hA.1, hA.2, hc, h⟩, fun h => h.2.2.2.2.2⟩

theorem common_of_pairwise {α β : Type} {l : List α} {f : α → β}
    (h : l.Pairwise fun a b => f a = f b) : ∀ a ∈ l, ∀ b ∈ l, f a = f b := by
  intro a ha b hb
  exact List.Pairwise.forall_of_forall_of_flip (R := fun a b => f a = f b) (fun _ _ => rfl) h
    (h.imp Eq.symm) ha hb

/-! ## Ascending cards of one color -/

/-- Cards of one color in strictly ascending order. -/
def Rising (cards : List PokerCard) : Prop :=
  cards.Pairwise fun a b => a.color = b.color ∧ a.point < b.point

namespace Rising

variable {H : List PokerCard}

theorem sorted (h : Rising H) : H.Pairwise PokerCard.le :=
  List.Pairwise.imp (fun hab => Or.inl hab.2) h

theorem points_lt (h : Rising H) : (points H).Pairwise (· < ·) :=
  List.pairwise_map.mpr (List.Pairwise.imp (fun hab => hab.2) h)

theorem links (h : Rising H) : H.IsChain Links :=
  (List.Pairwise.isChain h).imp fun _ _ hab => ⟨hab.1, hab.2.ne⟩

theorem sublist {K : List PokerCard} (h : Rising H) (hs : K.Sublist H) : Rising K :=
  List.Pairwise.sublist hs h

theorem gapSum_nonneg (h : Rising H) : 0 ≤ gapSum (points H) := Lib.gapSum_nonneg h.points_lt

end Rising

/-- Sorted cards that pass the neighbour test are ascending and of one color. -/
theorem rising_of_links {H : List PokerCard} (hs : H.Pairwise PokerCard.le)
    (hl : H.IsChain Links) : Rising H := by
  have hchain : H.IsChain fun a b => a.color = b.color ∧ a.point < b.point := by
    induction H with
    | nil => exact List.isChain_nil
    | cons a H ih =>
      cases H with
      | nil => exact List.isChain_singleton a
      | cons b H =>
        rw [List.isChain_cons_cons] at hl ⊢
        have hab : PokerCard.le a b := (List.pairwise_cons.mp hs).1 b List.mem_cons_self
        refine ⟨⟨hl.1.1, ?_⟩, ih (List.pairwise_cons.mp hs).2 hl.2⟩
        have hne := hl.1.2
        unfold PokerCard.le at hab
        omega
  have : IsTrans PokerCard fun a b => a.color = b.color ∧ a.point < b.point :=
    ⟨fun _ _ _ h₁ h₂ => ⟨h₁.1.trans h₂.1, h₁.2.trans h₂.2⟩⟩
  exact List.isChain_iff_pairwise.mp hchain

/-- `k` jokers fill the gaps of the cards, the ace taken high or, at the end, as one. -/
def Fits (H : List PokerCard) (k : Nat) : Prop :=
  3 ≤ H.length + k ∧ (gapSum (points H) ≤ k ∨
    (H.getLast?.map point = some A ∧ gapSum (1 :: points H.dropLast) ≤ k))

theorem sort_aceToOne {H : List PokerCard} {a : PokerCard} (h : Rising (H ++ [a]))
    (ha : a.point = A) (hpos : ∀ c ∈ H, 2 ≤ c.point) :
    sortCards ((H ++ [a]).map aceToOne) = { a with point := 1 } :: H := by
  obtain ⟨hH, -, hlast⟩ := List.pairwise_append.mp h
  have hH' : H.map aceToOne = H := by
    refine (List.map_congr_left fun c hc => ?_).trans (List.map_id H)
    have := (hlast c hc a (List.mem_singleton_self a)).2
    exact if_neg (by omega)
  have hsorted : ({ a with point := 1 } :: H).Pairwise PokerCard.le :=
    List.pairwise_cons.mpr ⟨fun c hc => Or.inl (hpos c hc), Rising.sorted hH⟩
  rw [List.map_append, hH', List.map_singleton, aceToOne, if_pos ha]
  exact (sortCards_eq_of_perm List.perm_append_comm).trans (sortCards_eq_self hsorted)

theorem point_of_not_isJoker {c : PokerCard} {jp : Int} (hv : c.isValidCard = true)
    (h : isJoker c jp = false) : 2 ≤ c.point ∧ c.point ≤ 14 ∧ (c.point : Int) ≠ jp := by
  simp only [isJoker, decide_eq_false_iff_not, not_or, not_le] at h
  simp only [PokerCard.isValidCard, if_neg (not_le.mpr h.2), decide_eq_true_eq] at hv
  exact ⟨hv.2.2.1, hv.2.2.2, h.1⟩

/-- On ascending non-jokers the ace-low branch of the test is the ace-low part of `Fits`. -/
theorem lowFits_iff {jp : Int} {H : List PokerCard} {k : Nat} (h : Rising H)
    (hv : ∀ c ∈ H, c.isValidCard = true ∧ isJoker c jp = false) :
    LowFits jp H k ↔
      H.getLast?.map point = some A ∧ gapSum (1 :: points H.dropLast) ≤ k := by
  rcases List.eq_nil_or_concat H with rfl | ⟨init, a, rfl⟩
  · simp [LowFits]
  · simp only [List.getLast?_append, List.getLast?_singleton, Option.some_or, Option.map_some,
      Option.some.injEq, List.dropLast_concat, LowFits, List.concat_eq_append] at h hv ⊢
    constructor
    · rintro ⟨-, ha, -, hg⟩
      rw [sort_aceToOne h ha fun c hc => (point_of_not_isJoker
        (hv c (List.mem_append_left _ hc)).1 (hv c (List.mem_append_left _ hc)).2).1] at hg
      exact ⟨ha, hg⟩
    · rintro ⟨ha, hg⟩
      have hpos : ∀ c ∈ init, 2 ≤ c.point := fun c hc => (point_of_not_isJoker
        (hv c (List.mem_append_left _ hc)).1 (hv c (List.mem_append_left _ hc)).2).1
      have haj := point_of_not_isJoker (hv a (by simp)).1 (hv a (by simp)).2
      rw [sort_aceToOne h ha hpos]
      refine ⟨fun hjp => haj.2.2 (by rw [ha, hjp]), ha, ?_, hg⟩
      obtain ⟨hH, -, hlast⟩ := List.pairwise_append.mp h
      refine Rising.links (List.pairwise_cons.mpr ⟨fun c hc => ?_, hH⟩)
      exact ⟨(hlast c hc a (List.mem_singleton_self a)).1.symm, hpos c hc⟩

/-- **The straight test on a sorted group.** -/
theorem isCardsStraight_sort_iff {jp : Int} {T : List PokerCard}
    (hv : ∀ c ∈ T, c.isValidCard = true) :
    isCardsStraight (sortCards T) jp = true ↔
      ∃ H, H.Perm (plain jp T) ∧ Rising H ∧ Fits H (wild jp T).length := by
  have hperm := sortCards_perm T
  have hwild : (wild jp (sortCards T)).length = (wild jp T).length := (wild_perm hperm).length_eq
  have hlen := length_wild_add_length_plain jp T
  have hplain : ∀ {H : List PokerCard}, H.Perm (plain jp T) →
      ∀ c ∈ H, c.isValidCard = true ∧ isJoker c jp = false := fun hp c hc =>
    ⟨hv c (mem_plain.mp (hp.mem_iff.mp hc)).1, (mem_plain.mp (hp.mem_iff.mp hc)).2⟩
  rw [isCardsStraight_iff, length_sortCards, hwild]
  constructor
  · rintro ⟨h3, hl, hgap⟩
    have hr := rising_of_links (plain_sorted (sortCards_sorted T)) hl
    have hp : (plain jp (sortCards T)).Perm (plain jp T) := plain_perm hperm
    rw [lowFits_iff hr (hplain hp)] at hgap
    exact ⟨_, hp, hr, by have := hp.length_eq; omega, hgap⟩
  · rintro ⟨H, hp, hr, h3, hgap⟩
    obtain rfl : H = plain jp (sortCards T) :=
      eq_of_perm_of_sorted (hp.trans (plain_perm hperm).symm) hr.sorted
        (plain_sorted (sortCards_sorted T))
    rw [lowFits_iff hr (hplain hp)]
    exact ⟨by have := hp.length_eq; omega, hr.links, hgap⟩

/-! ## Pure straights -/

theorem pureLoop_iff {first last : PokerCard} {cs : List PokerCard} (h : Rising (last :: cs))
    (hA : ∀ c ∈ last :: cs, c.point ≤ 14) :
    pureLoop first last cs = true ↔ gapSum (points (last :: cs)) = 0 ∨
      (first.point = P2 ∧ cs ≠ [] ∧ (last :: cs).getLast?.map point = some A ∧
        gapSum (points (last :: cs).dropLast) = 0) := by
  induction cs generalizing last with
  | nil => simp [pureLoop, points]
  | cons c cs ih =>
    obtain ⟨hlast, hcs⟩ := List.pairwise_cons.mp h
    have hlc := hlast c List.mem_cons_self
    have hAc : c.point ≤ 14 := hA c (by simp)
    have hAl : last.point ≤ 14 := hA last (by simp)
    have hno : ¬ (last.color ≠ c.color ∨ JOKER1 ≤ last.point ∨ JOKER1 ≤ c.point) := by
      simp only [JOKER1, hlc.1, ne_eq, not_true_eq_false, false_or]
      omega
    have hnn := Rising.gapSum_nonneg hcs
    rw [pureLoop, if_neg hno, gapSum_points_cons_cons]
    by_cases hnext : last.point + 1 = c.point
    · have hzero : (c.point : Int) - last.point - 1 = 0 := by omega
      rw [if_neg (not_not.mpr hnext), ih hcs (fun d hd => hA d (List.mem_cons_of_mem _ hd)), hzero,
        zero_add]
      cases cs with
      | nil => simp [points]
      | cons d cs =>
        simp only [List.getLast?_cons_cons, List.dropLast_cons_cons, gapSum_points_cons_cons, hzero,
          zero_add, ne_eq, reduceCtorEq, not_false_eq_true, true_and]
    · have hgap : ¬ ((c.point : Int) - last.point - 1 + gapSum (points (c :: cs)) = 0) := by
        have := hlc.2
        omega
      rw [if_pos hnext]
      simp only [hgap, false_or]
      cases cs with
      | nil => by_cases hcA : c.point = A <;> simp [hcA, points]
      | cons d cs =>
        have hcd := ((List.pairwise_cons.mp hcs).1 d List.mem_cons_self).2
        have hd : d.point ≤ 14 := hA d (by simp)
        have hcA : c.point ≠ A := by simp only [A]; omega
        have hdrop := Rising.gapSum_nonneg (hcs.sublist (List.dropLast_sublist (c :: d :: cs)))
        simp only [hcA, ne_eq, not_false_eq_true, if_true, Bool.false_eq_true, false_iff]
        rintro ⟨-, -, -, hz⟩
        rw [List.dropLast_cons_cons, List.dropLast_cons_cons, gapSum_points_cons_cons] at hz
        rw [List.dropLast_cons_cons] at hdrop
        have := hlc.2
        omega

/-- **The pure test on ascending cards at face value** is a straight that needs no joker. -/
theorem isCardsPureStraight_iff {H : List PokerCard} (h : Rising H)
    (hv : ∀ c ∈ H, 2 ≤ c.point ∧ c.point ≤ 14) :
    isCardsPureStraight H = true ↔ Fits H 0 := by
  cases H with
  | nil => simp [isCardsPureStraight, Fits]
  | cons first cs =>
    have hnn := h.gapSum_nonneg
    have hdrop := Rising.gapSum_nonneg (h.sublist (List.dropLast_sublist (first :: cs)))
    have hfirst := (hv first List.mem_cons_self).1
    simp only [isCardsPureStraight, Fits, Nat.add_zero]
    by_cases hlen : (first :: cs).length < 3
    · simp only [hlen, if_true, Bool.false_eq_true, false_iff]
      omega
    · rw [if_neg hlen, pureLoop_iff h fun c hc => (hv c hc).2]
      obtain ⟨d, cs, rfl⟩ : ∃ d cs', cs = d :: cs' := by
        cases cs with
        | nil => simp at hlen
        | cons d cs => exact ⟨d, cs, rfl⟩
      rw [List.dropLast_cons_cons] at hdrop ⊢
      have hlow : gapSum (1 :: points (first :: (d :: cs).dropLast)) =
          (first.point : Int) - 1 - 1 + gapSum (points (first :: (d :: cs).dropLast)) := rfl
      rw [hlow]
      simp only [P2, Nat.cast_zero, ne_eq, reduceCtorEq, not_false_eq_true, true_and]
      constructor
      · rintro (hz | ⟨h2, ha, hz⟩)
        · exact ⟨by omega, Or.inl hz.le⟩
        · exact ⟨by omega, Or.inr ⟨ha, by omega⟩⟩
      · rintro ⟨-, hz | ⟨ha, hz⟩⟩
        · exact Or.inl (by omega)
        · exact Or.inr ⟨by omega, ha, by omega⟩

/-- Jokers alone never pass the pure test, in any order. -/
theorem isCardsPureStraight_of_wild {jp : Int} {J : List PokerCard}
    (h : ∀ c ∈ J, isJoker c jp = true) : isCardsPureStraight J = false := by
  rcases J with _ | ⟨a, _ | ⟨b, J⟩⟩
  · rfl
  · rfl
  · have ha := h a (by simp)
    have hb := h b (by simp)
    simp only [isJoker, JOKER1] at ha hb
    unfold isCardsPureStraight pureLoop
    simp only [JOKER1, A, P2]
    grind

/-! ## Sets -/

/-- Cards of one point and pairwise different colors. -/
def OneRank (cards : List PokerCard) : Prop :=
  cards.Pairwise fun a b => a.point = b.point ∧ a.color ≠ b.color

theorem OneRank.point_eq {K : List PokerCard} (h : OneRank K) :
    ∀ a ∈ K, ∀ b ∈ K, a.point = b.point :=
  common_of_pairwise (List.Pairwise.imp (fun hab => hab.1) h)

theorem oneRank_perm {l₁ l₂ : List PokerCard} (hp : l₁.Perm l₂) (h : OneRank l₁) : OneRank l₂ :=
  (hp.pairwise_iff fun hab => ⟨hab.1.symm, hab.2.symm⟩).mp h

theorem kindLoop_eq_some {jp : Int} {last : PokerCard} {u : Nat} {cs : List PokerCard}
    (h : OneRank (plain jp (last :: cs))) :
    kindLoop jp last (isJoker last jp) u cs = some (u + (plain jp cs).length) := by
  induction cs generalizing last u with
  | nil => rfl
  | cons c cs ih =>
    have htail : OneRank (plain jp (c :: cs)) :=
      List.Pairwise.sublist ((List.sublist_cons_self last (c :: cs)).filter _) h
    by_cases hc : isJoker c jp = true
    · have ih' := ih (u := u) htail
      rw [hc] at ih'
      rw [kindLoop, if_pos hc, ih', plain_cons_of_isJoker hc]
    · have hc' := Bool.eq_false_iff.mpr hc
      have ih' := ih (u := u + 1) htail
      rw [hc'] at ih'
      have hlink : isJoker last jp = false → last.point = c.point ∧ last.color ≠ c.color := by
        intro hl
        rw [plain_cons_of_not hl, plain_cons_of_not hc'] at h
        exact (List.pairwise_cons.mp h).1 c List.mem_cons_self
      rw [kindLoop, if_neg hc, if_neg, ih', plain_cons_of_not hc', List.length_cons]
      · congr 1
        omega
      · rcases hl : isJoker last jp with _ | _
        · obtain ⟨h₁, h₂⟩ := hlink hl
          simp [h₁, Ne.symm h₂]
        · simp

/-- **Enough for the set test**: three or four cards, two of them non-jokers of one rank. -/
theorem isCardsThreeOfKind_of_oneRank {jp : Int} {cards : List PokerCard} (h3 : 3 ≤ cards.length)
    (h4 : cards.length ≤ 4) (h2 : 2 ≤ (plain jp cards).length) (h : OneRank (plain jp cards)) :
    isCardsThreeOfKind cards jp = true := by
  cases cards with
  | nil => simp at h3
  | cons first rest =>
    have hsize : ¬ ((first :: rest).length < 3 ∨ 4 < (first :: rest).length) := by omega
    simp only [isCardsThreeOfKind, hsize, if_false, kindLoop_eq_some h, decide_eq_true_eq]
    by_cases hf : isJoker first jp = true
    · rw [plain_cons_of_isJoker hf] at h2
      simpa [hf] using h2
    · rw [plain_cons_of_not (Bool.eq_false_iff.mpr hf), List.length_cons] at h2
      simp only [hf, Bool.false_eq_true, if_false]
      omega

theorem isCardsThreeOfKind_length {jp : Int} {cards : List PokerCard}
    (h : isCardsThreeOfKind cards jp = true) : 3 ≤ cards.length ∧ cards.length ≤ 4 := by
  cases cards with
  | nil => simp [isCardsThreeOfKind] at h
  | cons first rest =>
    by_contra hsize
    have hsize' : (first :: rest).length < 3 ∨ 4 < (first :: rest).length := by omega
    simp only [isCardsThreeOfKind, hsize', if_true, Bool.false_eq_true] at h

end SparkFrame.Cards
