import SparkFrame.Cards.Check

/-!
# Winning declarations against losing ones

A winning declaration should be a losing one with nothing left over and both lives.

* `NothingLeft` : that description, in terms of `checkLoseDeclare`;
* `Flawed` : a fault both validators see;
* `isGroupsDeclare_iff_nothingLeft` : the two agree exactly when every group has one of the three
  known types or there is such a fault: `is_groups_declare` lets an unknown type pass.
-/

namespace SparkFrame.Cards

open CardGroup

/-- `check_lose_declare` accepts with score 0, nothing is typed as left over, and both lives are
there. -/
def NothingLeft (groups : List CardGroup) (jp : Int) : Prop :=
  checkLoseDeclare groups jp = (true, 0) ∧ (∀ g ∈ groups, g.type ≠ GROUP_INVALID) ∧
    2 ≤ groups.countP isStraight ∧ ∃ g ∈ groups, g.isPure = true

instance (groups : List CardGroup) (jp : Int) : Decidable (NothingLeft groups jp) :=
  inferInstanceAs (Decidable (_ ∧ _))

/-- Some group is left over, or is typed as a shape it does not have, or a life is missing. -/
def Flawed (groups : List CardGroup) (jp : Int) : Prop :=
  (∃ g ∈ groups, g.type = GROUP_INVALID) ∨
  (∃ g ∈ groups, g.type = GROUP_STAIGHT ∧ isCardsStraight (sortCards g.cards) jp = false) ∨
  (∃ g ∈ groups, g.type = GROUP_THREE_KIND ∧ isCardsThreeOfKind (sortCards g.cards) jp = false) ∨
  groups.countP isStraight < 2 ∨ ∀ g ∈ groups, g.isPure = false

theorem straightOk_eq_true {jp : Int} {g : CardGroup} : g.straightOk jp = true ↔
    ¬ (g.type = GROUP_STAIGHT ∧ isCardsStraight (sortCards g.cards) jp = false) := by
  simp [straightOk, isStraight, imp_iff_not_or]

theorem kindOk_eq_true {jp : Int} {g : CardGroup} : g.kindOk jp = true ↔
    ¬ (g.type = GROUP_THREE_KIND ∧ isCardsThreeOfKind (sortCards g.cards) jp = false) := by
  simp [kindOk, imp_iff_not_or]

theorem one_le_countP_isPure {groups : List CardGroup} :
    1 ≤ groups.countP isPure ↔ ∃ g ∈ groups, g.isPure = true := List.countP_pos_iff

/-- `is_groups_declare` accepts exactly what is not flawed, whatever other types there are. -/
theorem isGroupsDeclare_iff_not_flawed {groups : List CardGroup} {jp : Int} :
    isGroupsDeclare groups jp = true ↔ ¬ Flawed groups jp := by
  rw [isGroupsDeclare_eq_true, one_le_countP_isPure]
  simp only [straightOk_eq_true, kindOk_eq_true, Flawed]
  grind

theorem accepts_of_isKnown {jp : Int} {p s : Nat} {g : CardGroup} (hk : g.isKnown = true)
    (hkind : g.kindOk jp = true) (hp : 1 ≤ p) (hs : 2 ≤ s) : g.accepts jp p s = true := by
  simp only [isKnown, kindOk, accepts] at *
  grind

theorem isKnown_of_accepts {jp : Int} {p s : Nat} {g : CardGroup} (h : g.accepts jp p s = true) :
    g.isKnown = true := by
  simp only [isKnown, accepts] at *
  grind

theorem sum_leftover_eq_zero {groups : List CardGroup} {jp : Int}
    (h : ∀ g ∈ groups, g.type ≠ GROUP_INVALID) : (groups.map (leftover jp)).sum = 0 := by
  refine List.sum_eq_zero fun n hn => ?_
  obtain ⟨g, hg, rfl⟩ := List.mem_map.mp hn
  exact if_neg (h g hg)

/-- The losing checker's description holds exactly of the unflawed lists of known types. -/
theorem nothingLeft_iff {groups : List CardGroup} {jp : Int} :
    NothingLeft groups jp ↔ (∀ g ∈ groups, g.isKnown = true) ∧ ¬ Flawed groups jp := by
  rw [NothingLeft, checkLoseDeclare_eq_true, ← isGroupsDeclare_iff_not_flawed,
    isGroupsDeclare_eq_true, ← one_le_countP_isPure]
  constructor
  · rintro ⟨⟨hall, -⟩, hinv, hs, hp⟩
    exact ⟨fun g hg => isKnown_of_accepts (hall g hg).2,
      fun g hg => ⟨hinv g hg, (hall g hg).1, kindOk_of_accepts (hall g hg).2⟩, hp, hs⟩
  · rintro ⟨hk, hall, hp, hs⟩
    refine ⟨⟨fun g hg => ⟨(hall g hg).2.1, ?_⟩, ?_⟩, fun g hg => (hall g hg).1, hs, hp⟩
    · exact accepts_of_isKnown (hk g hg) (hall g hg).2.2 hp hs
    · exact (sum_leftover_eq_zero fun g hg => (hall g hg).1).symm

/-- **The two validators agree exactly when every type is known or a shared fault decides.** -/
theorem isGroupsDeclare_iff_nothingLeft (groups : List CardGroup) (jp : Int) :
    (isGroupsDeclare groups jp = true ↔ NothingLeft groups jp) ↔
      ((∀ g ∈ groups, g.isKnown = true) ∨ Flawed groups jp) := by
  rw [isGroupsDeclare_iff_not_flawed, nothingLeft_iff]
  by_cases hf : Flawed groups jp <;> simp [hf]

/-- Two pure spade straights and a group of type 3: a win for one validator only. -/
theorem isGroupsDeclare_unknown_type :
    ¬ ∀ (groups : List CardGroup) (jp : Int),
      isGroupsDeclare groups jp = true ↔ NothingLeft groups jp := by
  intro h
  have hdis : ¬ (isGroupsDeclare
        [⟨1, [⟨1, 2⟩, ⟨1, 3⟩, ⟨1, 4⟩]⟩, ⟨1, [⟨1, 5⟩, ⟨1, 6⟩, ⟨1, 7⟩]⟩, ⟨3, [⟨2, 9⟩]⟩] 0 = true ↔
      NothingLeft
        [⟨1, [⟨1, 2⟩, ⟨1, 3⟩, ⟨1, 4⟩]⟩, ⟨1, [⟨1, 5⟩, ⟨1, 6⟩, ⟨1, 7⟩]⟩, ⟨3, [⟨2, 9⟩]⟩] 0) := by
    decide +kernel
  exact hdis (h _ _)

end SparkFrame.Cards
