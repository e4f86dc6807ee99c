import SparkFrame.Cards.Pure
import SparkFrame.Lib.Windows

/-!
# The pure test and the rule for pure straights

At an ace that breaks the run the test decides by the first card and looks no further.

* `rank`, `PureRule` : the rule, with the ace as a fourteen or as a one;
* `SuitRun`, `AceBreak`, `isCardsPureStraight_eq_true` : what the test accepts;
* `pureRule_iff` : what the rule accepts of sorted cards;
* `Overlooks` : there are more cards where the test stops;
* `isCardsPureStraight_iff_pureRule` : **the test follows the rule exactly when it overlooks nothing**;
  `pureStraight_twoAces` : a two and two aces.
-/

namespace SparkFrame.Cards

open PokerCard SparkFrame.Lib

/-! ## The rule -/

/-- The rank of a card when an ace counts as `ace`. -/
def rank (ace : Nat) (c : PokerCard) : Nat := if c.point = A then ace else c.point

/-- Three cards or more, no printed joker, one suit, and ranks in a row with the ace as a fourteen or
as a one. -/
structure PureRule (cards : List PokerCard) : Prop where
  three : 3 ≤ cards.length
  unprinted : ∀ c ∈ cards, c.point < JOKER1
  suit : ∀ a ∈ cards, ∀ b ∈ cards, a.color = b.color
  ranks : ∃ ace, (ace = A ∨ ace = 1) ∧
    ∃ lo, (cards.map (rank ace)).Perm (List.range' lo cards.length)

/-- **What the test overlooks.** A run from two in one suit, the suit's ace, which the test takes as
a one, and more cards behind it, or an ace in the run already. -/
def Overlooks (cards : List PokerCard) : Prop :=
  ∃ run a rest, cards = run ++ a :: rest ∧ points run = List.range' P2 run.length ∧
    (∀ c ∈ run, c.color = a.color) ∧ a.point = A ∧
    (run ≠ [] ∧ run.length < 12 ∧ rest ≠ [] ∨ run.length = 13)

/-! ## What the test accepts -/

/-- Consecutive cards of one suit below the printed jokers. -/
structure SuitRun (cards : List PokerCard) : Prop where
  unprinted : ∀ c ∈ cards, c.point < JOKER1
  chain : cards.IsChain fun a b => a.color = b.color ∧ a.point + 1 = b.point

/-- A run from two and an ace of its suit that does not continue it. -/
structure AceBreak (run : List PokerCard) (a : PokerCard) : Prop where
  suitRun : SuitRun run
  two : run.head?.map point = some P2
  suit : ∀ c ∈ run, c.color = a.color
  ace : a.point = A
  broken : run.length ≠ 12

namespace SuitRun

variable {first c : PokerCard} {cards : List PokerCard}

theorem singleton (h : c.point < JOKER1) : SuitRun [c] :=
  ⟨by simpa using h, List.isChain_singleton c⟩

theorem cons_cons_iff : SuitRun (first :: c :: cards) ↔
    first.point < JOKER1 ∧ first.color = c.color ∧ first.point + 1 = c.point ∧
      SuitRun (c :: cards) := by
  constructor
  · rintro ⟨hlt, hchain⟩
    obtain ⟨hnext, hchain⟩ := List.isChain_cons_cons.mp hchain
    rw [List.forall_mem_cons] at hlt
    exact ⟨hlt.1, hnext.1, hnext.2, hlt.2, hchain⟩
  · rintro ⟨hlt, hcol, hnext, hrun⟩
    exact ⟨List.forall_mem_cons.mpr ⟨hlt, hrun.unprinted⟩,
      List.isChain_cons_cons.mpr ⟨⟨hcol, hnext⟩, hrun.chain⟩⟩

theorem points_eq (h : SuitRun (first :: cards)) :
    points (first :: cards) = List.range' first.point (cards.length + 1) := by
  induction cards generalizing first with
  | nil => rfl
  | cons c cards ih =>
    obtain ⟨-, -, hnext, hrun⟩ := cons_cons_iff.mp h
    have htail := ih hrun
    rw [← hnext] at htail
    rw [List.length_cons, List.range'_succ, ← htail]
    rfl

theorem color_eq (h : SuitRun (first :: cards)) : ∀ c ∈ cards, c.color = first.color := by
  induction cards generalizing first with
  | nil => simp
  | cons c cards ih =>
    obtain ⟨-, hcol, -, hrun⟩ := cons_cons_iff.mp h
    intro d hd
    rcases List.mem_cons.mp hd with rfl | hd
    · exact hcol.symm
    · exact (ih hrun d hd).trans hcol.symm

theorem of_points {lo col : Nat} (hp : points cards = List.range' lo cards.length)
    (hcol : ∀ c ∈ cards, c.color = col) (hlt : ∀ c ∈ cards, c.point < JOKER1) : SuitRun cards := by
  induction cards generalizing lo with
  | nil => exact ⟨by simp, List.isChain_nil⟩
  | cons first cards ih =>
    rw [List.length_cons, List.range'_succ] at hp
    obtain ⟨hfirst, hp⟩ := List.cons.inj (show first.point :: points cards = _ from hp)
    have hrun := ih hp (fun c hc => hcol c (List.mem_cons_of_mem _ hc))
      (fun c hc => hlt c (List.mem_cons_of_mem _ hc))
    cases cards with
    | nil => exact singleton (hlt first List.mem_cons_self)
    | cons c cards =>
      refine cons_cons_iff.mpr ⟨hlt first List.mem_cons_self, ?_, ?_, hrun⟩
      · rw [hcol first (by simp), hcol c (by simp)]
      · rw [List.length_cons, List.range'_succ] at hp
        have hc := (List.cons.inj (show c.point :: points cards = _ from hp)).1
        omega

end SuitRun

theorem pureLoop_cons_iff {first last c : PokerCard} {cs : List PokerCard} :
    pureLoop first last (c :: cs) = true ↔
      last.color = c.color ∧ last.point < JOKER1 ∧ c.point < JOKER1 ∧
        (last.point + 1 = c.point ∧ pureLoop first c cs = true ∨
          last.point + 1 ≠ c.point ∧ c.point = A ∧ first.point = P2) := by
  rw [pureLoop]
  by_cases hcol : last.color ≠ c.color ∨ JOKER1 ≤ last.point ∨ JOKER1 ≤ c.point
  · rw [if_pos hcol]
    refine iff_of_false Bool.false_ne_true fun h => ?_
    rcases hcol with hcol | hlast | hc
    · exact hcol h.1
    · exact absurd h.2.1 (not_lt.mpr hlast)
    · exact absurd h.2.2.1 (not_lt.mpr hc)
  · rw [if_neg hcol]
    simp only [not_or, not_not, not_le] at hcol
    by_cases hnext : last.point + 1 = c.point
    · simp [hnext, hcol.1, hcol.2.1, hcol.2.2]
    · rw [if_pos hnext, and_iff_right hcol.1, and_iff_right hcol.2.1, and_iff_right hcol.2.2]
      by_cases hA : c.point = A
      · rw [if_neg (not_not.mpr hA), decide_eq_true_iff]
        exact ⟨fun h => Or.inr ⟨hnext, hA, h⟩, fun h => (h.resolve_left fun h => hnext h.1).2.2⟩
      · rw [if_pos hA]
        exact iff_of_false Bool.false_ne_true fun h =>
          h.elim (fun h => hnext h.1) fun h => hA h.2.1

theorem pureLoop_of_suitRun {first last : PokerCard} {cs : List PokerCard}
    (h : SuitRun (last :: cs)) : pureLoop first last cs = true := by
  induction cs generalizing last with
  | nil => rfl
  | cons c cs ih =>
    obtain ⟨hlt, hcol, hnext, hrun⟩ := SuitRun.cons_cons_iff.mp h
    exact pureLoop_cons_iff.mpr
      ⟨hcol, hlt, hrun.unprinted c List.mem_cons_self, Or.inl ⟨hnext, ih hrun⟩⟩

/-- Cards behind the ace at which the loop stops have no part in its result. -/
theorem pureLoop_of_break {first last a : PokerCard} {run rest : List PokerCard}
    (hrun : SuitRun (last :: run)) (hcol : ∀ c ∈ last :: run, c.color = a.color) (ha : a.point = A)
    (hbreak : last.point + run.length ≠ 13) (hfirst : first.point = P2) :
    pureLoop first last (run ++ a :: rest) = true := by
  induction run generalizing last with
  | nil =>
    refine pureLoop_cons_iff.mpr ⟨hcol last List.mem_cons_self,
      hrun.unprinted last List.mem_cons_self, by rw [ha]; decide, Or.inr ⟨?_, ha, hfirst⟩⟩
    simp only [List.length_nil, A] at hbreak ha
    omega
  | cons c run ih =>
    obtain ⟨hlt, hcc, hnext, hrun⟩ := SuitRun.cons_cons_iff.mp hrun
    rw [List.cons_append]
    refine pureLoop_cons_iff.mpr ⟨hcc, hlt, hrun.unprinted c List.mem_cons_self,
      Or.inl ⟨hnext, ih hrun (fun d hd => hcol d (List.mem_cons_of_mem _ hd)) ?_⟩⟩
    rw [List.length_cons] at hbreak
    omega

theorem shape_of_pureLoop {first last : PokerCard} {cs : List PokerCard}
    (hlast : last.point < JOKER1) (h : pureLoop first last cs = true) :
    SuitRun (last :: cs) ∨ ∃ run a rest, cs = run ++ a :: rest ∧ SuitRun (last :: run) ∧
      (∀ c ∈ last :: run, c.color = a.color) ∧ a.point = A ∧ last.point + run.length ≠ 13 ∧
      first.point = P2 := by
  induction cs generalizing last with
  | nil => exact Or.inl (SuitRun.singleton hlast)
  | cons c cs ih =>
    obtain ⟨hcol, -, hc, ⟨hnext, hcs⟩ | ⟨hnext, hA, hfirst⟩⟩ := pureLoop_cons_iff.mp h
    · rcases ih hc hcs with hrun | ⟨run, a, rest, rfl, hrun, hcol', hA, hbreak, hfirst⟩
      · exact Or.inl (SuitRun.cons_cons_iff.mpr ⟨hlast, hcol, hnext, hrun⟩)
      · refine Or.inr ⟨c :: run, a, rest, rfl,
          SuitRun.cons_cons_iff.mpr ⟨hlast, hcol, hnext, hrun⟩, ?_, hA, ?_, hfirst⟩
        · rw [List.forall_mem_cons]
          exact ⟨hcol.trans (hcol' c List.mem_cons_self), hcol'⟩
        · rw [List.length_cons]
          omega
    · refine Or.inr ⟨[], c, cs, rfl, SuitRun.singleton hlast, by simpa using hcol, hA, ?_, hfirst⟩
      simp only [List.length_nil, A] at hA ⊢
      omega

/-- **What the test accepts**, in any order. -/
theorem isCardsPureStraight_eq_true {cards : List PokerCard} :
    isCardsPureStraight cards = true ↔
      3 ≤ cards.length ∧ (SuitRun cards ∨ ∃ run a rest, cards = run ++ a :: rest ∧ AceBreak run a) := by
  rcases cards with _ | ⟨first, cs⟩
  · simp [isCardsPureStraight]
  by_cases hlen : (first :: cs).length < 3
  · rw [isCardsPureStraight, if_pos hlen]
    exact iff_of_false Bool.false_ne_true fun h => absurd h.1 (not_le.mpr hlen)
  rw [isCardsPureStraight, if_neg hlen, and_iff_right (not_lt.mp hlen)]
  constructor
  · intro h
    obtain ⟨c, cs, rfl⟩ : ∃ c cs', cs = c :: cs' := by
      cases cs with
      | nil => simp at hlen
      | cons c cs => exact ⟨c, cs, rfl⟩
    have hfirst := (pureLoop_cons_iff.mp h).2.1
    rcases shape_of_pureLoop hfirst h with hrun | ⟨run, a, rest, hcs, hrun, hcol, hA, hbreak, h2⟩
    · exact Or.inl hrun
    · refine Or.inr ⟨first :: run, a, rest, by rw [hcs]; rfl, hrun, by rw [List.head?_cons,
        Option.map_some, h2], hcol, hA, ?_⟩
      rw [h2, P2] at hbreak
      rw [List.length_cons]
      omega
  · rintro (hrun | ⟨run, a, rest, hcards, hbreak⟩)
    · exact pureLoop_of_suitRun hrun
    · rcases run with _ | ⟨first', run⟩
      · exact absurd hbreak.two (by simp)
      · obtain ⟨rfl, rfl⟩ := List.cons.inj hcards
        have h2 : first.point = P2 := Option.some.inj hbreak.two
        refine pureLoop_of_break hbreak.suitRun hbreak.suit hbreak.ace ?_ h2
        have := hbreak.broken
        rw [List.length_cons] at this
        rw [h2, P2]
        omega

/-! ## What the rule accepts -/

namespace AceBreak

variable {run : List PokerCard} {a : PokerCard}

theorem points_eq (h : AceBreak run a) : points run = List.range' P2 run.length := by
  rcases run with _ | ⟨first, run⟩
  · rfl
  · have h2 : first.point = P2 := Option.some.inj h.two
    rw [h.suitRun.points_eq, h2, List.length_cons]

/-- The run ends before the king or has an ace itself. -/
theorem length_cases (h : AceBreak run a) : run.length < 12 ∨ run.length = 13 := by
  have hbroken := h.broken
  by_contra hlong
  have hmem : 15 ∈ points run := by
    rw [h.points_eq, List.mem_range'_1, P2]
    omega
  obtain ⟨c, hc, hpt⟩ := List.mem_map.mp hmem
  have := h.suitRun.unprinted c hc
  rw [hpt] at this
  exact absurd this (by decide)

end AceBreak

section Rule

variable {cards : List PokerCard}

theorem rank_ace (c : PokerCard) : rank A c = c.point := by
  unfold rank
  split
  · next h => exact h.symm
  · rfl

theorem map_rank_of_no_ace {ace : Nat} (h : ∀ c ∈ cards, c.point ≠ A) :
    cards.map (rank ace) = points cards :=
  List.map_congr_left fun c hc => if_neg (h c hc)

theorem points_of_rank {ace : Nat} (h : ace = A ∨ ∀ c ∈ cards, c.point ≠ A) :
    cards.map (rank ace) = points cards := by
  rcases h with rfl | hno
  · exact List.map_congr_left fun c _ => rank_ace c
  · exact map_rank_of_no_ace hno

theorem points_sorted (hs : cards.Pairwise PokerCard.le) : (points cards).Pairwise (· ≤ ·) := by
  refine List.pairwise_map.mpr (hs.imp ?_)
  intro a b hab
  unfold PokerCard.le at hab
  omega

theorem two_le_point {c : PokerCard} (hv : c.isValidCard = true) (h : c.point < JOKER1) :
    P2 ≤ c.point := by
  rw [PokerCard.isValidCard, if_neg (not_le.mpr h), decide_eq_true_eq] at hv
  exact hv.2.2.1

theorem exists_concat_ace (hs : cards.Pairwise PokerCard.le) (hlt : ∀ c ∈ cards, c.point < JOKER1)
    (hA : ∃ c ∈ cards, c.point = A) : ∃ init a, cards = init ++ [a] ∧ a.point = A := by
  obtain ⟨x, hx, hxA⟩ := hA
  rcases List.eq_nil_or_concat cards with rfl | ⟨init, a, rfl⟩
  · cases hx
  rw [List.concat_eq_append] at *
  refine ⟨init, a, rfl, ?_⟩
  have ha := hlt a (by simp)
  rcases List.mem_append.mp hx with hx | hx
  · have hle := (List.pairwise_append.mp hs).2.2 x hx a (List.mem_singleton_self a)
    unfold PokerCard.le at hle
    simp only [A, JOKER1] at ha hxA ⊢
    omega
  · rwa [List.mem_singleton.mp hx] at hxA

theorem head?_eq_two {run : List PokerCard} (h : points run = List.range' P2 run.length)
    (hne : run ≠ []) : run.head?.map point = some P2 := by
  rcases run with _ | ⟨first, run⟩
  · exact absurd rfl hne
  · rw [List.length_cons, List.range'_succ] at h
    exact congrArg some (List.cons.inj (show first.point :: points run = _ from h)).1

theorem exists_ace {run : List PokerCard} (h : points run = List.range' P2 run.length)
    (h13 : run.length = 13) : ∃ c ∈ run, c.point = A := by
  have hmem : A ∈ points run := by
    rw [h, h13]
    decide
  exact List.mem_map.mp hmem

theorem PureRule.no_second_ace {l₁ l₂ : List PokerCard} {a : PokerCard}
    (h : PureRule (l₁ ++ a :: l₂)) (ha : a.point = A) : ∀ c ∈ l₁ ++ l₂, c.point ≠ A := by
  obtain ⟨ace, -, lo, hperm⟩ := h.ranks
  have hnodup : ((a :: (l₁ ++ l₂)).map (rank ace)).Nodup :=
    (List.perm_middle.map _).nodup_iff.mp (hperm.nodup_iff.mpr List.nodup_range')
  intro c hc hcA
  refine (List.nodup_cons.mp hnodup).1 ?_
  have hrank : rank ace a = rank ace c := by rw [rank, rank, if_pos ha, if_pos hcA]
  rw [hrank]
  exact List.mem_map_of_mem hc

/-- Sorted cards of one suit whose points are in a row are a run. -/
theorem PureRule.suitRun (h : PureRule cards) (hs : cards.Pairwise PokerCard.le) {lo : Nat}
    (hperm : (points cards).Perm (List.range' lo cards.length)) : SuitRun cards := by
  rcases cards with _ | ⟨first, cs⟩
  · exact ⟨by simp, List.isChain_nil⟩
  · exact SuitRun.of_points (eq_range'_of_perm (points_sorted hs) hperm)
      (fun c hc => h.suit c hc first List.mem_cons_self) h.unprinted

/-- With an ace among sorted cards in a row, taken as a one, the others are a run from two. -/
theorem PureRule.aceLow (h : PureRule cards) (hs : cards.Pairwise PokerCard.le)
    (hv : ∀ c ∈ cards, c.isValidCard = true) {lo : Nat}
    (hperm : (cards.map (rank 1)).Perm (List.range' lo cards.length))
    (hA : ∃ c ∈ cards, c.point = A) :
    ∃ run a, cards = run ++ [a] ∧ a.point = A ∧ points run = List.range' P2 run.length ∧
      ∀ c ∈ run, c.color = a.color := by
  obtain ⟨run, a, rfl, haA⟩ := exists_concat_ace hs h.unprinted hA
  have hother : ∀ c ∈ run, c.point ≠ A := fun c hc =>
    h.no_second_ace haA c (List.mem_append_left _ hc)
  rw [List.map_append, map_rank_of_no_ace hother, List.map_singleton, rank, if_pos haA] at hperm
  have hsorted : (1 :: points run).Pairwise (· ≤ ·) := by
    refine List.pairwise_cons.mpr ⟨fun p hp => ?_, points_sorted (List.pairwise_append.mp hs).1⟩
    obtain ⟨c, hc, rfl⟩ := List.mem_map.mp hp
    have hc' := List.mem_append_left [a] hc
    exact (show 1 ≤ P2 by decide).trans (two_le_point (hv c hc') (h.unprinted c hc'))
  have heq := eq_range'_of_perm hsorted (List.perm_append_comm.trans hperm :
    ([1] ++ points run).Perm _)
  rw [List.length_append, List.length_singleton, List.range'_succ] at heq
  obtain ⟨hlo, heq⟩ := List.cons.inj heq
  refine ⟨run, a, rfl, haA, by rw [heq, ← hlo]; rfl, fun c hc => ?_⟩
  exact h.suit c (List.mem_append_left _ hc) a (by simp)

theorem PureRule.shape (h : PureRule cards) (hs : cards.Pairwise PokerCard.le)
    (hv : ∀ c ∈ cards, c.isValidCard = true) :
    SuitRun cards ∨ ∃ run a, cards = run ++ [a] ∧ AceBreak run a ∧ run.length < 12 := by
  obtain ⟨ace, hace, lo, hperm⟩ := h.ranks
  by_cases hhigh : ace = A ∨ ∀ c ∈ cards, c.point ≠ A
  · rw [points_of_rank hhigh] at hperm
    exact Or.inl (h.suitRun hs hperm)
  · rw [not_or] at hhigh
    obtain rfl := hace.resolve_left hhigh.1
    obtain ⟨run, a, rfl, hA, hpoints, hcol⟩ := h.aceLow hs hv hperm (by simpa using hhigh.2)
    have hrun : SuitRun run := SuitRun.of_points hpoints hcol
      fun c hc => h.unprinted c (List.mem_append_left _ hc)
    by_cases h12 : run.length = 12
    · refine Or.inl (@SuitRun.of_points _ P2 a.color ?_ ?_ h.unprinted)
      · rw [List.length_append, h12]
        unfold points at hpoints ⊢
        rw [List.map_append, hpoints, List.map_singleton, hA, h12]
        rfl
      · rw [List.forall_mem_append, List.forall_mem_singleton]
        exact ⟨hcol, rfl⟩
    · have hne : run ≠ [] := by
        rintro rfl
        simpa using h.three
      have hbreak : AceBreak run a := ⟨hrun, head?_eq_two hpoints hne, hcol, hA, h12⟩
      refine Or.inr ⟨run, a, rfl, hbreak, hbreak.length_cases.resolve_right fun h13 => ?_⟩
      obtain ⟨c, hc, hcA⟩ := exists_ace hpoints h13
      exact h.no_second_ace hA c (List.mem_append_left _ hc) hcA

theorem SuitRun.pureRule (h : SuitRun cards) (h3 : 3 ≤ cards.length) : PureRule cards := by
  rcases cards with _ | ⟨first, cs⟩
  · simp at h3
  have hcol : ∀ c ∈ first :: cs, c.color = first.color :=
    List.forall_mem_cons.mpr ⟨rfl, h.color_eq⟩
  refine ⟨h3, h.unprinted, fun a ha b hb => (hcol a ha).trans (hcol b hb).symm, A,
    Or.inl rfl, first.point, ?_⟩
  rw [points_of_rank (Or.inl rfl), List.length_cons]
  exact List.Perm.of_eq h.points_eq

theorem AceBreak.pureRule {run : List PokerCard} {a : PokerCard} (h : AceBreak run a)
    (h3 : 3 ≤ (run ++ [a]).length) (h12 : run.length < 12) : PureRule (run ++ [a]) := by
  have hcol : ∀ c ∈ run ++ [a], c.color = a.color := by
    rw [List.forall_mem_append, List.forall_mem_singleton]
    exact ⟨h.suit, rfl⟩
  have hother : ∀ c ∈ run, c.point ≠ A := by
    intro c hc hcA
    have hmem : c.point ∈ points run := List.mem_map_of_mem hc
    rw [h.points_eq, hcA, List.mem_range'_1] at hmem
    simp only [A, P2] at hmem
    omega
  refine ⟨h3, ?_, fun c hc d hd => (hcol c hc).trans (hcol d hd).symm, 1, Or.inr rfl, 1, ?_⟩
  · rw [List.forall_mem_append, List.forall_mem_singleton, h.ace]
    exact ⟨h.suitRun.unprinted, by decide⟩
  · rw [List.map_append, map_rank_of_no_ace hother, List.map_singleton, rank, if_pos h.ace,
      h.points_eq, List.length_append, List.length_singleton, List.range'_succ]
    exact List.perm_append_comm

/-- **What the rule accepts** of sorted cards. -/
theorem pureRule_iff (hs : cards.Pairwise PokerCard.le) (hv : ∀ c ∈ cards, c.isValidCard = true) :
    PureRule cards ↔ 3 ≤ cards.length ∧
      (SuitRun cards ∨ ∃ run a, cards = run ++ [a] ∧ AceBreak run a ∧ run.length < 12) := by
  constructor
  · intro h
    exact ⟨h.three, h.shape hs hv⟩
  · rintro ⟨h3, hrun | ⟨run, a, rfl, hbreak, h12⟩⟩
    · exact hrun.pureRule h3
    · exact hbreak.pureRule h3 h12

/-- The cards overlooked are past the ace: a second ace or printed jokers, where there is a run. -/
theorem not_pureRule_of_overlooks (hs : cards.Pairwise PokerCard.le) (h : Overlooks cards) :
    ¬ PureRule cards := by
  obtain ⟨run, a, rest, rfl, hpoints, -, hA, ⟨-, -, hrest⟩ | h13⟩ := h
  · intro hrule
    obtain ⟨x, hx⟩ := List.exists_mem_of_ne_nil rest hrest
    have hax := (List.pairwise_cons.mp (List.pairwise_append.mp hs).2.1).1 x hx
    have hlt := hrule.unprinted x (by simp [hx])
    apply hrule.no_second_ace hA x (List.mem_append_right _ hx)
    unfold PokerCard.le at hax
    simp only [A, JOKER1] at hA hlt ⊢
    omega
  · intro hrule
    obtain ⟨c, hc, hcA⟩ := exists_ace hpoints h13
    exact hrule.no_second_ace hA c (List.mem_append_left _ hc) hcA

theorem isCardsPureStraight_of_overlooks (h : Overlooks cards) :
    isCardsPureStraight cards = true := by
  obtain ⟨run, a, rest, rfl, hpoints, hcol, hA, hlen⟩ := h
  have hshort : run.length ≤ 13 := by omega
  have hunprinted : ∀ c ∈ run, c.point < JOKER1 := by
    intro c hc
    have hmem : c.point ∈ points run := List.mem_map_of_mem hc
    rw [hpoints, List.mem_range'_1] at hmem
    simp only [P2, JOKER1] at hmem ⊢
    omega
  have htwo : run.head?.map point = some P2 := by
    apply head?_eq_two hpoints
    rintro rfl
    simp at hlen
  refine isCardsPureStraight_eq_true.mpr ⟨?_, Or.inr ⟨run, a, rest, rfl,
    SuitRun.of_points hpoints hcol hunprinted, htwo, hcol, hA, by omega⟩⟩
  rw [List.length_append, List.length_cons]
  rcases hlen with ⟨hne, -, hrest⟩ | h13
  · have := List.length_pos_iff.mpr hne
    have := List.length_pos_iff.mpr hrest
    omega
  · omega

theorem pureRule_of_isCardsPureStraight (h : isCardsPureStraight cards = true)
    (hover : ¬ Overlooks cards) : PureRule cards := by
  obtain ⟨h3, hrun | ⟨run, a, rest, rfl, hbreak⟩⟩ := isCardsPureStraight_eq_true.mp h
  · exact hrun.pureRule h3
  · have hover' := fun hlen =>
      hover ⟨run, a, rest, rfl, hbreak.points_eq, hbreak.suit, hbreak.ace, hlen⟩
    have h12 := hbreak.length_cases.resolve_right fun h13 => hover' (Or.inr h13)
    have hne : run ≠ [] := by
      rintro rfl
      exact absurd hbreak.two (by simp)
    obtain rfl : rest = [] := by
      by_contra hrest
      exact hover' (Or.inl ⟨hne, h12, hrest⟩)
    exact hbreak.pureRule h3 h12

/-- **The test follows the rule exactly when it overlooks nothing.** -/
theorem isCardsPureStraight_iff_pureRule (hs : cards.Pairwise PokerCard.le)
    (hv : ∀ c ∈ cards, c.isValidCard = true) :
    (isCardsPureStraight cards = true ↔ PureRule cards) ↔ ¬ Overlooks cards := by
  constructor
  · intro h hover
    exact not_pureRule_of_overlooks hs hover (h.mp (isCardsPureStraight_of_overlooks hover))
  · intro hover
    refine ⟨fun h => pureRule_of_isCardsPureStraight h hover, fun h => ?_⟩
    obtain ⟨h3, hrun | ⟨run, a, rfl, hbreak, -⟩⟩ := (pureRule_iff hs hv).mp h
    · exact isCardsPureStraight_eq_true.mpr ⟨h3, Or.inl hrun⟩
    · exact isCardsPureStraight_eq_true.mpr ⟨h3, Or.inr ⟨run, a, [], rfl, hbreak⟩⟩

end Rule

/-- Ace, two, three of spades. -/
theorem pureStraight_aceLow :
    isCardsPureStraight [⟨1, 2⟩, ⟨1, 3⟩, ⟨1, 14⟩] = true ↔
      PureRule [⟨1, 2⟩, ⟨1, 3⟩, ⟨1, 14⟩] := by
  refine (isCardsPureStraight_iff_pureRule (by decide) (by decide)).mpr ?_
  rintro ⟨run, a, rest, hcards, -, -, hA, ⟨-, -, hrest⟩ | h13⟩
  · rcases run with _ | ⟨b, _ | ⟨c, _ | ⟨d, run⟩⟩⟩ <;> simp at hcards
    · exact absurd hA (by rw [← hcards.1]; decide)
    · exact absurd hA (by rw [← hcards.2.1]; decide)
    · exact hrest hcards.2.2.2
  · have := congrArg List.length hcards
    rw [List.length_append, h13] at this
    simp at this
    omega

/-- **A two and two aces of spades** pass the test. -/
theorem pureStraight_twoAces :
    ¬ ∀ cards : List PokerCard, cards.Pairwise PokerCard.le → (∀ c ∈ cards, c.isValidCard = true) →
      (isCardsPureStraight cards = true ↔ PureRule cards) := by
  intro h
  have hrule := (h [⟨1, 2⟩, ⟨1, 14⟩, ⟨1, 14⟩] (by decide) (by decide)).mp (by decide)
  exact (show PureRule ([⟨1, 2⟩] ++ ⟨1, 14⟩ :: [⟨1, 14⟩]) from hrule).no_second_ace rfl ⟨1, 14⟩
    (by simp) rfl

end SparkFrame.Cards
