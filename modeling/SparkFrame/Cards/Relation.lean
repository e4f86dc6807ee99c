import SparkFrame.Cards.Post
import SparkFrame.Lib.Ledger

/-!
# What `caculate_cards_relation` adds up

Every pair of cards has a weight. The rounds credit it to both cards: those of the forward scan in the
round of the first card, those of a low ace in the round of the ace.

* `weight` : the weight of a pair, the same in both directions;
* `near`, `wheel` : what the forward scan and the scan of an ace credit;
* `relateLoop_eq`, `aceLoop_eq` : **the scans stop early and miss nothing** in sorted cards;
* `relationRound_eq` : one round is a round of the ledger of the degrees;
* `caculateCardsRelation_spec` : **every degree grows by the weights of its card with all the others**.
-/

namespace SparkFrame.Cards

open PokerCard SparkFrame.Lib

namespace Relation

/-! ## Weights -/

/-- Neighbouring ranks, where the ace is also in front of the 2. -/
def Neighbouring (p q : Nat) : Prop :=
  p + 1 = q ∨ q + 1 = p ∨ (p = A ∧ q = P2) ∨ (p = P2 ∧ q = A)

/-- Ranks two apart, where the ace is also two in front of the 3. -/
def TwoApart (p q : Nat) : Prop :=
  p + 2 = q ∨ q + 2 = p ∨ (p = A ∧ q = P3) ∨ (p = P3 ∧ q = A)

instance : DecidableRel Neighbouring := fun _ _ => inferInstanceAs (Decidable (_ ∨ _))
instance : DecidableRel TwoApart := fun _ _ => inferInstanceAs (Decidable (_ ∨ _))

def weight (a b : PokerCard) : Int :=
  if a.point = b.point then 2
  else if a.color = b.color ∧ Neighbouring a.point b.point then 4
  else if a.color = b.color ∧ TwoApart a.point b.point then 3
  else 0

/-- What the forward scan of `it` adds to `it` and to a card behind it. -/
def near (it next : PokerCard) : Int :=
  if next.point = it.point then 2
  else if ((next.point : Int) - it.point).natAbs = 2 ∧ next.color = it.color then 3
  else if ((next.point : Int) - it.point).natAbs = 1 ∧ next.color = it.color then 4
  else 0

/-- What the scan of `it` from the front adds to `it` and to a card there, if `it` is an ace. -/
def wheel (it next : PokerCard) : Int :=
  if it.point = A ∧ next.color = it.color ∧ next.point = P2 then 4
  else if it.point = A ∧ next.color = it.color ∧ next.point = P3 then 3
  else 0

/-- A valid card that is no joker. -/
def Plain (c : PokerCard) : Prop := c.isValidCard = true ∧ c.point < JOKER1

instance : DecidablePred Plain := fun _ => inferInstanceAs (Decidable (_ ∧ _))

theorem Plain.two_le {c : PokerCard} (h : Plain c) : 2 ≤ c.point ∧ c.point ≤ 14 := by
  obtain ⟨hvalid, hlt⟩ := h
  unfold isValidCard at hvalid
  rw [if_neg (not_le.mpr hlt)] at hvalid
  have hpoint := of_decide_eq_true hvalid
  exact ⟨hpoint.2.2.1, hpoint.2.2.2⟩

theorem neighbouring_comm (p q : Nat) : Neighbouring q p ↔ Neighbouring p q := by
  unfold Neighbouring
  omega

theorem twoApart_comm (p q : Nat) : TwoApart q p ↔ TwoApart p q := by
  unfold TwoApart
  omega

theorem weight_comm (a b : PokerCard) : weight b a = weight a b := by
  unfold weight
  simp only [eq_comm (a := b.point) (b := a.point), eq_comm (a := b.color) (b := a.color),
    neighbouring_comm a.point, twoApart_comm a.point]

theorem weight_eq {a b : PokerCard} (hab : a.point ≤ b.point) (ha : Plain a) (hb : Plain b) :
    weight a b = near a b + wheel b a := by
  have ha' := ha.two_le
  have hb' := hb.two_le
  by_cases hcolor : a.color = b.color
  · simp only [weight, near, wheel, Neighbouring, TwoApart, A, P2, P3, hcolor, true_and, and_true]
    split_ifs <;> omega
  · have hcolor' : ¬ b.color = a.color := fun h => hcolor h.symm
    simp only [weight, near, wheel, hcolor, hcolor', false_and, and_false, if_false,
      eq_comm (a := b.point) (b := a.point)]
    exact (add_zero _).symm

/-! ## The scans -/

def ledger : Ledger CardRelation PokerCard where
  key := CardRelation.card
  add := CardRelation.add
  key_add _ _ := rfl
  add_add r m n := congrArg (CardRelation.mk r.card) (Int.add_assoc r.relateDegree m n)
  add_zero r := congrArg (CardRelation.mk r.card) (Int.add_zero r.relateDegree)

/-- More than two ranks above there is no related card, so the scan of `it` may stop. -/
theorem near_eq_zero {it next : PokerCard} (h : it.point + 2 < next.point) : near it next = 0 := by
  unfold near
  rw [if_neg (by omega), if_neg (by omega), if_neg (by omega)]

theorem wheel_eq_zero {it next : PokerCard} (h : 3 < next.point) : wheel it next = 0 := by
  unfold wheel P2 P3
  rw [if_neg (by omega), if_neg (by omega)]

/-- One step of the forward scan: it stops, or both entries get the same. -/
theorem relateLoop_cons (it next : CardRelation) (rest : List CardRelation)
    (h : it.card.point ≤ next.card.point) :
    Combination.relateLoop it (next :: rest) =
      if it.card.point + 2 < next.card.point then (it, next :: rest)
      else ((Combination.relateLoop (it.add (near it.card next.card)) rest).1,
        next.add (near it.card next.card) ::
          (Combination.relateLoop (it.add (near it.card next.card)) rest).2) := by
  rw [Combination.relateLoop, near]
  by_cases h2 : next.card.point = it.card.point
  · rw [if_neg (by omega : ¬ it.card.point + 2 < next.card.point)]
    simp only [if_pos h2]
  by_cases h3 : ((next.card.point : Int) - it.card.point).natAbs = 2 ∧ next.card.color = it.card.color
  · rw [if_neg (by omega : ¬ it.card.point + 2 < next.card.point)]
    simp only [if_neg h2, if_pos h3]
  by_cases h4 : ((next.card.point : Int) - it.card.point).natAbs = 1 ∧ next.card.color = it.card.color
  · rw [if_neg (by omega : ¬ it.card.point + 2 < next.card.point)]
    simp only [if_neg h2, if_neg h3, if_pos h4]
  by_cases hfar : ((next.card.point : Int) - it.card.point).natAbs > 2
  · rw [if_pos (by omega : it.card.point + 2 < next.card.point)]
    simp only [if_neg h2, if_neg h3, if_neg h4, if_pos hfar]
  · have hzero : ∀ r : CardRelation, r.add 0 = r := ledger.add_zero
    rw [if_neg (by omega : ¬ it.card.point + 2 < next.card.point)]
    simp only [if_neg h2, if_neg h3, if_neg h4, if_neg hfar, hzero]

/-- **The forward scan**, over cards of rising rank. -/
theorem relateLoop_eq (it : CardRelation) (l : List CardRelation)
    (hit : ∀ s ∈ l, it.card.point ≤ s.card.point)
    (hl : l.Pairwise fun r s => r.card.point ≤ s.card.point) :
    Combination.relateLoop it l =
      (it.add (ledger.due (near it.card) l), l.map fun s => s.add (near it.card s.card)) := by
  refine ledger.scan_eq Combination.relateLoop (near it.card) it.card (it.card.point ≤ ·.point)
    (it.card.point + 2 < ·.point) (fun _ => rfl) ?_ (fun _ => near_eq_zero) hit
    (hl.imp fun h hstop => Nat.lt_of_lt_of_le hstop h) it rfl
  intro r next rest hr hnext
  have hcard : r.card = it.card := hr
  rw [← hcard] at hnext ⊢
  exact relateLoop_cons r next rest hnext

theorem aceLoop_cons {it : CardRelation} (hA : it.card.point = A) (next : CardRelation)
    (rest : List CardRelation) :
    Combination.aceLoop it (next :: rest) =
      if next.card.point ≤ 3 then
        ((Combination.aceLoop (it.add (wheel it.card next.card)) rest).1,
          next.add (wheel it.card next.card) ::
            (Combination.aceLoop (it.add (wheel it.card next.card)) rest).2)
      else (it, next :: rest) := by
  rw [Combination.aceLoop, wheel]
  by_cases h2 : next.card.color = it.card.color ∧ next.card.point = P2
  · simp only [if_pos h2, if_pos (And.intro hA h2)]
  by_cases h3 : next.card.color = it.card.color ∧ next.card.point = P3
  · simp only [if_neg h2, if_pos h3, if_neg (fun h => h2 h.2 : ¬ (it.card.point = A ∧ _)),
      if_pos (And.intro hA h3)]
  · have hzero : ∀ r : CardRelation, r.add 0 = r := ledger.add_zero
    simp only [if_neg h2, if_neg h3, if_neg (fun h => h2 h.2 : ¬ (it.card.point = A ∧ _)),
      if_neg (fun h => h3 h.2 : ¬ (it.card.point = A ∧ _)), hzero]

/-- **The scan from the front**, over cards of rising rank. -/
theorem aceLoop_eq (it : CardRelation) (l : List CardRelation) (hA : it.card.point = A)
    (hl : l.Pairwise fun r s => r.card.point ≤ s.card.point) :
    Combination.aceLoop it l =
      (it.add (ledger.due (wheel it.card) l), l.map fun s => s.add (wheel it.card s.card)) := by
  refine ledger.scan_eq Combination.aceLoop (wheel it.card) it.card (fun _ => True) (¬ ·.point ≤ 3)
    (fun _ => rfl) ?_ (fun _ h => wheel_eq_zero (Nat.not_le.mp h)) (fun _ _ => trivial)
    (hl.imp fun h hstop hle => hstop (h.trans hle)) it rfl
  intro r next rest hr _
  have hcard : r.card = it.card := hr
  rw [← hcard] at hA ⊢
  exact (aceLoop_cons hA next rest).trans (ite_not ..).symm

/-! ## The rounds -/

/-- A pair of plain cards in their order. -/
def Ordered (a b : PokerCard) : Prop := a.point ≤ b.point ∧ Plain a ∧ Plain b

theorem relationRound_eq (before : List CardRelation) (it : CardRelation) (after : List CardRelation)
    (h : ((before ++ it :: after).map CardRelation.card).Pairwise Ordered) :
    Combination.relationRound (before ++ it :: after) before.length =
      ledger.credited wheel near before it after := by
  rw [List.pairwise_map] at h
  obtain ⟨hbefore, hrest, -⟩ := List.pairwise_append.mp h
  obtain ⟨hit, hafter⟩ := List.pairwise_cons.mp hrest
  have hbehind := relateLoop_eq it after (fun s hs => (hit s hs).1) (hafter.imp fun h => h.1)
  generalize hgen : it.add (ledger.due (near it.card) after) = it' at hbehind
  have hcard : it'.card = it.card := hgen ▸ CardRelation.add_card it _
  have hfront : (if it'.card.point = A then Combination.aceLoop it' before else (it', before)) =
      (it'.add (ledger.due (wheel it.card) before), before.map fun s => s.add (wheel it.card s.card)) := by
    rw [hcard]
    split
    · next hA =>
      rw [aceLoop_eq it' before (hcard ▸ hA) (hbefore.imp fun h => h.1), hcard]
    · next hA =>
      exact ledger.eq_credited_of_zero it' fun s _ => by simp [wheel, hA, ledger]
  have hsum := ledger.add_add it (ledger.due (near it.card) after) (ledger.due (wheel it.card) before)
  rw [Combination.relationRound, List.drop_left, List.take_left, Ledger.credited]
  simp only [hbehind, hfront]
  rw [← hgen]
  exact congrArg (_ ++ · :: _) hsum

/-- **Every degree grows by the weights of its card with all the others**, and no card changes. -/
theorem caculateCardsRelation_spec (rels : List CardRelation)
    (hsorted : (rels.map CardRelation.card).Pairwise PokerCard.le)
    (hplain : ∀ r ∈ rels, Plain r.card) :
    (Combination.caculateCardsRelation rels).map CardRelation.card = rels.map CardRelation.card ∧
    Combination.caculateCardsRelation rels = rels.mapIdx fun i r =>
      r.add (((rels.eraseIdx i).map fun s => weight r.card s.card).sum) := by
  have hordered : (rels.map CardRelation.card).Pairwise Ordered := by
    have hmem : ∀ c ∈ rels.map CardRelation.card, Plain c := fun c hc => by
      obtain ⟨r, hr, rfl⟩ := List.mem_map.mp hc
      exact hplain r hr
    refine hsorted.imp_of_mem fun ha hb hab => ⟨?_, hmem _ ha, hmem _ hb⟩
    unfold PokerCard.le at hab
    omega
  exact ⟨caculateCardsRelation_cards rels, ledger.foldl_round_eq_settled relationRound_eq
    (fun a b h => ⟨weight_eq h.1 h.2.1 h.2.2, weight_comm a b⟩) hordered⟩

/-- A 2, a 3 and an ace of one suit, and another 3. -/
theorem caculateCardsRelation_spec_four :
    (Combination.caculateCardsRelation
      [⟨⟨1, 2⟩, 0⟩, ⟨⟨1, 3⟩, 0⟩, ⟨⟨2, 3⟩, 5⟩, ⟨⟨1, 14⟩, 0⟩]).map CardRelation.card =
        [⟨1, 2⟩, ⟨1, 3⟩, ⟨2, 3⟩, ⟨1, 14⟩] ∧
    Combination.caculateCardsRelation [⟨⟨1, 2⟩, 0⟩, ⟨⟨1, 3⟩, 0⟩, ⟨⟨2, 3⟩, 5⟩, ⟨⟨1, 14⟩, 0⟩] =
      [⟨⟨1, 2⟩, 8⟩, ⟨⟨1, 3⟩, 9⟩, ⟨⟨2, 3⟩, 7⟩, ⟨⟨1, 14⟩, 7⟩] :=
  caculateCardsRelation_spec [⟨⟨1, 2⟩, 0⟩, ⟨⟨1, 3⟩, 0⟩, ⟨⟨2, 3⟩, 5⟩, ⟨⟨1, 14⟩, 0⟩] (by decide)
    (by decide)

end Relation

end SparkFrame.Cards
