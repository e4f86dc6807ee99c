import SparkFrame.Cards.Kinds

/-!
# Every arrangement is a partition of the hand

* `removeCards_perm`, `mem_removeCardGroup` : removal takes out what it is given, and the groups kept
  are those still in the hand, copies counted;
* `Takes` : groups taken out of a hand one after the other;
* `Arrangement`, `arrangement_of_mem` : what each arrangement of a hand is made of;
* `IsPartition`, `searchAllGroup_isPartition` : no card is lost, invented or used twice, and the
  bookkeeping of the cards left over is right.
-/

namespace SparkFrame.Cards

open PokerCard SparkFrame.Lib

/-! ## Removal -/

theorem removeCards_eq_diff (g : CardGroup) (cards : List PokerCard) :
    removeCards g cards = cards.diff g.cards := (List.diff_eq_foldl cards g.cards).symm

theorem removeCards_perm {g : CardGroup} {cards : List PokerCard} (h : g.cards.Subperm cards) :
    (g.cards ++ removeCards g cards).Perm cards := by
  rw [removeCards_eq_diff]
  exact List.subperm_append_diff_self_of_count_le (List.subperm_ext_iff.mp h)

theorem removeCards_subperm (g : CardGroup) (cards : List PokerCard) :
    (removeCards g cards).Subperm cards := by
  rw [removeCards_eq_diff]
  exact (List.diff_sublist _ _).subperm

/-- Blanking a card that is found leaves a blank in the place of one copy. -/
theorem replace_perm {arr : List PokerCard} {c b : PokerCard} (h : c ∈ arr) :
    (arr.replace c b).Perm (b :: arr.erase c) := by
  induction arr with
  | nil => exact absurd h (List.not_mem_nil)
  | cons a arr ih =>
    by_cases hac : c = a
    · subst hac
      rw [List.replace_cons_self, List.erase_cons_head]
    · have hmem : c ∈ arr := (List.mem_cons.mp h).resolve_left hac
      have hne : (c == a) = false := beq_eq_false_iff_ne.mpr hac
      rw [List.erase_cons_tail (by simpa using fun heq : a = c => hac heq.symm)]
      simp only [List.replace_cons, hne]
      exact ((ih hmem).cons a).trans (List.Perm.swap b a _)

theorem isInCards_iff {arr cs : List PokerCard} (hcs : blank ∉ cs) :
    isInCards arr cs = true ↔ cs.Subperm arr := by
  induction cs generalizing arr with
  | nil =>
    rw [isInCards]
    exact iff_of_true rfl (List.nil_subperm)
  | cons c cs ih =>
    rw [List.mem_cons, not_or] at hcs
    rw [isInCards]
    by_cases hc : c ∈ arr
    · have hblank : ∀ x ∈ cs, x ≠ blank := fun x hx heq => hcs.2 (heq ▸ hx)
      rw [if_pos hc, ih hcs.2, (replace_perm hc).subperm_left]
      constructor
      · intro h
        refine ((List.subperm_cons c).mpr ?_).trans (List.perm_cons_erase hc).symm.subperm
        rw [List.subperm_ext_iff] at h ⊢
        intro x hx
        have := h x hx
        rwa [List.count_cons_of_ne (hblank x hx).symm] at this
      · intro h
        have herase : cs.Subperm (arr.erase c) := by
          have := h.erase c
          rwa [List.erase_cons_head] at this
        exact herase.trans (List.sublist_cons_self blank _).subperm
    · rw [if_neg hc]
      refine iff_of_false Bool.false_ne_true fun h => hc (h.subset List.mem_cons_self)

/-- **The groups kept are those still in the hand**, copies counted. -/
theorem mem_removeCardGroup {cards : List PokerCard} {gs : List CardGroup} {g : CardGroup}
    (hlen : cards.length ≤ MAX_CARD_COUNT) (hg : blank ∉ g.cards) :
    g ∈ removeCardGroup cards gs ↔ g ∈ gs ∧ g.cards.Subperm cards := by
  unfold removeCardGroup
  rw [List.mem_filter, isInCards_iff hg, List.take_append, List.take_of_length_le hlen,
    List.take_replicate]
  refine and_congr_right fun _ => ⟨fun h => ?_, fun h => h.trans (List.sublist_append_left _ _).subperm⟩
  rw [List.subperm_ext_iff] at h ⊢
  intro x hx
  have hxb : x ≠ blank := fun heq => hg (heq ▸ hx)
  have hcount := h x hx
  rwa [List.count_append, List.count_replicate, if_neg (by simpa using hxb.symm), Nat.add_zero]
    at hcount

theorem blank_not_mem {cards : List PokerCard} (hv : ∀ c ∈ cards, c.isValidCard = true) :
    blank ∉ cards := fun h => absurd (hv _ h) (by decide)

/-! ## Taking groups out of a hand -/

/-- The groups are in the hand together; `left` is what stays. -/
def Takes : List CardGroup → List PokerCard → List PokerCard → Prop
  | [], cards, left => left = cards
  | g :: gs, cards, left => g.cards.Subperm cards ∧ Takes gs (removeCards g cards) left

theorem Takes.perm {gs : List CardGroup} {cards left : List PokerCard} (h : Takes gs cards left) :
    (gs.flatMap CardGroup.cards ++ left).Perm cards := by
  induction gs generalizing cards with
  | nil =>
    rw [Takes] at h
    rw [h]
    exact List.Perm.refl _
  | cons g gs ih =>
    rw [Takes] at h
    rw [List.flatMap_cons, List.append_assoc]
    exact ((ih h.2).append_left g.cards).trans (removeCards_perm h.1)

/-- What an arrangement of a hand is made of. -/
inductive Arrangement (jp : Int) (hand : List PokerCard) : CombinationInfo → Prop
  | noLife (hnone : firstLives jp hand = []) : Arrangement jp hand (noLifeComb jp hand)
  | one (f : CardGroup) (left : List PokerCard) (hne : left ≠ []) (hf : f ∈ firstLives jp hand)
      (htakes : Takes [f] hand left) : Arrangement jp hand (comb jp false [f] left)
  | two (f s : CardGroup) (rest : List CardGroup) (left : List PokerCard)
      (hf : f ∈ firstLives jp hand) (hs : s ∈ straights jp hand)
      (hrest : ∀ g ∈ rest, g ∈ melds jp (removeCards s (removeCards f hand)))
      (hlen : rest.length ≤ 2) (htakes : Takes (f :: s :: rest) hand left) :
      Arrangement jp hand (comb jp true (f :: s :: rest) left)

theorem mem_straights_of_firstLife {jp : Int} {hand : List PokerCard} {f : CardGroup}
    (hf : f ∈ firstLives jp hand) : f ∈ straights jp hand ∧ isCardsPureStraight f.cards = true := by
  unfold firstLives Combination.searchPureStraightFlush at hf
  exact List.mem_filter.mp hf

/-- The hands in play: valid cards, no more than the array of `remove_card_group` holds. -/
structure Playable (hand : List PokerCard) : Prop where
  length_le : hand.length ≤ MAX_CARD_COUNT
  valid : ∀ c ∈ hand, c.isValidCard = true

theorem Playable.mono {hand cards : List PokerCard} (h : Playable hand) (hs : cards.Subperm hand) :
    Playable cards :=
  ⟨hs.length_le.trans h.length_le, fun c hc => h.valid c (hs.subset hc)⟩

theorem Playable.remove {hand : List PokerCard} (h : Playable hand) (g : CardGroup) :
    Playable (removeCards g hand) := h.mono (removeCards_subperm g hand)

section Members

variable {jp : Int} {hand : List PokerCard} {g : CardGroup}

theorem Playable.straights_subperm (h : Playable hand) (hg : g ∈ straights jp hand) :
    g.type = GROUP_STAIGHT ∧ g.cards.Subperm hand := by
  rw [mem_straights h.valid] at hg
  exact ⟨hg.type_eq, hg.subperm⟩

theorem Playable.melds_type (h : Playable hand) (hg : g ∈ melds jp hand) :
    g.type = GROUP_STAIGHT ∨ g.type = GROUP_THREE_KIND := by
  unfold melds at hg
  rcases List.mem_append.mp hg with hg | hg
  · exact Or.inl (h.straights_subperm hg).1
  · exact Or.inr (kinds_subperm hg).1

theorem Playable.mem_kept (h : Playable hand) {cards : List PokerCard} (hs : cards.Subperm hand)
    {gs : List CardGroup} (hg : g.cards.Subperm hand) :
    g ∈ removeCardGroup cards gs ↔ g ∈ gs ∧ g.cards.Subperm cards :=
  mem_removeCardGroup (h.mono hs).length_le (blank_not_mem (h.mono hg).valid)

end Members

theorem mem_arrangeFistlife {jp : Int} {hand : List PokerCard} (h : Playable hand) {f : CardGroup}
    (hf : f ∈ firstLives jp hand) {c : CombinationInfo} (hc : c ∈ arrangeFistlife jp hand f) :
    (∃ left, left ≠ [] ∧ Takes [f] hand left ∧ c = comb jp false [f] left) ∨
    ∃ s rest left, s ∈ straights jp hand ∧
      (∀ g ∈ rest, g ∈ melds jp (removeCards s (removeCards f hand))) ∧ rest.length ≤ 2 ∧
      Takes (f :: s :: rest) hand left ∧ c = comb jp true (f :: s :: rest) left := by
  have hfs := h.straights_subperm (mem_straights_of_firstLife hf).1
  unfold arrangeFistlife at hc
  have h1 := h.remove f
  by_cases hc1 : removeCards f hand = []
  · rw [if_pos hc1] at hc
    exact absurd hc (List.not_mem_nil)
  · rw [if_neg hc1] at hc
    by_cases hsec : removeCardGroup (removeCards f hand) (straights jp hand) = []
    · rw [if_pos hsec, List.mem_singleton] at hc
      exact Or.inl ⟨_, hc1, ⟨hfs.2, rfl⟩, hc⟩
    · rw [if_neg hsec, List.mem_flatMap] at hc
      obtain ⟨s, hs, hc⟩ := hc
      have hsmem : s ∈ straights jp hand := (List.mem_filter.mp hs).1
      have hs1 := ((h.mem_kept (removeCards_subperm f hand)
        (h.straights_subperm hsmem).2).mp hs).2
      have h2 := h1.remove s
      unfold arrangeSecondlife at hc
      by_cases hc2 : removeCards s (removeCards f hand) = [] ∨
          melds jp (removeCards s (removeCards f hand)) = []
      · rw [if_pos hc2, List.mem_singleton] at hc
        exact Or.inr ⟨s, [], _, hsmem, by simp, by simp, ⟨hfs.2, hs1, rfl⟩, hc⟩
      · rw [if_neg hc2, List.mem_flatMap] at hc
        obtain ⟨g, hg, hc⟩ := hc
        have hgs := subperm_of_mem_melds h2.valid hg
        unfold arrangeSecond at hc
        by_cases hc3 : removeCards g (removeCards s (removeCards f hand)) = [] ∨
            removeCardGroup (removeCards g (removeCards s (removeCards f hand)))
              (melds jp (removeCards s (removeCards f hand))) = []
        · rw [if_pos hc3, List.mem_singleton] at hc
          exact Or.inr ⟨s, [g], _, hsmem, by simpa using hg, by simp, ⟨hfs.2, hs1, hgs, rfl⟩, hc⟩
        · rw [if_neg hc3, List.mem_flatMap] at hc
          obtain ⟨k, hk, hc⟩ := hc
          rw [List.mem_singleton] at hc
          have hkm : k ∈ melds jp (removeCards s (removeCards f hand)) := (List.mem_filter.mp hk).1
          have hks := ((h2.mem_kept (removeCards_subperm g _)
            (subperm_of_mem_melds h2.valid hkm)).mp hk).2
          exact Or.inr ⟨s, [g, k], _, hsmem, by simp [hg, hkm], by simp,
            ⟨hfs.2, hs1, hgs, hks, rfl⟩, hc⟩

theorem arrangement_of_mem {jp : Int} {hand : List PokerCard} (h : Playable hand)
    {c : CombinationInfo} (hc : c ∈ arrangements jp hand) : Arrangement jp hand c := by
  unfold arrangements at hc
  by_cases hf : firstLives jp hand = []
  · rw [if_pos hf, List.mem_singleton] at hc
    exact hc ▸ .noLife hf
  · rw [if_neg hf, List.mem_flatMap] at hc
    obtain ⟨f, hf, hc⟩ := hc
    rcases mem_arrangeFistlife h hf hc with
      ⟨left, hne, htakes, rfl⟩ | ⟨s, rest, left, hs, hrest, hlen, htakes, rfl⟩
    · exact .one f left hne hf htakes
    · exact .two f s rest left hf hs hrest hlen htakes

/-! ## Partitions -/

/-- The groups hold the hand, at most one of them is left over, it holds exactly the cards recorded
as left over, and the score is theirs. -/
structure IsPartition (jp : Int) (hand : List PokerCard) (c : CombinationInfo) : Prop where
  union : (c.cardGroup.flatMap CardGroup.cards).Perm hand
  atMostOne : (c.cardGroup.filter fun g => decide (g.type = GROUP_INVALID)).length ≤ 1
  validCards : c.validCards =
    (c.cardGroup.filter fun g => decide (g.type = GROUP_INVALID)).flatMap CardGroup.cards
  score : c.score = (c.validCards.map (·.getScore jp)).sum

/-- Groups that are no leftovers, and one for what is left over when there is something. -/
theorem isPartition_comb {jp : Int} {hand left : List PokerCard} {groups : List CardGroup}
    (second : Bool) (htypes : ∀ g ∈ groups, g.type ≠ GROUP_INVALID)
    (htakes : Takes groups hand left) : IsPartition jp hand (comb jp second groups left) := by
  have hnone : groups.filter (fun g => decide (g.type = GROUP_INVALID)) = [] := by
    rw [List.filter_eq_nil_iff]
    intro g hg ht
    exact htypes g hg (of_decide_eq_true ht)
  have hleft : ∀ p : CardGroup → Bool, p { type := GROUP_INVALID, cards := left } = true →
      (if left = [] then [] else [({ type := GROUP_INVALID, cards := left } : CardGroup)]).filter p =
        if left = [] then [] else [{ type := GROUP_INVALID, cards := left }] := by
    intro p hp
    by_cases hl : left = [] <;> simp [hl, hp]
  have hcards : (if left = [] then []
      else [({ type := GROUP_INVALID, cards := left } : CardGroup)]).flatMap CardGroup.cards = left := by
    by_cases hl : left = [] <;> simp [hl]
  refine ⟨?_, ?_, ?_, rfl⟩
  · change ((groups ++ _).flatMap CardGroup.cards).Perm hand
    rw [List.flatMap_append, hcards]
    exact htakes.perm
  · change ((groups ++ _).filter _).length ≤ 1
    rw [List.filter_append, hnone, List.nil_append, hleft _ (decide_eq_true rfl)]
    by_cases hl : left = [] <;> simp [hl]
  · change left = ((groups ++ _).filter _).flatMap _
    rw [List.filter_append, hnone, List.nil_append, hleft _ (decide_eq_true rfl), hcards]

theorem Arrangement.isPartition {jp : Int} {hand : List PokerCard} (h : Playable hand)
    {c : CombinationInfo} (hc : Arrangement jp hand c) : IsPartition jp hand c := by
  have hst : ∀ {g : CardGroup}, g ∈ straights jp hand → g.type ≠ GROUP_INVALID := by
    intro g hg
    rw [(h.straights_subperm hg).1]
    decide
  cases hc with
  | noLife hnone =>
    refine ⟨?_, ?_, ?_, rfl⟩
    · simp [noLifeComb]
    · simp [noLifeComb]
    · simp [noLifeComb]
  | one f left hne hf htakes =>
    refine isPartition_comb false ?_ htakes
    rw [List.forall_mem_singleton]
    exact hst (mem_straights_of_firstLife hf).1
  | two f s rest left hf hs hrest hlen htakes =>
    refine isPartition_comb true ?_ htakes
    rw [List.forall_mem_cons, List.forall_mem_cons]
    refine ⟨hst (mem_straights_of_firstLife hf).1, hst hs, ?_⟩
    intro g hg
    rcases ((h.remove f).remove s).melds_type (hrest g hg) with ht | ht
    · rw [ht]
      decide
    · rw [ht]
      decide

/-- **Everything `search_all_group` pushes is a partition of the hand**, whatever the object held
before and whenever it stops. -/
theorem searchAllGroup_isPartition (self : Combination) (hand : List PokerCard) (stop : Nat)
    (hlen : hand.length ≤ MAX_CARD_COUNT) (hv : ∀ c ∈ hand, c.isValidCard = true) :
    ∀ c ∈ (self.searchAllGroup hand stop).cardCombs, IsPartition self.jokerPoint hand c := by
  intro c hc
  rw [searchAllGroup_eq] at hc
  have hplay : Playable hand := ⟨hlen, hv⟩
  exact (arrangement_of_mem hplay (mem_of_mem_upTo hc)).isPartition hplay

/-- A hand with two copies of a card, a pure straight and a joker. -/
theorem searchAllGroup_isPartition_twoCopies :
    (Combination.searchAllGroup {} [⟨1, 2⟩, ⟨1, 2⟩, ⟨1, 3⟩, ⟨1, 4⟩, ⟨0, 15⟩] 0).cardCombs ≠ [] ∧
    ∀ c ∈ (Combination.searchAllGroup {} [⟨1, 2⟩, ⟨1, 2⟩, ⟨1, 3⟩, ⟨1, 4⟩, ⟨0, 15⟩] 0).cardCombs,
      IsPartition 0 [⟨1, 2⟩, ⟨1, 2⟩, ⟨1, 3⟩, ⟨1, 4⟩, ⟨0, 15⟩] c :=
  ⟨by decide +kernel, searchAllGroup_isPartition {} _ 0 (by decide) (by decide)⟩

end SparkFrame.Cards
