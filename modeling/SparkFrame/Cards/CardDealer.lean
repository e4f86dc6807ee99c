import SparkFrame.Cards.Card
import SparkFrame.Lib.Draw
import SparkFrame.Lib.Run

/-!
# The dealer: `CardDealer`

The pack is put together once, shuffled a thousand times, and shuffled again before each deal. The
stream is what the calls of `rand` return. A failed assertion or a place that is not there ends a call
with nothing.

* `packCards`, `init_cards`, `rand_rank_cards`, `rand_deal_card`, `deal_card` : the functions;
* `packCards_eq` : the pack; `Shuffled` : the invariant;
* `exists_rand_rank_cards`, `exists_rand_deal_card`, `exists_init_cards` : one call;
* `deal_cards` : **every sequence of deals**.
-/

namespace SparkFrame.Cards

open SparkFrame.Lib PokerCard

structure CardDealer where
  m_cards : List PokerCard
  m_all_card : List PokerCard
deriving DecidableEq, Repr

namespace CardDealer

def CARD_COUNT : Nat := 108

/-! ## The functions -/

/-- `m_cards[index].m_color = color; m_cards[index].m_point = point; ++index`. -/
def putCard (color point : Nat) (p : List PokerCard × Nat) : Option (List PokerCard × Nat) :=
  if p.2 < p.1.length then some (p.1.set p.2 ⟨color, point⟩, p.2 + 1) else none

/-- The loops of `init_cards`, and the jokers. -/
def packCards : Option (List PokerCard × Nat) := do
  let p ← (List.range diamonds).foldlM (fun p i =>
    (List.range (A - 1)).foldlM (fun p j => do
      let p ← putCard (i + 1) (j + 2) p
      putCard (i + 1) (j + 2) p) p) (List.replicate CARD_COUNT blank, 0)
  let p ← putCard 0 JOKER1 p
  let p ← putCard 0 JOKER1 p
  let p ← putCard 0 JOKER2 p
  putCard 0 JOKER2 p

def rand_rank_cards (d : CardDealer) (rand : Stream' Nat) : Option (CardDealer × Stream' Nat) :=
  if d.m_cards.length = CARD_COUNT then do
    let (m_cards, rand) ← drawLoop CARD_COUNT d.m_cards [] rand
    return ({ d with m_cards }, rand)
  else none

/-- `rand_rank_cards` again and again. -/
def rankTimes : Nat → CardDealer → Stream' Nat → Option (CardDealer × Stream' Nat)
  | 0, d, rand => some (d, rand)
  | n + 1, d, rand => do
    let (d, rand) ← d.rand_rank_cards rand
    rankTimes n d rand

/-- The constructor. -/
def init_cards (rand : Stream' Nat) : Option (CardDealer × Stream' Nat) := do
  let (m_cards, _) ← packCards
  rankTimes 1000 { m_cards, m_all_card := m_cards } rand

def rand_deal_card (d : CardDealer) (lstCard : List PokerCard) (count : Nat) (rand : Stream' Nat) :
    Option ((CardDealer × Stream' Nat) × List PokerCard) :=
  if count ≤ CARD_COUNT then do
    let (d, rand) ← d.rand_rank_cards rand
    let (lstCard, rand) ← drawLoop count d.m_cards lstCard rand
    return ((d, rand), lstCard)
  else none

def deal_card (d : CardDealer) (lstCard : List PokerCard) (count : Nat) (rand : Stream' Nat) :
    Option ((CardDealer × Stream' Nat) × List PokerCard) :=
  d.rand_deal_card lstCard count rand

/-- A call of `deal_card`: the list it appends to, and how many cards. -/
def step (s : CardDealer × Stream' Nat) (call : List PokerCard × Nat) :
    Option ((CardDealer × Stream' Nat) × List PokerCard) :=
  s.1.deal_card call.1 call.2 s.2

/-! ## One call -/

/-- **The invariant**: the cards are those of the pack, in some order. -/
structure Shuffled (d : CardDealer) : Prop where
  pack : d.m_all_card = twoDeck
  perm : d.m_cards.Perm d.m_all_card

theorem length_twoDeck : twoDeck.length = CARD_COUNT := by decide +kernel

theorem Shuffled.length {d : CardDealer} (h : d.Shuffled) : d.m_cards.length = CARD_COUNT := by
  rw [h.perm.length_eq, h.pack, length_twoDeck]

theorem packCards_eq : packCards = some (twoDeck, CARD_COUNT) := by decide +kernel

/-- **A shuffle** keeps the cards. -/
theorem exists_rand_rank_cards {d : CardDealer} (h : d.Shuffled) (rand : Stream' Nat) :
    ∃ d' rand', d.rand_rank_cards rand = some (d', rand') ∧ d'.Shuffled := by
  obtain ⟨m_cards, rand', hloop, hperm⟩ := drawLoop_all d.m_cards rand
  rw [h.length] at hloop
  refine ⟨{ d with m_cards }, rand', ?_, h.pack, hperm.trans h.perm⟩
  rw [rand_rank_cards, if_pos h.length, hloop]
  rfl

theorem exists_rankTimes (n : Nat) {d : CardDealer} (h : d.Shuffled) (rand : Stream' Nat) :
    ∃ d' rand', rankTimes n d rand = some (d', rand') ∧ d'.Shuffled := by
  induction n generalizing d rand with
  | zero => exact ⟨d, rand, rfl, h⟩
  | succ n ih =>
    obtain ⟨d₁, rand₁, hrank, h₁⟩ := exists_rand_rank_cards h rand
    obtain ⟨d', rand', hrest, h'⟩ := ih h₁ rand₁
    refine ⟨d', rand', ?_, h'⟩
    rw [rankTimes, hrank]
    exact hrest

/-- **The constructor** leaves a shuffled pack. -/
theorem exists_init_cards (rand : Stream' Nat) :
    ∃ s, init_cards rand = some s ∧ s.1.Shuffled := by
  obtain ⟨d', rand', hrank, h'⟩ := exists_rankTimes 1000
    (d := { m_cards := twoDeck, m_all_card := twoDeck }) ⟨rfl, .refl _⟩ rand
  refine ⟨(d', rand'), ?_, h'⟩
  rw [init_cards, packCards_eq]
  exact hrank

/-- What a deal does: it appends as many cards as it is asked for, none of them more often than it is
in the pack. -/
def Deals (lstCard : List PokerCard) (count : Nat) (out : List PokerCard) : Prop :=
  ∃ dealt, out = lstCard ++ dealt ∧ dealt.length = count ∧ dealt.Subperm twoDeck ∧
    (count = CARD_COUNT → dealt.Perm twoDeck)

/-- **A deal.** -/
theorem exists_step {s : CardDealer × Stream' Nat} (h : s.1.Shuffled) {call : List PokerCard × Nat}
    (hcount : call.2 ≤ CARD_COUNT) :
    ∃ s' out, step s call = some (s', out) ∧ s'.1.Shuffled ∧ Deals call.1 call.2 out := by
  obtain ⟨d, rand₁, hrank, h₁⟩ := exists_rand_rank_cards h s.2
  obtain ⟨dealt, rand', hloop, hlength, hsub⟩ := exists_drawLoop (h₁.length ▸ hcount) call.1 rand₁
  have hpack : dealt.Subperm twoDeck := hsub.trans (h₁.pack ▸ h₁.perm).subperm
  refine ⟨(d, rand'), call.1 ++ dealt, ?_, h₁, dealt, rfl, hlength, hpack, fun hall => ?_⟩
  · rw [step, deal_card, rand_deal_card, if_pos hcount, hrank]
    simp only [Option.bind_eq_bind, Option.bind_some, hloop]
    rfl
  · exact hpack.perm_of_length_le (by rw [length_twoDeck, hlength, hall])

theorem shuffled_of_step {s s' : CardDealer × Stream' Nat} {call : List PokerCard × Nat}
    {out : List PokerCard} (h : s.1.Shuffled) (hs : step s call = some (s', out)) :
    s'.1.Shuffled ∧ Deals call.1 call.2 out := by
  by_cases hcount : call.2 ≤ CARD_COUNT
  · obtain ⟨s₁, out₁, hstep, hs₁, hdeals⟩ := exists_step h hcount
    obtain ⟨rfl, rfl⟩ := Prod.mk.inj (Option.some.inj (hstep.symm.trans hs))
    exact ⟨hs₁, hdeals⟩
  · rw [step, deal_card, rand_deal_card, if_neg hcount] at hs
    cases hs

/-! ## Every sequence of deals -/

/-- **Whatever `rand` returns**, the constructor and every sequence of deals of at most all the cards get
to their end, every index used is one of a card, the cards are always the pack, and each deal appends
cards of the pack. -/
theorem deal_cards (rand : Stream' Nat) (calls : List (List PokerCard × Nat))
    (hcalls : ∀ call ∈ calls, call.2 ≤ CARD_COUNT) :
    ∃ s₀ tr s, init_cards rand = some s₀ ∧ s₀.1.Shuffled ∧ exec step s₀ calls = some (tr, s) ∧
      tr.map Step.event = calls ∧
      ∀ x ∈ tr, x.before.1.Shuffled ∧ x.after.1.Shuffled ∧ Deals x.event.1 x.event.2 x.out := by
  obtain ⟨s₀, hinit, h₀⟩ := exists_init_cards rand
  obtain ⟨tr, s, hexec, -⟩ : ∃ tr s, exec step s₀ calls = some (tr, s) ∧ s.1.Shuffled :=
    exists_exec (I := fun s : CardDealer × Stream' Nat => s.1.Shuffled) h₀
      (fun hs hcall => by
        obtain ⟨s', out, hstep, hs', -⟩ := exists_step hs hcall
        exact ⟨s', out, hstep, hs'⟩) hcalls
  have hrun := Run.of_exec hexec
  refine ⟨s₀, tr, s, hinit, h₀, hexec, map_event_of_exec hexec, fun x hx => ?_⟩
  have hbefore := hrun.before_invariant (I := fun s => s.1.Shuffled) h₀
    (fun hI hs => (shuffled_of_step hI hs).1) x hx
  exact ⟨hbefore, shuffled_of_step hbefore (hrun.step_of_mem hx)⟩

/-- A hand of fourteen cards and the whole pack, when `rand` always returns 7. -/
theorem deal_cards_seven :
    ∃ s₀ tr s, init_cards (Stream'.const 7) = some s₀ ∧ s₀.1.Shuffled ∧
      exec step s₀ [([], 14), ([⟨1, 2⟩], 108)] = some (tr, s) ∧
      tr.map Step.event = [([], 14), ([⟨1, 2⟩], 108)] ∧
      ∀ x ∈ tr, x.before.1.Shuffled ∧ x.after.1.Shuffled ∧ Deals x.event.1 x.event.2 x.out :=
  deal_cards (Stream'.const 7) [([], 14), ([⟨1, 2⟩], 108)] (by decide)

end CardDealer

end SparkFrame.Cards
