import Mathlib.Data.List.Basic

/-!
# Loops with an early return

* `untilReturn body l s` : run `body` over `l` in order, stopping at the first `true`;
* `upTo p l` : the elements of `l` up to and including the first that satisfies `p`;
* `untilReturn_upTo` : when each body logs `upTo p` of its own list and stops exactly on a `p`, the
  loop logs `upTo p` of the concatenation.
-/

namespace SparkFrame.Lib

variable {α β σ : Type*}

def untilReturn (body : α → σ → σ × Bool) : List α → σ → σ × Bool
  | [], s => (s, false)
  | a :: as, s =>
    match body a s with
    | (s', true) => (s', true)
    | (s', false) => untilReturn body as s'

def upTo (p : β → Bool) : List β → List β
  | [] => []
  | b :: bs => if p b then [b] else b :: upTo p bs

/-! ## `upTo` -/

theorem upTo_append (p : β → Bool) (l m : List β) :
    upTo p (l ++ m) = if l.any p then upTo p l else l ++ upTo p m := by
  induction l with
  | nil => rfl
  | cons b l ih =>
    rw [List.cons_append, upTo, ih, List.any_cons, upTo]
    cases p b
    · by_cases h : l.any p = true <;>
        simp only [h, Bool.false_or, Bool.false_eq_true, if_true, if_false, List.cons_append]
    · rfl

theorem upTo_eq_self {p : β → Bool} {l : List β} (h : l.any p = false) : upTo p l = l := by
  simpa [h, upTo] using upTo_append p l []

theorem upTo_isPrefixOf (p : β → Bool) (l : List β) : upTo p l <+: l := by
  induction l with
  | nil => exact List.prefix_refl _
  | cons b l ih =>
    rw [upTo]
    split
    · exact ⟨l, rfl⟩
    · exact (List.prefix_cons_inj b).mpr ih

theorem mem_of_mem_upTo {p : β → Bool} {l : List β} {b : β} (h : b ∈ upTo p l) : b ∈ l :=
  (upTo_isPrefixOf p l).subset h

theorem upTo_ne_nil {p : β → Bool} {l : List β} (h : l ≠ []) : upTo p l ≠ [] := by
  cases l with
  | nil => exact absurd rfl h
  | cons b l =>
    rw [upTo]
    split <;> simp

/-- Nothing in front of the element that stopped the enumeration satisfies `p`. -/
theorem upTo_split {p : β → Bool} {l : List β} {b : β} (h : b ∈ upTo p l) (hp : p b = true) :
    ∃ l₁ l₂, l = l₁ ++ b :: l₂ ∧ ∀ a ∈ l₁, p a = false := by
  induction l with
  | nil => exact absurd h (List.not_mem_nil)
  | cons a l ih =>
    rw [upTo] at h
    by_cases ha : p a = true
    · rw [if_pos ha, List.mem_singleton] at h
      exact ⟨[], l, by rw [h, List.nil_append], by simp⟩
    · rw [if_neg ha] at h
      have hmem : b ∈ upTo p l := (List.mem_cons.mp h).resolve_left fun hab => ha (hab ▸ hp)
      obtain ⟨l₁, l₂, rfl, hall⟩ := ih hmem
      exact ⟨a :: l₁, l₂, rfl, List.forall_mem_cons.mpr ⟨Bool.eq_false_iff.mpr ha, hall⟩⟩

/-- The element that stopped the enumeration is its last one and the first to satisfy `p`. -/
theorem upTo_of_find? {p : β → Bool} {l : List β} {b : β} (h : l.find? p = some b) :
    (upTo p l).getLast? = some b := by
  induction l with
  | nil => simp at h
  | cons a l ih =>
    rw [List.find?_cons] at h
    rw [upTo]
    split at h
    · next hp => simp_all
    · next hp =>
      simp [hp, List.getLast?_cons, ih h]

/-! ## The loop rule -/

/-- What a body that logs `upTo p xs` does to a state with the invariant `I`. -/
structure Logs (I : σ → Prop) (log : σ → List β) (p : β → Bool) (xs : List β) (s : σ)
    (r : σ × Bool) : Prop where
  inv : I r.1
  log_eq : log r.1 = log s ++ upTo p xs
  stop : r.2 = xs.any p

theorem untilReturn_upTo {I : σ → Prop} {log : σ → List β} {p : β → Bool}
    {body : α → σ → σ × Bool} {f : α → List β} (l : List α)
    (hbody : ∀ a ∈ l, ∀ s, I s → Logs I log p (f a) s (body a s)) :
    ∀ s, I s → Logs I log p (l.flatMap f) s (untilReturn body l s) := by
  induction l with
  | nil => exact fun s hs => ⟨hs, by simp [untilReturn, upTo], by simp [untilReturn]⟩
  | cons a l ih =>
    intro s hs
    obtain ⟨hI, hlog, hstop⟩ := hbody a List.mem_cons_self s hs
    have ih' := ih (fun b hb => hbody b (List.mem_cons_of_mem a hb))
    rcases hr : body a s with ⟨s', _ | _⟩
    · rw [hr] at hI hlog hstop
      obtain ⟨hI', hlog', hstop'⟩ := ih' s' hI
      simp only [untilReturn, hr]
      refine ⟨hI', ?_, ?_⟩
      · rw [hlog', hlog, List.flatMap_cons, upTo_append, ← hstop, if_neg Bool.false_ne_true,
          upTo_eq_self hstop.symm, List.append_assoc]
      · rw [hstop', List.flatMap_cons, List.any_append, ← hstop, Bool.false_or]
    · rw [hr] at hI hlog hstop
      simp only [untilReturn, hr]
      refine ⟨hI, ?_, ?_⟩
      · rw [hlog, List.flatMap_cons, upTo_append, ← hstop, if_pos rfl]
      · rw [List.flatMap_cons, List.any_append, ← hstop, Bool.true_or]

end SparkFrame.Lib
