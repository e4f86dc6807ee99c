import SparkFrame.Lib.Loop

/-!
# Loops whose rounds may fail

A failed assertion, or an access outside of a container, is `none`.

* `collect f l` : what the rounds of a loop append, in order, unless one of them fails;
* `untilReturn? body l s` : `untilReturn` with a body that may fail;
* `guard_bind` : past an assertion that holds;
* `collect_eq_some`, `untilReturn?_eq_some` : where no round fails the loop is the one without checks.
-/

namespace SparkFrame.Lib

variable {α β σ : Type*}

def collect (f : α → Option (List β)) : List α → Option (List β)
  | [] => some []
  | a :: as => do
    let bs ← f a
    let rest ← collect f as
    return bs ++ rest

def untilReturn? (body : α → σ → Option (σ × Bool)) : List α → σ → Option (σ × Bool)
  | [], s => some (s, false)
  | a :: as, s =>
    match body a s with
    | none => none
    | some (s', true) => some (s', true)
    | some (s', false) => untilReturn? body as s'

theorem guard_bind {α : Type} {p : Prop} [Decidable p] (h : p) (x : Unit → Option α) :
    (guard p >>= x) = x () := by
  rw [guard, if_pos h]
  rfl

theorem collect_eq_some {f : α → Option (List β)} {g : α → List β} {l : List α}
    (h : ∀ a ∈ l, f a = some (g a)) : collect f l = some (l.flatMap g) := by
  induction l with
  | nil => rfl
  | cons a l ih =>
    rw [collect, h a List.mem_cons_self, ih fun b hb => h b (List.mem_cons_of_mem a hb),
      List.flatMap_cons]
    rfl

theorem flatMap_ite_singleton (p : α → Bool) (l : List α) :
    (l.flatMap fun a => if p a then [a] else []) = l.filter p := by
  induction l with
  | nil => rfl
  | cons a l ih =>
    rw [List.flatMap_cons, List.filter_cons, ih]
    cases p a <;> rfl

/-- The states in which the loop arrives satisfy `I`, and no round fails in such a state. -/
theorem untilReturn?_eq_some {I : σ → Prop} {body? : α → σ → Option (σ × Bool)}
    {body : α → σ → σ × Bool} {l : List α} (h : ∀ a ∈ l, ∀ s, I s → body? a s = some (body a s))
    (hinv : ∀ a ∈ l, ∀ s, I s → I (body a s).1) :
    ∀ s, I s → untilReturn? body? l s = some (untilReturn body l s) := by
  induction l with
  | nil => exact fun s _ => rfl
  | cons a l ih =>
    intro s hs
    have hrest := ih (fun b hb => h b (List.mem_cons_of_mem a hb))
      (fun b hb => hinv b (List.mem_cons_of_mem a hb))
    have hI := hinv a List.mem_cons_self s hs
    rw [untilReturn?, untilReturn, h a List.mem_cons_self s hs]
    rcases hbody : body a s with ⟨s', _ | _⟩
    · rw [hbody] at hI
      exact hrest s' hI
    · rfl

end SparkFrame.Lib
