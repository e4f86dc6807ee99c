import Mathlib.Data.List.Induction

/-!
# Runs of a partial step function

A system is a step function `step : σ → ε → Option (σ × ω)`: in a state it takes an event, or
refuses it, and produces an output.

* `Step` : one step of a run, with the states before and after it;
* `Run step s₀ tr s` : the steps `tr` lead from `s₀` to `s`;
* `Run.invariant` : what each step preserves, provided it meets `ok`, holds after every run whose
  steps all meet `ok`; `Run.state_invariant` is the case without a history;
* `Run.forall_iff` : a condition that is exact for each step is exact for whole runs;
  `Run.forall_upto_iff` : the same for properties of histories;
* `Run.append`, `Run.of_append`, `Run.cons`, `Run.cons_inv`, `Run.snoc_inv` : runs put together and
  taken apart; `Run.state_unique` : the history determines the state;
* `since` : the steps after the last one of a kind; `Run.forall_at_iff` : exact conditions that look
  at the history of each step;
* `exec` : the run on a list of events, computed; `Run.of_exec` turns it into a `Run`;
  `exists_exec` : steps that are always taken make runs that get to their end.
-/

namespace SparkFrame.Lib

/-- One step of a run: the event taken and the output produced, between two states. -/
structure Step (σ ε ω : Type*) where
  before : σ
  event : ε
  out : ω
  after : σ

variable {σ ε ω : Type*} {step : σ → ε → Option (σ × ω)} {s₀ : σ}

/-- The runs from `s₀`, with their history. -/
inductive Run (step : σ → ε → Option (σ × ω)) (s₀ : σ) : List (Step σ ε ω) → σ → Prop where
  | nil : Run step s₀ [] s₀
  | snoc {tr : List (Step σ ε ω)} {s s' : σ} {e : ε} {o : ω} :
      Run step s₀ tr s → step s e = some (s', o) → Run step s₀ (tr ++ [⟨s, e, o, s'⟩]) s'

namespace Run

/-- **Invariants of runs.** A relation between history and state that holds at the start and that
every step meeting `ok` preserves holds after every run whose steps all meet `ok`. -/
theorem invariant (I : List (Step σ ε ω) → σ → Prop) (ok : σ → ε → Prop) (h₀ : I [] s₀)
    (hstep : ∀ {tr s s' e o}, I tr s → ok s e → step s e = some (s', o) →
      I (tr ++ [⟨s, e, o, s'⟩]) s')
    {tr : List (Step σ ε ω)} {s : σ} (hr : Run step s₀ tr s)
    (hok : ∀ x ∈ tr, ok x.before x.event) : I tr s := by
  induction hr with
  | nil => exact h₀
  | snoc _ hs ih =>
    have hpre := ih fun x hx => hok x (List.mem_append_left _ hx)
    exact hstep hpre (hok _ (List.mem_append_right _ (List.mem_singleton_self _))) hs

/-- A property of states that every step preserves holds after every run. -/
theorem state_invariant {I : σ → Prop} (h₀ : I s₀)
    (hstep : ∀ {s s' e o}, I s → step s e = some (s', o) → I s')
    {tr : List (Step σ ε ω)} {s : σ} (hr : Run step s₀ tr s) : I s := by
  induction hr with
  | nil => exact h₀
  | snoc _ hs ih => exact hstep ih hs

/-- Such a property also holds before every step of the run. -/
theorem before_invariant {I : σ → Prop} (h₀ : I s₀)
    (hstep : ∀ {s s' e o}, I s → step s e = some (s', o) → I s')
    {tr : List (Step σ ε ω)} {s : σ} (hr : Run step s₀ tr s) : ∀ x ∈ tr, I x.before := by
  induction hr with
  | nil => exact List.forall_mem_nil _
  | snoc hpre hs ih =>
    rw [List.forall_mem_append, List.forall_mem_singleton]
    exact ⟨ih, hpre.state_invariant h₀ hstep⟩

/-- **Exact conditions.** When, under an invariant that steps meeting `ok` preserve, a step is good
exactly if it meets `ok`, the steps of a run are all good exactly if they all meet `ok`. -/
theorem forall_iff {I : σ → Prop} {good : Step σ ε ω → Prop} {ok : σ → ε → Prop} (h₀ : I s₀)
    (hgood : ∀ {s s' e o}, I s → step s e = some (s', o) → (good ⟨s, e, o, s'⟩ ↔ ok s e))
    (hstep : ∀ {s s' e o}, I s → ok s e → step s e = some (s', o) → I s')
    {tr : List (Step σ ε ω)} {s : σ} (hr : Run step s₀ tr s) :
    (∀ x ∈ tr, good x) ↔ ∀ x ∈ tr, ok x.before x.event := by
  induction hr with
  | nil => simp
  | snoc hpre hs ih =>
    simp only [List.forall_mem_append, List.forall_mem_singleton]
    rw [ih]
    refine and_congr_right fun hok => hgood ?_ hs
    exact hpre.invariant (fun _ s => I s) ok h₀ hstep hok

theorem cons {s s' : σ} {e : ε} {o : ω} {tr : List (Step σ ε ω)} (h : step s₀ e = some (s, o))
    (hr : Run step s tr s') : Run step s₀ (⟨s₀, e, o, s⟩ :: tr) s' := by
  induction hr with
  | nil => exact .snoc .nil h
  | snoc _ hs ih => exact .snoc ih hs

theorem append {s s' : σ} {tr tr' : List (Step σ ε ω)} (hr : Run step s₀ tr s)
    (hr' : Run step s tr' s') : Run step s₀ (tr ++ tr') s' := by
  induction hr' with
  | nil => rwa [List.append_nil]
  | snoc _ hs ih =>
    rw [← List.append_assoc]
    exact .snoc ih hs

theorem nil_inv {s : σ} (hr : Run step s₀ [] s) : s = s₀ := by
  generalize htr : ([] : List (Step σ ε ω)) = tr at hr
  cases hr with
  | nil => rfl
  | snoc => simp at htr

theorem snoc_inv {tr : List (Step σ ε ω)} {x : Step σ ε ω} {s : σ}
    (hr : Run step s₀ (tr ++ [x]) s) :
    Run step s₀ tr x.before ∧ step x.before x.event = some (x.after, x.out) ∧ x.after = s := by
  generalize htr : tr ++ [x] = tr' at hr
  cases hr with
  | nil => simp at htr
  | snoc hpre hs =>
    obtain ⟨rfl, hx⟩ := List.append_inj' htr rfl
    cases hx
    exact ⟨hpre, hs, rfl⟩

theorem of_append {tr tr' : List (Step σ ε ω)} {s' : σ} (hr : Run step s₀ (tr ++ tr') s') :
    ∃ s, Run step s₀ tr s ∧ Run step s tr' s' := by
  induction tr' using List.reverseRecOn generalizing s' with
  | nil => exact ⟨s', by rwa [List.append_nil] at hr, .nil⟩
  | append_singleton tr' x ih =>
    rw [← List.append_assoc] at hr
    obtain ⟨hpre, hs, rfl⟩ := hr.snoc_inv
    obtain ⟨s, hr, hr'⟩ := ih hpre
    exact ⟨s, hr, .snoc hr' hs⟩

theorem cons_inv {tr : List (Step σ ε ω)} {x : Step σ ε ω} {s : σ} (hr : Run step s₀ (x :: tr) s) :
    x.before = s₀ ∧ step s₀ x.event = some (x.after, x.out) ∧ Run step x.after tr s := by
  obtain ⟨s₁, hx, hr⟩ := of_append (show Run step s₀ ([x] ++ tr) s from hr)
  obtain ⟨hnil, hs, rfl⟩ := snoc_inv (show Run step s₀ ([] ++ [x]) s₁ from hx)
  have hb := hnil.nil_inv
  exact ⟨hb, hb ▸ hs, hr⟩

theorem state_unique {tr : List (Step σ ε ω)} {s s' : σ} (hr : Run step s₀ tr s)
    (hr' : Run step s₀ tr s') : s = s' := by
  rcases List.eq_nil_or_concat tr with rfl | ⟨tr, x, rfl⟩
  · rw [hr.nil_inv, hr'.nil_inv]
  · rw [List.concat_eq_append] at hr hr'
    rw [← hr.snoc_inv.2.2, ← hr'.snoc_inv.2.2]

/-- **Exact conditions on histories.** The same for a property of every part of the run from its
start, history included. -/
theorem forall_upto_iff {I good : List (Step σ ε ω) → σ → Prop} {ok : σ → ε → Prop} (h₀ : I [] s₀)
    (hgood₀ : good [] s₀)
    (hgood : ∀ {tr s s' e o}, I tr s → step s e = some (s', o) →
      (good (tr ++ [⟨s, e, o, s'⟩]) s' ↔ ok s e))
    (hstep : ∀ {tr s s' e o}, I tr s → ok s e → step s e = some (s', o) →
      I (tr ++ [⟨s, e, o, s'⟩]) s')
    {tr : List (Step σ ε ω)} {s : σ} (hr : Run step s₀ tr s) :
    (∀ tr' s', tr' <+: tr → Run step s₀ tr' s' → good tr' s') ↔ ∀ x ∈ tr, ok x.before x.event := by
  induction hr with
  | nil =>
    refine iff_of_true (fun tr' s' htr hr => ?_) (List.forall_mem_nil _)
    obtain rfl := List.prefix_nil.1 htr
    rwa [hr.nil_inv]
  | @snoc tr s s' e o hpre hs ih =>
    simp only [List.forall_mem_append, List.forall_mem_singleton, ← ih]
    constructor
    · intro h
      have hgoods : ∀ tr' s', tr' <+: tr → Run step s₀ tr' s' → good tr' s' := fun tr' s' htr =>
        h tr' s' (htr.trans (List.prefix_append ..))
      have hI := hpre.invariant I ok h₀ hstep (ih.1 hgoods)
      exact ⟨hgoods, (hgood hI hs).1 (h _ _ (List.prefix_refl _) (.snoc hpre hs))⟩
    · intro ⟨hgoods, hok⟩ tr' s'' htr hr
      have hI := hpre.invariant I ok h₀ hstep (ih.1 hgoods)
      rcases List.prefix_concat_iff.1 htr with rfl | htr
      · rw [hr.state_unique (.snoc hpre hs)]
        exact (hgood hI hs).2 hok
      · exact hgoods tr' s'' htr hr

/-! ### Conditions on steps and what came before them -/

/-- `invariant`, where `ok` sees the history. -/
theorem invariant_at {I : List (Step σ ε ω) → σ → Prop} {ok : List (Step σ ε ω) → σ → ε → Prop}
    (h₀ : I [] s₀)
    (hstep : ∀ {tr s s' e o}, I tr s → ok tr s e → step s e = some (s', o) →
      I (tr ++ [⟨s, e, o, s'⟩]) s')
    {tr : List (Step σ ε ω)} {s : σ} (hr : Run step s₀ tr s)
    (hok : ∀ pre x, pre ++ [x] <+: tr → ok pre x.before x.event) : I tr s := by
  induction hr with
  | nil => exact h₀
  | snoc _ hs ih =>
    have hpre := ih fun pre x hx => hok pre x (hx.trans (List.prefix_append ..))
    exact hstep hpre (hok _ _ (List.prefix_refl _)) hs

/-- **Exact conditions with a history.** -/
theorem forall_at_iff {I : List (Step σ ε ω) → σ → Prop}
    {good : List (Step σ ε ω) → Step σ ε ω → Prop} {ok : List (Step σ ε ω) → σ → ε → Prop}
    (h₀ : I [] s₀)
    (hgood : ∀ {tr s s' e o}, I tr s → step s e = some (s', o) →
      (good tr ⟨s, e, o, s'⟩ ↔ ok tr s e))
    (hstep : ∀ {tr s s' e o}, I tr s → ok tr s e → step s e = some (s', o) →
      I (tr ++ [⟨s, e, o, s'⟩]) s')
    {tr : List (Step σ ε ω)} {s : σ} (hr : Run step s₀ tr s) :
    (∀ pre x, pre ++ [x] <+: tr → good pre x) ↔
      ∀ pre x, pre ++ [x] <+: tr → ok pre x.before x.event := by
  induction hr with
  | nil =>
    have hnil : ∀ pre (x : Step σ ε ω), ¬ pre ++ [x] <+: [] := fun pre x hx => by
      simpa using List.prefix_nil.1 hx
    exact iff_of_true (fun pre x hx => absurd hx (hnil pre x)) fun pre x hx => absurd hx (hnil pre x)
  | @snoc tr s s' e o hpre hs ih =>
    have hlast : ∀ P : List (Step σ ε ω) → Step σ ε ω → Prop,
        (∀ pre x, pre ++ [x] <+: tr ++ [⟨s, e, o, s'⟩] → P pre x) ↔
          (∀ pre x, pre ++ [x] <+: tr → P pre x) ∧ P tr ⟨s, e, o, s'⟩ := by
      intro P
      constructor
      · intro h
        exact ⟨fun pre x hx => h pre x (hx.trans (List.prefix_append ..)),
          h _ _ (List.prefix_refl _)⟩
      · intro ⟨h, hx⟩ pre x hpx
        rcases List.prefix_concat_iff.1 hpx with heq | hpx
        · obtain ⟨rfl, hx'⟩ := List.append_inj' heq rfl
          cases hx'
          exact hx
        · exact h pre x hpx
    rw [hlast, hlast fun pre x => ok pre x.before x.event, ih]
    refine and_congr_right fun hok => hgood ?_ hs
    exact hpre.invariant_at h₀ hstep hok

theorem step_of_mem {tr : List (Step σ ε ω)} {s : σ} (hr : Run step s₀ tr s)
    {x : Step σ ε ω} (hx : x ∈ tr) : step x.before x.event = some (x.after, x.out) := by
  induction hr with
  | nil => cases hx
  | snoc _ hs ih =>
    rcases List.mem_append.1 hx with hx | hx
    · exact ih hx
    · rw [List.mem_singleton.1 hx]
      exact hs

end Run

/-- The steps after the last one that passes the test. -/
def since (p : Step σ ε ω → Bool) (tr : List (Step σ ε ω)) : List (Step σ ε ω) :=
  tr.foldl (fun l x => if p x then [] else l ++ [x]) []

@[simp] theorem since_nil (p : Step σ ε ω → Bool) : since p [] = [] := rfl

theorem since_append_singleton (p : Step σ ε ω → Bool) (tr : List (Step σ ε ω)) (x : Step σ ε ω) :
    since p (tr ++ [x]) = if p x then [] else since p tr ++ [x] := by
  rw [since, List.foldl_append]
  rfl

/-! ## Computing a run -/

/-- The run from `s₀` on the events `es`, if the system accepts them all. -/
def exec (step : σ → ε → Option (σ × ω)) (s₀ : σ) : List ε → Option (List (Step σ ε ω) × σ)
  | es => es.foldl
      (fun r e => r.bind fun p => (step p.2 e).map fun q => (p.1 ++ [⟨p.2, e, q.2, q.1⟩], q.1))
      (some ([], s₀))

theorem exec_append_singleton (es : List ε) (e : ε) :
    exec step s₀ (es ++ [e]) = (exec step s₀ es).bind fun p =>
      (step p.2 e).map fun q => (p.1 ++ [⟨p.2, e, q.2, q.1⟩], q.1) := by
  simp [exec, List.foldl_append]

theorem Run.of_exec {es : List ε} {p : List (Step σ ε ω) × σ}
    (h : exec step s₀ es = some p) : Run step s₀ p.1 p.2 := by
  induction es using List.reverseRecOn generalizing p with
  | nil =>
    rw [show exec step s₀ [] = some ([], s₀) from rfl, Option.some.injEq] at h
    rw [← h]
    exact .nil
  | append_singleton es e ih =>
    rw [exec_append_singleton] at h
    obtain ⟨q, hq, hp⟩ := Option.bind_eq_some_iff.1 h
    obtain ⟨r, hr, rfl⟩ := Option.map_eq_some_iff.1 hp
    exact .snoc (ih hq) hr

theorem event_mem_of_exec {es : List ε} {p : List (Step σ ε ω) × σ} (h : exec step s₀ es = some p) :
    ∀ x ∈ p.1, x.event ∈ es := by
  induction es using List.reverseRecOn generalizing p with
  | nil =>
    rw [show exec step s₀ [] = some ([], s₀) from rfl, Option.some.injEq] at h
    rw [← h]
    exact List.forall_mem_nil _
  | append_singleton es e ih =>
    rw [exec_append_singleton] at h
    obtain ⟨q, hq, hp⟩ := Option.bind_eq_some_iff.1 h
    obtain ⟨r, -, rfl⟩ := Option.map_eq_some_iff.1 hp
    intro x hx
    rcases List.mem_append.1 hx with hx | hx
    · exact List.mem_append_left _ (ih hq x hx)
    · rw [List.mem_singleton.1 hx]
      exact List.mem_append_right _ (List.mem_singleton_self _)

theorem map_event_of_exec {es : List ε} {p : List (Step σ ε ω) × σ} (h : exec step s₀ es = some p) :
    p.1.map Step.event = es := by
  induction es using List.reverseRecOn generalizing p with
  | nil =>
    rw [show exec step s₀ [] = some ([], s₀) from rfl, Option.some.injEq] at h
    rw [← h]
    rfl
  | append_singleton es e ih =>
    rw [exec_append_singleton] at h
    obtain ⟨q, hq, hp⟩ := Option.bind_eq_some_iff.1 h
    obtain ⟨r, -, rfl⟩ := Option.map_eq_some_iff.1 hp
    rw [List.map_append, ih hq]
    rfl

/-- **Progress.** When, under an invariant, every step that meets `ok` is taken and keeps the
invariant, a run on events that all meet `ok` gets to its end. -/
theorem exists_exec {I : σ → Prop} {ok : ε → Prop} (h₀ : I s₀)
    (hstep : ∀ {s e}, I s → ok e → ∃ s' o, step s e = some (s', o) ∧ I s') {es : List ε}
    (hes : ∀ e ∈ es, ok e) : ∃ tr s, exec step s₀ es = some (tr, s) ∧ I s := by
  induction es using List.reverseRecOn with
  | nil => exact ⟨[], s₀, rfl, h₀⟩
  | append_singleton es e ih =>
    rw [List.forall_mem_append, List.forall_mem_singleton] at hes
    obtain ⟨tr, s, hexec, hI⟩ := ih hes.1
    obtain ⟨s', o, hs, hI'⟩ := hstep hI hes.2
    exact ⟨tr ++ [⟨s, e, o, s'⟩], s', by rw [exec_append_singleton, hexec, Option.bind_some, hs]; rfl, hI'⟩

theorem Run.exists_of_exec (step : σ → ε → Option (σ × ω)) (s₀ : σ) (es : List ε)
    {P : List (Step σ ε ω) → σ → Prop} (h : ∃ p ∈ exec step s₀ es, P p.1 p.2) :
    ∃ tr s, Run step s₀ tr s ∧ P tr s := by
  obtain ⟨p, hp, h⟩ := h
  exact ⟨p.1, p.2, .of_exec hp, h⟩

end SparkFrame.Lib
