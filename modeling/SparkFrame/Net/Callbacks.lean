import SparkFrame.Net.AsyncRequest

/-!
# How often a callback is posted

Cancelling a timer whose handler is queued has no effect, and a response does not remove its item,
so a second response, or a response after the timer has run out, posts the callback again.

* `Inv`, `Inv.step` : items and timers belong together, in every run;
* `Out`, `step_out` : what one event can put out; `posted` : the requests whose callbacks it posts;
* `InTime` : a response finds its item's timer still waiting;
* `Spent` : requests whose timer will not run out; `Out.spent` : a posted callback spends its request;
* `OnlyOnce`, `OnlyOnce.step` : what one step in time preserves;
* `posted_once` : **every callback is posted at most once when responses are in time**;
  `posted_twice` : a response between the expiry and its handler.
-/

namespace SparkFrame.Net.AsyncRequest

open SparkFrame.Lib Function

variable {L F P : Type} {make_message : BitVec 32 → BitVec 32 → P}

/-- The requests, by their timers, whose callbacks some effects post. -/
def posted (effects : List (Effect L F P)) : List Nat :=
  effects.filterMap fun
    | .post item _ => some item.m_timer
    | _ => none

/-- **The condition.** A response comes for no item, or the item's timer has neither run out nor
been cancelled. -/
def InTime (s : AsyncRequest L F P) : Event L F P → Prop
  | .on_response_come response =>
    ∀ item ∈ s.m_items response.header.sequenceid, (s.timers item.m_timer).waiting = true
  | _ => True

instance (s : AsyncRequest L F P) (e : Event L F P) : Decidable (InTime s e) :=
  match e with
  | .on_response_come _ => Option.decidableForallMem _
  | .do_send_message _ | .do_send_asyn_message _ _ _ | .timer_expires _ | .on_response_timeout _ _ =>
    isTrue trivial

/-! ## Items and timers -/

/-- Each item knows its timer, and each timer with a handler to come has its item. -/
structure Inv (s : AsyncRequest L F P) : Prop where
  item : ∀ q item, s.m_items q = some item →
    item.m_sequnce_id = q ∧ s.bound item.m_timer = q ∧ item.m_timer < s.created
  one : ∀ i, (s.timers i).outstanding ≤ 1
  live : ∀ i, 0 < (s.timers i).outstanding →
    ∃ item, s.m_items (s.bound i) = some item ∧ item.m_timer = i
  unused : ∀ i, s.created ≤ i → (s.timers i).outstanding = 0

namespace Inv

variable {s : AsyncRequest L F P}

theorem new : Inv (.new : AsyncRequest L F P) where
  item q item h := by cases h
  one i := by simp [AsyncRequest.new]
  live i h := by simp [AsyncRequest.new] at h
  unused i _ := by simp [AsyncRequest.new]

theorem update_timer (h : Inv s) (i : Nat) {t : SteadyTimer}
    (ht : t.outstanding = (s.timers i).outstanding) :
    Inv { s with timers := update s.timers i t } := by
  have same (j : Nat) : (update s.timers i t j).outstanding = (s.timers j).outstanding := by
    by_cases hj : j = i
    · rw [hj, update_self, ht]
    · rw [update_of_ne hj]
  exact
    { item := h.item
      one := fun j => (same j).trans_le (h.one j)
      live := fun j hj => h.live j ((same j) ▸ hj)
      unused := fun j hj => (same j).trans (h.unused j hj) }

/-- A new request gets a timer that no item has and an id that no timer with a handler to come is
bound to. -/
theorem send_request (h : Inv s) (io_loop : Option L) (request : Message P) (callback : F) :
    Inv (s.send_request io_loop request callback) := by
  unfold AsyncRequest.send_request
  split
  · exact h
  · next hnone =>
    constructor
    · intro q item hq
      dsimp only at hq ⊢
      by_cases hqr : q = request.header.sequenceid
      · rw [hqr, update_self, Option.some.injEq] at hq
        rw [← hq, hqr]
        exact ⟨rfl, update_self .., Nat.lt_succ_self _⟩
      · rw [update_of_ne hqr] at hq
        obtain ⟨hid, hbound, hlt⟩ := h.item q item hq
        exact ⟨hid, by rw [update_of_ne hlt.ne, hbound], Nat.lt_succ_of_lt hlt⟩
    · intro i
      dsimp only
      by_cases hi : i = s.created
      · rw [hi, update_self]
        decide
      · rw [update_of_ne hi]
        exact h.one i
    · intro i hi
      dsimp only at hi ⊢
      by_cases hic : i = s.created
      · exact ⟨_, by rw [hic, update_self, update_self], hic.symm⟩
      · rw [update_of_ne hic] at hi ⊢
        obtain ⟨item, hitem, htimer⟩ := h.live i hi
        refine ⟨item, ?_, htimer⟩
        rw [update_of_ne (fun hb => by rw [hb, hnone] at hitem; cases hitem), hitem]
    · intro i hi
      dsimp only at hi ⊢
      rw [update_of_ne (by omega)]
      exact h.unused i (by omega)

theorem set_msg_sequenceid (h : Inv s) (msg : Message P) : Inv (s.set_msg_sequenceid msg).2 :=
  ⟨h.item, h.one, h.live, h.unused⟩

theorem on_response_come (h : Inv s) (response : Message P) :
    Inv (s.on_response_come response).1 := by
  unfold AsyncRequest.on_response_come
  split
  · exact h
  · exact h.update_timer _ (SteadyTimer.outstanding_cancel _)

/-- The handler of a timer finds the item that belongs to the timer, and nobody else needs it. -/
theorem on_response_timeout (make_message : BitVec 32 → BitVec 32 → P) (h : Inv s) {i : Nat} {err_code : Bool} {t : SteadyTimer}
    (ht : (s.timers i).take err_code = some t) :
    (∃ item, s.m_items (s.bound i) = some item ∧ item.m_timer = i) ∧
      Inv ({ s with timers := update s.timers i t }.on_response_timeout make_message err_code
        (s.bound i)).1 := by
  obtain ⟨-, hcount, -⟩ := SteadyTimer.take_eq_some ht
  have hone := h.one i
  obtain ⟨item, hitem, htimer⟩ := h.live i (by omega)
  refine ⟨⟨item, hitem, htimer⟩, ?_⟩
  have hzero : t.outstanding = 0 := by omega
  have hle (j : Nat) : (update s.timers i t j).outstanding ≤ (s.timers j).outstanding := by
    by_cases hj : j = i
    · rw [hj, update_self]
      omega
    · rw [update_of_ne hj]
  unfold AsyncRequest.on_response_timeout
  dsimp only
  rw [hitem]
  constructor
  · intro q item' hq
    dsimp only at hq ⊢
    by_cases hqi : q = s.bound i
    · rw [hqi, update_self] at hq
      cases hq
    · rw [update_of_ne hqi] at hq
      exact h.item q item' hq
  · exact fun j => (hle j).trans (h.one j)
  · intro j hj
    dsimp only at hj ⊢
    have hji : j ≠ i := by
      rintro rfl
      rw [update_self, hzero] at hj
      exact absurd hj (Nat.lt_irrefl 0)
    rw [update_of_ne hji] at hj
    obtain ⟨item', hitem', htimer'⟩ := h.live j hj
    refine ⟨item', ?_, htimer'⟩
    rw [update_of_ne, hitem']
    intro hb
    rw [hb, hitem, Option.some.injEq] at hitem'
    rw [← hitem', htimer] at htimer'
    exact hji htimer'.symm
  · intro j hj
    exact Nat.le_zero.1 ((hle j).trans (h.unused j hj).le)

theorem step {e : Event L F P} {s' : AsyncRequest L F P} {o : List (Effect L F P)} (h : Inv s)
    (hs : step make_message s e = some (s', o)) : Inv s' := by
  obtain ⟨-, ht⟩ := step_eq_some_iff.1 hs
  cases e with
  | do_send_message msg =>
    have := h.set_msg_sequenceid msg
    cases ht
    exact this
  | do_send_asyn_message msg callback io_loop =>
    cases ht
    exact (h.set_msg_sequenceid msg).send_request _ _ _
  | on_response_come response =>
    have := h.on_response_come response
    rwa [ht] at this
  | timer_expires i =>
    obtain ⟨t, hexp, ht⟩ := ht
    cases ht
    exact h.update_timer i (SteadyTimer.expire_eq_some hexp).2
  | on_response_timeout i err_code =>
    obtain ⟨t, htake, ht⟩ := ht
    have := (h.on_response_timeout make_message htake).2
    rwa [ht] at this

end Inv

/-! ## What one event posts -/

/-- The possible outputs of an event. -/
inductive Out (s : AsyncRequest L F P) : Event L F P → List (Effect L F P) → Prop where
  | silent (e : Event L F P) : Out s e []
  | write (e : Event L F P) (msg : Message P) : Out s e [.do_write msg]
  | answer (response : Message P) (item : AsynItem L F P) :
      s.m_items response.header.sequenceid = some item →
      Out s (.on_response_come response) [.post item response]
  | timeout (item : AsynItem L F P) (response : Message P) :
      s.m_items (s.bound item.m_timer) = some item → 0 < (s.timers item.m_timer).ready →
      response.header.sequenceid = s.bound item.m_timer →
      response.header.response_result = CODE_WAIT_RESP_TIMEOUT →
      Out s (.on_response_timeout item.m_timer false) [.post item response]

theorem step_out {s s' : AsyncRequest L F P} {e : Event L F P} {o : List (Effect L F P)}
    (h : Inv s) (hs : step make_message s e = some (s', o)) : Out s e o := by
  obtain ⟨-, ht⟩ := step_eq_some_iff.1 hs
  cases e with
  | do_send_message msg =>
    cases ht
    exact .write _ _
  | do_send_asyn_message msg callback io_loop =>
    cases ht
    exact .write _ _
  | on_response_come response =>
    simp only [Takes, on_response_come] at ht
    split at ht
    · cases ht
      exact .silent _
    · next item hitem =>
      cases ht
      exact .answer response item hitem
  | timer_expires i =>
    obtain ⟨t, -, ht⟩ := ht
    cases ht
    exact .silent _
  | on_response_timeout i err_code =>
    obtain ⟨t, htake, ht⟩ := ht
    obtain ⟨item, hitem, rfl⟩ := (h.on_response_timeout make_message htake).1
    simp only [on_response_timeout, hitem] at ht
    cases ht
    cases err_code with
    | true => exact .silent _
    | false => exact .timeout item _ hitem ((SteadyTimer.take_eq_some htake).2.2 rfl) rfl rfl

/-- What an output says about the callbacks: each is posted for one item, with a response that
carries its number. -/
theorem Out.post {s : AsyncRequest L F P} (h : Inv s) {e : Event L F P}
    {o : List (Effect L F P)} (ho : Out s e o) {item : AsynItem L F P} {response : Message P}
    (hp : .post item response ∈ o) :
    response.header.sequenceid = item.m_sequnce_id ∧
      (e = .on_response_come response ∨
        response.header.response_result = CODE_WAIT_RESP_TIMEOUT) := by
  cases ho with
  | silent => cases hp
  | write _ msg => simp at hp
  | answer response item hitem =>
    cases List.mem_singleton.1 hp
    exact ⟨(h.item _ _ hitem).1.symm, .inl rfl⟩
  | timeout item response hitem _ hseq hcode =>
    cases List.mem_singleton.1 hp
    exact ⟨hseq.trans (h.item _ _ hitem).1.symm, .inr hcode⟩

theorem Out.no_assert {s : AsyncRequest L F P} {e : Event L F P} {o : List (Effect L F P)}
    (ho : Out s e o) : .assert_failed ∉ o := by
  cases ho <;> simp

/-! ## Answered requests -/

/-- The request has a timer that will not run out any more. -/
def Spent (s : AsyncRequest L F P) (i : Nat) : Prop :=
  i < s.created ∧ (s.timers i).Silent

theorem Spent.step {s s' : AsyncRequest L F P} {e : Event L F P} {o : List (Effect L F P)} {i : Nat}
    (hi : Spent s i) (hs : step make_message s e = some (s', o)) : Spent s' i := by
  obtain ⟨hlt, hsilent⟩ := hi
  obtain ⟨-, ht⟩ := step_eq_some_iff.1 hs
  cases e with
  | do_send_message msg =>
    cases ht
    exact ⟨hlt, hsilent⟩
  | do_send_asyn_message msg callback io_loop =>
    cases ht
    simp only [send_request]
    split
    · exact ⟨hlt, hsilent⟩
    · refine ⟨Nat.lt_succ_of_lt hlt, ?_⟩
      show (update s.timers s.created _ i).Silent
      rwa [update_of_ne hlt.ne]
  | on_response_come response =>
    simp only [Takes, on_response_come] at ht
    split at ht
    · cases ht
      exact ⟨hlt, hsilent⟩
    · next item _ =>
      cases ht
      refine ⟨hlt, ?_⟩
      show (update s.timers item.m_timer _ i).Silent
      by_cases hi : i = item.m_timer
      · rw [hi, update_self, ← hi]
        exact .cancel hsilent.2
      · rwa [update_of_ne hi]
  | timer_expires j =>
    obtain ⟨t, hexp, ht⟩ := ht
    cases ht
    refine ⟨hlt, ?_⟩
    show (update s.timers j t i).Silent
    by_cases hi : i = j
    · rw [← hi, hsilent.expire] at hexp
      cases hexp
    · rwa [update_of_ne hi]
  | on_response_timeout j err_code =>
    obtain ⟨t, htake, ht⟩ := ht
    have hs' : s'.created = s.created ∧ s'.timers = update s.timers j t := by
      simp only [on_response_timeout] at ht
      split at ht
      · cases ht
        exact ⟨rfl, rfl⟩
      · cases ht
        exact ⟨rfl, rfl⟩
    refine ⟨hs'.1 ▸ hlt, ?_⟩
    rw [hs'.2]
    by_cases hi : i = j
    · rw [hi, update_self]
      rw [← hi] at htake
      exact (hsilent.take htake).2
    · rwa [update_of_ne hi]

/-- A callback that is posted in time belongs to a request that was not spent and is now. -/
theorem Out.spent {s s' : AsyncRequest L F P} (h : Inv s) {e : Event L F P}
    {o : List (Effect L F P)} (ho : Out s e o) (hok : InTime s e)
    (hs : step make_message s e = some (s', o)) {item : AsynItem L F P} {response : Message P}
    (hp : .post item response ∈ o) :
    o = [.post item response] ∧ ¬ Spent s item.m_timer ∧ Spent s' item.m_timer := by
  obtain ⟨-, ht⟩ := step_eq_some_iff.1 hs
  cases ho with
  | silent => cases hp
  | write _ msg => simp at hp
  | answer response item hitem =>
    cases List.mem_singleton.1 hp
    have hwait := hok item hitem
    have hone := h.one item.m_timer
    refine ⟨rfl, fun hsp => ?_, ?_⟩
    · rw [hsp.2.1] at hwait
      cases hwait
    · simp only [Takes, on_response_come, hitem] at ht
      cases ht
      refine ⟨(h.item _ _ hitem).2.2, ?_⟩
      show (update s.timers item.m_timer _ item.m_timer).Silent
      rw [update_self]
      apply SteadyTimer.Silent.cancel
      simp only [SteadyTimer.outstanding, hwait, Bool.toNat_true] at hone
      omega
  | timeout item response hitem hready =>
    cases List.mem_singleton.1 hp
    refine ⟨rfl, fun hsp => ?_, ?_⟩
    · rw [hsp.2.2] at hready
      cases hready
    · obtain ⟨t, htake, ht⟩ := ht
      obtain ⟨-, hcount, -⟩ := SteadyTimer.take_eq_some htake
      have hone := h.one item.m_timer
      simp only [on_response_timeout, hitem] at ht
      cases ht
      refine ⟨(h.item _ _ hitem).2.2, ?_⟩
      show (update s.timers item.m_timer t item.m_timer).Silent
      rw [update_self]
      have hzero : t.outstanding = 0 := by omega
      simp only [SteadyTimer.outstanding] at hzero
      exact ⟨by cases hw : t.waiting <;> simp_all, by omega⟩

/-! ## Runs -/

/-- So far every callback has been posted at most once, and those posted belong to spent requests. -/
structure OnlyOnce (tr : List (Step (AsyncRequest L F P) (Event L F P) (List (Effect L F P))))
    (s : AsyncRequest L F P) : Prop where
  inv : Inv s
  nodup : (tr.flatMap fun x => posted x.out).Nodup
  spent : ∀ i ∈ tr.flatMap fun x => posted x.out, Spent s i

theorem mem_posted {o : List (Effect L F P)} {i : Nat} (h : i ∈ posted o) :
    ∃ item response, .post item response ∈ o ∧ item.m_timer = i := by
  obtain ⟨e, he, hi⟩ := List.mem_filterMap.1 h
  cases e with
  | post item response => exact ⟨item, response, he, Option.some.inj hi⟩
  | do_write | assert_failed => cases hi

theorem OnlyOnce.step {tr : List (Step _ _ _)} {s s' : AsyncRequest L F P} {e : Event L F P}
    {o : List (Effect L F P)} (h : OnlyOnce tr s) (hok : InTime s e)
    (hs : step make_message s e = some (s', o)) : OnlyOnce (tr ++ [⟨s, e, o, s'⟩]) s' := by
  have ho := step_out h.inv hs
  have hflat : (tr ++ [(⟨s, e, o, s'⟩ : Step _ _ _)]).flatMap (fun x => posted x.out) =
      (tr.flatMap fun x => posted x.out) ++ posted o := by
    simp [List.flatMap_append]
  refine ⟨h.inv.step hs, ?_, ?_⟩
  · rw [hflat, List.nodup_append]
    refine ⟨h.nodup, ?_, ?_⟩
    · by_cases hne : posted o = []
      · rw [hne]
        exact List.nodup_nil
      · obtain ⟨i, hi⟩ := List.exists_mem_of_ne_nil _ hne
        obtain ⟨item, response, hp, -⟩ := mem_posted hi
        rw [(ho.spent h.inv hok hs hp).1]
        exact List.nodup_singleton _
    · rintro i hi j hj rfl
      obtain ⟨item, response, hp, rfl⟩ := mem_posted hj
      exact (ho.spent h.inv hok hs hp).2.1 (h.spent _ hi)
  · intro i hi
    rw [hflat] at hi
    rcases List.mem_append.1 hi with hi | hi
    · exact (h.spent i hi).step hs
    · obtain ⟨item, response, hp, rfl⟩ := mem_posted hi
      exact (ho.spent h.inv hok hs hp).2.2

/-- **Callbacks.** In every interleaving the assertion of `on_response_timeout` holds and what a
callback gets is a response with the number of its request or a timeout; and in every interleaving
whose responses come in time, no request's callback is posted twice. -/
theorem posted_once {tr : List (Step _ _ (List (Effect L F P)))} {s : AsyncRequest L F P}
    (hr : Run (AsyncRequest.step make_message) new tr s) :
    (∀ x ∈ tr, .assert_failed ∉ x.out) ∧
      (∀ x ∈ tr, ∀ item response, .post item response ∈ x.out →
        response.header.sequenceid = item.m_sequnce_id ∧
          (x.event = .on_response_come response ∨
            response.header.response_result = CODE_WAIT_RESP_TIMEOUT)) ∧
      ((∀ x ∈ tr, InTime x.before x.event) → (tr.flatMap fun x => posted x.out).Nodup) := by
  have hout (x) (hx : x ∈ tr) : Inv x.before ∧ Out x.before x.event x.out := by
    have hinv := hr.before_invariant Inv.new Inv.step x hx
    exact ⟨hinv, step_out hinv (hr.step_of_mem hx)⟩
  refine ⟨fun x hx => (hout x hx).2.no_assert,
    fun x hx item response hp => (hout x hx).2.post (hout x hx).1 hp, fun hok => ?_⟩
  have hfresh : OnlyOnce [] (new : AsyncRequest L F P) := ⟨.new, by simp, by simp⟩
  exact (hr.invariant OnlyOnce InTime hfresh OnlyOnce.step hok).nodup

/-- Two requests, one answered and one not. -/
theorem posted_once_twoRequests :
    ∃ tr s, Run (AsyncRequest.step fun _ _ => ()) (new : AsyncRequest Unit Unit Unit) tr s ∧
      (tr.flatMap fun x => posted x.out) = [0, 1] ∧ (tr.flatMap fun x => posted x.out).Nodup := by
  obtain ⟨tr, s, hr, hposted, hok⟩ := Run.exists_of_exec (AsyncRequest.step fun _ _ => ())
    (new : AsyncRequest Unit Unit Unit)
    [.do_send_asyn_message ⟨.new, ()⟩ () none, .do_send_asyn_message ⟨.new, ()⟩ () none,
      .on_response_come ⟨{ Header.new with sequenceid := 0 }, ()⟩, .timer_expires 1,
      .on_response_timeout 1 false, .on_response_timeout 0 true]
    (P := fun tr _ => (tr.flatMap fun x => posted x.out) = [0, 1] ∧
      ∀ x ∈ tr, InTime x.before x.event) (by decide)
  exact ⟨tr, s, hr, hposted, (posted_once hr).2.2 hok⟩

/-- A response that comes when the timer has run out, but before its handler has run, makes both
post the callback. -/
theorem posted_twice :
    ∃ tr s, Run (AsyncRequest.step fun _ _ => ()) (new : AsyncRequest Unit Unit Unit) tr s ∧
      ¬ (tr.flatMap fun x => posted x.out).Nodup := by
  exact Run.exists_of_exec (AsyncRequest.step fun _ _ => ())
    (new : AsyncRequest Unit Unit Unit)
    [.do_send_asyn_message ⟨.new, ()⟩ () none, .timer_expires 0,
      .on_response_come ⟨{ Header.new with sequenceid := 0 }, ()⟩, .on_response_timeout 0 false]
    (P := fun tr _ => ¬ (tr.flatMap fun x => posted x.out).Nodup) (by decide)

end SparkFrame.Net.AsyncRequest
