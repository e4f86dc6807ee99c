import SparkFrame.Lib.Index
import SparkFrame.Net.Callbacks

/-!
# No request is lost

A request that is sent with a callback is the next one to get a timer. From then on it waits, or its
callback has been posted.

* `Asked`, `asked` : the requests that have been sent with a callback, in order; `sent` : how many
  messages have been numbered;
* `IsItem`, `Written` : the item of a request, which has been written under its number;
* `Kept`, `Kept.step` : what a run knows of its requests; `kept_of_run` : **whole runs**;
* `posted_or_pending` : **every request waits for a handler that is still to come, or its callback has
  been posted**, and no callback is posted for anything else.
-/

namespace SparkFrame.Net.AsyncRequest

open SparkFrame.Lib Function

variable {L F P : Type} {make_message : BitVec 32 → BitVec 32 → P}

/-! ## Requests of a run -/

/-- A request as it was handed over, with its callback and the loop of the callback. -/
structure Asked (L F P : Type) where
  msg : Message P
  callback : F
  io_loop : Option L

def asks : Event L F P → Option (Asked L F P)
  | .do_send_asyn_message msg callback io_loop => some ⟨msg, callback, io_loop⟩
  | _ => none

/-- Both kinds of messages are numbered by the same counter. -/
def numbers : Event L F P → Bool
  | .do_send_asyn_message _ _ _ | .do_send_message _ => true
  | _ => false

abbrev Trace (L F P : Type) := List (Step (AsyncRequest L F P) (Event L F P) (List (Effect L F P)))

def asked (tr : Trace L F P) : List (Asked L F P) := tr.filterMap fun x => asks x.event

def sent (tr : Trace L F P) : Nat := tr.countP fun x => numbers x.event

/-- The requests, by their timers, whose callbacks have been posted. -/
def postedBy (tr : Trace L F P) : List Nat := tr.flatMap fun x => posted x.out

/-- What is registered for a request under the number `q`. -/
structure IsItem (a : Asked L F P) (q : BitVec 64) (item : AsynItem L F P) : Prop where
  m_sequnce_id : item.m_sequnce_id = q
  m_io_loop : item.m_io_loop = a.io_loop
  m_fun : item.m_fun = a.callback
  m_request : item.m_request =
    { a.msg with header := { a.msg.header with type := REQUEST_TYPE, sequenceid := q } }

/-- The request has been written with the number it is registered under. -/
def Written (tr : Trace L F P) (item : AsynItem L F P) : Prop := ∃ x ∈ tr, .do_write item.m_request ∈ x.out

variable {tr : Trace L F P} {s s' : AsyncRequest L F P} {e : Event L F P} {o : List (Effect L F P)}

theorem Written.mono {item : AsynItem L F P} (h : Written tr item) (tr' : Trace L F P) :
    Written (tr ++ tr') item := by
  obtain ⟨x, hx, hwrite⟩ := h
  exact ⟨x, List.mem_append_left _ hx, hwrite⟩

theorem asked_snoc (x : Step (AsyncRequest L F P) (Event L F P) (List (Effect L F P))) :
    asked (tr ++ [x]) = asked tr ++ (asks x.event).toList := by
  rw [asked, asked, List.filterMap_append]
  cases h : asks x.event <;> simp [h]

theorem sent_snoc (x : Step (AsyncRequest L F P) (Event L F P) (List (Effect L F P))) :
    sent (tr ++ [x]) = sent tr + (numbers x.event).toNat := by
  rw [sent, sent, List.countP_append]
  cases h : numbers x.event <;> simp [h]

theorem postedBy_snoc (x : Step (AsyncRequest L F P) (Event L F P) (List (Effect L F P))) :
    postedBy (tr ++ [x]) = postedBy tr ++ posted x.out := by
  rw [postedBy, postedBy, List.flatMap_append, List.flatMap_singleton]

/-! ## What a run knows of its requests -/

structure Kept (tr : Trace L F P) (s : AsyncRequest L F P) : Prop where
  inv : Inv s
  counter : s.m_sequenceid = BitVec.ofNat 64 (sent tr)
  number : ∀ q item, s.m_items q = some item → q.toNat < sent tr
  created : s.created = (asked tr).length
  item : ∀ q item, s.m_items q = some item →
    (∃ a, (asked tr)[item.m_timer]? = some a ∧ IsItem a q item) ∧ Written tr item ∧
      (s.timers item.m_timer).outstanding = 1
  /-- Only a response cancels a timer. -/
  cancelled : ∀ i, 0 < (s.timers i).aborted → i ∈ postedBy tr
  waits : ∀ i < s.created, (∃ q item, s.m_items q = some item ∧ item.m_timer = i) ∨ i ∈ postedBy tr
  posts : ∀ x ∈ tr, ∀ item response, .post item response ∈ x.out →
    (∃ a, (asked tr)[item.m_timer]? = some a ∧ IsItem a item.m_sequnce_id item) ∧ Written tr item

namespace Kept

theorem new : Kept [] (.new : AsyncRequest L F P) where
  inv := .new
  counter := rfl
  number q item h := by cases h
  created := rfl
  item q item h := by cases h
  cancelled i h := by cases h
  waits i h := absurd h (Nat.not_lt_zero i)
  posts x hx := absurd hx List.not_mem_nil

theorem asked_mono {i : Nat} {a : Asked L F P} (h : (asked tr)[i]? = some a)
    (x : Step (AsyncRequest L F P) (Event L F P) (List (Effect L F P))) : (asked (tr ++ [x]))[i]? = some a := by
  rw [asked_snoc, List.getElem?_append_left (List.getElem?_eq_some_iff.mp h).1]
  exact h

theorem posts_snoc (h : Kept tr s) (hs : step make_message s e = some (s', o)) :
    ∀ x ∈ tr ++ [⟨s, e, o, s'⟩], ∀ item response, .post item response ∈ x.out →
      (∃ a, (asked (tr ++ [⟨s, e, o, s'⟩]))[item.m_timer]? = some a ∧ IsItem a item.m_sequnce_id item) ∧
        Written (tr ++ [⟨s, e, o, s'⟩]) item := by
  intro x hx item response hp
  rcases List.mem_append.mp hx with hx | hx
  · obtain ⟨⟨a, ha, hitem⟩, hwritten⟩ := h.posts x hx item response hp
    exact ⟨⟨a, asked_mono ha _, hitem⟩, hwritten.mono _⟩
  · obtain rfl := List.mem_singleton.mp hx
    have hwas : ∃ q, s.m_items q = some item := by
      cases step_out h.inv hs with
      | silent => exact absurd hp List.not_mem_nil
      | write e msg => simp at hp
      | answer response' item' hitem =>
        cases List.mem_singleton.mp hp
        exact ⟨_, hitem⟩
      | timeout item' response' hitem =>
        cases List.mem_singleton.mp hp
        exact ⟨_, hitem⟩
    obtain ⟨q, hq⟩ := hwas
    obtain ⟨⟨a, ha, hitem⟩, hwritten, -⟩ := h.item q item hq
    obtain rfl := hitem.m_sequnce_id
    exact ⟨⟨a, asked_mono ha _, hitem⟩, hwritten.mono _⟩

/-- A step that asks for nothing, leaves the items and posts what it cancels. -/
theorem of_same_items (h : Kept tr s) (hs : step make_message s e = some (s', o)) (hasks : asks e = none)
    (hnumbers : s'.m_sequenceid = s.m_sequenceid + BitVec.ofNat 64 (numbers e).toNat)
    (hitems : s'.m_items = s.m_items) (hcreated : s'.created = s.created)
    (htimers : ∀ i, (s'.timers i).outstanding = (s.timers i).outstanding)
    (haborted : ∀ i, 0 < (s'.timers i).aborted → 0 < (s.timers i).aborted ∨ i ∈ posted o) :
    Kept (tr ++ [⟨s, e, o, s'⟩]) s' where
  inv := h.inv.step hs
  counter := by
    rw [hnumbers, h.counter, sent_snoc, BitVec.ofNat_add]
  number q item hq := by
    rw [hitems] at hq
    rw [sent_snoc]
    exact Nat.lt_add_right _ (h.number q item hq)
  created := by
    rw [hcreated, h.created, asked_snoc, hasks, Option.toList_none, List.append_nil]
  item q item hq := by
    rw [hitems] at hq
    obtain ⟨⟨a, ha, hitem⟩, hwritten, hout⟩ := h.item q item hq
    exact ⟨⟨a, asked_mono ha _, hitem⟩, hwritten.mono _, (htimers _).trans hout⟩
  cancelled i hi := by
    rw [postedBy_snoc, List.mem_append]
    exact (haborted i hi).imp_left (h.cancelled i)
  waits i hi := by
    rw [postedBy_snoc, List.mem_append, hitems]
    rw [hcreated] at hi
    exact (h.waits i hi).imp_right Or.inl
  posts := h.posts_snoc hs

theorem fresh (h : Kept tr s) (hsent : sent tr < 2 ^ 64) : s.m_items s.m_sequenceid = none := by
  cases hitem : s.m_items s.m_sequenceid with
  | none => rfl
  | some item =>
    have hlt := h.number _ item hitem
    rw [h.counter, BitVec.toNat_ofNat, Nat.mod_eq_of_lt hsent] at hlt
    exact absurd hlt (Nat.lt_irrefl _)

theorem do_send_asyn_message (h : Kept tr s) (hsent : sent tr < 2 ^ 64) {msg : Message P} {callback : F}
    {io_loop : Option L}
    (hs : AsyncRequest.step make_message s (.do_send_asyn_message msg callback io_loop) = some (s', o)) :
    Kept (tr ++ [⟨s, .do_send_asyn_message msg callback io_loop, o, s'⟩]) s' := by
  have hinv := h.inv.step hs
  have hposts := h.posts_snoc hs
  obtain ⟨-, ht⟩ := step_eq_some_iff.mp hs
  simp only [Takes, AsyncRequest.do_send_asyn_message, set_msg_sequenceid, send_request, h.fresh hsent] at ht
  cases ht
  have hasked : ∀ x : Step _ _ _, x.event = .do_send_asyn_message msg callback io_loop →
      asked (tr ++ [x]) = asked tr ++ [⟨msg, callback, io_loop⟩] := by
    intro x hx
    rw [asked_snoc, hx]
    rfl
  refine ⟨hinv, ?_, ?_, ?_, ?_, ?_, ?_, hposts⟩
  · rw [sent_snoc]
    show s.m_sequenceid + 1 = BitVec.ofNat 64 (sent tr + 1)
    rw [h.counter, BitVec.ofNat_add]
    rfl
  · intro q item hq
    rw [sent_snoc]
    obtain ⟨rfl, -⟩ | ⟨-, hq⟩ := update_eq_some_iff.mp hq
    · rw [h.counter, BitVec.toNat_ofNat, Nat.mod_eq_of_lt hsent]
      exact Nat.lt_succ_self _
    · exact Nat.lt_succ_of_lt (h.number q item hq)
  · rw [hasked _ rfl, List.length_append, ← h.created]
    rfl
  · intro q item hq
    rw [hasked _ rfl]
    obtain ⟨rfl, hitem⟩ | ⟨-, hq⟩ := update_eq_some_iff.mp hq
    · cases hitem
      refine ⟨⟨_, by rw [h.created, List.getElem?_concat_length], rfl, rfl, rfl, rfl⟩, ?_, ?_⟩
      · exact ⟨_, List.mem_append_right _ (List.mem_singleton_self _), List.mem_singleton_self _⟩
      · exact (congrArg SteadyTimer.outstanding (update_self ..)).trans rfl
    · obtain ⟨⟨a, ha, hitem⟩, hwritten, hout⟩ := h.item q item hq
      refine ⟨⟨a, ?_, hitem⟩, hwritten.mono _, ?_⟩
      · rw [List.getElem?_append_left (List.getElem?_eq_some_iff.mp ha).1]
        exact ha
      · exact (congrArg SteadyTimer.outstanding (update_of_ne (h.inv.item q item hq).2.2.ne _ _)).trans hout
  · intro i hi
    rw [postedBy_snoc, List.mem_append]
    by_cases hic : i = s.created
    · subst hic
      have hnone : (update s.timers s.created SteadyTimer.idle.start s.created).aborted = 0 := by
        rw [update_self]
        rfl
      exact absurd hi (by rw [hnone]; exact Nat.lt_irrefl 0)
    · have hsame : (update s.timers s.created SteadyTimer.idle.start i).aborted = (s.timers i).aborted := by
        rw [update_of_ne hic]
      exact Or.inl (h.cancelled i (hsame ▸ hi))
  · intro i hi
    rw [postedBy_snoc, List.mem_append]
    obtain hlt | rfl := Nat.lt_succ_iff_lt_or_eq.mp hi
    · refine (h.waits i hlt).imp ?_ Or.inl
      rintro ⟨q, item, hq, htimer⟩
      have hne : q ≠ s.m_sequenceid := by
        rintro rfl
        rw [h.fresh hsent] at hq
        cases hq
      exact ⟨q, item, (update_of_ne hne _ _).trans hq, htimer⟩
    · exact Or.inl ⟨_, _, update_self .., rfl⟩

/-- **A timer's handler** removes its item, whose callback has been posted before or is posted now. -/
theorem on_response_timeout (h : Kept tr s) {timer : Nat} {err_code : Bool}
    (hs : AsyncRequest.step make_message s (.on_response_timeout timer err_code) = some (s', o)) :
    Kept (tr ++ [⟨s, .on_response_timeout timer err_code, o, s'⟩]) s' := by
  have hinv := h.inv.step hs
  have hposts := h.posts_snoc hs
  obtain ⟨-, ht⟩ := step_eq_some_iff.mp hs
  obtain ⟨t, htake, ht⟩ := ht
  obtain ⟨item, hitem, rfl⟩ := (h.inv.on_response_timeout make_message htake).1
  obtain ⟨haborted, herr⟩ := SteadyTimer.aborted_of_take htake
  simp only [AsyncRequest.on_response_timeout, hitem] at ht
  cases ht
  have hasked : ∀ x : Step _ _ _, x.event = .on_response_timeout item.m_timer err_code →
      asked (tr ++ [x]) = asked tr := by
    intro x hx
    rw [asked_snoc, hx]
    exact List.append_nil _
  refine ⟨hinv, ?_, ?_, ?_, ?_, ?_, ?_, hposts⟩
  · rw [sent_snoc]
    exact h.counter
  · intro q item' hq
    rw [sent_snoc]
    obtain ⟨-, hnone⟩ | ⟨-, hq⟩ := update_eq_some_iff.mp hq
    · cases hnone
    · exact h.number q item' hq
  · rw [hasked _ rfl]
    exact h.created
  · intro q item' hq
    rw [hasked _ rfl]
    obtain ⟨-, hnone⟩ | ⟨hne, hq⟩ := update_eq_some_iff.mp hq
    · cases hnone
    · obtain ⟨ha, hwritten, hout⟩ := h.item q item' hq
      refine ⟨ha, hwritten.mono _, ?_⟩
      have hother : item'.m_timer ≠ item.m_timer := by
        intro heq
        have hbound := (h.inv.item q item' hq).2.1
        rw [heq] at hbound
        exact hne hbound.symm
      exact (congrArg SteadyTimer.outstanding (update_of_ne hother _ _)).trans hout
  · intro i hi
    rw [postedBy_snoc, List.mem_append]
    refine Or.inl (h.cancelled i (Nat.lt_of_lt_of_le hi ?_))
    by_cases hit : i = item.m_timer
    · subst hit
      exact (congrArg SteadyTimer.aborted (update_self ..)).trans_le haborted
    · exact (congrArg SteadyTimer.aborted (update_of_ne hit _ _)).le
  · intro i hi
    rw [postedBy_snoc, List.mem_append]
    obtain ⟨q, item', hq, rfl⟩ | hposted := h.waits i hi
    · by_cases hqb : q = s.bound item.m_timer
      · obtain rfl : item = item' := by
          rw [hqb, hitem] at hq
          exact Option.some.inj hq
        right
        cases err_code with
        | true => exact Or.inl (h.cancelled _ (herr rfl))
        | false => exact Or.inr (List.mem_singleton.mpr rfl)
      · refine Or.inl ⟨q, item', ?_, rfl⟩
        exact (update_of_ne hqb _ _).trans hq
    · exact Or.inr (Or.inl hposted)

/-- **One step.** -/
theorem step (h : Kept tr s) (hsent : sent tr < 2 ^ 64) (hs : AsyncRequest.step make_message s e = some (s', o)) :
    Kept (tr ++ [⟨s, e, o, s'⟩]) s' := by
  obtain ⟨-, ht⟩ := step_eq_some_iff.mp hs
  cases e with
  | do_send_message msg =>
    cases ht
    exact h.of_same_items hs rfl rfl rfl rfl (fun _ => rfl) fun i hi => Or.inl hi
  | do_send_asyn_message msg callback io_loop => exact h.do_send_asyn_message hsent hs
  | on_response_come response =>
    simp only [Takes, AsyncRequest.on_response_come] at ht
    split at ht
    · cases ht
      exact h.of_same_items hs rfl (BitVec.add_zero _).symm rfl rfl (fun _ => rfl) fun i hi => Or.inl hi
    · next item hitem =>
      cases ht
      refine h.of_same_items hs rfl (BitVec.add_zero _).symm rfl rfl ?_ ?_
      · intro i
        by_cases hi : i = item.m_timer
        · subst hi
          exact (congrArg SteadyTimer.outstanding (update_self ..)).trans (SteadyTimer.outstanding_cancel _)
        · exact congrArg SteadyTimer.outstanding (update_of_ne hi _ _)
      · intro i hi
        by_cases hit : i = item.m_timer
        · exact Or.inr (List.mem_singleton.mpr hit)
        · left
          have hsame : (update s.timers item.m_timer (s.timers item.m_timer).cancel i).aborted =
              (s.timers i).aborted := congrArg SteadyTimer.aborted (update_of_ne hit _ _)
          exact hsame ▸ hi
  | timer_expires timer =>
    obtain ⟨t, hexp, ht⟩ := ht
    cases ht
    refine h.of_same_items hs rfl (BitVec.add_zero _).symm rfl rfl ?_ ?_
    · intro i
      by_cases hi : i = timer
      · subst hi
        exact (congrArg SteadyTimer.outstanding (update_self ..)).trans (SteadyTimer.expire_eq_some hexp).2
      · exact congrArg SteadyTimer.outstanding (update_of_ne hi _ _)
    · intro i hi
      left
      by_cases hit : i = timer
      · subst hit
        have hsame : (update s.timers i t i).aborted = (s.timers i).aborted :=
          (congrArg SteadyTimer.aborted (update_self ..)).trans (SteadyTimer.aborted_of_expire hexp)
        exact hsame ▸ hi
      · have hsame : (update s.timers timer t i).aborted = (s.timers i).aborted :=
          congrArg SteadyTimer.aborted (update_of_ne hit _ _)
        exact hsame ▸ hi
  | on_response_timeout timer err_code => exact h.on_response_timeout hs

end Kept

theorem sent_le_length (tr : Trace L F P) : sent tr ≤ tr.length := List.countP_le_length

/-- **Whole runs**, as long as the counter does not come round. -/
theorem kept_of_run (hr : Run (AsyncRequest.step make_message) new tr s) (hlength : tr.length < 2 ^ 64) :
    Kept tr s := by
  induction hr with
  | nil => exact .new
  | snoc hr hs ih =>
    rw [List.length_append, List.length_singleton] at hlength
    exact (ih (by omega)).step ((sent_le_length _).trans_lt (by omega)) hs

/-- **Every request waits for a handler that is still to come, or its callback has been posted**, and
callbacks are posted for requests only, each with the request it belongs to as it was written. -/
theorem posted_or_pending (hr : Run (AsyncRequest.step make_message) new tr s) (hlength : tr.length < 2 ^ 64) :
    (∀ i < (asked tr).length, i ∈ postedBy tr ∨
      ∃ q item, s.m_items q = some item ∧ item.m_timer = i ∧ (s.timers i).outstanding = 1) ∧
    ∀ x ∈ tr, ∀ item response, .post item response ∈ x.out →
      (∃ a, (asked tr)[item.m_timer]? = some a ∧ IsItem a item.m_sequnce_id item) ∧ Written tr item := by
  have h := kept_of_run hr hlength
  refine ⟨fun i hi => ?_, h.posts⟩
  rw [← h.created] at hi
  obtain ⟨q, item, hq, rfl⟩ | hposted := h.waits i hi
  · exact Or.inr ⟨q, item, hq, rfl, (h.item q item hq).2.2⟩
  · exact Or.inl hposted

/-- Of two requests one is answered, and the other one waits. -/
theorem posted_or_pending_twoRequests :
    ∃ tr s, Run (AsyncRequest.step fun _ _ => ()) (new : AsyncRequest Unit Unit Unit) tr s ∧
      postedBy tr = [0] ∧ (0 ∈ postedBy tr ∨
        ∃ q item, s.m_items q = some item ∧ item.m_timer = 0 ∧ (s.timers 0).outstanding = 1) ∧
      (1 ∈ postedBy tr ∨
        ∃ q item, s.m_items q = some item ∧ item.m_timer = 1 ∧ (s.timers 1).outstanding = 1) := by
  obtain ⟨tr, s, hr, hlength, hasked, hposted⟩ := Run.exists_of_exec (AsyncRequest.step fun _ _ => ())
    (new : AsyncRequest Unit Unit Unit)
    [.do_send_asyn_message ⟨.new, ()⟩ () none, .do_send_asyn_message ⟨.new, ()⟩ () none,
      .on_response_come ⟨{ Header.new with sequenceid := 0 }, ()⟩]
    (P := fun tr _ => tr.length = 3 ∧ (asked tr).length = 2 ∧ postedBy tr = [0]) (by decide)
  have hall := (posted_or_pending hr (by rw [hlength]; decide)).1
  exact ⟨tr, s, hr, hposted, hall 0 (by rw [hasked]; decide), hall 1 (by rw [hasked]; decide)⟩

end SparkFrame.Net.AsyncRequest
