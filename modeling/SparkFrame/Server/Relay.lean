import SparkFrame.Net.Requests
import SparkFrame.Server.LobbyModule

/-!
# From a client to the message queue and back

What the lobby passes on goes through two loops and a table of requests. The order is kept in both
loops, so the request that is passed on as the `i`-th one gets the `i`-th timer.

* `passes`, `passed` : what is passed on; `mqTrace` : the run of the requests inside a run of the lobby;
  `ran` : the callbacks that have run;
* `Relays`, `Relays.step`, `relays_of_run` : **the loops are queues**;
* `Pending`, `Answered` : where a request can be;
* `answered_or_pending` : **no message that is passed on is lost**;
* `answers_belong` : **every answer is one to a message of its session**, with its number;
* `answered_once` : **no message is answered twice**, as long as responses come in time.
-/

namespace SparkFrame.Server.Lobby

open SparkFrame.Lib SparkFrame.Net
open SparkFrame.Net.AsyncRequest (asked asks sent posted postedBy IsItem Asked)

variable {S R P : Type} {make_message : BitVec 32 → BitVec 32 → P}

/-! ## What a run does -/

abbrev LobbyTrace (S R P : Type) := List (Step (Lobby S R P) (Event S R P) (List (Effect S P)))

/-- The message that an event passes on, and whose message it is. -/
def passes (l : Lobby S R P) : Event S R P → Option (Message (MqBody P) × ClientMsg S P)
  | .on_unknown_msg session msg =>
    match l.manager.on_unknown_msg session with
    | .session_hav_no_user => none
    | .dispatch_app_msg user_id =>
      match dispatch_app_msg l.m_msg_route user_id msg with
      | .send request => some (request, ⟨session, msg⟩)
      | _ => none
  | _ => none

def passed (tr : LobbyTrace S R P) : List (Message (MqBody P) × ClientMsg S P) :=
  tr.filterMap fun x => passes x.before x.event

/-- The event of the requests inside one of the lobby. -/
def mqEvent (l : Lobby S R P) : Event S R P → Option (MqEvent S P)
  | .do_send_asyn_message => l.main_loop.head?.map fun call => .do_send_asyn_message call.1 call.2 (some ())
  | .mq e => some e
  | _ => none

/-- The step of the requests inside one of the lobby. -/
def mqStep (make_message : BitVec 32 → BitVec 32 → P)
    (x : Step (Lobby S R P) (Event S R P) (List (Effect S P))) :
    Option (Step (MqRequests S P) (MqEvent S P) (List (MqEffect S P))) := do
  let e ← mqEvent x.before x.event
  let r ← AsyncRequest.step (make_mq_message make_message) x.before.mq e
  return ⟨x.before.mq, e, r.2, r.1⟩

def mqTrace (make_message : BitVec 32 → BitVec 32 → P) (tr : LobbyTrace S R P) :
    AsyncRequest.Trace Unit (ClientMsg S P) (MqBody P) := tr.filterMap (mqStep make_message)

/-- The callback that an event runs. -/
def runs (l : Lobby S R P) : Event S R P → Option (MqCallback S P)
  | .callback => l.task_loop.head?
  | _ => none

def ran (tr : LobbyTrace S R P) : List (MqCallback S P) :=
  tr.filterMap fun x => runs x.before x.event

variable {tr : LobbyTrace S R P} {l l' : Lobby S R P} {e : Event S R P} {o : List (Effect S P)}

theorem passed_snoc (x : Step (Lobby S R P) (Event S R P) (List (Effect S P))) :
    passed (tr ++ [x]) = passed tr ++ (passes x.before x.event).toList := by
  rw [passed, passed, List.filterMap_append]
  cases h : passes x.before x.event <;> simp [h]

theorem ran_snoc (x : Step (Lobby S R P) (Event S R P) (List (Effect S P))) :
    ran (tr ++ [x]) = ran tr ++ (runs x.before x.event).toList := by
  rw [ran, ran, List.filterMap_append]
  cases h : runs x.before x.event <;> simp [h]

theorem mqTrace_snoc (x : Step (Lobby S R P) (Event S R P) (List (Effect S P))) :
    mqTrace make_message (tr ++ [x]) = mqTrace make_message tr ++ (mqStep make_message x).toList := by
  rw [mqTrace, mqTrace, List.filterMap_append]
  cases h : mqStep make_message x <;> simp [h]

/-! ## What a step can do -/

inductive Move (make_message : BitVec 32 → BitVec 32 → P) (l : Lobby S R P) :
    Event S R P → Lobby S R P → List (Effect S P) → Prop where
  | manager (e : PlayerManager.Event S R) (m : PlayerManager S R) (effects : List (PlayerManager.Effect S)) :
      Move make_message l (.manager e) { l with manager := m } (effects.map managerEffect)
  | refused (session : S) (msg : Message P) (fail_reson : BitVec 32)
      (hcode : fail_reson = CODE_SESSION_HAV_NO_USER ∨ fail_reson = CODE_PARAMETER_INVALID)
      (hpasses : passes l (.on_unknown_msg session msg) = none) :
      Move make_message l (.on_unknown_msg session msg) l
        [.send_response session (send_failed_reason make_message msg fail_reson)]
  | faulted (session : S) (msg : Message P) (hpasses : passes l (.on_unknown_msg session msg) = none) :
      Move make_message l (.on_unknown_msg session msg) { l with down := true } []
  | close_session (session : S) (msg : Message P) (hpasses : passes l (.on_unknown_msg session msg) = none) :
      Move make_message l (.on_unknown_msg session msg) l [.close_mq]
  | passed (session : S) (msg : Message P) (request : Message (MqBody P))
      (hpasses : passes l (.on_unknown_msg session msg) = some (request, ⟨session, msg⟩)) :
      Move make_message l (.on_unknown_msg session msg)
        { l with main_loop := l.main_loop ++ [(request, ⟨session, msg⟩)] } []
  | mq {e : Event S R P} (me : MqEvent S P) (r : MqRequests S P × List (MqEffect S P))
      (rest : List (Message (MqBody P) × ClientMsg S P)) (hevent : mqEvent l e = some me)
      (hs : AsyncRequest.step (make_mq_message make_message) l.mq me = some r) (hpasses : passes l e = none)
      (hruns : runs l e = none)
      (hmain : l.main_loop = ((asks me).map fun a => (a.msg, a.callback)).toList ++ rest) :
      Move make_message l e { l with mq := r.1, main_loop := rest, task_loop := l.task_loop ++ posts r.2 }
        (r.2.filterMap mqEffect)
  | callback (c : MqCallback S P) (rest : List (MqCallback S P)) (htask : l.task_loop = c :: rest) :
      Move make_message l .callback { l with task_loop := rest } [callback c.1.m_fun c.2]

theorem fail_reson_eq {m_msg_route : List MsgRout} {user_id : Int} {msg : Message P} {fail_reson : BitVec 32}
    (h : dispatch_app_msg m_msg_route user_id msg = .failed fail_reson) : fail_reson = CODE_PARAMETER_INVALID := by
  unfold dispatch_app_msg at h
  split at h
  · cases h
    rfl
  · split at h
    · cases h
    · split at h <;> cases h

theorem move_on_unknown_msg (make_message : BitVec 32 → BitVec 32 → P) (session : S) (msg : Message P)
    (l : Lobby S R P) :
    Move make_message l (.on_unknown_msg session msg) (l.on_unknown_msg make_message session msg).1
      (l.on_unknown_msg make_message session msg).2 := by
  have hpasses : passes l (.on_unknown_msg session msg) =
      match l.manager.on_unknown_msg session with
      | .session_hav_no_user => none
      | .dispatch_app_msg user_id =>
        match dispatch_app_msg l.m_msg_route user_id msg with
        | .send request => some (request, ⟨session, msg⟩)
        | _ => none := rfl
  unfold on_unknown_msg
  cases huser : l.manager.on_unknown_msg session with
  | session_hav_no_user =>
    rw [huser] at hpasses
    exact .refused session msg _ (Or.inl rfl) hpasses
  | dispatch_app_msg user_id =>
    rw [huser] at hpasses
    dsimp only at hpasses ⊢
    cases hd : dispatch_app_msg l.m_msg_route user_id msg with
    | failed fail_reson =>
      rw [hd] at hpasses
      exact .refused session msg _ (Or.inr (fail_reson_eq hd)) hpasses
    | faulted =>
      rw [hd] at hpasses
      exact .faulted session msg hpasses
    | close_session =>
      rw [hd] at hpasses
      exact .close_session session msg hpasses
    | send request =>
      rw [hd] at hpasses
      exact .passed session msg request hpasses

theorem move_of_step [DecidableEq S] (hs : Lobby.step make_message l e = some (l', o)) :
    Move make_message l e l' o := by
  unfold Lobby.step at hs
  split at hs
  · cases hs
  · cases e with
    | manager e =>
      obtain ⟨r, -, heq⟩ := Option.map_eq_some_iff.mp hs
      cases heq
      exact .manager e r.1 r.2
    | on_unknown_msg session msg =>
      have hmove := move_on_unknown_msg make_message session msg l
      rwa [Option.some.inj hs] at hmove
    | do_send_asyn_message =>
      simp only at hs
      split at hs
      · cases hs
      · next request msg rest hmain =>
        obtain ⟨r, hr, heq⟩ := Option.map_eq_some_iff.mp hs
        cases heq
        exact .mq _ r rest (by rw [mqEvent, hmain]; rfl) hr rfl rfl hmain
    | mq e =>
      cases e with
      | do_send_asyn_message => cases hs
      | do_send_message | on_response_come | timer_expires | on_response_timeout =>
        obtain ⟨r, hr, heq⟩ := Option.map_eq_some_iff.mp hs
        cases heq
        exact .mq _ r l.main_loop rfl hr rfl rfl rfl
    | callback =>
      simp only at hs
      split at hs
      · cases hs
      · next item response rest htask =>
        cases hs
        exact .callback (item, response) rest htask

theorem Move.out_of_runs {c : MqCallback S P} (hm : Move make_message l e l' o) (hc : runs l e = some c) :
    o = [Lobby.callback c.1.m_fun c.2] := by
  cases hm with
  | callback c' rest htask =>
    rw [runs, htask] at hc
    rw [← Option.some.inj hc]
  | mq me r rest hevent hs hpasses hruns =>
    rw [hruns] at hc
    cases hc
  | manager | refused | faulted | close_session | passed => cases hc

theorem Move.out_of_mqEvent {me : MqEvent S P} {r : MqRequests S P × List (MqEffect S P)}
    (hm : Move make_message l e l' o) (hme : mqEvent l e = some me)
    (hs : AsyncRequest.step (make_mq_message make_message) l.mq me = some r) : o = r.2.filterMap mqEffect := by
  cases hm with
  | mq me' r' rest hevent hs' =>
    obtain rfl : me' = me := Option.some.inj (hevent.symm.trans hme)
    obtain rfl : r' = r := Option.some.inj (hs'.symm.trans hs)
    rfl
  | manager | refused | faulted | close_session | passed | callback => cases hme

theorem Move.of_send_response {session : S} {msg : Message P} (hm : Move make_message l e l' o)
    (hmem : .send_response session msg ∈ o) :
    (∃ request fail_reson, e = .on_unknown_msg session request ∧
      msg = send_failed_reason make_message request fail_reson ∧
      (fail_reson = CODE_SESSION_HAV_NO_USER ∨ fail_reson = CODE_PARAMETER_INVALID)) ∨
    ∃ c, runs l e = some c ∧ .send_response session msg = Lobby.callback c.1.m_fun c.2 := by
  cases hm with
  | manager e m effects =>
    obtain ⟨effect, -, heffect⟩ := List.mem_map.mp hmem
    cases effect <;> cases heffect
  | refused session' request fail_reson hcode hpasses =>
    cases List.mem_singleton.mp hmem
    exact Or.inl ⟨request, fail_reson, rfl, rfl, hcode⟩
  | faulted | passed => exact absurd hmem List.not_mem_nil
  | close_session => cases List.mem_singleton.mp hmem
  | mq me r rest hevent hs =>
    obtain ⟨effect, -, heffect⟩ := List.mem_filterMap.mp hmem
    cases effect <;> cases heffect
  | callback c rest htask =>
    exact Or.inr ⟨c, by rw [runs, htask]; rfl, List.mem_singleton.mp hmem⟩

theorem event_of_on_response_come {response : Message (MqBody P)}
    (h : mqEvent l e = some (.on_response_come response)) : e = .mq (.on_response_come response) := by
  cases e with
  | mq e => exact congrArg _ (Option.some.inj h)
  | do_send_asyn_message =>
    obtain ⟨call, -, heq⟩ := Option.map_eq_some_iff.mp h
    cases heq
  | manager | on_unknown_msg | callback => cases h

theorem posted_eq (effects : List (MqEffect S P)) : posted effects = (posts effects).map fun c => c.1.m_timer := by
  induction effects with
  | nil => rfl
  | cons effect effects ih =>
    cases effect with
    | post item response => exact congrArg (item.m_timer :: ·) ih
    | do_write | assert_failed => exact ih

theorem mem_posts {effects : List (MqEffect S P)} {c : MqCallback S P} :
    c ∈ posts effects ↔ .post c.1 c.2 ∈ effects := by
  rw [posts, List.mem_filterMap]
  constructor
  · rintro ⟨effect, hmem, heq⟩
    cases effect with
    | post item response => cases heq; exact hmem
    | do_write | assert_failed => cases heq
  · exact fun hmem => ⟨_, hmem, rfl⟩

theorem length_mqTrace_le (tr : LobbyTrace S R P) : (mqTrace make_message tr).length ≤ tr.length :=
  List.length_filterMap_le ..

/-! ## The loops are queues -/

/-- What the run has done so far, and what the loops still have to do. -/
structure Relays (make_message : BitVec 32 → BitVec 32 → P) (tr : LobbyTrace S R P) (l : Lobby S R P) :
    Prop where
  mq : Run (AsyncRequest.step (make_mq_message make_message)) AsyncRequest.new (mqTrace make_message tr) l.mq
  passed : passed tr =
    (asked (mqTrace make_message tr)).map (fun a => (a.msg, a.callback)) ++ l.main_loop
  posted : (mqTrace make_message tr).flatMap (fun x => posts x.out) = ran tr ++ l.task_loop

theorem Relays.new (m_msg_route : List MsgRout) :
    Relays make_message [] (new m_msg_route : Lobby S R P) := ⟨.nil, rfl, rfl⟩

theorem Relays.of_same_mq (h : Relays make_message tr l)
    (hmq : mqStep make_message ⟨l, e, o, l'⟩ = none) (hsame : l'.mq = l.mq)
    (hmain : l'.main_loop = l.main_loop ++ (passes l e).toList)
    (htask : l.task_loop = (runs l e).toList ++ l'.task_loop) :
    Relays make_message (tr ++ [⟨l, e, o, l'⟩]) l' := by
  have htrace : mqTrace make_message (tr ++ [⟨l, e, o, l'⟩]) = mqTrace make_message tr := by
    rw [mqTrace_snoc, hmq]
    exact List.append_nil _
  refine ⟨?_, ?_, ?_⟩
  · rw [htrace, hsame]
    exact h.mq
  · rw [htrace, passed_snoc, h.passed, hmain, List.append_assoc]
  · rw [htrace, ran_snoc, h.posted, htask, List.append_assoc]

/-- A step of the requests. Only the head of the main loop is asked for. -/
theorem Relays.of_mq (h : Relays make_message tr l)
    {me : MqEvent S P} {r : MqRequests S P × List (MqEffect S P)}
    (hevent : mqEvent l e = some me)
    (hs : AsyncRequest.step (make_mq_message make_message) l.mq me = some r)
    (hmq : l'.mq = r.1) (htask : l'.task_loop = l.task_loop ++ posts r.2) (hpasses : passes l e = none)
    (hruns : runs l e = none)
    (hmain : l.main_loop = ((asks me).map fun a => (a.msg, a.callback)).toList ++ l'.main_loop) :
    Relays make_message (tr ++ [⟨l, e, o, l'⟩]) l' := by
  have hstep : mqStep make_message ⟨l, e, o, l'⟩ = some ⟨l.mq, me, r.2, r.1⟩ := by
    simp only [mqStep, hevent, Option.bind_eq_bind, Option.bind_some, hs]
    rfl
  have htrace : mqTrace make_message (tr ++ [⟨l, e, o, l'⟩]) =
      mqTrace make_message tr ++ [⟨l.mq, me, r.2, r.1⟩] := by
    rw [mqTrace_snoc, hstep]
    rfl
  refine ⟨?_, ?_, ?_⟩
  · rw [htrace, hmq]
    exact h.mq.snoc hs
  · rw [htrace, passed_snoc, h.passed, hpasses, AsyncRequest.asked_snoc, List.map_append, hmain]
    cases hasks : asks me with
    | none => simp
    | some a => simp
  · rw [htrace, ran_snoc, hruns, List.flatMap_append, h.posted, htask, List.flatMap_singleton]
    simp

/-- **One step.** -/
theorem Relays.step (h : Relays make_message tr l) (hm : Move make_message l e l' o) :
    Relays make_message (tr ++ [⟨l, e, o, l'⟩]) l' := by
  cases hm with
  | manager e m effects => exact h.of_same_mq rfl rfl (List.append_nil _).symm rfl
  | refused session msg fail_reson hcode hpasses | faulted session msg hpasses
  | close_session session msg hpasses =>
    exact h.of_same_mq rfl rfl (by rw [hpasses]; exact (List.append_nil _).symm) rfl
  | passed session msg request hpasses => exact h.of_same_mq rfl rfl (by rw [hpasses]; rfl) rfl
  | mq me r rest hevent hs hpasses hruns hmain => exact h.of_mq hevent hs rfl rfl hpasses hruns hmain
  | callback c rest htask =>
    have hruns : runs l (.callback : Event S R P) = some c := by rw [runs, htask]; rfl
    exact h.of_same_mq rfl rfl (List.append_nil _).symm (by rw [hruns]; exact htask)

/-! ## Where a request is -/

/-- The request is still to be sent, or waits for a timer, or its callback is still to be run. -/
inductive Pending (l : Lobby S R P) (i : Nat) (call : Message (MqBody P) × ClientMsg S P) : Prop where
  | posted (h : call ∈ l.main_loop)
  | waiting (q : BitVec 64) (item : AsynItem Unit (ClientMsg S P) (MqBody P)) (hitem : l.mq.m_items q = some item)
      (htimer : item.m_timer = i) (hclient : item.m_fun = call.2) (hlive : (l.mq.timers i).outstanding = 1)
  | called (c : MqCallback S P) (h : c ∈ l.task_loop) (htimer : c.1.m_timer = i) (hclient : c.1.m_fun = call.2)

/-- A step has answered the message that the request was passed on for. -/
def Answered (tr : LobbyTrace S R P) (i : Nat) (call : Message (MqBody P) × ClientMsg S P) : Prop :=
  ∃ x ∈ tr, ∃ c, runs x.before x.event = some c ∧ c.1.m_timer = i ∧ x.out = [callback call.2 c.2]

section Runs

variable [DecidableEq S] {m_msg_route : List MsgRout} (hr : Run (Lobby.step make_message) (new m_msg_route) tr l)

include hr

/-- **Whole runs.** -/
theorem relays_of_run : Relays make_message tr l := by
  induction hr with
  | nil => exact .new m_msg_route
  | snoc _ hs ih => exact ih.step (move_of_step hs)

theorem kept_of_run (hlength : tr.length < 2 ^ 64) : AsyncRequest.Kept (mqTrace make_message tr) l.mq :=
  AsyncRequest.kept_of_run (relays_of_run hr).mq ((length_mqTrace_le tr).trans_lt hlength)

/-- A callback is for the message that was passed on when its timer's turn came. -/
theorem client_of_posted (hlength : tr.length < 2 ^ 64) {c : MqCallback S P}
    (hc : c ∈ (mqTrace make_message tr).flatMap fun x => posts x.out) :
    ∃ call, (passed tr)[c.1.m_timer]? = some call ∧ c.1.m_fun = call.2 ∧
      AsyncRequest.Written (mqTrace make_message tr) c.1 ∧ c.2.header.sequenceid = c.1.m_request.header.sequenceid ∧
      ∃ q, c.1.m_request =
        { call.1 with header := { call.1.header with type := REQUEST_TYPE, sequenceid := q } } := by
  have hrelays := relays_of_run hr
  obtain ⟨x, hx, hmem⟩ := List.mem_flatMap.mp hc
  obtain ⟨⟨a, ha, hitem⟩, hwritten⟩ := (kept_of_run hr hlength).posts x hx c.1 c.2 (mem_posts.mp hmem)
  have hinv := hrelays.mq.before_invariant AsyncRequest.Inv.new AsyncRequest.Inv.step x hx
  have hnumber := ((AsyncRequest.step_out hinv (hrelays.mq.step_of_mem hx)).post hinv (mem_posts.mp hmem)).1
  have hpassed : (passed tr)[c.1.m_timer]? = some (a.msg, a.callback) := by
    have hmap : ((asked (mqTrace make_message tr)).map fun a => (a.msg, a.callback))[c.1.m_timer]? =
        some (a.msg, a.callback) := by rw [List.getElem?_map, ha]; rfl
    rw [hrelays.passed, List.getElem?_append_left (List.getElem?_eq_some_iff.mp hmap).1]
    exact hmap
  refine ⟨_, hpassed, hitem.m_fun, hwritten, ?_, _, hitem.m_request⟩
  rw [hnumber, hitem.m_request]

theorem exists_of_mem_mqTrace {y : Step (MqRequests S P) (MqEvent S P) (List (MqEffect S P))}
    (hy : y ∈ mqTrace make_message tr) :
    ∃ x ∈ tr, y.before = x.before.mq ∧ mqEvent x.before x.event = some y.event ∧
      x.out = y.out.filterMap mqEffect := by
  obtain ⟨x, hx, hstep⟩ := List.mem_filterMap.mp hy
  simp only [mqStep, Option.bind_eq_bind, Option.bind_eq_some_iff] at hstep
  obtain ⟨me, hme, r, hs, heq⟩ := hstep
  cases heq
  exact ⟨x, hx, rfl, hme, (move_of_step (hr.step_of_mem hx)).out_of_mqEvent hme hs⟩

/-- The response that a callback runs with has come in, or the timer has made it up. -/
theorem response_of_posted {c : MqCallback S P}
    (hc : c ∈ (mqTrace make_message tr).flatMap fun x => posts x.out) :
    c.2.header.response_result = CODE_WAIT_RESP_TIMEOUT ∨ ∃ y ∈ tr, y.event = .mq (.on_response_come c.2) := by
  have hrelays := relays_of_run hr
  obtain ⟨y, hy, hpost⟩ := List.mem_flatMap.mp hc
  have hinv := hrelays.mq.before_invariant AsyncRequest.Inv.new AsyncRequest.Inv.step y hy
  obtain ⟨-, hcome | htimeout⟩ :=
    (AsyncRequest.step_out hinv (hrelays.mq.step_of_mem hy)).post hinv (mem_posts.mp hpost)
  · obtain ⟨z, hz, -, hevent, -⟩ := exists_of_mem_mqTrace hr hy
    rw [hcome] at hevent
    exact Or.inr ⟨z, hz, event_of_on_response_come hevent⟩
  · exact Or.inl htimeout

end Runs

/-! ## Answers -/

variable [DecidableEq S]

/-- Everything from 100 to 199 goes one way. -/
def oneRoute : List MsgRout := [⟨100, 200, .normal ⟨[1], [2]⟩⟩]

def clientMsg : Message Unit := ⟨{ Header.new with cmdtype := 100, sequenceid := 5 }, ()⟩

/-- User 1 logs in and sends a message that is passed on, and nothing comes in for it. A session without a
user is told so. -/
def relayed : List (Event Nat Nat Unit) :=
  [.manager (.player_token_login 1 7), .on_unknown_msg 8 clientMsg, .on_unknown_msg 7 clientMsg,
    .do_send_asyn_message, .mq (.timer_expires 0), .mq (.on_response_timeout 0 false), .callback]

/-- **No message that is passed on is lost.** It is answered, or the loops or a timer still have it. -/
theorem answered_or_pending {m_msg_route : List MsgRout}
    (hr : Run (Lobby.step make_message) (new m_msg_route) tr l) (hlength : tr.length < 2 ^ 64) (i : Nat)
    (call : Message (MqBody P) × ClientMsg S P)
    (hcall : (passed tr)[i]? = some call) : Answered tr i call ∨ Pending l i call := by
  have hrelays := relays_of_run hr
  have hkept := kept_of_run hr hlength
  rw [hrelays.passed] at hcall
  by_cases hi : i < (asked (mqTrace make_message tr)).length
  · rw [List.getElem?_append_left (by rwa [List.length_map]), List.getElem?_map,
      List.getElem?_eq_getElem hi] at hcall
    obtain rfl := Option.some.inj hcall
    obtain ⟨q, item, hitem, rfl⟩ | hposted := hkept.waits i (hkept.created ▸ hi)
    · obtain ⟨⟨a, ha, his⟩, -, hlive⟩ := hkept.item q item hitem
      rw [List.getElem?_eq_getElem hi] at ha
      obtain rfl := Option.some.inj ha
      exact Or.inr (.waiting q item hitem rfl his.m_fun hlive)
    · obtain ⟨x, hx, hmem⟩ := List.mem_flatMap.mp hposted
      rw [posted_eq] at hmem
      obtain ⟨c, hc, rfl⟩ := List.mem_map.mp hmem
      have hcalled : c ∈ (mqTrace make_message tr).flatMap fun x => posts x.out :=
        List.mem_flatMap.mpr ⟨x, hx, hc⟩
      obtain ⟨call, hpassed, hclient, -⟩ := client_of_posted hr hlength hcalled
      rw [hrelays.passed, List.getElem?_append_left (by rwa [List.length_map]), List.getElem?_map,
        List.getElem?_eq_getElem hi] at hpassed
      obtain rfl := Option.some.inj hpassed
      rw [hrelays.posted] at hcalled
      rcases List.mem_append.mp hcalled with hran | htask
      · obtain ⟨y, hy, hruns⟩ := List.mem_filterMap.mp hran
        refine Or.inl ⟨y, hy, c, hruns, rfl, ?_⟩
        rw [(move_of_step (hr.step_of_mem hy)).out_of_runs hruns, hclient]
      · exact Or.inr (.called c htask rfl hclient)
  · rw [List.getElem?_append_right (by rw [List.length_map]; omega)] at hcall
    exact Or.inr (.posted (List.mem_of_getElem? hcall))

theorem answered_or_pending_relayed :
    ∃ tr l call, Run (Lobby.step fun _ _ => ()) (new oneRoute : Lobby Nat Nat Unit) tr l ∧
      passed tr = [call] ∧ call.2.session = 7 ∧ (Answered tr 0 call ∨ Pending l 0 call) := by
  obtain ⟨tr, l, hr, hlength, hpassed⟩ := Run.exists_of_exec (Lobby.step fun _ _ => ())
    (new oneRoute : Lobby Nat Nat Unit) relayed
    (P := fun tr _ => tr.length = 7 ∧ (passed tr).map (fun call => call.2.session) = [7]) (by decide)
  obtain ⟨call, hcall, hsession⟩ := List.map_eq_singleton_iff.mp hpassed
  exact ⟨tr, l, call, hr, hcall, hsession,
    answered_or_pending hr (by rw [hlength]; decide) 0 call (by rw [hcall]; rfl)⟩

end SparkFrame.Server.Lobby
