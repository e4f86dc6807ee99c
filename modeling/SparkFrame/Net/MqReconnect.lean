import SparkFrame.Net.MqClient

/-!
# Reconnecting to the message queue

`onConnected` does what `onError` and `onClosed` do, so no handler ever says that it is connected, and
`m_is_connecting`, which only a connected session resets, stays set for as long as the client is to
reconnect.

* `last_link`, `Lost` : what the history of a client says about its link;
* `Stuck` : the flags in every reachable state; `Stuck.tick`, `Stuck.step`;
* `no_tick_attempts` : no tick of any run starts an attempt;
* `Honest` : what the flags and the ticks are for; `Spared` : the condition;
* `honest_iff_spared` : **whole runs**; `honest_while_connecting`, `not_honest_when_lost`.
-/

namespace SparkFrame.Net.MqClient

open SparkFrame.Lib

def link_event (x : Step MqClient Event (List Effect)) : Option LinkEvent :=
  match x.event with
  | .link e => some e
  | _ => none

/-- The last thing that happened to the link since the handler was made. -/
def last_link (tr : List (Step MqClient Event (List Effect))) : Option LinkEvent :=
  ((since attempted tr).filterMap link_event).getLast?

/-- The link is down: it was lost, or the last attempt has failed. -/
def Lost (tr : List (Step MqClient Event (List Effect))) : Prop :=
  last_link tr = some .onError ∨ last_link tr = some .onClosed

/-- The handler says whether the link is up, and a tick that finds it down starts an attempt when it
should. -/
structure Honest (tr : List (Step MqClient Event (List Effect)))
    (x : Step MqClient Event (List Effect)) : Prop where
  connected : ∀ h, x.after.m_session.m_mq_handler = some h →
    (h.m_is_connected = true ↔ last_link (tr ++ [x]) = some .onConnected)
  retries : x.event = .on_timeout false → x.before.m_auto_reconnect = true → Lost tr →
    attempted x = true

/-- **The condition.** The link does not come up, and no tick finds it lost while the client is to
reconnect. -/
def Spared (tr : List (Step MqClient Event (List Effect))) (c : MqClient) (e : Event) : Prop :=
  e ≠ .link .onConnected ∧
    ¬ (e = .on_timeout false ∧ c.m_auto_reconnect = true ∧ Lost tr)

theorem last_link_append_singleton (tr : List (Step MqClient Event (List Effect)))
    (x : Step MqClient Event (List Effect)) :
    last_link (tr ++ [x]) = if attempted x then none else (link_event x).or (last_link tr) := by
  rw [last_link, since_append_singleton]
  split
  · rfl
  · rw [List.filterMap_append, List.getLast?_append, ← last_link]
    congr 1
    rcases hx : link_event x with _ | e <;> simp [hx]

/-! ## The flags -/

/-- No handler is connected, and a client that is to reconnect is connecting. -/
structure Stuck (c : MqClient) : Prop where
  handler : ∀ h, c.m_session.m_mq_handler = some h → h.m_is_connected = false
  connecting : c.m_auto_reconnect = true → c.m_is_connecting = true

namespace Stuck

variable {c : MqClient}

theorem new (mq_info : MqInfo) : Stuck (new mq_info) := ⟨nofun, nofun⟩

theorem is_connected (h : Stuck c) : c.m_session.is_connected = false :=
  Session.is_connected_eq_false h.handler

/-- **A tick does nothing.** Either an attempt is thought to be under way, or none is wanted. -/
theorem tick (h : Stuck c) : c.tick = (c, []) := by
  have hdown := h.is_connected
  rw [MqClient.tick, hdown]
  by_cases hconnecting : c.m_is_connecting = true
  · rw [if_pos hconnecting]
    rfl
  · have hauto : c.m_auto_reconnect = false := by
      apply Bool.eq_false_iff.2
      intro hauto
      exact hconnecting (h.connecting hauto)
    rw [if_neg hconnecting]
    simp [close_session, hdown, hauto]

/-- The session moves, with the handler it had or without one that is connected. -/
theorem ofSession (h : Stuck c) {r : Session × List Effect}
    (hr : ∀ h, r.1.m_mq_handler = some h → h.m_is_connected = false) : Stuck (c.ofSession r).1 :=
  ⟨hr, h.connecting⟩

theorem do_connect (h : Stuck c) : Stuck c.do_connect.1 := by
  rw [MqClient.do_connect, h.is_connected]
  refine ⟨?_, fun _ => rfl⟩
  rintro handler ⟨⟩
  rfl

theorem do_close_client (h : Stuck c) : Stuck c.do_close_client.1 := by
  have hdown := h.is_connected
  simp only [MqClient.do_close_client, close_session, hdown]
  exact ⟨h.handler, nofun⟩

theorem do_close (h : Stuck c) : Stuck (c.ofSession c.m_session.do_close).1 := by
  apply h.ofSession
  rw [Session.do_close]
  split
  · exact h.handler
  · exact nofun

theorem on_timeout (h : Stuck c) (err : Bool) (t : SteadyTimer) :
    Stuck ({ c with m_timer := t }.on_timeout err).1 ∧ ({ c with m_timer := t }.on_timeout err).2 = [] := by
  have ht : Stuck { c with m_timer := t } := ⟨h.handler, h.connecting⟩
  rw [MqClient.on_timeout, ht.tick]
  split
  · exact ⟨ht, rfl⟩
  · exact ⟨⟨h.handler, h.connecting⟩, rfl⟩

theorem moves {e : Event} {p : MqClient × List Effect} (h : Stuck c) (hm : Moves c e p) :
    Stuck p.1 := by
  cases hm with
  | do_connect => exact h.do_connect
  | do_close_client => exact h.do_close_client
  | do_bind exchange_name exchange_type rout_key =>
    refine ⟨?_, h.connecting⟩
    rw [do_bind, Session.m_mq_handler_bind_one_exchange]
    exact h.handler
  | close => exact h.do_close
  | link e handler =>
    apply h.ofSession
    rintro _ ⟨⟩
    exact MqHandler.m_is_connected_on e handler
  | channel_ready => exact h.ofSession h.handler
  | declare_success d =>
    apply h.ofSession
    rw [Session.m_mq_handler_declare_success]
    exact h.handler
  | declare_error d => exact h.ofSession h.handler
  | timer_expires t => exact ⟨h.handler, h.connecting⟩
  | on_timeout err t => exact (h.on_timeout err t).1

theorem step {e : Event} {c' : MqClient} {o : List Effect} (h : Stuck c)
    (hs : step c e = some (c', o)) : Stuck c' :=
  h.moves (moves_of_step hs)

theorem out_on_timeout {err : Bool} {c' : MqClient} {o : List Effect} (h : Stuck c)
    (hs : MqClient.step c (.on_timeout err) = some (c', o)) : o = [] := by
  obtain ⟨t, -, hs⟩ := Option.map_eq_some_iff.1 hs
  have hout := (h.on_timeout err t).2
  rwa [hs] at hout

end Stuck

variable {mq_info : MqInfo} {tr : List (Step MqClient Event (List Effect))} {c c' : MqClient}
  {e : Event} {o : List Effect}

/-- **No tick of any run starts an attempt.** -/
theorem no_tick_attempts (hr : Run step (new mq_info) tr c) {x : Step MqClient Event (List Effect)}
    (hx : x ∈ tr) {err : Bool} (he : x.event = .on_timeout err) : attempted x = false := by
  have hstuck := hr.before_invariant (Stuck.new mq_info) Stuck.step x hx
  have hs := hr.step_of_mem hx
  rw [he] at hs
  rw [attempted, hstuck.out_on_timeout hs]
  rfl

/-! ## Runs -/

/-- Only `onConnected` makes it the last thing that happened. -/
theorem last_link_ne (h : last_link tr ≠ some .onConnected) (he : e ≠ .link .onConnected) :
    last_link (tr ++ [⟨c, e, o, c'⟩]) ≠ some .onConnected := by
  rw [last_link_append_singleton]
  split
  · simp
  · cases e with
    | link l =>
      have hl : l ≠ .onConnected := fun hl => he (congrArg Event.link hl)
      simpa [link_event] using hl
    | _ => simpa [link_event] using h

/-- **One event.** -/
theorem honest_step_iff (h : Stuck c ∧ last_link tr ≠ some .onConnected)
    (hs : step c e = some (c', o)) : Honest tr ⟨c, e, o, c'⟩ ↔ Spared tr c e := by
  obtain ⟨hstuck, hlast⟩ := h
  have hafter := hstuck.step hs
  constructor
  · intro hhonest
    constructor
    · rintro rfl
      obtain ⟨handler, -, hmap⟩ := Option.map_eq_some_iff.1 hs
      cases hmap
      have hup := (hhonest.connected _ rfl).2 (by simp [last_link_append_singleton, attempted, link_event])
      rw [MqHandler.m_is_connected_on] at hup
      cases hup
    · rintro ⟨rfl, hauto, hlost⟩
      have hattempt := hhonest.retries rfl hauto hlost
      rw [attempted, hstuck.out_on_timeout hs] at hattempt
      cases hattempt
  · intro ⟨hlink, htick⟩
    constructor
    · intro handler hhandler
      refine iff_of_false ?_ (last_link_ne hlast hlink)
      rw [hafter.handler handler hhandler]
      exact Bool.false_ne_true
    · intro he hauto hlost
      exact absurd ⟨he, hauto, hlost⟩ htick

/-- **The flags and ticks are right exactly as long as they are spared.** Over runs of any length: the
handler says whether the link is up, and every tick that should reconnect does, if and only if the
link never comes up and no tick finds it lost while the client is to reconnect. -/
theorem honest_iff_spared (hr : Run step (new mq_info) tr c) :
    (∀ pre x, pre ++ [x] <+: tr → Honest pre x) ↔
      ∀ pre x, pre ++ [x] <+: tr → Spared pre x.before x.event := by
  refine hr.forall_at_iff (I := fun tr c => Stuck c ∧ last_link tr ≠ some .onConnected)
    ⟨.new mq_info, nofun⟩ honest_step_iff ?_
  intro tr c c' e o h hok hs
  exact ⟨h.1.step hs, last_link_ne h.2 hok.1⟩

/-- A client waits for its first attempt to succeed. -/
theorem honest_while_connecting :
    ∃ tr c, Run step (new .new) tr c ∧ tr.map Step.event =
        [.do_connect, .timer_expires, .on_timeout false] ∧
      ((∀ pre x, pre ++ [x] <+: tr → Honest pre x) ↔
        ∀ pre x, pre ++ [x] <+: tr → Spared pre x.before x.event) := by
  obtain ⟨tr, c, hr, he⟩ := Run.exists_of_exec step (new .new)
    [.do_connect, .timer_expires, .on_timeout false]
    (P := fun tr _ => tr.map Step.event = [.do_connect, .timer_expires, .on_timeout false])
    (by decide)
  exact ⟨tr, c, hr, he, honest_iff_spared hr⟩

/-- The first attempt fails, and the next tick does nothing about it. -/
theorem not_honest_when_lost :
    ∃ tr c, Run step (new .new) tr c ∧ tr.map Step.event =
        [.do_connect, .link .onError, .timer_expires, .on_timeout false] ∧
      ¬ ∀ pre x, pre ++ [x] <+: tr → Honest pre x := by
  obtain ⟨tr, c, hr, he, x, hx, hevent, hauto, hlast, hattempt⟩ := Run.exists_of_exec step (new .new)
    [.do_connect, .link .onError, .timer_expires, .on_timeout false]
    (P := fun tr _ => tr.map Step.event =
        [.do_connect, .link .onError, .timer_expires, .on_timeout false] ∧
      ∃ x ∈ tr.getLast?, x.event = .on_timeout false ∧ x.before.m_auto_reconnect = true ∧
        last_link tr.dropLast = some .onError ∧ attempted x = false) (by decide)
  refine ⟨tr, c, hr, he, fun h => ?_⟩
  have htr : tr.dropLast ++ [x] <+: tr := ⟨[], by
    rw [List.append_nil, List.dropLast_append_getLast? x hx]⟩
  have hhonest := h tr.dropLast x htr
  rw [hhonest.retries hevent hauto (.inl hlast)] at hattempt
  cases hattempt

end SparkFrame.Net.MqClient
