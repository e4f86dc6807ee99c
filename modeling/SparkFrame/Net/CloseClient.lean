import SparkFrame.Net.Client

/-!
# After `close_client`

`close_session` reconnects whether or not the client is shut down, and so does a reconnect handler
that is already queued when its timer is cancelled.

* `attempts` : the connection attempts among some effects; `Connects` : the events in which the user
  connects; `Final` : no attempt follows until then;
* `Quiet` : the states in which closing the client is final; `Fatal` : those it crashes in;
* `Shut`, `Shut.step` : what closing a quiet client leaves, and that every event keeps it;
* `final_iff_quiet` : **closing is final exactly in quiet states**; `close_resurrects` : a connected
  client that is closed.
-/

namespace SparkFrame.Net.Client

open SparkFrame.Lib

/-- The connection attempts among some effects. -/
def attempts (effects : List Effect) : List Endpoint :=
  effects.filterMap fun
    | .async_connect endpoint => some endpoint
    | _ => none

theorem attempts_append (effects effects' : List Effect) :
    attempts (effects ++ effects') = attempts effects ++ attempts effects' :=
  List.filterMap_append ..

/-- The user calls `connect(ip, port)`, perhaps from the handler of a failed attempt. -/
def Connects : Event → Prop
  | .do_connect _ => True
  | .on_connet_complete _ calls => ∃ endpoint, .connect endpoint ∈ calls
  | _ => False

/-- No attempt starts from here until the user calls `connect(ip, port)`, whatever happens. -/
def Final (c : Client) : Prop :=
  ∀ tr c', Run step c tr c' → (∀ x ∈ tr, ¬ Connects x.event) → ∀ x ∈ tr, attempts x.out = []

/-- The client is connecting without a socket, as a handler of a failed attempt leaves it that has
connected. `do_close_client` dereferences the null pointer. -/
def Fatal (c : Client) : Prop :=
  c.m_is_connected = false ∧ c.m_is_connecting = true ∧ c.m_socket = none

/-- **The condition.** No session is open, no reconnect handler is queued with success, and a
reconnect timer that is running is one that `do_close_client` cancels; or the process ends there. -/
def Quiet (c : Client) : Prop :=
  Fatal c ∨ c.sessions = [] ∧ c.m_reconnet_timer.ready = 0 ∧
    (c.m_reconnet_timer.waiting = true → c.m_is_connecting = false ∧ c.m_is_wait_connect = true)

/-- A client that nothing but the user makes connect again. -/
structure Shut (c : Client) : Prop where
  auto_reconnect : c.m_auto_reconnect = false
  connected : c.m_is_connected = false
  sessions : c.sessions = []
  reconnet_timer : c.m_reconnet_timer.Silent
  socket : c.m_socket ≠ some true

/-! ## Shut clients -/

namespace Shut

variable {c : Client}

theorem socketClose (h : Shut c) : Shut c.socketClose.1 ∧ attempts c.socketClose.2 = [] := by
  unfold Client.socketClose
  split
  · exact ⟨⟨h.auto_reconnect, h.connected, h.sessions, h.reconnet_timer, h.socket⟩, rfl⟩
  · exact ⟨⟨h.auto_reconnect, h.connected, h.sessions, h.reconnet_timer, by simp⟩, rfl⟩

theorem do_close_client (h : Shut c) :
    Shut c.do_close_client.1 ∧ attempts c.do_close_client.2 = [] := by
  unfold Client.do_close_client
  have ha : Shut { c with m_auto_reconnect := false } :=
    ⟨rfl, h.connected, h.sessions, h.reconnet_timer, h.socket⟩
  dsimp only
  rw [if_neg (by simp [h.connected])]
  split
  · obtain ⟨hs, ho⟩ := ha.socketClose
    exact ⟨⟨hs.auto_reconnect, hs.connected, hs.sessions, hs.reconnet_timer, hs.socket⟩, ho⟩
  · split
    · exact ⟨⟨rfl, h.connected, h.sessions, .cancel h.reconnet_timer.2, h.socket⟩, rfl⟩
    · exact ⟨⟨rfl, h.connected, h.sessions, h.reconnet_timer, h.socket⟩, rfl⟩

theorem handle_message (h : Shut c) {calls : List Call} (hcalls : ∀ endpoint, .connect endpoint ∉ calls) :
    Shut (Client.handle_message calls c).1 ∧ attempts (Client.handle_message calls c).2 = [] := by
  induction calls generalizing c with
  | nil => exact ⟨h, rfl⟩
  | cons call calls ih =>
    rw [Client.handle_message]
    split
    · exact ⟨h, rfl⟩
    · cases call with
      | connect endpoint => exact absurd (List.mem_cons_self ..) (hcalls endpoint)
      | close_client =>
        obtain ⟨hclose, hnone⟩ := h.do_close_client
        obtain ⟨hrest, hnone'⟩ := ih hclose fun endpoint hmem => hcalls endpoint (List.mem_cons_of_mem _ hmem)
        refine ⟨hrest, ?_⟩
        show attempts (c.do_close_client.2 ++ (Client.handle_message calls c.do_close_client.1).2) = []
        rw [attempts_append, hnone, hnone']
        rfl

/-- A failed attempt is repeated only with `m_auto_reconnect`. -/
theorem connectFailed (h : Shut c) {calls : List Call} (hcalls : ∀ endpoint, .connect endpoint ∉ calls) :
    Shut (c.connectFailed calls).1 ∧ attempts (c.connectFailed calls).2 = [] := by
  obtain ⟨hshut, hnone⟩ := h.handle_message hcalls
  unfold Client.connectFailed
  dsimp only
  split
  · exact ⟨hshut, hnone⟩
  · rw [retry, hshut.auto_reconnect]
    exact ⟨⟨rfl, hshut.connected, hshut.sessions, hshut.reconnet_timer, nofun⟩, hnone⟩

/-- The socket is gone or closed, so the attempt counts as failed. -/
theorem on_connet_complete (h : Shut c) (err_code : Bool) {calls : List Call}
    (hcalls : ∀ endpoint, .connect endpoint ∉ calls) :
    Shut (c.on_connet_complete err_code calls).1 ∧
      attempts (c.on_connet_complete err_code calls).2 = [] := by
  unfold Client.on_connet_complete
  dsimp only
  split
  · exact ⟨⟨h.auto_reconnect, h.connected, h.sessions, h.reconnet_timer, h.socket⟩, rfl⟩
  · next is_open hs =>
    have hopen : is_open = false := by
      have := h.socket
      rw [hs] at this
      simpa using this
    have hc : Shut { c with m_is_connecting := false, m_connect_timer := c.m_connect_timer.cancel } :=
      ⟨h.auto_reconnect, h.connected, h.sessions, h.reconnet_timer, h.socket⟩
    rw [hopen, if_pos (by simp)]
    exact hc.connectFailed hcalls

theorem on_connect_timeout (h : Shut c) (err : Bool) :
    Shut (c.on_connect_timeout err).1 ∧ attempts (c.on_connect_timeout err).2 = [] := by
  unfold Client.on_connect_timeout
  rw [if_neg h.socket]
  split
  · exact ⟨h, rfl⟩
  · exact ⟨h, rfl⟩

/-- Every event but the user's `connect` keeps a client shut and starts no attempt. -/
theorem step {e : Event} {c' : Client} {o : List Effect} (h : Shut c)
    (he : ¬ Connects e) (hs : step c e = some (c', o)) : Shut c' ∧ attempts o = [] := by
  obtain ⟨-, ht⟩ := step_eq_some_iff.1 hs
  cases e with
  | do_connect endpoint => exact absurd trivial he
  | do_close_client =>
    have := h.do_close_client
    rwa [ht] at this
  | session_close id =>
    have hid := ht.1
    rw [h.sessions] at hid
    cases hid
  | on_connet_complete err_code calls =>
    have hc : Shut { c with connects := c.connects - 1 } :=
      ⟨h.auto_reconnect, h.connected, h.sessions, h.reconnet_timer, h.socket⟩
    have := hc.on_connet_complete err_code (not_exists.mp he)
    rwa [ht.2] at this
  | connect_timer_expires =>
    obtain ⟨t, -, ht⟩ := ht
    cases ht
    exact ⟨⟨h.auto_reconnect, h.connected, h.sessions, h.reconnet_timer, h.socket⟩, rfl⟩
  | on_connect_timeout err =>
    obtain ⟨t, -, ht⟩ := ht
    have hc : Shut { c with m_connect_timer := t } :=
      ⟨h.auto_reconnect, h.connected, h.sessions, h.reconnet_timer, h.socket⟩
    have := hc.on_connect_timeout err
    rwa [ht] at this
  | reconnet_timer_expires =>
    obtain ⟨t, hexp, -⟩ := ht
    rw [h.reconnet_timer.expire] at hexp
    cases hexp
  | on_wait_reconnect err =>
    obtain ⟨t, htake, ht⟩ := ht
    obtain ⟨rfl, hsilent⟩ := h.reconnet_timer.take htake
    cases ht
    exact ⟨⟨h.auto_reconnect, h.connected, h.sessions, hsilent, h.socket⟩, rfl⟩

theorem final (h : Shut c) : Final c := by
  intro tr c' hr hok
  suffices hI : Shut c' ∧ ∀ x ∈ tr, attempts x.out = [] from hI.2
  refine hr.invariant (fun tr c => Shut c ∧ ∀ x ∈ tr, attempts x.out = [])
    (fun _ e => ¬ Connects e) ⟨h, by simp⟩ ?_ hok
  intro tr c c' e o ⟨hc, htr⟩ he hs
  obtain ⟨hc', ho⟩ := hc.step he hs
  refine ⟨hc', fun x hx => ?_⟩
  rcases List.mem_append.1 hx with hx | hx
  · exact htr x hx
  · rw [List.mem_singleton.1 hx]
    exact ho

end Shut

/-! ## Quiet clients -/

theorem Fatal.crashed {c : Client} (h : Fatal c) : c.do_close_client.1.crashed = true := by
  obtain ⟨hconnected, hconnecting, hsocket⟩ := h
  simp [do_close_client, hconnected, hconnecting, socketClose, hsocket, crash]

theorem final_of_crashed {c : Client} (h : c.crashed = true) : Final c := by
  intro tr c' hr _ x hx
  cases tr with
  | nil => cases hx
  | cons y tr =>
    obtain ⟨-, hs, -⟩ := hr.cons_inv
    exact absurd h (Bool.eq_false_iff.1 (step_eq_some_iff.1 hs).1)

/-- Closing a client that is quiet and not fatal shuts it, without an attempt. -/
theorem shut_of_quiet {c : Client} (hi : Inv c) (hfatal : ¬ Fatal c) (hq : Quiet c) :
    Shut c.do_close_client.1 ∧ attempts c.do_close_client.2 = [] := by
  obtain ⟨hsessions, hready, hwait⟩ := hq.resolve_left hfatal
  have hconnected : c.m_is_connected = false := by
    cases hc : c.m_is_connected with
    | false => rfl
    | true =>
      obtain ⟨id, -, hid⟩ := hi.session_ref hc
      rw [hsessions] at hid
      cases hid
  unfold do_close_client
  dsimp only
  rw [if_neg (by simp [hconnected])]
  cases hconnecting : c.m_is_connecting with
  | true =>
    have hsilent : c.m_reconnet_timer.Silent := by
      refine ⟨?_, hready⟩
      by_contra hw
      have := (hwait (by simpa using hw)).1
      rw [hconnecting] at this
      cases this
    rw [if_pos rfl]
    unfold socketClose
    dsimp only
    split
    · next hs => exact absurd ⟨hconnected, hconnecting, hs⟩ hfatal
    · exact ⟨⟨rfl, hconnected, hsessions, hsilent, by simp⟩, rfl⟩
  | false =>
    have hsocket : c.m_socket = none := by
      by_contra hs
      exact Bool.false_ne_true (hconnecting.symm.trans (hi.socket hs))
    rw [if_neg (by simp)]
    split
    · exact ⟨⟨rfl, hconnected, hsessions, .cancel hready, by simp [hsocket]⟩, rfl⟩
    · next hflag =>
      have hsilent : c.m_reconnet_timer.Silent := by
        refine ⟨?_, hready⟩
        by_contra hw
        exact hflag (hwait (by simpa using hw)).2
      exact ⟨⟨rfl, hconnected, hsessions, hsilent, by simp [hsocket]⟩, rfl⟩

/-! ## Final clients -/

namespace Final

variable {c : Client}

theorem step {c' : Client} {e : Event} {o : List Effect} (h : Final c)
    (he : ¬ Connects e) (hs : step c e = some (c', o)) : Final c' ∧ attempts o = [] := by
  constructor
  · intro tr c'' hr hok x hx
    refine h _ c'' (.cons hs hr) (fun y hy => ?_) x (List.mem_cons_of_mem _ hx)
    rcases List.mem_cons.1 hy with rfl | hy
    · exact he
    · exact hok y hy
  · refine h _ c' (.cons hs .nil) (fun y hy => ?_) _ (List.mem_singleton_self _)
    rw [List.mem_singleton.1 hy]
    exact he

theorem sessions_eq_nil (h : Final c) (hc : c.crashed = false) : c.sessions = [] := by
  by_contra hne
  obtain ⟨id, hid⟩ := List.exists_mem_of_ne_nil _ hne
  have hs : Client.step c (.session_close id) = some (c.sessionClose id) :=
    step_eq_some_iff.2 ⟨hc, hid, rfl⟩
  have hattempt : attempts (c.sessionClose id).2 ≠ [] := by
    simp [sessionClose, hid, close_session, connect, attempts]
  exact hattempt (h.step (by simp [Connects]) hs).2

theorem ready_eq_zero (h : Final c) (hc : c.crashed = false) : c.m_reconnet_timer.ready = 0 := by
  by_contra hne
  have htake : c.m_reconnet_timer.take false =
      some { c.m_reconnet_timer with ready := c.m_reconnet_timer.ready - 1 } := by
    simp [SteadyTimer.take, Nat.pos_of_ne_zero hne]
  have hs : Client.step c (.on_wait_reconnect false) = some _ :=
    step_eq_some_iff.2 ⟨hc, _, htake, rfl⟩
  cases (h.step (by simp [Connects]) hs).2

theorem waiting_eq_false (h : Final c) (hc : c.crashed = false) :
    c.m_reconnet_timer.waiting = false := by
  by_contra hw
  have hexp : c.m_reconnet_timer.expire = some
      ⟨false, c.m_reconnet_timer.ready + 1, c.m_reconnet_timer.aborted⟩ := by
    simp [SteadyTimer.expire, hw]
  have hs : Client.step c .reconnet_timer_expires = some _ :=
    step_eq_some_iff.2 ⟨hc, _, hexp, rfl⟩
  cases (h.step (by simp [Connects]) hs).1.ready_eq_zero hc

/-- An outstanding attempt on an open socket may yet succeed, and its session close. -/
theorem socket_ne (h : Final c) (hc : c.crashed = false) (hconn : 0 < c.connects) :
    c.m_socket ≠ some true := by
  intro hopen
  have hs : Client.step c (.on_connet_complete false []) = some _ :=
    step_eq_some_iff.2 ⟨hc, hconn, rfl⟩
  have hnil := (h.step (by simp [Connects]) hs).1.sessions_eq_nil
    (by simp [hopen, hc])
  simp [hopen] at hnil

end Final

theorem do_close_client_of_connected {c : Client} (hi : Inv c) (hc : c.m_is_connected = true) :
    c.do_close_client.1.crashed = c.crashed ∧ c.do_close_client.1.m_socket = some true ∧
      c.do_close_client.1.connects = c.connects + 1 := by
  obtain ⟨id, href, hid⟩ := hi.session_ref hc
  simp [do_close_client, hc, sessionRefClose, href, sessionClose, hid, close_session, connect]

/-- Closing a client that is not connected leaves its sessions and its queued handlers, and a
reconnect timer unless the flag says that it is waited for. -/
theorem do_close_client_of_not_connected {c : Client} (hc : c.m_is_connected = false)
    (hfatal : ¬ Fatal c) :
    c.do_close_client.1.crashed = c.crashed ∧ c.do_close_client.1.sessions = c.sessions ∧
      c.do_close_client.1.m_reconnet_timer.ready = c.m_reconnet_timer.ready ∧
      (c.do_close_client.1.m_reconnet_timer.waiting = false → c.m_reconnet_timer.waiting = true →
        c.m_is_connecting = false ∧ c.m_is_wait_connect = true) := by
  unfold do_close_client
  dsimp only
  rw [if_neg (by simp [hc])]
  cases hconnecting : c.m_is_connecting with
  | true =>
    obtain ⟨is_open, hs⟩ := Option.ne_none_iff_exists'.1 fun hs => hfatal ⟨hc, hconnecting, hs⟩
    simp +contextual [socketClose, hs]
  | false =>
    cases hwait : c.m_is_wait_connect with
    | true => simp
    | false => simp +contextual

/-- **Closing is final exactly in quiet states.** In every reachable state of a client, whatever has
been called and whatever is queued: after `do_close_client` no connection attempt starts until the
user connects again, in any order of later events, if and only if the state was quiet. -/
theorem final_iff_quiet {tr : List (Step Client Event (List Effect))} {c c' : Client}
    {o : List Effect} (hr : Run step new tr c) (h : step c .do_close_client = some (c', o)) :
    Final c' ↔ Quiet c := by
  have hi := inv_of_run hr
  obtain ⟨hc, ht⟩ := step_eq_some_iff.1 h
  have hc' : c' = c.do_close_client.1 := (congrArg Prod.fst ht).symm
  rw [hc']
  by_cases hfatal : Fatal c
  · exact iff_of_true (final_of_crashed hfatal.crashed) (Or.inl hfatal)
  constructor
  · intro hf
    cases hconnected : c.m_is_connected with
    | true =>
      obtain ⟨hcrash, hsocket, hconnects⟩ := do_close_client_of_connected hi hconnected
      exact absurd hsocket (hf.socket_ne (hcrash.trans hc) (by omega))
    | false =>
      obtain ⟨hcrash, hsessions, hready, hwait⟩ := do_close_client_of_not_connected hconnected hfatal
      have halive := hcrash.trans hc
      exact Or.inr ⟨hsessions ▸ hf.sessions_eq_nil halive, hready ▸ hf.ready_eq_zero halive,
        hwait (hf.waiting_eq_false halive)⟩
  · intro hq
    exact (shut_of_quiet hi hfatal hq).1.final

/-- A client waiting to reconnect is closed for good. -/
theorem final_iff_quiet_waiting :
    ∃ tr c c' o, Run step new tr c ∧ step c .do_close_client = some (c', o) ∧
      c.m_reconnet_timer.waiting = true ∧ (Final c' ↔ Quiet c) := by
  obtain ⟨tr, c, hr, ⟨c', o⟩, hs, hw⟩ := Run.exists_of_exec step new
    [.do_connect ⟨"127.0.0.1", 9000⟩, .on_connet_complete true []]
    (P := fun _ c => ∃ p ∈ step c .do_close_client, c.m_reconnet_timer.waiting = true) (by decide)
  exact ⟨tr, c, c', o, hr, hs, hw, final_iff_quiet hr hs⟩

/-- A connected client that is closed connects again at once, and once more when the session it gets
that way closes. -/
theorem not_final_of_connected :
    ∃ tr c c' o, Run step new tr c ∧ step c .do_close_client = some (c', o) ∧ ¬ Final c' := by
  obtain ⟨tr, c, hr, ⟨c', o⟩, hs, q, hq, x, hx, hattempt⟩ := Run.exists_of_exec step new
    [.do_connect ⟨"127.0.0.1", 9000⟩, .on_connet_complete false []]
    (P := fun _ c => ∃ p ∈ step c .do_close_client,
      ∃ q ∈ exec step p.1 [.on_connet_complete false [], .session_close 2],
        ∃ x ∈ q.1, attempts x.out ≠ []) (by decide)
  refine ⟨tr, c, c', o, hr, hs, fun hf => hattempt (hf _ _ (Run.of_exec hq) ?_ x hx)⟩
  intro y hy hconnects
  have hmem := event_mem_of_exec hq y hy
  simp only [List.mem_cons, List.not_mem_nil, or_false] at hmem
  rcases hmem with h | h
  · rw [h] at hconnects
    obtain ⟨endpoint, hendpoint⟩ := hconnects
    cases hendpoint
  · rw [h] at hconnects
    exact hconnects

end SparkFrame.Net.Client
