import SparkFrame.Lib.Run
import SparkFrame.Lib.SteadyTimer

/-!
# The connecting side: `libserver/Client`

A client keeps one connection to an endpoint: it connects, turns the socket into a session, and
tries again when the attempt fails or the session closes. Its handlers run one after another on one
loop, in any order.

* `Client` : the flags, the current socket, the outstanding attempts, the open sessions and the two
  timers that lead to attempts; `Effect` : what a handler does;
* `Call`, `handle_message` : what the handler of a failed attempt calls, in the middle of
  `on_connet_complete`;
* `connect`, `register_connect_timer`, `close_session`, `on_connect_timeout`, `on_wait_reconnect`,
  `do_connect`, `do_close_client`, `on_connet_complete` : the member functions;
* `step` : the client taking one event; `Inv`, `inv_of_run` : what holds in every reachable state.
-/

namespace SparkFrame.Net

open SparkFrame.Lib

/-- `TCP_SPACE::endpoint`. -/
structure Endpoint where
  address : String
  port : BitVec 16
deriving DecidableEq, Repr

structure Client where
  m_auto_reconnect : Bool
  m_is_connecting : Bool
  m_is_wait_connect : Bool
  m_is_connected : Bool
  m_endpoint : Endpoint
  /-- `m_socket`: whether it is open, if there is one. -/
  m_socket : Option Bool
  /-- Calls of `async_connect` whose handler has not run. -/
  connects : Nat
  /-- The open sessions, by `session_id`. -/
  sessions : List Nat
  m_session_ref : Option Nat
  /-- The static counter. -/
  session_id : Nat
  m_reconnet_timer : SteadyTimer
  m_connect_timer : SteadyTimer
  /-- A null pointer was dereferenced. -/
  crashed : Bool
deriving DecidableEq, Repr

namespace Client

inductive Effect where
  | async_connect (endpoint : Endpoint)
  | session_start (id : Nat)
  | session_close (id : Nat)
  | connect_failed
deriving DecidableEq, Repr

/-- A call on the client's loop, which runs at once. -/
inductive Call where
  | connect (endpoint : Endpoint)
  | close_client
deriving DecidableEq, Repr

inductive Event where
  | do_connect (endpoint : Endpoint)
  | do_close_client
  /-- An open session closes: a read or write error, the alive check, a shutdown. -/
  | session_close (id : Nat)
  /-- The handler of `CMD_CONNECT_FAILED` makes the calls, if it runs. -/
  | on_connet_complete (err_code : Bool) (calls : List Call)
  | connect_timer_expires
  | on_connect_timeout (err : Bool)
  | reconnet_timer_expires
  | on_wait_reconnect (err : Bool)
deriving DecidableEq, Repr

def new : Client :=
  { m_auto_reconnect := false, m_is_connecting := false, m_is_wait_connect := false
    m_is_connected := false, m_endpoint := ⟨"", 0⟩, m_socket := none, connects := 0, sessions := []
    m_session_ref := none, session_id := 0, m_reconnet_timer := .idle, m_connect_timer := .idle
    crashed := false }

/-! ## Member functions -/

/-- A null pointer is dereferenced. -/
def crash (c : Client) : Client × List Effect := ({ c with crashed := true }, [])

/-- `m_socket->close()`. -/
def socketClose (c : Client) : Client × List Effect :=
  match c.m_socket with
  | none => c.crash
  | some _ => ({ c with m_socket := some false }, [])

def register_connect_timer (c : Client) : Client :=
  { c with m_is_wait_connect := true, m_reconnet_timer := c.m_reconnet_timer.start }

/-- `connect()`. -/
def connect (c : Client) : Client × List Effect :=
  ({ c with
      m_socket := some true
      m_connect_timer := c.m_connect_timer.start
      connects := c.connects + 1
      m_is_connecting := true },
    [.async_connect c.m_endpoint])

def close_session (c : Client) : Client × List Effect :=
  { c with m_is_connected := false }.connect

/-- `TcpSession::do_close` of the session `id`. -/
def sessionClose (id : Nat) (c : Client) : Client × List Effect :=
  if id ∈ c.sessions then
    let (c, effects) := { c with sessions := c.sessions.erase id }.close_session
    (c, effects ++ [.session_close id])
  else (c, [])

/-- `m_session_ref.lock()->close()`, which runs at once on the client's loop. -/
def sessionRefClose (c : Client) : Client × List Effect :=
  match c.m_session_ref with
  | none => c.crash
  | some id => c.sessionClose id

def on_connect_timeout (err : Bool) (c : Client) : Client × List Effect :=
  if !err then
    if c.m_socket = some true then ({ c with m_socket := some false }, []) else (c, [])
  else (c, [])

def on_wait_reconnect (err : Bool) (c : Client) : Client × List Effect :=
  let c := { c with m_is_wait_connect := false }
  if !err then c.connect else (c, [])

def do_connect (endpoint : Endpoint) (c : Client) : Client × List Effect :=
  let c := { c with m_auto_reconnect := true, m_endpoint := endpoint }
  if c.m_is_connected then c.sessionRefClose
  else if c.m_is_connecting then c.socketClose
  else
    let c := if c.m_is_wait_connect then
      { c with m_reconnet_timer := c.m_reconnet_timer.cancel, m_is_wait_connect := false } else c
    c.connect

def do_close_client (c : Client) : Client × List Effect :=
  let c := { c with m_auto_reconnect := false }
  let (c, effects) :=
    if c.m_is_connected then c.sessionRefClose
    else if c.m_is_connecting then c.socketClose
    else if c.m_is_wait_connect then
      ({ c with m_is_wait_connect := false, m_reconnet_timer := c.m_reconnet_timer.cancel }, [])
    else (c, [])
  ({ c with m_connect_timer := c.m_connect_timer.cancel }, effects)

def Call.run : Call → Client → Client × List Effect
  | .connect endpoint, c => c.do_connect endpoint
  | .close_client, c => c.do_close_client

/-- `m_msg_task->handle_message`, whose handler makes the calls in turn. -/
def handle_message : List Call → Client → Client × List Effect
  | [], c => (c, [])
  | call :: calls, c =>
    if c.crashed then (c, [])
    else
      let (c, effects) := call.run c
      let (c, effects') := handle_message calls c
      (c, effects ++ effects')

/-- The socket is dropped, and the timer started. -/
def retry (c : Client) : Client :=
  let c := { c with m_socket := none }
  if c.m_auto_reconnect then c.register_connect_timer else c

/-- `on_connet_complete` of an attempt that has failed. -/
def connectFailed (calls : List Call) (c : Client) : Client × List Effect :=
  let (c, effects) := handle_message calls c
  (if c.crashed then c else c.retry, .connect_failed :: effects)

def on_connet_complete (err_code : Bool) (calls : List Call) (c : Client) : Client × List Effect :=
  let c := { c with m_is_connecting := false, m_connect_timer := c.m_connect_timer.cancel }
  match c.m_socket with
  | none => c.crash
  | some is_open =>
    if !is_open || err_code then c.connectFailed calls
    else
      let id := c.session_id + 1
      ({ c with
          m_is_connected := true
          sessions := c.sessions ++ [id]
          m_session_ref := some id
          m_socket := none
          session_id := id },
        [.session_start id])

/-! ## The client as a state machine -/

def step (c : Client) (e : Event) : Option (Client × List Effect) :=
  if c.crashed then none
  else match e with
    | .do_connect endpoint => some (c.do_connect endpoint)
    | .do_close_client => some c.do_close_client
    | .session_close id => if id ∈ c.sessions then some (c.sessionClose id) else none
    | .on_connet_complete err_code calls =>
      if 0 < c.connects then
        some ({ c with connects := c.connects - 1 }.on_connet_complete err_code calls)
      else none
    | .connect_timer_expires =>
      c.m_connect_timer.expire.map fun t => ({ c with m_connect_timer := t }, [])
    | .on_connect_timeout err =>
      (c.m_connect_timer.take err).map fun t =>
        { c with m_connect_timer := t }.on_connect_timeout err
    | .reconnet_timer_expires =>
      c.m_reconnet_timer.expire.map fun t => ({ c with m_reconnet_timer := t }, [])
    | .on_wait_reconnect err =>
      (c.m_reconnet_timer.take err).map fun t =>
        { c with m_reconnet_timer := t }.on_wait_reconnect err

/-- What an accepted event does, one case per event. -/
def Takes (c : Client) (p : Client × List Effect) : Event → Prop
  | .do_connect endpoint => c.do_connect endpoint = p
  | .do_close_client => c.do_close_client = p
  | .session_close id => id ∈ c.sessions ∧ c.sessionClose id = p
  | .on_connet_complete err_code calls =>
    0 < c.connects ∧ { c with connects := c.connects - 1 }.on_connet_complete err_code calls = p
  | .connect_timer_expires =>
    ∃ t, c.m_connect_timer.expire = some t ∧ ({ c with m_connect_timer := t }, []) = p
  | .on_connect_timeout err =>
    ∃ t, c.m_connect_timer.take err = some t ∧
      { c with m_connect_timer := t }.on_connect_timeout err = p
  | .reconnet_timer_expires =>
    ∃ t, c.m_reconnet_timer.expire = some t ∧ ({ c with m_reconnet_timer := t }, []) = p
  | .on_wait_reconnect err =>
    ∃ t, c.m_reconnet_timer.take err = some t ∧
      { c with m_reconnet_timer := t }.on_wait_reconnect err = p

theorem step_eq_some_iff {c : Client} {e : Event} {p : Client × List Effect} :
    step c e = some p ↔ c.crashed = false ∧ Takes c p e := by
  unfold step
  by_cases hc : c.crashed = true
  · simp [hc]
  · rw [if_neg hc, and_iff_right (Bool.eq_false_iff.2 hc)]
    cases e <;> simp only [Takes, Option.map_eq_some_iff, Option.ite_none_right_eq_some,
      Option.some.injEq]

/-! ## What holds in every reachable state -/

/-- A connected client's session is open. -/
def Referenced (c : Client) : Prop :=
  c.m_is_connected = true → ∃ id, c.m_session_ref = some id ∧ id ∈ c.sessions

/-- A connected client's session is open, and there is a socket only while connecting. -/
structure Inv (c : Client) : Prop where
  session_ref : Referenced c
  socket : c.m_socket ≠ none → c.m_is_connecting = true

variable {c : Client}

/-! ### Calls in a handler -/

/-- What a handler finds, and leaves: a socket and a client that has not crashed. -/
structure Handling (c : Client) : Prop where
  session_ref : Referenced c
  socket : c.m_socket ≠ none
  crashed : c.crashed = false

namespace Handling

theorem connect (hcrashed : c.crashed = false) (href : Referenced c) : Handling c.connect.1 :=
  ⟨href, nofun, hcrashed⟩

/-- A closing session takes `m_is_connected` with it, so the rest of the client's sessions do not
matter. -/
theorem sessionRefClose (h : Handling c) (hconnected : c.m_is_connected = true) :
    Handling c.sessionRefClose.1 := by
  obtain ⟨id, href, hid⟩ := h.session_ref hconnected
  simp only [Client.sessionRefClose, href, sessionClose, if_pos hid]
  exact connect h.crashed (nomatch ·)

theorem socketClose (h : Handling c) : Handling c.socketClose.1 := by
  obtain ⟨is_open, hs⟩ := Option.ne_none_iff_exists'.1 h.socket
  simp only [Client.socketClose, hs]
  exact ⟨h.session_ref, nofun, h.crashed⟩

theorem do_connect (h : Handling c) (endpoint : Endpoint) : Handling (c.do_connect endpoint).1 := by
  have ha : Handling { c with m_auto_reconnect := true, m_endpoint := endpoint } :=
    ⟨h.session_ref, h.socket, h.crashed⟩
  unfold Client.do_connect
  dsimp only
  split
  · next hconnected => exact ha.sessionRefClose hconnected
  · split
    · exact ha.socketClose
    · apply connect
      · split
        · exact h.crashed
        · exact h.crashed
      · split
        · exact h.session_ref
        · exact h.session_ref

theorem do_close_client (h : Handling c) : Handling c.do_close_client.1 := by
  have ha : Handling { c with m_auto_reconnect := false } := ⟨h.session_ref, h.socket, h.crashed⟩
  unfold Client.do_close_client
  dsimp only
  split
  · next hconnected =>
    have hclosed := ha.sessionRefClose hconnected
    exact ⟨hclosed.session_ref, hclosed.socket, hclosed.crashed⟩
  · split
    · exact ⟨ha.socketClose.session_ref, ha.socketClose.socket, ha.socketClose.crashed⟩
    · split
      · exact ⟨h.session_ref, h.socket, h.crashed⟩
      · exact ⟨h.session_ref, h.socket, h.crashed⟩

/-- **The calls of a handler** never crash the client. -/
theorem handle_message (h : Handling c) (calls : List Call) :
    Handling (Client.handle_message calls c).1 := by
  induction calls generalizing c with
  | nil => exact h
  | cons call calls ih =>
    rw [Client.handle_message, if_neg (Bool.eq_false_iff.1 h.crashed)]
    cases call with
    | connect endpoint => exact ih (h.do_connect endpoint)
    | close_client => exact ih h.do_close_client

end Handling

/-! ### One event -/

namespace Inv

theorem new : Inv .new := ⟨nofun, absurd rfl⟩

theorem connect (h : Referenced c) : Inv c.connect.1 := ⟨h, fun _ => rfl⟩

theorem sessionClose (h : Inv c) (id : Nat) : Inv (c.sessionClose id).1 := by
  unfold Client.sessionClose
  split
  · exact ⟨(nomatch ·), fun _ => rfl⟩
  · exact h

theorem sessionRefClose (h : Inv c) : Inv c.sessionRefClose.1 := by
  unfold Client.sessionRefClose
  split
  · exact ⟨h.session_ref, h.socket⟩
  · exact h.sessionClose _

theorem socketClose (h : Inv c) : Inv c.socketClose.1 := by
  unfold Client.socketClose
  split
  · exact ⟨h.session_ref, h.socket⟩
  · next hs => exact ⟨h.session_ref, fun _ => h.socket (by rw [hs]; nofun)⟩

theorem connectFailed (h : Handling c) (calls : List Call) : Inv (c.connectFailed calls).1 := by
  have hafter := h.handle_message calls
  unfold Client.connectFailed
  dsimp only
  rw [if_neg (Bool.eq_false_iff.1 hafter.crashed)]
  unfold retry
  dsimp only
  split
  · exact ⟨hafter.session_ref, absurd rfl⟩
  · exact ⟨hafter.session_ref, absurd rfl⟩

theorem on_connet_complete (h : Inv c) (hcrashed : c.crashed = false) (err_code : Bool)
    (calls : List Call) : Inv (c.on_connet_complete err_code calls).1 := by
  unfold Client.on_connet_complete
  dsimp only
  split
  · next hs => exact ⟨h.session_ref, absurd hs⟩
  · next hs =>
    split
    · apply connectFailed
      exact ⟨h.session_ref, by rw [hs]; nofun, hcrashed⟩
    · exact ⟨fun _ => ⟨_, rfl, by simp⟩, absurd rfl⟩

theorem on_connect_timeout (h : Inv c) (err : Bool) : Inv (c.on_connect_timeout err).1 := by
  unfold Client.on_connect_timeout
  split
  · split
    · next hs => exact ⟨h.session_ref, fun _ => h.socket (by rw [hs]; nofun)⟩
    · exact h
  · exact h

theorem on_wait_reconnect (h : Inv c) (err : Bool) : Inv (c.on_wait_reconnect err).1 := by
  unfold Client.on_wait_reconnect
  dsimp only
  split
  · exact connect h.session_ref
  · exact ⟨h.session_ref, h.socket⟩

theorem do_connect (h : Inv c) (endpoint : Endpoint) : Inv (c.do_connect endpoint).1 := by
  unfold Client.do_connect
  have ha : Inv { c with m_auto_reconnect := true, m_endpoint := endpoint } :=
    ⟨h.session_ref, h.socket⟩
  dsimp only
  split
  · exact ha.sessionRefClose
  · split
    · exact ha.socketClose
    · apply Inv.connect
      split
      · exact h.session_ref
      · exact h.session_ref

theorem do_close_client (h : Inv c) : Inv c.do_close_client.1 := by
  unfold Client.do_close_client
  have ha : Inv { c with m_auto_reconnect := false } := ⟨h.session_ref, h.socket⟩
  dsimp only
  split
  · exact ⟨ha.sessionRefClose.session_ref, ha.sessionRefClose.socket⟩
  · split
    · exact ⟨ha.socketClose.session_ref, ha.socketClose.socket⟩
    · split
      · exact ⟨h.session_ref, h.socket⟩
      · exact ⟨h.session_ref, h.socket⟩

theorem step {e : Event} {c' : Client} {o : List Effect} (h : Inv c)
    (hs : step c e = some (c', o)) : Inv c' := by
  obtain ⟨hcrashed, ht⟩ := step_eq_some_iff.1 hs
  cases e with
  | do_connect endpoint =>
    have := h.do_connect endpoint
    rwa [ht] at this
  | do_close_client =>
    have := h.do_close_client
    rwa [ht] at this
  | session_close id =>
    have := h.sessionClose id
    rwa [ht.2] at this
  | on_connet_complete err_code calls =>
    have hc : Inv { c with connects := c.connects - 1 } := ⟨h.session_ref, h.socket⟩
    have := hc.on_connet_complete hcrashed err_code calls
    rwa [ht.2] at this
  | connect_timer_expires =>
    obtain ⟨t, -, ht⟩ := ht
    cases ht
    exact ⟨h.session_ref, h.socket⟩
  | on_connect_timeout err =>
    obtain ⟨t, -, ht⟩ := ht
    have hc : Inv { c with m_connect_timer := t } := ⟨h.session_ref, h.socket⟩
    have := hc.on_connect_timeout err
    rwa [ht] at this
  | reconnet_timer_expires =>
    obtain ⟨t, -, ht⟩ := ht
    cases ht
    exact ⟨h.session_ref, h.socket⟩
  | on_wait_reconnect err =>
    obtain ⟨t, -, ht⟩ := ht
    have hc : Inv { c with m_reconnet_timer := t } := ⟨h.session_ref, h.socket⟩
    have := hc.on_wait_reconnect err
    rwa [ht] at this

end Inv

theorem inv_of_run {tr : List (Step Client Event (List Effect))} {c : Client}
    (hr : Run step new tr c) : Inv c :=
  hr.state_invariant Inv.new Inv.step

end Client

end SparkFrame.Net
