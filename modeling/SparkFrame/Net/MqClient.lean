import SparkFrame.Lib.Run
import SparkFrame.Lib.SteadyTimer
import SparkFrame.Net.MqInfo

/-!
# The link to the message queue: `libserver/MqClient`

A client keeps one session, and the session makes a handler, a connection and a channel for each
attempt to reach the server. All of it runs on one loop, on which `post` calls at once.

* `MqHandler`, `LinkEvent` : what is known about a connection;
* `TcpChannel`, `Declare` : a channel, with what has been asked of it;
* `Session` : the part of `MqSession` that keeps the link; `init`, `binding_exchange`,
  `bind_one_exchange`, `channel_ready_call`, `queue_success_call`, `exchange_success_call`, `do_close`;
* `MqClient` : `do_connect`, `connect_mq`, `do_close_client`, `do_bind`, `on_timeout`;
* `step` : the client taking one event; `Moves`, `moves_of_step` : what it can do;
* `attempted` : the steps that start an attempt.
-/

namespace SparkFrame.Net

open SparkFrame.Lib SparkFrame.Tools

/-! ## Handlers -/

/-- What a handler is told about its connection. -/
inductive LinkEvent where
  | onConnected
  | onError
  | onClosed
deriving DecidableEq, Repr

structure MqHandler where
  m_is_connected : Bool
deriving DecidableEq, Repr

namespace MqHandler

def new : MqHandler := ⟨false⟩

def close_mq (h : MqHandler) : MqHandler := { h with m_is_connected := false }

def onClosed (h : MqHandler) : MqHandler := h.close_mq

def onError (h : MqHandler) : MqHandler := h.close_mq

def onConnected (h : MqHandler) : MqHandler := h.close_mq

def on : LinkEvent → MqHandler → MqHandler
  | .onConnected, h => h.onConnected
  | .onError, h => h.onError
  | .onClosed, h => h.onClosed

@[simp] theorem m_is_connected_on (e : LinkEvent) (h : MqHandler) : (h.on e).m_is_connected = false := by
  cases e <;> rfl

end MqHandler

/-! ## Channels -/

/-- A declaration made with callbacks. -/
inductive Declare where
  | queue
  | exchange (name : Bytes) (type : Int)
deriving DecidableEq, Repr

/-- `AMQP::TcpChannel`: what has been asked of it and what has come back. -/
structure TcpChannel where
  /-- The ready callback has run. -/
  ready : Bool
  /-- The declarations whose callbacks have not run. -/
  declares : List Declare
  /-- A declaration has failed. -/
  failed : Bool
  /-- The connection was closed from this side. -/
  closed : Bool
  /-- The calls of `bindQueue`: exchange, queue and routing key. -/
  bound : List (Bytes × Bytes × Bytes)
deriving DecidableEq, Repr

namespace TcpChannel

def new : TcpChannel := ⟨false, [], false, false, []⟩

def declare (ds : List Declare) (ch : TcpChannel) : TcpChannel :=
  { ch with declares := ch.declares ++ ds }

def bindQueues (bs : List (Bytes × Bytes × Bytes)) (ch : TcpChannel) : TcpChannel :=
  { ch with bound := ch.bound ++ bs }

/-- A declaration comes back. -/
def answer (d : Declare) (ch : TcpChannel) : TcpChannel :=
  { ch with declares := ch.declares.erase d }

/-- The channel has become ready and all declare callbacks have succeeded. -/
structure Settled (ch : TcpChannel) : Prop where
  ready : ch.ready = true
  open_ : ch.closed = false
  declares : ch.declares = []
  failed : ch.failed = false

instance (ch : TcpChannel) : Decidable ch.Settled :=
  decidable_of_iff (ch.ready = true ∧ ch.closed = false ∧ ch.declares = [] ∧ ch.failed = false)
    ⟨fun ⟨hready, hopen, hdeclares, hfailed⟩ => ⟨hready, hopen, hdeclares, hfailed⟩,
      fun h => ⟨h.ready, h.open_, h.declares, h.failed⟩⟩

end TcpChannel

/-! ## Sessions -/

namespace MqClient

inductive Effect where
  /-- A new `AMQP::TcpConnection`. -/
  | tcp_connection (ip : Bytes) (port : Int) (login : Login) (work_dir : Bytes)
  | consume (queue : Bytes)
  | session_open
  | session_close
deriving DecidableEq, Repr

/-- What an `MqSession` knows of its link. -/
structure Session where
  m_mq_info : MqInfo
  m_mq_handler : Option MqHandler
  m_channel : Option TcpChannel
  m_is_session_opend : Bool
deriving DecidableEq

namespace Session

def new (mq_config : MqInfo) : Session :=
  { m_mq_info := mq_config, m_mq_handler := none, m_channel := none, m_is_session_opend := false }

def is_connected (s : Session) : Bool :=
  match s.m_mq_handler with
  | none => false
  | some h => h.m_is_connected

/-- A call on `m_channel`. -/
def onChannel (f : TcpChannel → TcpChannel) (s : Session) : Session :=
  { s with m_channel := s.m_channel.map f }

def init (s : Session) : Session × List Effect :=
  ({ s with m_mq_handler := some .new, m_channel := some .new },
    [.tcp_connection s.m_mq_info.m_ip s.m_mq_info.m_port s.m_mq_info.m_login s.m_mq_info.m_work_dir])

/-- The exchanges are declared one by one, in the order of the map. -/
def binding_exchange (s : Session) : Session :=
  s.onChannel (.declare (s.m_mq_info.m_exchanges.entries.map fun e => .exchange e.1 e.2))

def bind_one_exchange (exchange_name : Bytes) (exchange_type : Int) (rout_key : Bytes)
    (s : Session) : Session :=
  let s := { s with m_mq_info := s.m_mq_info.insert_bind ⟨exchange_name, exchange_type, [rout_key]⟩ }
  if !s.m_is_session_opend then s
  -- the exchange is declared too, without callbacks
  else s.onChannel (.bindQueues [(exchange_name, s.m_mq_info.m_queue, rout_key)])

def channel_ready_call (s : Session) : Session × List Effect :=
  let s := s.onChannel fun ch => { ch.declare [.queue] with ready := true }
  ({ s.binding_exchange with m_is_session_opend := true }, [.session_open])

def queue_success_call (s : Session) : Session × List Effect :=
  (s.binding_exchange, [.consume s.m_mq_info.m_queue])

def exchange_success_call (exchange_name : Bytes) (s : Session) : Session :=
  match s.m_mq_info.m_binds.lookup exchange_name with
  | none => s
  | some routkeys =>
    s.onChannel (.bindQueues (routkeys.map fun e => (exchange_name, s.m_mq_info.m_queue, e)))

/-- The callback of a declaration that has succeeded. -/
def declare_success : Declare → Session → Session × List Effect
  | .queue, s => s.queue_success_call
  | .exchange name _, s => (s.exchange_success_call name, [])

/-- `queue_error_call` and the error callback of an exchange, which write to the log. -/
def declare_error (s : Session) : Session := s.onChannel fun ch => { ch with failed := true }

def do_close (s : Session) : Session × List Effect :=
  if !s.m_is_session_opend then (s, [])
  else
    let s := s.onChannel fun ch => { ch with closed := true }
    ({ s with m_is_session_opend := false, m_mq_handler := none }, [.session_close])

/-! ### What the calls leave alone -/

variable {s : Session}

@[simp] theorem m_mq_handler_onChannel (f : TcpChannel → TcpChannel) :
    (s.onChannel f).m_mq_handler = s.m_mq_handler := rfl

@[simp] theorem m_mq_info_onChannel (f : TcpChannel → TcpChannel) :
    (s.onChannel f).m_mq_info = s.m_mq_info := rfl

@[simp] theorem m_is_session_opend_onChannel (f : TcpChannel → TcpChannel) :
    (s.onChannel f).m_is_session_opend = s.m_is_session_opend := rfl

theorem onChannel_onChannel (f g : TcpChannel → TcpChannel) :
    (s.onChannel f).onChannel g = s.onChannel (g ∘ f) := by
  simp only [onChannel, Option.map_map]

@[simp] theorem m_mq_handler_bind_one_exchange (exchange_name : Bytes) (exchange_type : Int)
    (rout_key : Bytes) :
    (s.bind_one_exchange exchange_name exchange_type rout_key).m_mq_handler = s.m_mq_handler := by
  unfold bind_one_exchange
  dsimp only
  split <;> rfl

theorem m_mq_handler_declare_success (d : Declare) :
    (s.declare_success d).1.m_mq_handler = s.m_mq_handler := by
  cases d with
  | queue => rfl
  | exchange name type =>
    simp only [declare_success, exchange_success_call]
    split <;> rfl

/-- Without a handler that says so there is no connection. -/
theorem is_connected_eq_false (h : ∀ h, s.m_mq_handler = some h → h.m_is_connected = false) :
    s.is_connected = false := by
  rw [is_connected]
  split
  · rfl
  · next handler heq => exact h handler heq

end Session

end MqClient

/-! ## Clients -/

structure MqClient where
  m_mq_info : MqInfo
  m_session : MqClient.Session
  m_timer : SteadyTimer
  m_auto_reconnect : Bool
  m_is_connecting : Bool
deriving DecidableEq

namespace MqClient

inductive Event where
  | do_connect
  | do_close_client
  | do_bind (exchange_name : Bytes) (exchange_type : Int) (rout_key : Bytes)
  /-- `Session::close` of the session, by anybody who has it. -/
  | close
  | link (e : LinkEvent)
  | channel_ready
  | declare_success (d : Declare)
  | declare_error (d : Declare)
  | timer_expires
  | on_timeout (err : Bool)
deriving DecidableEq, Repr

def new (mq_info : MqInfo) : MqClient :=
  { m_mq_info := mq_info, m_session := .new mq_info, m_timer := .idle
    m_auto_reconnect := false, m_is_connecting := false }

def register_timer (c : MqClient) : MqClient := { c with m_timer := c.m_timer.start }

def connect_mq (c : MqClient) : MqClient × List Effect :=
  let r := c.m_session.init
  ({ c with m_is_connecting := true, m_session := r.1 }, r.2)

def do_connect (c : MqClient) : MqClient × List Effect :=
  if c.m_session.is_connected then (c, [])
  else
    let r := { c with m_auto_reconnect := true }.connect_mq
    (r.1.register_timer, r.2)

def close_session (c : MqClient) : MqClient × List Effect :=
  if c.m_session.is_connected then
    let r := c.m_session.do_close
    ({ c with m_session := r.1 }, r.2)
  else (c, [])

def do_close_client (c : MqClient) : MqClient × List Effect :=
  let r := { c with m_auto_reconnect := false, m_is_connecting := false }.close_session
  ({ r.1 with m_timer := r.1.m_timer.cancel }, r.2)

def do_bind (exchange_name : Bytes) (exchange_type : Int) (rout_key : Bytes) (c : MqClient) :
    MqClient :=
  { c with
    m_mq_info := c.m_mq_info.insert_bind ⟨exchange_name, exchange_type, [rout_key]⟩
    m_session := c.m_session.bind_one_exchange exchange_name exchange_type rout_key }

/-- What a tick of the timer does before the timer is registered again. -/
def tick (c : MqClient) : MqClient × List Effect :=
  if c.m_is_connecting then
    (if c.m_session.is_connected then { c with m_is_connecting := false } else c, [])
  else
    let closed := if !c.m_session.is_connected then c.close_session else (c, [])
    let r := if closed.1.m_auto_reconnect && !closed.1.m_session.is_connected then
      closed.1.connect_mq else (closed.1, [])
    (r.1, closed.2 ++ r.2)

def on_timeout (err : Bool) (c : MqClient) : MqClient × List Effect :=
  if err then (c, [])
  else
    let r := c.tick
    (r.1.register_timer, r.2)

/-! ## The client as a state machine -/

/-- The session takes a step of its own. -/
def ofSession (c : MqClient) (r : Session × List Effect) : MqClient × List Effect :=
  ({ c with m_session := r.1 }, r.2)

def step (c : MqClient) : Event → Option (MqClient × List Effect)
  | .do_connect => some c.do_connect
  | .do_close_client => some c.do_close_client
  | .do_bind exchange_name exchange_type rout_key =>
    some (c.do_bind exchange_name exchange_type rout_key, [])
  | .close => some (c.ofSession c.m_session.do_close)
  | .link e => c.m_session.m_mq_handler.map fun h =>
      c.ofSession ({ c.m_session with m_mq_handler := some (h.on e) }, [])
  | .channel_ready =>
    if c.m_session.m_channel.any (!·.ready) then some (c.ofSession c.m_session.channel_ready_call)
    else none
  | .declare_success d =>
    if c.m_session.m_channel.any fun ch => d ∈ ch.declares then
      some (c.ofSession ((c.m_session.onChannel (.answer d)).declare_success d))
    else none
  | .declare_error d =>
    if c.m_session.m_channel.any fun ch => d ∈ ch.declares then
      some (c.ofSession ((c.m_session.onChannel (.answer d)).declare_error, []))
    else none
  | .timer_expires => c.m_timer.expire.map fun t => ({ c with m_timer := t }, [])
  | .on_timeout err => (c.m_timer.take err).map fun t => { c with m_timer := t }.on_timeout err

/-- What an event does, one case for each that is accepted. -/
inductive Moves (c : MqClient) : Event → MqClient × List Effect → Prop where
  | do_connect : Moves c .do_connect c.do_connect
  | do_close_client : Moves c .do_close_client c.do_close_client
  | do_bind (exchange_name : Bytes) (exchange_type : Int) (rout_key : Bytes) :
      Moves c (.do_bind exchange_name exchange_type rout_key)
        (c.do_bind exchange_name exchange_type rout_key, [])
  | close : Moves c .close (c.ofSession c.m_session.do_close)
  | link (e : LinkEvent) (h : MqHandler) : c.m_session.m_mq_handler = some h →
      Moves c (.link e) (c.ofSession ({ c.m_session with m_mq_handler := some (h.on e) }, []))
  | channel_ready : Moves c .channel_ready (c.ofSession c.m_session.channel_ready_call)
  | declare_success (d : Declare) :
      Moves c (.declare_success d)
        (c.ofSession ((c.m_session.onChannel (.answer d)).declare_success d))
  | declare_error (d : Declare) :
      Moves c (.declare_error d)
        (c.ofSession ((c.m_session.onChannel (.answer d)).declare_error, []))
  | timer_expires (t : SteadyTimer) : Moves c .timer_expires ({ c with m_timer := t }, [])
  | on_timeout (err : Bool) (t : SteadyTimer) :
      Moves c (.on_timeout err) ({ c with m_timer := t }.on_timeout err)

theorem moves_of_step {c : MqClient} {e : Event} {p : MqClient × List Effect}
    (hs : step c e = some p) : Moves c e p := by
  cases e with
  | do_connect =>
    rw [← Option.some.inj hs]
    exact .do_connect
  | do_close_client =>
    rw [← Option.some.inj hs]
    exact .do_close_client
  | do_bind exchange_name exchange_type rout_key =>
    rw [← Option.some.inj hs]
    exact .do_bind ..
  | close =>
    rw [← Option.some.inj hs]
    exact .close
  | link l =>
    obtain ⟨handler, hhandler, rfl⟩ := Option.map_eq_some_iff.1 hs
    exact .link l handler hhandler
  | channel_ready =>
    obtain ⟨-, hs⟩ := Option.ite_none_right_eq_some.1 hs
    rw [← Option.some.inj hs]
    exact .channel_ready
  | declare_success d =>
    obtain ⟨-, hs⟩ := Option.ite_none_right_eq_some.1 hs
    rw [← Option.some.inj hs]
    exact .declare_success d
  | declare_error d =>
    obtain ⟨-, hs⟩ := Option.ite_none_right_eq_some.1 hs
    rw [← Option.some.inj hs]
    exact .declare_error d
  | timer_expires =>
    obtain ⟨t, -, rfl⟩ := Option.map_eq_some_iff.1 hs
    exact .timer_expires t
  | on_timeout err =>
    obtain ⟨t, -, rfl⟩ := Option.map_eq_some_iff.1 hs
    exact .on_timeout err t

/-- A new connection. -/
def connects : Effect → Bool
  | .tcp_connection .. => true
  | _ => false

/-- The step starts an attempt to connect. -/
def attempted (x : Step MqClient Event (List Effect)) : Bool := x.out.any connects

end MqClient

end SparkFrame.Net
