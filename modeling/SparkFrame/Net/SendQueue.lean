import SparkFrame.Lib.Run
import SparkFrame.Net.Encode

/-!
# The sending side of a session: `libserver/TcpSession`, `libmessage/MessageQueue`

The head of the queue stays there while it is being written, and its emptiness is what tells
`do_write` whether a write is outstanding. A write reads `m_send_msg_buf` until it completes.

* `MessageQueue` : `push`, `pop`, `front`;
* `TcpWriter` : the socket, the queue, the buffer and the writes that are outstanding;
* `do_write`, `on_write_complete`, `do_close` : the member functions;
* `do_write_started`, `do_write_queued`, `do_write_refused`, `on_write_complete_eq` : the ways through
  them;
* `step` : the session taking one event, for `Lib.Run`.
-/

namespace SparkFrame.Net

/-! ## The queue -/

/-- `MessageQueue`, a circular buffer of growing capacity. -/
structure MessageQueue (α : Type) where
  capacity : Nat
  messages : List α
deriving DecidableEq, Repr

namespace MessageQueue

variable {α : Type}

def INIT_SIZE : Nat := 0x100

def MAX_SIZE : Nat := 100000

def new : MessageQueue α := ⟨INIT_SIZE, []⟩

def is_empty (q : MessageQueue α) : Bool := q.messages.isEmpty

/-- `push`: the queue afterwards and the result. -/
def push (msg : α) (q : MessageQueue α) : MessageQueue α × Bool :=
  let all_size := q.messages.length
  if all_size = q.capacity then
    if MAX_SIZE < all_size then (q, false)
    else (⟨all_size + all_size, q.messages ++ [msg]⟩, true)
  else ({ q with messages := q.messages ++ [msg] }, true)

def front (q : MessageQueue α) : Option α := q.messages.head?

def pop (q : MessageQueue α) : MessageQueue α := { q with messages := q.messages.tail }

theorem push_cases (msg : α) (q : MessageQueue α) :
    (∃ capacity, q.push msg = (⟨capacity, q.messages ++ [msg]⟩, true)) ∨
      q.push msg = (q, false) := by
  simp only [push]
  split
  · split
    · exact .inr rfl
    · exact .inl ⟨_, rfl⟩
  · exact .inl ⟨_, rfl⟩

end MessageQueue

/-! ## The session -/

/-- An outstanding `async_write`: the message encoded for it and the bytes it was given. -/
structure AsyncWrite (M : Type) where
  msg : Message M
  bytes : List TyByte

/-- `async_write(buffer(), buffer_length())`, after `msg` has been encoded into the buffer. -/
def AsyncWrite.of {M : Type} (msg : Message M) (buf : MsgBuffer) : AsyncWrite M :=
  ⟨msg, buf.m_buffer.read 0 (toSize buf.buffer_length)⟩

structure TcpWriter (M : Type) where
  /-- `m_socket.is_open()` -/
  is_open : Bool
  m_send_queue : MessageQueue (Message M)
  m_send_msg_buf : MsgBuffer
  writing : List (AsyncWrite M)

namespace TcpWriter

variable {M : Type}

inductive Effect (M : Type) where
  /-- `encode` with what it has written and its result. -/
  | encode (msg : Message M) (spans : List Span) (ok : Bool)
  | async_write (w : AsyncWrite M)
  | socket_close
  /-- `front()` of an empty queue is used. -/
  | null_dereference

inductive Event (M : Type) where
  | do_write (msg : Message M)
  /-- The outstanding write with this index completes. -/
  | write_complete (index : Nat) (err_code : Bool)
  /-- Another part of the session closes it. -/
  | do_close

def new (memory : Memory) : TcpWriter M :=
  { is_open := true, m_send_queue := .new, m_send_msg_buf := .new memory, writing := [] }

def do_close (s : TcpWriter M) : TcpWriter M × List (Effect M) :=
  if s.is_open then ({ s with is_open := false }, [.socket_close]) else (s, [])

/-- `encode(*msg)` and the `async_write` after it, which the result of `encode` does not keep back. -/
def start_write (wire : Wire M) (msg : Message M) (s : TcpWriter M) :
    TcpWriter M × List (Effect M) :=
  let (buf, spans, ok) := TcpSession.encode wire msg s.m_send_msg_buf
  ({ s with m_send_msg_buf := buf, writing := s.writing ++ [.of msg buf] },
    [.encode msg spans ok, .async_write (.of msg buf)])

def do_write (wire : Wire M) (msg : Message M) (s : TcpWriter M) :
    TcpWriter M × List (Effect M) :=
  let is_in_write := !s.m_send_queue.is_empty
  match s.m_send_queue.push msg with
  | (_, false) => s.do_close
  | (queue, true) =>
    let s := { s with m_send_queue := queue }
    if !is_in_write then
      if !s.is_open then (s, []) else s.start_write wire msg
    else (s, [])

def on_write_complete (wire : Wire M) (err_code : Bool) (s : TcpWriter M) :
    TcpWriter M × List (Effect M) :=
  if !err_code then
    match s.m_send_queue.front with
    | none => (s, [.null_dereference])
    | some _ =>
      let s := { s with m_send_queue := s.m_send_queue.pop }
      match s.m_send_queue.front with
      | none => (s, [])
      | some msg => if !s.is_open then (s, []) else s.start_write wire msg
  else s.do_close

/-! ## One call at a time -/

variable {wire : Wire M}

theorem do_write_started {s : TcpWriter M} {msg : Message M} {capacity : Nat}
    (hp : s.m_send_queue.push msg = (⟨capacity, s.m_send_queue.messages ++ [msg]⟩, true))
    (hq : s.m_send_queue.messages = []) (hopen : s.is_open = true) :
    s.do_write wire msg =
      start_write wire msg { s with m_send_queue := ⟨capacity, s.m_send_queue.messages ++ [msg]⟩ } := by
  simp only [do_write, hp, MessageQueue.is_empty, hq]
  simp [hopen]

theorem do_write_queued {s : TcpWriter M} {msg : Message M} {capacity : Nat}
    (hp : s.m_send_queue.push msg = (⟨capacity, s.m_send_queue.messages ++ [msg]⟩, true))
    (hq : s.m_send_queue.messages ≠ [] ∨ s.is_open = false) :
    s.do_write wire msg =
      ({ s with m_send_queue := ⟨capacity, s.m_send_queue.messages ++ [msg]⟩ }, []) := by
  simp only [do_write, hp, MessageQueue.is_empty]
  by_cases hm : s.m_send_queue.messages = []
  · simp [hm, hq.resolve_left (not_not_intro hm)]
  · simp [hm]

theorem do_write_refused {s : TcpWriter M} {msg : Message M}
    (hp : s.m_send_queue.push msg = (s.m_send_queue, false)) : s.do_write wire msg = s.do_close := by
  simp only [do_write, hp]

/-- A write completes: the next message is started, if there is one and the socket is open. -/
theorem on_write_complete_eq {s : TcpWriter M} {msg : Message M} {rest : List (Message M)}
    (hq : s.m_send_queue.messages = msg :: rest) :
    s.on_write_complete wire false =
      match rest.head? with
      | some next =>
        if s.is_open then start_write wire next { s with m_send_queue := s.m_send_queue.pop }
        else ({ s with m_send_queue := s.m_send_queue.pop }, [])
      | none => ({ s with m_send_queue := s.m_send_queue.pop }, []) := by
  have hfront : s.m_send_queue.front = some msg := by rw [MessageQueue.front, hq]; rfl
  have hpop : s.m_send_queue.pop.front = rest.head? := by
    rw [MessageQueue.front, MessageQueue.pop, hq]
    rfl
  simp only [on_write_complete, hfront, hpop]
  cases rest.head? with
  | none => rfl
  | some next => cases s.is_open <;> rfl

/-! ## The session as a state machine -/

/-- The writes that are outstanding while the handler of an event runs. -/
def outstanding (s : TcpWriter M) : Event M → List (AsyncWrite M)
  | .write_complete index _ => s.writing.eraseIdx index
  | _ => s.writing

def step (wire : Wire M) (s : TcpWriter M) : Event M → Option (TcpWriter M × List (Effect M))
  | .do_write msg => some (s.do_write wire msg)
  | .write_complete index err_code =>
    if index < s.writing.length then
      some ({ s with writing := s.writing.eraseIdx index }.on_write_complete wire err_code)
    else none
  | .do_close => some s.do_close

end TcpWriter

end SparkFrame.Net
