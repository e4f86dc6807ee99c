import SparkFrame.Lib.Run
import SparkFrame.Net.Message
import SparkFrame.Net.MessageBuffer

/-!
# The receiving side of a session: `libserver/TcpSession`, `libserver/Session`

One session and everything that can happen to it: its posted handlers run, an outstanding read
completes, another part of the program closes it. The read loop is length prefix, header, body,
next prefix; each read is one `async_read` whose completion handler issues the next.

* `Env` : the platform, the generated header class and the message maker;
* `TcpSession` : the session with its outstanding read; `Effect` : what it does to the outside;
* `do_close`, `do_read_head_len`, `do_read_head`, `decode_header`, `do_read_body`, `make_msg`,
  `on_read_complete` : the member functions;
* `step` : the session taking one event, for `Lib.Run`.
-/

namespace SparkFrame.Net

/-- What a session is built on. `make_message` is the message maker's: the message class registered
for a type and a command, as its parser. -/
structure Env (M : Type) where
  big_endian : Bool
  ParseFromArray : Parser Header
  make_message : BitVec 32 → BitVec 32 → Option (Parser M)
  has_session_manager : Bool

/-- The body of a message. -/
inductive PbMessage (M : Type) where
  | SessionOpenRequest
  | SessionCloseRequest
  | message (m : M)

/-- The completion handlers of reads. -/
inductive ReadHandler where
  | on_read_head_len_complete
  | on_read_head_complete
  | on_read_complete
deriving DecidableEq, Repr

/-- `async_read` into `m_recv_msg_buf.buffer() + offset`. -/
structure AsyncRead where
  offset : Nat
  length : Nat
  handler : ReadHandler
deriving DecidableEq, Repr

/-- The handlers posted to the session's loop. -/
inductive Posted where
  | do_read_head_len
  | do_session_open
  | close_fun
  | do_check_alive
deriving DecidableEq, Repr

inductive Effect (M : Type) where
  | async_read (r : AsyncRead)
  | socket_close
  | close_session
  | handle_message (msg : Message (PbMessage M))
  | asyn_response_come (msg : Message (PbMessage M))

structure TcpSession where
  /-- `m_socket.is_open()` -/
  is_open : Bool
  m_recv_msg_buf : MsgBuffer
  /-- The header of `m_cur_msg`. -/
  m_cur_msg : Header
  /-- The outstanding read. -/
  reading : Option AsyncRead
  posted : List Posted
  started : Bool

namespace TcpSession

variable {M : Type}

def new (is_open : Bool) (memory : Memory) : TcpSession :=
  { is_open, m_recv_msg_buf := .new memory, m_cur_msg := .new, reading := none, posted := []
    started := false }

def async_read (offset length : Nat) (handler : ReadHandler) (s : TcpSession) :
    TcpSession × List (Effect M) :=
  ({ s with reading := some ⟨offset, length, handler⟩ }, [.async_read ⟨offset, length, handler⟩])

def handle_recv_message (msg : Message (PbMessage M)) : List (Effect M) :=
  if msg.header.type = REQUEST_TYPE then [.handle_message msg] else [.asyn_response_come msg]

def do_close (env : Env M) (s : TcpSession) : TcpSession × List (Effect M) :=
  if s.is_open then
    ({ s with is_open := false },
      [.socket_close] ++ (if env.has_session_manager then [.close_session] else []) ++
        handle_recv_message
          ⟨{ Header.new with cmdtype := CMD_SESSION_CLOSE, type := REQUEST_TYPE },
            .SessionCloseRequest⟩)
  else (s, [])

def do_session_open (s : TcpSession) : TcpSession × List (Effect M) :=
  (s, handle_recv_message
    ⟨{ Header.new with cmdtype := CMD_SESSION_OPEN, type := REQUEST_TYPE }, .SessionOpenRequest⟩)

/-! ## The read loop -/

def do_read_head_len (s : TcpSession) : TcpSession × List (Effect M) :=
  s.async_read 0 (toSize HEADER_LENGTH) .on_read_head_len_complete

def do_read_head (env : Env M) (s : TcpSession) : TcpSession × List (Effect M) :=
  let buf := s.m_recv_msg_buf.decode_header_length env.big_endian
  let s := { s with m_recv_msg_buf := buf }
  if buf.header_length > MSG_BUF_SIZE then s.do_close env
  else s.async_read buf.header_buffer (toSize buf.header_length) .on_read_head_complete

/-- `TcpSession::decode_header`. -/
def decode_header (env : Env M) (s : TcpSession) : TcpSession × Bool :=
  match s.m_recv_msg_buf.decode_header env.ParseFromArray Header.length with
  | (buf, none) => ({ s with m_recv_msg_buf := buf, m_cur_msg := .new }, false)
  | (buf, some header) =>
    let s := { s with m_recv_msg_buf := buf, m_cur_msg := header }
    if buf.buffer_length > MSG_BUF_SIZE then (s, false)
    else if header.check_result ^^^ header.check ≠ 0 then (s, false)
    else (s, true)

def do_read_body (env : Env M) (s : TcpSession) : TcpSession × List (Effect M) :=
  match s.decode_header env with
  | (s, false) => s.do_close env
  | (s, true) =>
    s.async_read s.m_recv_msg_buf.body_buffer (toSize s.m_recv_msg_buf.body_length)
      .on_read_complete

def make_msg (env : Env M) (s : TcpSession) : Option (Message (PbMessage M)) := do
  let parse ← env.make_message s.m_cur_msg.type s.m_cur_msg.cmdtype
  let m ← s.m_recv_msg_buf.decode_message parse
  return ⟨s.m_cur_msg, .message m⟩

def on_read_head_len_complete (env : Env M) (err_code : Bool) (s : TcpSession) :
    TcpSession × List (Effect M) :=
  if !err_code then s.do_read_head env else s.do_close env

def on_read_head_complete (env : Env M) (err_code : Bool) (s : TcpSession) :
    TcpSession × List (Effect M) :=
  if !err_code then s.do_read_body env else s.do_close env

def on_read_complete (env : Env M) (err_code : Bool) (s : TcpSession) :
    TcpSession × List (Effect M) :=
  match (if !err_code then s.make_msg env else none) with
  | some msg =>
    let (s', effects) := s.do_read_head_len
    (s', handle_recv_message msg ++ effects)
  | none => s.do_close env

/-! ## The session as a state machine -/

inductive Event where
  | start
  | close
  | check_alive
  /-- A posted handler runs; `alive` is what `is_alive()` answers if it asks. -/
  | run (handler : Posted) (alive : Bool)
  /-- The outstanding read completes with these bytes. -/
  | read_complete (err_code : Bool) (bytes : List TyByte)
  /-- A write fails or the send queue is full. -/
  | write_failed

/-- The bytes a read can complete with: all of them, or fewer with an error. -/
def AsyncRead.Completes (r : AsyncRead) (err_code : Bool) (bytes : List TyByte) : Prop :=
  if err_code then bytes.length ≤ r.length else bytes.length = r.length

instance (r : AsyncRead) (err_code : Bool) (bytes : List TyByte) :
    Decidable (AsyncRead.Completes r err_code bytes) :=
  inferInstanceAs (Decidable (if err_code then _ else _))

/-- The completion handler of a read. -/
def complete (env : Env M) (err_code : Bool) (s : TcpSession) :
    ReadHandler → TcpSession × List (Effect M)
  | .on_read_head_len_complete => s.on_read_head_len_complete env err_code
  | .on_read_head_complete => s.on_read_head_complete env err_code
  | .on_read_complete => s.on_read_complete env err_code

def runPosted (env : Env M) (alive : Bool) (s : TcpSession) :
    Posted → TcpSession × List (Effect M)
  | .do_read_head_len => s.do_read_head_len
  | .do_session_open => s.do_session_open
  | .close_fun => s.do_close env
  | .do_check_alive => if !alive then s.do_close env else (s, [])

/-- The session when a read has put `bytes` into its buffer. -/
def received (s : TcpSession) (r : AsyncRead) (bytes : List TyByte) : TcpSession :=
  { s with reading := none, m_recv_msg_buf := s.m_recv_msg_buf.receive r.offset bytes }

def step (env : Env M) (s : TcpSession) : Event → Option (TcpSession × List (Effect M))
  | .start =>
    if s.started then none
    else some ({ s with started := true, posted := s.posted ++ [.do_read_head_len, .do_session_open] },
      [])
  | .close => some ({ s with posted := s.posted ++ [.close_fun] }, [])
  | .check_alive => some ({ s with posted := s.posted ++ [.do_check_alive] }, [])
  | .run handler alive =>
    if handler ∈ s.posted then
      some (runPosted env alive { s with posted := s.posted.erase handler } handler)
    else none
  | .read_complete err_code bytes =>
    match s.reading with
    | none => none
    | some r =>
      if AsyncRead.Completes r err_code bytes then
        some ((s.received r bytes).complete env err_code r.handler)
      else none
  | .write_failed => some (s.do_close env)

end TcpSession

end SparkFrame.Net
