import Mathlib.Logic.Function.Basic
import SparkFrame.Lib.Run
import SparkFrame.Lib.SteadyTimer
import SparkFrame.Net.Message

/-!
# Requests that wait for a response: `libserver/AsyncRequest`, `libserver/Session`

A session numbers its requests and remembers each one with a callback and a timer. The callback is
posted when a response with the request's number comes in or when the timer runs out; the item is
removed only by the timer's handler.

* `AsynItem` : a registered request; `AsyncRequest` : the items, the timers and the counter;
* `set_msg_sequenceid`, `send_request`, `do_send_asyn_message`, `on_response_come`,
  `on_response_timeout` : the member functions;
* `step` : one event; `step_eq_some_iff` : what each event does.
-/

namespace SparkFrame.Net

open SparkFrame.Lib

/-- `ErrorCode::CODE_WAIT_RESP_TIMEOUT`. -/
def CODE_WAIT_RESP_TIMEOUT : BitVec 32 := 3

/-- `AsynItem`, with loops `L`, callbacks `F` and message bodies `P`. -/
structure AsynItem (L F P : Type) where
  m_sequnce_id : BitVec 64
  m_io_loop : Option L
  m_request : Message P
  m_fun : F
  /-- Which timer it is. Every registered request has its own. -/
  m_timer : Nat

structure AsyncRequest (L F P : Type) where
  /-- `Session::m_sequenceid`. -/
  m_sequenceid : BitVec 64
  m_items : BitVec 64 → Option (AsynItem L F P)
  timers : Nat → SteadyTimer
  /-- The `sequnceid` bound into the handler of each timer. -/
  bound : Nat → BitVec 64
  /-- How many timers there have been. -/
  created : Nat
  /-- An assertion failed. -/
  asserted : Bool

namespace AsyncRequest

variable {L F P : Type}

inductive Effect (L F P : Type) where
  | do_write (msg : Message P)
  /-- The item's callback is posted to its loop with its request and a response. -/
  | post (item : AsynItem L F P) (response : Message P)
  | assert_failed

inductive Event (L F P : Type) where
  | do_send_message (msg : Message P)
  | do_send_asyn_message (msg : Message P) (callback : F) (io_loop : Option L)
  | on_response_come (response : Message P)
  | timer_expires (timer : Nat)
  /-- The handler of a timer runs. -/
  | on_response_timeout (timer : Nat) (err_code : Bool)

def new : AsyncRequest L F P :=
  { m_sequenceid := 0, m_items := fun _ => none, timers := fun _ => .idle, bound := fun _ => 0
    created := 0, asserted := false }

/-! ## Member functions -/

/-- `Session::set_msg_sequenceid`. -/
def set_msg_sequenceid (msg : Message P) (s : AsyncRequest L F P) :
    Message P × AsyncRequest L F P :=
  let type := if msg.header.type = 0 then REQUEST_TYPE else msg.header.type
  ({ msg with header := { msg.header with type, sequenceid := s.m_sequenceid } },
    { s with m_sequenceid := s.m_sequenceid + 1 })

/-- `send_request`, with the constructor of `AsynItem`, which starts the timer. -/
def send_request (io_loop : Option L) (request : Message P) (callback : F)
    (s : AsyncRequest L F P) : AsyncRequest L F P :=
  match s.m_items request.header.sequenceid with
  | some _ => s
  | none =>
    { s with
      m_items := Function.update s.m_items request.header.sequenceid
        (some ⟨request.header.sequenceid, io_loop, request, callback, s.created⟩)
      timers := Function.update s.timers s.created SteadyTimer.idle.start
      bound := Function.update s.bound s.created request.header.sequenceid
      created := s.created + 1 }

/-- `Session::do_send_asyn_message`. -/
def do_send_asyn_message (msg : Message P) (callback : F) (io_loop : Option L)
    (s : AsyncRequest L F P) : AsyncRequest L F P × List (Effect L F P) :=
  let msg := { msg with header := { msg.header with type := REQUEST_TYPE } }
  let (msg, s) := s.set_msg_sequenceid msg
  (s.send_request io_loop msg callback, [.do_write msg])

/-- `Session::do_send_message`. -/
def do_send_message (msg : Message P) (s : AsyncRequest L F P) :
    AsyncRequest L F P × List (Effect L F P) :=
  let (msg, s) := s.set_msg_sequenceid msg
  (s, [.do_write msg])

def on_response_come (response : Message P) (s : AsyncRequest L F P) :
    AsyncRequest L F P × List (Effect L F P) :=
  match s.m_items response.header.sequenceid with
  | none => (s, [])
  | some item =>
    ({ s with timers := Function.update s.timers item.m_timer (s.timers item.m_timer).cancel },
      [.post item response])

/-- `Session::make_response`: a fresh header and the body the message maker has for the command. -/
def make_response (make_message : BitVec 32 → BitVec 32 → P) (cmd_type : BitVec 32) : Message P :=
  ⟨.new, make_message RESPONSE_TYPE cmd_type⟩

def on_response_timeout (make_message : BitVec 32 → BitVec 32 → P) (err_code : Bool)
    (sequnceid : BitVec 64) (s : AsyncRequest L F P) : AsyncRequest L F P × List (Effect L F P) :=
  match s.m_items sequnceid with
  | none => ({ s with asserted := true }, [.assert_failed])
  | some item =>
    let response := make_response make_message item.m_request.header.cmdtype
    let response := { response with
      header := { response.header with response_result := CODE_WAIT_RESP_TIMEOUT, sequenceid := sequnceid } }
    ({ s with m_items := Function.update s.m_items sequnceid none },
      if !err_code then [.post item response] else [])

/-! ## As a state machine -/

def step (make_message : BitVec 32 → BitVec 32 → P) (s : AsyncRequest L F P)
    (e : Event L F P) : Option (AsyncRequest L F P × List (Effect L F P)) :=
  if s.asserted then none
  else match e with
    | .do_send_message msg => some (s.do_send_message msg)
    | .do_send_asyn_message msg callback io_loop =>
      some (s.do_send_asyn_message msg callback io_loop)
    | .on_response_come response => some (s.on_response_come response)
    | .timer_expires timer =>
      (s.timers timer).expire.map fun t =>
        ({ s with timers := Function.update s.timers timer t }, [])
    | .on_response_timeout timer err_code =>
      ((s.timers timer).take err_code).map fun t =>
        { s with timers := Function.update s.timers timer t }.on_response_timeout make_message
          err_code (s.bound timer)

/-- What an accepted event does, one case per event. -/
def Takes (make_message : BitVec 32 → BitVec 32 → P) (s : AsyncRequest L F P)
    (p : AsyncRequest L F P × List (Effect L F P)) : Event L F P → Prop
  | .do_send_message msg => s.do_send_message msg = p
  | .do_send_asyn_message msg callback io_loop => s.do_send_asyn_message msg callback io_loop = p
  | .on_response_come response => s.on_response_come response = p
  | .timer_expires timer =>
    ∃ t, (s.timers timer).expire = some t ∧
      ({ s with timers := Function.update s.timers timer t }, []) = p
  | .on_response_timeout timer err_code =>
    ∃ t, (s.timers timer).take err_code = some t ∧
      { s with timers := Function.update s.timers timer t }.on_response_timeout make_message
        err_code (s.bound timer) = p

theorem step_eq_some_iff {make_message : BitVec 32 → BitVec 32 → P} {s : AsyncRequest L F P}
    {e : Event L F P} {p : AsyncRequest L F P × List (Effect L F P)} :
    step make_message s e = some p ↔ s.asserted = false ∧ Takes make_message s p e := by
  unfold step
  by_cases hs : s.asserted = true
  · simp [hs]
  · rw [if_neg hs, and_iff_right (Bool.eq_false_iff.2 hs)]
    cases e <;> simp only [Takes, Option.map_eq_some_iff, Option.some.injEq]

end AsyncRequest

end SparkFrame.Net
