import SparkFrame.Net.AsyncRequest
import SparkFrame.Server.PlayerManager
import SparkFrame.Tools.Json

/-!
# Messages that the lobby passes on: `LobbyServer/LobbyModule`

The lobby handles token logins itself. Every other message goes to the server that a route names, over
the message queue, and what comes back goes to the client.

* `NormalRout`, `HashRout`, `RoomRout`, `MsgRout` : the routes; `parse_route_config` : where they are from;
* `dispatch_app_msg` : what becomes of a message;
* `send_response`, `send_failed_reason` : the answers to a message;
* `Lobby`, `step` : the players, the requests on the message queue, and what the two loops still have to do;
* `parse_route_config_total_iff`, `parse_route_config_refuses` : **which configurations make routes for
  every user**, and which are refused;
* `get_ex_route_hash_iff` : **users are spread by the remainder**.
-/

namespace SparkFrame.Server

open SparkFrame.Lib SparkFrame.Net SparkFrame.Tools

/-! ## Routes -/

/-- `atoi`, which reads a `long` and cuts it down. -/
def atoi (s : Bytes) : Int := ((atoll s).setWidth 32).toInt

/-- What a route runs into: a function that has not been set, or a division. -/
inductive RouteFault where
  | bad_function_call
  | division
deriving DecidableEq, Repr

/-- Two numbers of type `int` can be divided. -/
def divisible (a b : Int) : Bool := b ≠ 0 && !(a = -2 ^ 31 && b = -1)

/-- `m_route + "-" + std::to_string(route_begin)` -/
def route_key (route : Bytes) (route_begin : Int) : Bytes := route ++ bytes "-" ++ to_string route_begin

structure NormalRout where
  m_exchange : Bytes
  m_route : Bytes

def NormalRout.call (r : NormalRout) (_user_id : Int) : Except RouteFault (Bytes × Bytes) :=
  .ok (r.m_exchange, r.m_route)

structure HashRout where
  m_total_cuont : Int
  m_exchange : Bytes
  m_route : Bytes

def HashRout.call (r : HashRout) (user_id : Int) : Except RouteFault (Bytes × Bytes) :=
  if divisible user_id r.m_total_cuont then
    .ok (r.m_exchange, route_key r.m_route (user_id.tmod r.m_total_cuont))
  else .error .division

structure RoomRout where
  m_room_id_begin : Int
  m_room_count_per_svr : Int
  m_exchange : Bytes
  m_route : Bytes

/-- The room is always the same. -/
def RoomRout.call (r : RoomRout) (_user_id : Int) : Except RouteFault (Bytes × Bytes) :=
  let room_id := 1000
  if divisible room_id r.m_room_count_per_svr then
    .ok (r.m_exchange, route_key r.m_route (room_id.tdiv r.m_room_count_per_svr))
  else .error .division

/-- `m_route_fun` -/
inductive RouteFun where
  | unset
  | normal (r : NormalRout)
  | hash (r : HashRout)
  | room (r : RoomRout)

structure MsgRout where
  m_cmd_begin : Int
  m_cmd_end : Int
  m_route_fun : RouteFun

def MsgRout.is_cmd_match (r : MsgRout) (msg_cmd : Int) : Bool :=
  r.m_cmd_begin ≤ msg_cmd && msg_cmd < r.m_cmd_end

def MsgRout.get_ex_route (r : MsgRout) (user_id : Int) : Except RouteFault (Bytes × Bytes) :=
  match r.m_route_fun with
  | .unset => .error .bad_function_call
  | .normal f => f.call user_id
  | .hash f => f.call user_id
  | .room f => f.call user_id

/-! ## The configuration -/

/-- `jv[key].get<std::string>()` -/
def stringMember (key : Bytes) (jv : Json) : Except JsonError Bytes := do
  (← jv.member key).get_string

def HashRout.make (hash_json : Json) (exch route : Bytes) : Except JsonError HashRout := do
  let total_count ← stringMember (bytes "total_count") hash_json
  return ⟨atoi total_count, exch, route⟩

def RoomRout.make (room_json : Json) (exch route : Bytes) : Except JsonError RoomRout := do
  let room_begin ← stringMember (bytes "room_begin") room_json
  let count_per_svr ← stringMember (bytes "count_per_svr") room_json
  return ⟨atoi room_begin, atoi count_per_svr, exch, route⟩

/-- The function of an unknown `route_type` is not set. -/
def MsgRout.make (cmd_begin cmd_end : Int) (exch route : Bytes) (route_type : Int) (special_json : Json) :
    Except JsonError MsgRout :=
  if route_type = 0 then .ok ⟨cmd_begin, cmd_end, .normal ⟨exch, route⟩⟩
  else if route_type = 1 then do
    let f ← HashRout.make special_json exch route
    return ⟨cmd_begin, cmd_end, .hash f⟩
  else if route_type = 2 then do
    let f ← RoomRout.make special_json exch route
    return ⟨cmd_begin, cmd_end, .room f⟩
  else .ok ⟨cmd_begin, cmd_end, .unset⟩

/-- What a loop over a value goes through. -/
def elements : Json → List Json
  | .null => []
  | .array es => es
  | .object members => members.map Prod.snd
  | jv => [jv]

/-- An entry: `cmd_begin` is a number, and the other members are strings. -/
def parse_route (jv_one : Json) : Except JsonError MsgRout := do
  let cmd_begin ← (← jv_one.member (bytes "cmd_begin")).get_integer 32
  let cmd_end ← stringMember (bytes "cmd_end") jv_one
  let exch ← stringMember (bytes "exchange") jv_one
  let route ← stringMember (bytes "route") jv_one
  let route_type ← stringMember (bytes "type") jv_one
  let special ← jv_one.member (bytes "special")
  MsgRout.make cmd_begin.toInt (atoi cmd_end) exch route (atoi route_type) special

def parse_route_config (route_json : Json) : Except JsonError (List MsgRout) :=
  (elements route_json).mapM parse_route

/-! ## Answers -/

/-- `TcpMsgPtr`, with the session it came from. -/
structure ClientMsg (S P : Type) where
  session : S
  message : Message P

/-- `Message::send_response` of a body. -/
def send_response {P : Type} (msg : Message P) (fail_reson : BitVec 32) (response : P) : Message P :=
  ⟨{ Header.new with
      cmdtype := msg.header.cmdtype
      type := RESPONSE_TYPE
      response_result := fail_reson
      sequenceid := msg.header.sequenceid }, response⟩

/-- `Message::send_failed_reason`, with the overload of `send_response` that takes a message. -/
def send_failed_reason {P : Type} (make_message : BitVec 32 → BitVec 32 → P) (msg : Message P)
    (fail_reson : BitVec 32) : Message P :=
  let response := AsyncRequest.make_response make_message msg.header.cmdtype
  let response := { response with header := { response.header with response_result := fail_reson } }
  { response with
    header := { response.header with
      cmdtype := msg.header.cmdtype
      type := RESPONSE_TYPE
      sequenceid := msg.header.sequenceid } }

def CODE_PARAMETER_INVALID : BitVec 32 := 2

def CODE_SESSION_HAV_NO_USER : BitVec 32 := 1001

def CMD_SHUTDOWN_SESSION : BitVec 32 := 6

/-! ## A message that is passed on -/

/-- `recv_exchange` and `recv_routkey` of the header, and the body. -/
structure MqBody (P : Type) where
  recv_exchange : Bytes
  recv_routkey : Bytes
  pbmessage : P

inductive Dispatched (P : Type) where
  | failed (fail_reson : BitVec 32)
  | faulted (fault : RouteFault)
  /-- `send_pre_deal` takes the message for one to the session itself. -/
  | close_session
  | send (msg : Message (MqBody P))

/-- `send_message` fails without a session only, which the constructor makes. -/
def dispatch_app_msg {P : Type} (m_msg_route : List MsgRout) (user_id : Int) (msg : Message P) :
    Dispatched P :=
  match m_msg_route.find? (·.is_cmd_match msg.header.cmdtype.toInt) with
  | none => .failed CODE_PARAMETER_INVALID
  | some rout =>
    match rout.get_ex_route user_id with
    | .error fault => .faulted fault
    | .ok (str_exch, str_route) =>
      if msg.header.cmdtype = CMD_SHUTDOWN_SESSION then .close_session
      else .send ⟨{ Header.new with cmdtype := msg.header.cmdtype }, ⟨str_exch, str_route, msg.pbmessage⟩⟩

/-! ## The lobby as a state machine -/

/-- The requests of the session on the message queue. Every callback is for the loop of the tasks. -/
abbrev MqRequests (S P : Type) := AsyncRequest Unit (ClientMsg S P) (MqBody P)

abbrev MqEvent (S P : Type) := AsyncRequest.Event Unit (ClientMsg S P) (MqBody P)

abbrev MqEffect (S P : Type) := AsyncRequest.Effect Unit (ClientMsg S P) (MqBody P)

/-- A callback that is posted: the request it is for, and the response it gets. -/
abbrev MqCallback (S P : Type) := AsynItem Unit (ClientMsg S P) (MqBody P) × Message (MqBody P)

structure Lobby (S R P : Type) where
  m_msg_route : List MsgRout
  manager : PlayerManager S R
  mq : MqRequests S P
  /-- The calls of `do_send_asyn_message` that are posted to the loop of the message queue. -/
  main_loop : List (Message (MqBody P) × ClientMsg S P)
  /-- The callbacks that are posted to the loop of the tasks. -/
  task_loop : List (MqCallback S P)
  /-- A route has run into a fault. -/
  down : Bool

namespace Lobby

variable {S R P : Type} [DecidableEq S]

inductive Effect (S P : Type) where
  /-- The session is given an answer to write. -/
  | send_response (session : S) (msg : Message P)
  | do_write (msg : Message (MqBody P))
  | close_mq
  | shutdown_user_session (session : S)
  | assert_failed

inductive Event (S R P : Type) where
  | manager (e : PlayerManager.Event S R)
  /-- A message that has no handler of its own. -/
  | on_unknown_msg (session : S) (msg : Message P)
  /-- The loop of the message queue runs the first call that is posted to it. -/
  | do_send_asyn_message
  /-- Anything else on the message queue. -/
  | mq (e : MqEvent S P)
  /-- The loop of the tasks runs the first callback that is posted to it. -/
  | callback

def new (m_msg_route : List MsgRout) : Lobby S R P :=
  { m_msg_route, manager := .new, mq := .new, main_loop := [], task_loop := [], down := false }

/-- The message maker of the session on the message queue is that of the clients. -/
def make_mq_message (make_message : BitVec 32 → BitVec 32 → P) (type cmd_type : BitVec 32) : MqBody P :=
  ⟨[], [], make_message type cmd_type⟩

def managerEffect : PlayerManager.Effect S → Effect S P
  | .shutdown_user_session session => .shutdown_user_session session
  | .assert_failed => .assert_failed

/-- What is seen of the requests, where a callback is seen only when it runs. -/
def mqEffect : MqEffect S P → Option (Effect S P)
  | .do_write msg => some (.do_write msg)
  | .post _ _ => none
  | .assert_failed => some .assert_failed

/-- The callbacks that some effects post. -/
def posts (effects : List (MqEffect S P)) : List (MqCallback S P) :=
  effects.filterMap fun
    | .post item response => some (item, response)
    | _ => none

/-- An event of the requests, after which the loop of the tasks has the callbacks. -/
def runMq (make_message : BitVec 32 → BitVec 32 → P) (l : Lobby S R P) (e : MqEvent S P) :
    Option (Lobby S R P × List (Effect S P)) :=
  (AsyncRequest.step (make_mq_message make_message) l.mq e).map fun r =>
    ({ l with mq := r.1, task_loop := l.task_loop ++ posts r.2 }, r.2.filterMap mqEffect)

def on_unknown_msg (make_message : BitVec 32 → BitVec 32 → P) (session : S) (msg : Message P)
    (l : Lobby S R P) : Lobby S R P × List (Effect S P) :=
  match l.manager.on_unknown_msg session with
  | .session_hav_no_user =>
    (l, [.send_response session (send_failed_reason make_message msg CODE_SESSION_HAV_NO_USER)])
  | .dispatch_app_msg user_id =>
    match dispatch_app_msg l.m_msg_route user_id msg with
    | .failed fail_reson => (l, [.send_response session (send_failed_reason make_message msg fail_reson)])
    | .faulted _ => ({ l with down := true }, [])
    | .close_session => (l, [.close_mq])
    | .send request => ({ l with main_loop := l.main_loop ++ [(request, ⟨session, msg⟩)] }, [])

/-- The callback of `dispatch_app_msg`. Of the result of a response, an `int` is left. -/
def callback (msg : ClientMsg S P) (response : Message (MqBody P)) : Effect S P :=
  .send_response msg.session
    (Server.send_response msg.message response.header.response_result response.pbmessage.pbmessage)

def step (make_message : BitVec 32 → BitVec 32 → P) (l : Lobby S R P)
    (e : Event S R P) : Option (Lobby S R P × List (Effect S P)) :=
  if l.down then none
  else match e with
    | .manager e =>
      (PlayerManager.step .lobby l.manager e).map fun r => ({ l with manager := r.1 }, r.2.map managerEffect)
    | .on_unknown_msg session msg => some (l.on_unknown_msg make_message session msg)
    | .do_send_asyn_message =>
      match l.main_loop with
      | [] => none
      | (request, msg) :: rest =>
        runMq make_message { l with main_loop := rest } (.do_send_asyn_message request msg (some ()))
    | .mq (.do_send_asyn_message _ _ _) => none
    | .mq e => runMq make_message l e
    | .callback =>
      match l.task_loop with
      | [] => none
      | (item, response) :: rest => some ({ l with task_loop := rest }, [callback item.m_fun response])

end Lobby

/-! ## Configured routes -/

/-- The function can be called for every user. -/
def RouteFun.Total : RouteFun → Prop
  | .unset => False
  | .normal _ => True
  | .hash f => f.m_total_cuont ≠ 0 ∧ f.m_total_cuont ≠ -1
  | .room f => f.m_room_count_per_svr ≠ 0

/-- An entry with a known type, and a divisor other than zero and minus one where there is one. -/
def AsksTotal (jv : Json) : Prop :=
  ∃ type special, stringMember (bytes "type") jv = .ok type ∧ jv.member (bytes "special") = .ok special ∧
    (atoi type = 0 ∨
      (atoi type = 1 ∧ ∃ n, stringMember (bytes "total_count") special = .ok n ∧ atoi n ≠ 0 ∧ atoi n ≠ -1) ∨
      (atoi type = 2 ∧ ∃ n, stringMember (bytes "count_per_svr") special = .ok n ∧ atoi n ≠ 0))

theorem divisible_iff {a b : Int} : divisible a b = true ↔ b ≠ 0 ∧ ¬ (a = -2 ^ 31 ∧ b = -1) := by
  simp [divisible, imp_iff_not_or]

theorem MsgRout.total_iff (r : MsgRout) :
    (∀ user_id : Int, -2 ^ 31 ≤ user_id → user_id < 2 ^ 31 → ∃ p, r.get_ex_route user_id = .ok p) ↔
      r.m_route_fun.Total := by
  cases hf : r.m_route_fun with
  | unset => simpa [MsgRout.get_ex_route, hf, RouteFun.Total] using ⟨0, by decide, by decide⟩
  | normal f => simp [MsgRout.get_ex_route, hf, RouteFun.Total, NormalRout.call]
  | hash f =>
    simp only [MsgRout.get_ex_route, hf, RouteFun.Total, HashRout.call]
    constructor
    · intro hall
      obtain ⟨p, hp⟩ := hall (-2 ^ 31) (le_refl _) (by decide)
      have hdiv : divisible (-2 ^ 31) f.m_total_cuont = true := by
        by_contra hno
        rw [if_neg hno] at hp
        cases hp
      obtain ⟨hzero, hone⟩ := divisible_iff.mp hdiv
      exact ⟨hzero, fun h => hone ⟨rfl, h⟩⟩
    · rintro ⟨hzero, hone⟩ user_id - -
      rw [if_pos (divisible_iff.mpr ⟨hzero, fun h => hone h.2⟩)]
      exact ⟨_, rfl⟩
  | room f =>
    simp only [MsgRout.get_ex_route, hf, RouteFun.Total, RoomRout.call]
    constructor
    · intro hall
      obtain ⟨p, hp⟩ := hall 0 (by decide) (by decide)
      by_contra hzero
      rw [if_neg fun h => (divisible_iff.mp h).1 hzero] at hp
      cases hp
    · intro hzero user_id _ _
      rw [if_pos (divisible_iff.mpr ⟨hzero, fun h => absurd h.1 (by decide)⟩)]
      exact ⟨_, rfl⟩

/-- `cmd_begin` is read as a number, unlike the other members. -/
theorem cmd_begin_of_parse_route {jv : Json} {r : MsgRout} (h : parse_route jv = .ok r) (s : Bytes) :
    jv.find (bytes "cmd_begin") ≠ some (.string s) := by
  intro hs
  obtain ⟨value, hvalue, h⟩ := bind_eq_ok.mp h
  obtain ⟨n, hn, -⟩ := bind_eq_ok.mp h
  rw [Json.member_of_find hs] at hvalue
  cases hvalue
  cases hn

theorem make_total_iff {cmd_begin cmd_end type : Int} {exch route : Bytes} {special : Json} {r : MsgRout}
    (h : MsgRout.make cmd_begin cmd_end exch route type special = .ok r) :
    r.m_route_fun.Total ↔ type = 0 ∨
      (type = 1 ∧ ∃ n, stringMember (bytes "total_count") special = .ok n ∧ atoi n ≠ 0 ∧ atoi n ≠ -1) ∨
      (type = 2 ∧ ∃ n, stringMember (bytes "count_per_svr") special = .ok n ∧ atoi n ≠ 0) := by
  unfold MsgRout.make at h
  by_cases h0 : type = 0
  · rw [if_pos h0] at h
    cases h
    exact iff_of_true trivial (Or.inl h0)
  · rw [if_neg h0] at h
    by_cases h1 : type = 1
    · rw [if_pos h1] at h
      obtain ⟨f, hf, hr⟩ := bind_eq_ok.mp h
      obtain ⟨n, hn, hmake⟩ := bind_eq_ok.mp hf
      cases hr
      cases hmake
      simp [RouteFun.Total, h1, hn]
    · rw [if_neg h1] at h
      by_cases h2 : type = 2
      · rw [if_pos h2] at h
        obtain ⟨f, hf, hr⟩ := bind_eq_ok.mp h
        obtain ⟨first, hfirst, hmake⟩ := bind_eq_ok.mp hf
        obtain ⟨n, hn, hmake⟩ := bind_eq_ok.mp hmake
        cases hr
        cases hmake
        simp [RouteFun.Total, h2, hn]
      · rw [if_neg h2] at h
        cases h
        simp [RouteFun.Total, h0, h1, h2]

theorem parse_route_total_iff {jv : Json} {r : MsgRout} (h : parse_route jv = .ok r) :
    r.m_route_fun.Total ↔ AsksTotal jv := by
  obtain ⟨first, -, h⟩ := bind_eq_ok.mp h
  obtain ⟨cmd_begin, -, h⟩ := bind_eq_ok.mp h
  obtain ⟨cmd_end, -, h⟩ := bind_eq_ok.mp h
  obtain ⟨exch, -, h⟩ := bind_eq_ok.mp h
  obtain ⟨route, -, h⟩ := bind_eq_ok.mp h
  obtain ⟨type, htype, h⟩ := bind_eq_ok.mp h
  obtain ⟨special, hspecial, h⟩ := bind_eq_ok.mp h
  rw [make_total_iff h, AsksTotal]
  simp only [htype, hspecial, Except.ok.injEq, exists_and_left, exists_eq_left']

theorem forall_of_mapM {ε α β : Type} {f : α → Except ε β} {P : α → Prop} {Q : β → Prop} {xs : List α}
    {ys : List β} (hf : ∀ x y, f x = .ok y → (Q y ↔ P x)) (h : xs.mapM f = .ok ys) :
    (∀ y ∈ ys, Q y) ↔ ∀ x ∈ xs, P x := by
  induction xs generalizing ys with
  | nil =>
    rw [List.mapM_nil] at h
    cases h
    simp
  | cons x xs ih =>
    rw [List.mapM_cons] at h
    obtain ⟨y, hy, h⟩ := bind_eq_ok.mp h
    obtain ⟨ys', hys, h⟩ := bind_eq_ok.mp h
    cases h
    rw [List.forall_mem_cons, List.forall_mem_cons, hf x y hy, ih hys]

/-- **The routes of a configuration work for every user exactly when its entries ask for such
routes**: a known type, and a divisor that is neither zero nor minus one. -/
theorem parse_route_config_total_iff {route_json : Json} {routes : List MsgRout}
    (h : parse_route_config route_json = .ok routes) :
    (∀ r ∈ routes, ∀ user_id : Int, -2 ^ 31 ≤ user_id → user_id < 2 ^ 31 →
      ∃ p, r.get_ex_route user_id = .ok p) ↔ ∀ jv ∈ elements route_json, AsksTotal jv :=
  forall_of_mapM (fun _ r hr => (MsgRout.total_iff r).trans (parse_route_total_iff hr)) h

/-- One entry, for a server with ten shards. -/
def moneyRoute : Json :=
  .object [(bytes "cmd_begin", .number_unsigned 52000), (bytes "cmd_end", .string (bytes "53000")),
    (bytes "exchange", .string (bytes "moneysvr.direct")), (bytes "route", .string (bytes "moneysvr")),
    (bytes "special", .object [(bytes "total_count", .string (bytes "10"))]),
    (bytes "type", .string (bytes "1"))]

theorem parse_route_config_total_moneyRoute :
    ∃ routes, parse_route_config (.array [moneyRoute]) = .ok routes ∧
      ∀ r ∈ routes, ∀ user_id : Int, -2 ^ 31 ≤ user_id → user_id < 2 ^ 31 →
        ∃ p, r.get_ex_route user_id = .ok p := by
  have hroutes : ∃ routes, parse_route_config (.array [moneyRoute]) = .ok routes := ⟨_, rfl⟩
  obtain ⟨routes, h⟩ := hroutes
  refine ⟨routes, h, (parse_route_config_total_iff h).mpr (List.forall_mem_singleton.mpr ?_)⟩
  exact ⟨bytes "1", .object [(bytes "total_count", .string (bytes "10"))], rfl, rfl,
    Or.inr (Or.inl ⟨by decide, bytes "10", rfl, by decide, by decide⟩)⟩

/-- **A configuration that quotes a `cmd_begin` is refused.** -/
theorem parse_route_config_refuses {route_json jv : Json} (hjv : jv ∈ elements route_json) {s : Bytes}
    (hs : jv.find (bytes "cmd_begin") = some (.string s)) (routes : List MsgRout) :
    parse_route_config route_json ≠ .ok routes := by
  intro h
  have hall : ∀ jv ∈ elements route_json, jv.find (bytes "cmd_begin") ≠ some (.string s) :=
    (forall_of_mapM (Q := fun _ => True)
      (fun _ _ hr => iff_of_true trivial (cmd_begin_of_parse_route hr s)) h).mp fun _ _ => trivial
  exact hall jv hjv hs

/-- The first route of `LobbyServer/config.json` quotes it. -/
example : parse_route_config (.array [.object [(bytes "cmd_begin", .string (bytes "2000")),
      (bytes "cmd_end", .string (bytes "3000")), (bytes "exchange", .string (bytes "gamesvr.direct")),
      (bytes "route", .string (bytes "gamesvr")), (bytes "special", .object []),
      (bytes "type", .string (bytes "2"))]]) = .error (.type_error 302) := rfl

/-! ## Shards -/

theorem route_key_injective (route : Bytes) : Function.Injective (route_key route) := by
  intro i j h
  exact to_string_injective (List.append_cancel_left h)

/-- **Users are spread by the remainder**: two users whose numbers are not negative share a key when
their remainders agree, whatever else is in the route. -/
theorem get_ex_route_hash_iff {r : MsgRout} {f : HashRout} (hf : r.m_route_fun = .hash f)
    (hcount : 0 < f.m_total_cuont) {u v : Int} (hu : 0 ≤ u) (hv : 0 ≤ v) :
    r.get_ex_route u = r.get_ex_route v ↔ u % f.m_total_cuont = v % f.m_total_cuont := by
  have hdivisible : ∀ w : Int, divisible w f.m_total_cuont = true :=
    fun w => divisible_iff.mpr ⟨hcount.ne', fun h => by omega⟩
  simp only [MsgRout.get_ex_route, hf, HashRout.call, hdivisible, if_true, Except.ok.injEq, Prod.mk.injEq,
    true_and, (route_key_injective f.m_route).eq_iff, Int.tmod_eq_emod_of_nonneg hu,
    Int.tmod_eq_emod_of_nonneg hv]

end SparkFrame.Server
