import SparkFrame.Resource.Redis
import SparkFrame.Tools.AesBt

/-!
# Logins and registrations: `LoginServer/LoginModule`

The accounts are kept twice: user documents in Mongo and, for seven days, hashes in Redis.

* `LoginRequest`, `LoginResponse`, `NotifyLoginRequest`, `Answer` : what comes in and goes out;
* `Stores` : the two stores; `Faults` : what can go wrong in them;
* `LoginModule` : the configuration and the libraries; `Inputs` : clock, generator and `rand`;
* `hgetall`, `json_to_hash` : the Redis client, which is looked up by name;
* `query_from_redis`, `query_from_mongo`, `query_user_account`, `query_new_userid`,
  `insert_new_user`, `user_login` : the member functions, in the order of the calls.
-/

namespace SparkFrame.Server

open SparkFrame.Lib SparkFrame.Tools SparkFrame.Resource Function

/-! ## Messages -/

structure LoginRequest where
  account : Bytes
  device_code : Bytes
  user_name : Bytes
  screen_h : BitVec 32
  screen_w : BitVec 32
  resolution_ratio : Bytes
  version : Bytes
  app_type : BitVec 32
  network_mode : BitVec 32
  os_version : Bytes
  channel : Bytes
  device_name : Bytes
  user_type : BitVec 32
  header_url : Bytes
deriving DecidableEq, Repr

structure LoginResponse where
  token : Bytes
  user_id : BitVec 32
  cur_version : Bytes
  update_type : BitVec 32
  update_desc : Bytes
  account : Bytes
  lobby_ip : Bytes
  lobby_port : BitVec 32
deriving DecidableEq, Repr

structure NotifyLoginRequest where
  user_id : BitVec 32
  account : Bytes
  device_code : Bytes
  user_name : Bytes
  screen_h : BitVec 32
  screen_w : BitVec 32
  resolution_ratio : Bytes
  version : Bytes
  app_type : BitVec 32
  network_mode : BitVec 32
  os_version : Bytes
  channel : Bytes
  user_type : BitVec 32
deriving DecidableEq, Repr

def CODE_SYSTEM_ERROR : Nat := 4

def CODE_ACOCUNT_EMPTY : Nat := 7

/-- What a login ends with: a failure code, a response with the message to the queue, an exception that
leaves the handler, or the end of the process. -/
inductive Answer where
  | failed (code : Nat)
  | success (response : LoginResponse) (notify : NotifyLoginRequest)
  | raised
  | aborted
deriving DecidableEq, Repr

/-! ## Stores -/

/-- What a key of Redis holds. -/
inductive RedisValue where
  | hash (fields : Hash)
  /-- A value of another type. -/
  | other

structure Stores where
  /-- The keys of each server. -/
  redis : Nat → StdMap Bytes RedisValue
  /-- The documents of `c_user_info`; the `_id` the server adds is left out. -/
  c_user_info : List Json
  /-- The `counter` of the document in `c_user_id`, if there is one. -/
  c_user_id : Option Int

/-- How a command fares. -/
inductive Command where
  | executed
  /-- It is answered with an error. -/
  | refused
  /-- `commit` has no connection, and throws. -/
  | disconnected
deriving DecidableEq, Repr

/-- How the commands of one `json_to_hash` fare: the `HSET` of each field, and the `EXPIRE`. -/
structure Commands where
  hset : Bytes → Command
  expire : Command

def Commands.all (command : Command) : Commands := ⟨fun _ => command, command⟩

/-- How the operations of one login fare. -/
structure Faults where
  hgetall : Command
  find_one_throws : Bool
  /-- The account hash, once the account is found. -/
  found : Commands
  find_one_and_update_throws : Bool
  /-- The account hash, once the account has a number. -/
  account : Commands
  update_one_throws : Bool
  /-- An update that throws or is not acknowledged takes effect. -/
  written : Bool
  user_info : Commands
  /-- What `insert_new_user` returns where it flows off its end. -/
  returned : Bool

/-- Nothing goes wrong in the stores. -/
def Faults.none (returned : Bool) : Faults :=
  { hgetall := .executed, find_one_throws := false, found := .all .executed
    find_one_and_update_throws := false, account := .all .executed, update_one_throws := false
    written := true, user_info := .all .executed, returned }

structure VersonInfo where
  cur_version : Bytes
  force_version : Bytes
  update_desc : Bytes
deriving DecidableEq, Repr

/-- The configuration of the module and what it takes from libraries. -/
structure LoginModule where
  m_versoin_info : VersonInfo
  m_lobby_list : List (Bytes × BitVec 16)
  /-- The server of the Redis client of each `config_name`. -/
  redis_resource : Bytes → Option Nat
  /-- There is a Mongo client of this `config_name`. -/
  mongo_resource : Bytes → Bool
  /-- The write concern of the Mongo client. -/
  acknowledged : Bool
  /-- `Json::dump`, which throws on strings that are not UTF-8. -/
  dump : Json → Option Bytes
  core : AesCore

structure Inputs where
  /-- `SystemTool::get_object_id` -/
  object_id : Bytes
  tnow_sec : BitVec 64
  /-- The values of `rand()`, for the header and for the lobby. -/
  rand_header : Nat
  rand_lobby : Nat
deriving DecidableEq, Repr

/-- An exception, whatever it says. -/
inductive Exception where
  | redis (error : RedisError)
  | json (error : JsonError)
  | mongo
deriving DecidableEq, Repr

/-- How a call ends that does not return. -/
inductive Exit where
  | exception (e : Exception)
  | assertion
deriving DecidableEq, Repr

/-- The accessors of a constant value assert that the member is there. -/
def Exit.ofJson : JsonError → Exit
  | .missing_member => .assertion
  | e => .exception (.json e)

def Exit.answer : Exit → Answer
  | .exception _ => .raised
  | .assertion => .aborted

namespace LoginModule

variable (m : LoginModule)

def account_redis_key (account : Bytes) : Bytes := account ++ bytes "|account"

def user_info_redis_key (user_id : BitVec 32) : Bytes := to_string user_id.toInt ++ bytes "|user_info"

/-- `emAppType::MOBILE_ANDROID` and `emAppType::MPBILE_IPHONE` are 0 and 1. -/
def is_need_generate_new_account (account : Bytes) (app_type : BitVec 32) : Bool :=
  account.isEmpty && (app_type = 0 || app_type = 1)

/-! ## The clients -/

/-- `Redis::get_client`, which asserts that there is one. -/
def redis_client (map_key : Bytes) : Except Exit Nat :=
  match m.redis_resource map_key with
  | none => .error .assertion
  | some server => .ok server

/-- `Mongodb::get_client()` -/
def mongo_client : Except Exit Unit :=
  if m.mongo_resource (bytes "default") then .ok () else .error .assertion

/-- The reply to `HGETALL`. A key that does not exist has no fields. -/
def hgetallReply : Option RedisValue → Reply
  | none => .array []
  | some (.hash fields) => Resource.hgetall (fields.entries.map fun e => (e.1, e.2))
  | some .other => .error (bytes "WRONGTYPE Operation against a key holding the wrong kind of value")

def hgetall (f : Faults) (key : Bytes) (s : Stores) : Except Exit Reply :=
  match m.redis_client (bytes "default") with
  | .error e => .error e
  | .ok server =>
    match f.hgetall with
    | .executed => .ok (hgetallReply ((s.redis server).lookup key))
    | .refused => .ok (.error [])
    | .disconnected => .error (.exception (.redis .redis_error))

/-- What one `HSET` leaves under a key. -/
def hsetValue (member : Bytes × Json) : Option RedisValue → RedisValue
  | none => .hash (Redis.hsetMember ∅ member)
  | some (.hash fields) => .hash (Redis.hsetMember fields member)
  | some .other => .other

def hset (server : Nat) (key : Bytes) (member : Bytes × Json) (s : Stores) : Stores :=
  { s with
    redis := update s.redis server
      ((s.redis server).insert key (hsetValue member ((s.redis server).lookup key))) }

/-- The loop of `json_to_hash`, and whether it gets to its end. -/
def hsetLoop (server : Nat) (commands : Commands) (key : Bytes) : List (Bytes × Json) → Stores → Stores × Bool
  | [], s => (s, true)
  | member :: members, s =>
    if Redis.hashValue member.2 = none then hsetLoop server commands key members s
    else match commands.hset member.1 with
      | .executed => hsetLoop server commands key members (hset server key member s)
      | .refused => hsetLoop server commands key members s
      | .disconnected => (s, false)

/-- `Redis::json_to_hash`, with the name that it has when none is given. Keys end at any time, whatever
`EXPIRE` says. -/
def json_to_hash (commands : Commands) (jv : Json) (key : Bytes) (s : Stores) : Stores × Except Exit Unit :=
  match m.redis_client [] with
  | .error e => (s, .error e)
  | .ok server =>
    match hsetLoop server commands key jv.members s with
    | (s, false) => (s, .error (.exception (.redis .redis_error)))
    | (s, true) =>
      (s, if commands.expire = .disconnected then .error (.exception (.redis .redis_error)) else .ok ())

/-! ## Looking an account up -/

def query_from_redis (f : Faults) (account : Bytes) (s : Stores) :
    Except Exit (Option (Record AccountInfo)) :=
  match m.hgetall f (account_redis_key account) s with
  | .error e => .error e
  | .ok .null => .ok none
  | .ok (.error _) => .ok none
  | .ok r =>
    match Redis.pair_array_to_json r AccountInfo.m_jv_temp with
    | .error e => .error (.exception (.redis e))
    | .ok result =>
      match AccountInfo.from_json result with
      | .error e => .error (.ofJson e)
      | .ok account_info => .ok (some account_info)

/-- The document has this string under this name. -/
def hasString (name value : Bytes) (doc : Json) : Bool :=
  match doc.find name with
  | some (.string s) => s = value
  | _ => false

/-- Where there is no document, the log line takes it from an empty `boost::optional`. -/
def query_from_mongo (f : Faults) (account : Bytes) (s : Stores) :
    Except Exit (Option (Record AccountInfo)) :=
  match m.mongo_client with
  | .error e => .error e
  | .ok () =>
    if f.find_one_throws then .error (.exception .mongo)
    else match s.c_user_info.find? (hasString (bytes "user_account") account) with
      | none => .error .assertion
      | some doc =>
        match AccountInfo.from_json doc with
        | .error e => .error (.ofJson e)
        | .ok account_info => .ok (some account_info)

def query_user_account (f : Faults) (account : Bytes) (s : Stores) :
    Stores × Except Exit (Option (Record AccountInfo)) :=
  let found := match m.query_from_redis f account s with
    | .ok none => m.query_from_mongo f account s
    | found => found
  match found with
  | .error e => (s, .error e)
  | .ok none => (s, .ok none)
  | .ok (some account_info) =>
    match m.json_to_hash f.found (FieldClass.to_json account_info) (account_redis_key account_info.1) s with
    | (s, .error e) => (s, .error e)
    | (s, .ok ()) => (s, .ok (some account_info))

/-! ## Registering an account -/

/-- `$inc`, which makes the counter a 64-bit number when it leaves the range of the other. -/
def query_new_userid (f : Faults) (s : Stores) : Stores × Except Exit (Option (BitVec 32)) :=
  match m.mongo_client with
  | .error e => (s, .error e)
  | .ok () =>
    if f.find_one_and_update_throws then (s, .error (.exception .mongo))
    else match s.c_user_id with
      | none => (s, .ok none)
      | some counter =>
        let new_id := counter + 1
        ({ s with c_user_id := some new_id },
          if -2 ^ 31 ≤ new_id ∧ new_id < 2 ^ 31 then .ok (some (.ofInt 32 new_id))
          else .error (.exception .mongo))

def m_default_male_header_urls : List Bytes :=
  [bytes "default_header/default1.png", bytes "default_header/default2.png",
    bytes "default_header/default3.png"]

/-- `generate_new_user`, with `m_is_robot`. -/
def generate_new_user (i : Inputs) (login_req : LoginRequest) (is_robot : Bool)
    (account : Bytes) (user_id : BitVec 32) : Record UserInfo :=
  let header_url := if login_req.header_url.isEmpty then
      m_default_male_header_urls.getD (i.rand_header % m_default_male_header_urls.length) []
    else login_req.header_url
  (account, login_req.device_code, login_req.device_name, login_req.app_type, user_id,
    (0 : BitVec 32), login_req.user_name, header_url, (0 : BitVec 32), (0 : BitVec 32),
    (0 : BitVec 32), (0 : BitVec 32), (0 : BitVec 32), (if is_robot then 1 else 0 : BitVec 32), ())

/-- `m_user_id` of a user. -/
def m_user_id (user_info : Record UserInfo) : BitVec 32 := user_info.2.2.2.2.1

/-- The document has this number under this name. -/
def hasNumber (name : Bytes) (value : BitVec 32) (doc : Json) : Bool :=
  match doc.find name with
  | some (.number_integer i) => i.toInt = value.toInt
  | some (.number_unsigned u) => (u.toNat : Int) = value.toInt
  | some (.number_float x) => x = value.toInt
  | _ => false

/-- `$set` of the members of one document in another. -/
def setMembers (fields doc : Json) : Json :=
  match fields with
  | .object members => members.foldl (fun doc e => doc.assign e.1 e.2) doc
  | _ => doc

/-- `update_one({user_id}, {$set: fields}, upsert)`: the first document of the user is changed, or
one is added. -/
def update_one (user_id : BitVec 32) (fields : Json) : List Json → List Json
  | [] => [setMembers fields (Json.null.assign (bytes "user_id") (.number_integer (user_id.signExtend 64)))]
  | doc :: docs =>
    if hasNumber (bytes "user_id") user_id doc then setMembers fields doc :: docs
    else doc :: update_one user_id fields docs

/-- The stores with the document of a user. -/
def upserted (user_info : Record UserInfo) (s : Stores) : Stores :=
  { s with
    c_user_info := update_one (m_user_id user_info) (FieldClass.to_json user_info) s.c_user_info }

/-- The result of an update that is not acknowledged is empty. -/
def insert_new_user_db (f : Faults) (user_info : Record UserInfo) (s : Stores) :
    Stores × Except Exit Bool :=
  match m.mongo_client, m.dump (FieldClass.to_json user_info) with
  | .error e, _ => (s, .error e)
  | .ok (), none => (s, .error (.exception (.json (.type_error 316))))
  | .ok (), some _ =>
    if f.update_one_throws then
      (if f.written then upserted user_info s else s, .error (.exception .mongo))
    else if m.acknowledged then (upserted user_info s, .ok true)
    else (if f.written then upserted user_info s else s, .ok false)

def insert_new_user_redis (f : Faults) (user_info : Record UserInfo) (s : Stores) :
    Stores × Except Exit Unit :=
  match m.redis_client (bytes "default") with
  | .error e => (s, .error e)
  | .ok _ =>
    m.json_to_hash f.user_info (FieldClass.to_json user_info) (user_info_redis_key (m_user_id user_info)) s

def insert_new_user (f : Faults) (user_info : Record UserInfo) (s : Stores) : Stores × Except Exit Bool :=
  match m.insert_new_user_db f user_info s with
  | (s, .ok true) =>
    match m.insert_new_user_redis f user_info s with
    | (s, .error e) => (s, .error e)
    -- there is no return statement
    | (s, .ok ()) => (s, .ok f.returned)
  | failed => failed

/-! ## A login -/

/-- The token before it is encrypted. -/
def tokenJson (i : Inputs) (login_req : LoginRequest) (user_id : BitVec 32) : Json :=
  ((((((Json.null.assign (bytes "user_id") (.number_integer (user_id.signExtend 64))).assign
    (bytes "user_type") (.number_integer (login_req.user_type.signExtend 64))).assign
    (bytes "app_type") (.number_integer (login_req.app_type.signExtend 64))).assign
    (bytes "version") (.string login_req.version)).assign
    (bytes "os_version") (.string login_req.os_version)).assign
    (bytes "channel") (.string login_req.channel)).assign
    (bytes "time") (.number_integer i.tnow_sec)

/-- `NO_NEED_UPDATE`, `NEED_UPDATE` and `FORCE_UPDATE` are 0, 1 and 2. -/
def update_type (login_req : LoginRequest) : BitVec 32 :=
  if m.m_versoin_info.cur_version = login_req.version then 0
  else if m.m_versoin_info.force_version < login_req.version then 1
  else 2

def notify_user_login (account : Bytes) (user_id : BitVec 32) (login_req : LoginRequest) :
    NotifyLoginRequest :=
  { user_id, account
    device_code := login_req.device_code
    user_name := login_req.user_name
    screen_h := login_req.screen_h
    screen_w := login_req.screen_w
    resolution_ratio := login_req.resolution_ratio
    version := login_req.version
    app_type := login_req.app_type
    network_mode := login_req.network_mode
    os_version := login_req.os_version
    channel := login_req.channel
    user_type := login_req.user_type }

/-- The end of `user_login`. With no lobby the remainder by zero stops it. -/
def respond (i : Inputs) (login_req : LoginRequest) (account : Bytes) (user_id : BitVec 32) : Answer :=
  match m.m_lobby_list[i.rand_lobby % m.m_lobby_list.length]?, m.dump (tokenJson i login_req user_id) with
  | none, _ => .aborted
  | some _, none => .raised
  | some lobby_host, some text =>
    .success
      { token := AesBt.AES_ecb128_encrypt m.core text AesBt.seed
        user_id
        cur_version := m.m_versoin_info.cur_version
        update_type := m.update_type login_req
        update_desc := m.m_versoin_info.update_desc
        account := []
        lobby_ip := lobby_host.1
        lobby_port := lobby_host.2.setWidth 32 }
      (notify_user_login account user_id login_req)

/-- The branch `REGISTER_ACCOUNT`, and the answer. -/
def register (i : Inputs) (f : Faults) (login_req : LoginRequest) (is_robot : Bool) (account : Bytes)
    (s : Stores) : Stores × Answer :=
  match m.query_new_userid f s with
  | (s, .error e) => (s, e.answer)
  | (s, .ok none) => (s, .failed CODE_SYSTEM_ERROR)
  | (s, .ok (some new_id)) =>
    let account_info : Record AccountInfo := (account, new_id, ())
    match m.json_to_hash f.account (FieldClass.to_json account_info) (account_redis_key account) s with
    | (s, .error e) => (s, e.answer)
    | (s, .ok ()) =>
      match m.insert_new_user f (generate_new_user i login_req is_robot account new_id) s with
      | (s, .error e) => (s, e.answer)
      | (s, .ok false) => (s, .failed CODE_ACOCUNT_EMPTY)
      | (s, .ok true) => (s, m.respond i login_req account new_id)

/-- The account a request is about: the generated one, or the one it names. -/
def loginAccount (i : Inputs) (login_req : LoginRequest) : Bytes :=
  if is_need_generate_new_account login_req.account login_req.app_type then i.object_id
  else login_req.account

def user_login (i : Inputs) (f : Faults) (login_req : LoginRequest) (is_robot : Bool) (s : Stores) :
    Stores × Answer :=
  let account := loginAccount i login_req
  if account.isEmpty then (s, .failed CODE_ACOCUNT_EMPTY)
  else
    match m.query_user_account f account s with
    | (s, .error e) => (s, e.answer)
    | (s, .ok none) => m.register i f login_req is_robot account s
    | (s, .ok (some account_info)) =>
      if is_need_generate_new_account login_req.account login_req.app_type then
        m.register i f login_req is_robot account_info.1 s
      else (s, m.respond i login_req account_info.1 account_info.2.1)

end LoginModule

end SparkFrame.Server
