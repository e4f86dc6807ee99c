import Mathlib.Data.List.Infix
import SparkFrame.Lib.StdMap
import SparkFrame.Tools.Json

/-!
# The configuration of the message queue: `libserver/MqInfo`

* `MqInfo`, `Login` : where the server is and what is to be bound to the queue;
* `Bind`, `insert_bind` : an exchange with its routing keys, entered in the two maps;
* `exchange_type`, `one_rout`, `parse_bind`, `parse_config` : the configuration read;
* `config_requests` : what a configuration asks for; `config_recorded` : what is recorded of it;
* `first`, `Records` : the maps keep what is asked for **first** for each exchange;
  `Records.insert_bind`;
* `parse_binds_eq_ok`, `records_parse_config` : the configuration in the maps.
-/

namespace SparkFrame.Net

open SparkFrame.Lib SparkFrame.Tools

/-- `AMQP::Login`. -/
structure Login where
  user : Bytes
  password : Bytes
deriving DecidableEq, Repr

@[ext]
structure MqInfo where
  m_ip : Bytes
  m_port : Int
  m_login : Login
  m_work_dir : Bytes
  m_queue : Bytes
  m_exchanges : StdMap Bytes Int
  m_binds : StdMap Bytes (List Bytes)
deriving DecidableEq

/-- An exchange, its type and the keys that lead from it to the queue. -/
structure Bind where
  exchange : Bytes
  type : Int
  routkeys : List Bytes
deriving DecidableEq, Repr

/-- What parsing throws. -/
inductive ConfigError where
  | json (error : JsonError)
  | invalid_argument
  | out_of_range
deriving DecidableEq, Repr

/-- The exchange and the keys. -/
def Bind.entry (b : Bind) : Bytes × List Bytes := (b.exchange, b.routkeys)

namespace MqInfo

/-- The members of `AMQP::ExchangeType` that are used. -/
def direct : Int := 1

def topic : Int := 2

def new : MqInfo :=
  { m_ip := [], m_port := 0, m_login := ⟨bytes "guest", bytes "guest"⟩, m_work_dir := []
    m_queue := [], m_exchanges := ∅, m_binds := ∅ }

/-- The two calls of `insert`. -/
def insert_bind (b : Bind) (info : MqInfo) : MqInfo :=
  { info with
    m_exchanges := StdMap.try_insert b.exchange b.type info.m_exchanges
    m_binds := StdMap.try_insert b.exchange b.routkeys info.m_binds }

def insert_binds (binds : List Bind) (info : MqInfo) : MqInfo :=
  binds.foldl (fun info b => info.insert_bind b) info

/-! ## Parsing -/

/-- `std::stoi`. -/
def stoi (s : Bytes) : Except ConfigError Int :=
  let (sign, digits) : Int × Bytes :=
    match s.dropWhile isspace with
    | 45 :: s => (-1, s)
    | 43 :: s => (1, s)
    | s => (1, s)
  if (digits.takeWhile isdigit).isEmpty then .error .invalid_argument
  else
    let i := sign * digitsValue digits
    if -2 ^ 31 ≤ i ∧ i < 2 ^ 31 then .ok i else .error .out_of_range

/-- `jv[key].get<std::string>()` of a constant value. -/
def text (key : String) (jv : Json) : Except JsonError Bytes := do
  (← jv.member (bytes key)).get_string

/-- What a range-based loop over a value goes through. -/
def elements : Json → List Json
  | .null => []
  | .array elements => elements
  | .object members => members.map Prod.snd
  | jv => [jv]

/-- Whether `exchange_name.find(part)` finds anything. -/
def contains (part : String) (exchange_name : Bytes) : Bool := bytes part <:+: exchange_name

/-- The type in the name of an exchange. -/
def exchange_type (exchange_name : Bytes) : Option Int :=
  if contains ".direct" exchange_name then some direct
  else if contains ".topic" exchange_name then some topic
  else none

/-- One of the routing keys. -/
def one_rout (sub_str exchange_name : Bytes) (rout : Json) : Except JsonError Bytes := do
  let one_rout ← rout.get_string
  return if contains ".direct" exchange_name && !sub_str.isEmpty then
    one_rout ++ bytes "-" ++ sub_str else one_rout

/-- One of the `binds`. An exchange without a type is logged as an error and passed over. -/
def parse_bind (sub_str : Bytes) (e : Json) : Except JsonError (Option Bind) := do
  let exchange_name ← text "exchange" e
  match exchange_type exchange_name with
  | none => return none
  | some type =>
    let routkeys ← e.member (bytes "routkeys")
    return some ⟨exchange_name, type,
      ← (elements routkeys).mapM (one_rout sub_str exchange_name)⟩

def parse_binds (sub_str : Bytes) (jvmq_proc : Json) : Except JsonError (List Bind) := do
  let binds ← jvmq_proc.member (bytes "binds")
  return ((← (elements binds).mapM (parse_bind sub_str)).reduceOption)

/-- The part of `parse_config` about the server. -/
def parse_default (jvmq_default : Json) (info : MqInfo) : Except ConfigError MqInfo := do
  let ip ← (text "ip" jvmq_default).mapError .json
  let port ← stoi (← (text "port" jvmq_default).mapError .json)
  let user ← (text "user" jvmq_default).mapError .json
  let passwd ← (text "passwd" jvmq_default).mapError .json
  let dir ← (text "dir" jvmq_default).mapError .json
  return { info with m_ip := ip, m_port := port, m_login := ⟨user, passwd⟩, m_work_dir := dir }

/-- The part of `parse_config` about the process. -/
def parse_proc (sub_str : Bytes) (jvmq_proc : Json) (info : MqInfo) :
    Except ConfigError MqInfo := do
  let queue ← (text "queue" jvmq_proc).mapError .json
  let queue := if sub_str.isEmpty then queue else queue ++ bytes "-" ++ sub_str
  let binds ← (parse_binds sub_str jvmq_proc).mapError .json
  return insert_binds binds { info with m_queue := queue }

/-- `parse_config` on a parsed text, in the process of the name: its result, and what it leaves. -/
def parse_config (proc_name sub_str : Bytes) (jv : Json) (info : MqInfo) :
    Except ConfigError (Bool × MqInfo) := do
  if !jv.is_valid || !jv.is_object then return (false, info)
  let jvmq := (jv.find (bytes "mq")).getD .null
  if !jvmq.is_valid then return (false, info)
  let jvmq_default ← (jvmq.member (bytes "default")).mapError .json
  if !jvmq_default.is_valid then return (false, info)
  let info ← info.parse_default jvmq_default
  let jvmq_proc ← (jvmq.member proc_name).mapError .json
  if !jvmq_proc.is_valid then return (false, info)
  return (true, ← info.parse_proc sub_str jvmq_proc)

/-! ## What a configuration asks for -/

/-- A routing key. On a direct exchange it ends in the name of the sub-process. -/
def config_key (sub_str exchange : Bytes) : Json → Option Bytes
  | .string key =>
    some (if bytes ".direct" <:+: exchange ∧ sub_str ≠ [] then key ++ bytes "-" ++ sub_str else key)
  | _ => none

/-- An exchange and its routing keys. -/
def config_request (sub_str : Bytes) (e : Json) : Option (Bytes × List Bytes) :=
  match e.find (bytes "exchange"), e.find (bytes "routkeys") with
  | some (.string exchange), some routkeys =>
    some (exchange, (elements routkeys).filterMap (config_key sub_str exchange))
  | _, _ => none

/-- **What a configuration asks for**: the exchanges and keys in the `binds` of the process. -/
def config_requests (proc_name sub_str : Bytes) (jv : Json) : List (Bytes × List Bytes) :=
  match ((jv.find (bytes "mq")).bind (·.find proc_name)).bind (·.find (bytes "binds")) with
  | some binds => (elements binds).filterMap (config_request sub_str)
  | none => []

/-- The name of the exchange says of which type it is. -/
def HasType (exchange : Bytes) : Prop := bytes ".direct" <:+: exchange ∨ bytes ".topic" <:+: exchange

instance (exchange : Bytes) : Decidable (HasType exchange) :=
  inferInstanceAs (Decidable (bytes ".direct" <:+: exchange ∨ bytes ".topic" <:+: exchange))

/-- The requests at exchanges whose name says their type, unless there are no defaults. -/
def config_recorded (proc_name sub_str : Bytes) (jv : Json) : List (Bytes × List Bytes) :=
  if ((jv.find (bytes "mq")).bind (·.find (bytes "default"))).any Json.is_valid then
    (config_requests proc_name sub_str jv).filter fun e => HasType e.1
  else []

/-! ## What the maps keep -/

/-- What is asked for first for the exchange. -/
def first (binds : List Bind) (exchange : Bytes) : Option Bind :=
  binds.find? fun b => b.exchange = exchange

/-- The maps hold, for each exchange, what was asked for first. -/
structure Records (info : MqInfo) (binds : List Bind) : Prop where
  m_binds : ∀ exchange, info.m_binds.lookup exchange = (first binds exchange).map Bind.routkeys
  m_exchanges : ∀ exchange, info.m_exchanges.lookup exchange = (first binds exchange).map Bind.type

theorem first_append_singleton (binds : List Bind) (b : Bind) (exchange : Bytes) :
    first (binds ++ [b]) exchange =
      (first binds exchange).or (if b.exchange = exchange then some b else none) := by
  rw [first, List.find?_append, List.find?_singleton, first]
  simp only [decide_eq_true_eq]

theorem lookup_insert {V : Type} {m : StdMap Bytes V} {binds : List Bind} {f : Bind → V}
    (h : ∀ exchange, m.lookup exchange = (first binds exchange).map f) (b : Bind)
    (exchange : Bytes) :
    (StdMap.try_insert b.exchange (f b) m).lookup exchange =
      (first (binds ++ [b]) exchange).map f := by
  rw [StdMap.lookup_try_insert, h, first_append_singleton]
  rcases first binds exchange with _ | c
  · by_cases hb : b.exchange = exchange
    · simp [hb]
    · simp [hb]
  · rfl

namespace Records

variable {info : MqInfo} {binds : List Bind}

theorem new : Records new [] := ⟨fun _ => rfl, fun _ => rfl⟩

/-- **Nothing replaces what was asked for first.** -/
theorem insert_bind (h : Records info binds) (b : Bind) :
    Records (info.insert_bind b) (binds ++ [b]) :=
  ⟨lookup_insert h.m_binds b, lookup_insert h.m_exchanges b⟩

theorem insert_binds (h : Records info binds) (bs : List Bind) :
    Records (info.insert_binds bs) (binds ++ bs) := by
  induction bs generalizing info binds with
  | nil => rwa [List.append_nil]
  | cons b bs ih =>
    rw [List.append_cons]
    exact ih (h.insert_bind b)

end Records

/-! ### Parsing a configuration -/

theorem mapError_eq_ok {ε ε' α : Type} {f : ε → ε'} {x : Except ε α} {a : α} :
    x.mapError f = .ok a ↔ x = .ok a := by
  cases x <;> simp [Except.mapError]

/-- Maps in which nothing is entered. -/
def Blank (info : MqInfo) : Prop := info.m_binds = ∅ ∧ info.m_exchanges = ∅

theorem Blank.records {info : MqInfo} (h : Blank info) : Records info [] := by
  obtain ⟨hbinds, hexchanges⟩ := h
  constructor
  · intro exchange
    rw [hbinds]
    rfl
  · intro exchange
    rw [hexchanges]
    rfl

theorem blank_parse_default {jvmq_default : Json} {info info' : MqInfo}
    (h : info.parse_default jvmq_default = .ok info') (hblank : Blank info) : Blank info' := by
  simp only [parse_default, bind_eq_ok, pure, Except.pure, Except.ok.injEq] at h
  obtain ⟨_, _, _, _, _, _, _, _, _, _, _, _, rfl⟩ := h
  exact hblank

theorem text_eq_ok {key : String} {jv : Json} {s : Bytes} (h : text key jv = .ok s) :
    jv.find (bytes key) = some (.string s) := by
  obtain ⟨value, hvalue, hs⟩ := bind_eq_ok.1 h
  rw [Json.find_of_member hvalue]
  cases value with
  | string s' =>
    cases hs
    rfl
  | _ => cases hs

theorem exchange_type_eq_none {exchange : Bytes} : exchange_type exchange = none ↔ ¬ HasType exchange := by
  rw [HasType, not_or, exchange_type, contains, contains]
  split
  · next h => exact iff_of_false nofun fun hnot => hnot.1 (of_decide_eq_true h)
  · next h =>
    split
    · next h' => exact iff_of_false nofun fun hnot => hnot.2 (of_decide_eq_true h')
    · next h' => exact iff_of_true rfl ⟨fun hd => h (decide_eq_true hd), fun ht => h' (decide_eq_true ht)⟩

theorem one_rout_eq_ok {sub_str exchange key : Bytes} {rout : Json}
    (h : one_rout sub_str exchange rout = .ok key) : config_key sub_str exchange rout = some key := by
  obtain ⟨s, hs, hkey⟩ := bind_eq_ok.1 h
  cases rout with
  | string s' =>
    cases hs
    cases hkey
    simp [config_key, contains]
  | _ => cases hs

theorem filterMap_of_mapM {ε α β γ : Type} {f : α → Except ε β} {g : α → Option γ} {k : β → Option γ}
    {xs : List α} {ys : List β} (hf : ∀ x y, f x = .ok y → g x = k y) (h : xs.mapM f = .ok ys) :
    xs.filterMap g = ys.filterMap k := by
  induction xs generalizing ys with
  | nil =>
    rw [List.mapM_nil] at h
    cases h
    rfl
  | cons x xs ih =>
    rw [List.mapM_cons] at h
    obtain ⟨y, hy, h⟩ := bind_eq_ok.1 h
    obtain ⟨ys', hys', h⟩ := bind_eq_ok.1 h
    cases h
    rw [List.filterMap_cons, List.filterMap_cons, hf x y hy, ih hys']

theorem parse_bind_eq_ok {sub_str : Bytes} {e : Json} {b : Option Bind}
    (h : parse_bind sub_str e = .ok b) :
    (config_request sub_str e).filter (fun e => HasType e.1) = b.map Bind.entry := by
  obtain ⟨exchange, hexchange, h⟩ := bind_eq_ok.1 h
  have hname := text_eq_ok hexchange
  cases htype : exchange_type exchange with
  | none =>
    have hnone := exchange_type_eq_none.1 htype
    rw [htype] at h
    cases h
    cases hkeys : e.find (bytes "routkeys") with
    | none => simp only [config_request, hname, hkeys, Option.filter_none, Option.map_none]
    | some routkeys =>
      simp only [config_request, hname, hkeys, Option.filter_some, hnone, decide_false,
        Bool.false_eq_true, if_false, Option.map_none]
  | some type =>
    have hsome : HasType exchange := by
      by_contra hnot
      rw [exchange_type_eq_none.2 hnot] at htype
      cases htype
    rw [htype] at h
    obtain ⟨routkeys, hroutkeys, h⟩ := bind_eq_ok.1 h
    obtain ⟨keys, hkeys, h⟩ := bind_eq_ok.1 h
    cases h
    have hfilter := (filterMap_of_mapM (fun _ _ => one_rout_eq_ok) hkeys).trans List.filterMap_some
    simp only [config_request, hname, Json.find_of_member hroutkeys, hfilter, Option.filter_some, hsome,
      decide_true, if_true, Option.map_some]
    rfl

theorem parse_binds_eq_ok {sub_str : Bytes} {jvmq_proc : Json} {binds : List Bind}
    (h : parse_binds sub_str jvmq_proc = .ok binds) :
    ∃ jv, jvmq_proc.find (bytes "binds") = some jv ∧
      ((elements jv).filterMap (config_request sub_str)).filter (fun e => HasType e.1) =
        binds.map Bind.entry := by
  obtain ⟨jv, hjv, h⟩ := bind_eq_ok.1 h
  refine ⟨jv, Json.find_of_member hjv, ?_⟩
  obtain ⟨parsed, hparsed, h⟩ := bind_eq_ok.1 h
  cases h
  show _ = (parsed.filterMap id).map Bind.entry
  rw [List.filter_filterMap, filterMap_of_mapM (fun _ _ => parse_bind_eq_ok) hparsed, List.map_filterMap]
  rfl

theorem config_recorded_of_requests_nil {proc_name sub_str : Bytes} {jv : Json}
    (h : config_requests proc_name sub_str jv = []) : config_recorded proc_name sub_str jv = [] := by
  rw [config_recorded, h]
  split
  · rfl
  · rfl

theorem find_of_not_is_valid {jv : Json} (h : jv.is_valid = false) (key : Bytes) : jv.find key = none := by
  cases jv with
  | null => rfl
  | discarded => rfl
  | _ => cases h

theorem config_requests_of_not_is_valid {proc_name sub_str : Bytes} {jv : Json}
    (h : ((jv.find (bytes "mq")).getD .null).is_valid = false) :
    config_requests proc_name sub_str jv = [] := by
  cases hmq : jv.find (bytes "mq") with
  | none =>
    rw [config_requests, hmq]
    rfl
  | some jvmq =>
    rw [hmq, Option.getD_some] at h
    rw [config_requests, hmq, Option.bind_some, find_of_not_is_valid h]
    rfl

theorem exists_of_is_valid {jv : Option Json} (h : (jv.getD .null).is_valid = true) :
    ∃ value, jv = some value := by
  cases jv with
  | none => cases h
  | some value => exact ⟨value, rfl⟩

/-- What is not valid is left blank, and otherwise the section of the process is parsed. -/
theorem parse_config_eq_ok {proc_name sub_str : Bytes} {jv : Json} {r : Bool × MqInfo}
    (h : new.parse_config proc_name sub_str jv = .ok r) :
    (Blank r.2 ∧ config_recorded proc_name sub_str jv = []) ∨
      ∃ jvmq_proc info, (jv.find (bytes "mq")).bind (·.find proc_name) = some jvmq_proc ∧
        ((jv.find (bytes "mq")).bind (·.find (bytes "default"))).any Json.is_valid = true ∧
        Blank info ∧ info.parse_proc sub_str jvmq_proc = .ok r.2 := by
  have hnew : Blank new := ⟨rfl, rfl⟩
  unfold parse_config at h
  split at h
  · next hinvalid =>
    cases h
    refine .inl ⟨hnew, config_recorded_of_requests_nil (config_requests_of_not_is_valid ?_)⟩
    have hfind : jv.find (bytes "mq") = none := by
      cases jv with
      | object members => simp [Json.is_valid, Json.is_object] at hinvalid
      | _ => rfl
    rw [hfind]
    rfl
  dsimp only at h
  split at h
  · next hinvalid =>
    cases h
    rw [Bool.not_eq_true'] at hinvalid
    exact .inl ⟨hnew, config_recorded_of_requests_nil (config_requests_of_not_is_valid hinvalid)⟩
  next hvalid =>
  rw [Bool.not_eq_true', Bool.not_eq_false] at hvalid
  obtain ⟨jvmq, hmq⟩ := exists_of_is_valid hvalid
  rw [hmq, Option.getD_some] at h
  obtain ⟨jvmq_default, hdefault, h⟩ := bind_eq_ok.1 h
  have hdefault := Json.find_of_member (mapError_eq_ok.1 hdefault)
  split at h
  · next hinvalid =>
    cases h
    refine .inl ⟨hnew, ?_⟩
    rw [Bool.not_eq_true'] at hinvalid
    rw [config_recorded, hmq, Option.bind_some, hdefault, Option.any_some, hinvalid]
    rfl
  next hvalid =>
  rw [Bool.not_eq_true', Bool.not_eq_false] at hvalid
  obtain ⟨info, hinfo, h⟩ := bind_eq_ok.1 h
  have hinfo := blank_parse_default hinfo hnew
  obtain ⟨jvmq_proc, hproc, h⟩ := bind_eq_ok.1 h
  have hproc := Json.find_of_member (mapError_eq_ok.1 hproc)
  split at h
  · next hinvalid =>
    cases h
    refine .inl ⟨hinfo, config_recorded_of_requests_nil ?_⟩
    rw [Bool.not_eq_true'] at hinvalid
    rw [config_requests, hmq, Option.bind_some, hproc, Option.bind_some, find_of_not_is_valid hinvalid]
  obtain ⟨info', hparse, h⟩ := bind_eq_ok.1 h
  cases h
  refine .inr ⟨jvmq_proc, info, ?_, ?_, hinfo, hparse⟩
  · rw [hmq, Option.bind_some, hproc]
  · rw [hmq, Option.bind_some, hdefault, Option.any_some, hvalid]

/-- **A configuration that is read leaves in the maps what is recorded of it.** -/
theorem records_parse_config {proc_name sub_str : Bytes} {jv : Json} {r : Bool × MqInfo}
    (h : new.parse_config proc_name sub_str jv = .ok r) :
    ∃ binds, Records r.2 binds ∧ binds.map Bind.entry = config_recorded proc_name sub_str jv := by
  rcases parse_config_eq_ok h with ⟨hblank, hnone⟩ | ⟨jvmq_proc, info, hproc, hdefault, hblank, hparse⟩
  · exact ⟨[], hblank.records, hnone.symm⟩
  · simp only [parse_proc, bind_eq_ok, mapError_eq_ok, pure, Except.pure, Except.ok.injEq] at hparse
    obtain ⟨queue, -, binds, hbinds, hr⟩ := hparse
    obtain ⟨jv', hjv', hentries⟩ := parse_binds_eq_ok hbinds
    have hqueue : ∀ queue, Blank { info with m_queue := queue } := fun _ => hblank
    refine ⟨binds, hr ▸ (hqueue _).records.insert_binds binds, ?_⟩
    rw [config_recorded, if_pos hdefault, config_requests, hproc, Option.bind_some, hjv']
    exact hentries.symm

end MqInfo

end SparkFrame.Net
