import SparkFrame.Lib.StdMap
import SparkFrame.Server.UserCommon

/-!
# Records in Redis hashes: `libresource/Redis`, `cpp_redis::reply`

* `Reply` : what the client library hands over; `hgetall` : the reply for a hash, in some order;
* `json_to_hash`, `pair_array_to_json` : the member functions; `lookup_json_to_hash` : the fields of the hash;
* `pair_array_to_json_eq_null` : the check of the template lets nothing through;
* `not_restores` : **no record comes back**.
-/

namespace SparkFrame.Resource

open SparkFrame.Lib SparkFrame.Tools SparkFrame.Server

/-- `cpp_redis::reply`. -/
inductive Reply where
  | error (message : Bytes)
  | bulk_string (s : Bytes)
  | simple_string (s : Bytes)
  | null
  | integer (i : BitVec 64)
  | array (replies : List Reply)

/-- What the accessors of replies and values throw, or run into. -/
inductive RedisError where
  | redis_error
  | out_of_range
  | json (error : JsonError)
deriving DecidableEq, Repr

namespace Reply

def is_string : Reply → Bool
  | .error _ => true
  | .bulk_string _ => true
  | .simple_string _ => true
  | _ => false

def as_string : Reply → Except RedisError Bytes
  | .error s => .ok s
  | .bulk_string s => .ok s
  | .simple_string s => .ok s
  | _ => .error .redis_error

def as_array : Reply → Except RedisError (List Reply)
  | .array replies => .ok replies
  | _ => .error .redis_error

end Reply

/-- The fields of a hash with their values. -/
abbrev Hash := StdMap Bytes Bytes

/-- The reply to `HGETALL` that lists the entries in this order. -/
def hgetall (entries : List (Bytes × Bytes)) : Reply :=
  .array (entries.flatMap fun e => [.bulk_string e.1, .bulk_string e.2])

namespace Redis

/-- The string that one member is stored as, if it is stored. -/
def hashValue : Json → Option Bytes
  | .string s => some s
  | .number_integer i => some (to_string i.toInt)
  | .number_unsigned u => some (to_string u.toNat)
  | _ => none

/-- `json_to_hash` of an object into the hash of a key. The commands are executed in order. -/
def json_to_hash (jv : Json) (hash : Hash) : Hash :=
  match jv with
  | .object members =>
    members.foldl (fun hash m => match hashValue m.2 with
      | some value => hash.insert m.1 value
      | none => hash) hash
  | _ => hash

/-- The loop of `pair_array_to_json`. -/
def convert (jv_temp : Json) : List Reply → Json → Except RedisError Json
  | [], jv_out => .ok jv_out
  | [key], jv_out => if !key.is_string then .ok jv_out else .error .out_of_range
  | key :: value :: ar, jv_out =>
    if !key.is_string then convert jv_temp ar jv_out
    else if !value.is_string then convert jv_temp ar jv_out
    else do
      let str_key ← key.as_string
      let str_value ← key.as_string
      match jv_temp.member str_key with
      | .error e => .error (.json e)
      | .ok (.string _) => convert jv_temp ar (jv_out.assign str_key (.string str_value))
      | .ok (.number_integer _) =>
        convert jv_temp ar (jv_out.assign str_key (.number_integer (atoll str_value)))
      | .ok (.number_unsigned _) =>
        convert jv_temp ar (jv_out.assign str_key (.number_unsigned (atoll str_value)))
      | .ok _ => convert jv_temp ar jv_out

def pair_array_to_json (reply : Reply) (jv_temp : Json) : Except RedisError Json :=
  if jv_temp.is_valid || !jv_temp.is_object then .ok .null
  else do
    let ar ← reply.as_array
    convert jv_temp ar .null

/-! ## What is stored -/

/-- One command. -/
def hsetMember (hash : Hash) (m : Bytes × Json) : Hash :=
  match hashValue m.2 with
  | some value => hash.insert m.1 value
  | none => hash

theorem json_to_hash_eq_foldl (jv : Json) (hash : Hash) :
    json_to_hash jv hash = jv.members.foldl hsetMember hash := by
  cases jv <;> rfl

theorem lookup_hsetMember_self {hash : Hash} {m : Bytes × Json} {value : Bytes}
    (h : hashValue m.2 = some value) : (hsetMember hash m).lookup m.1 = some value := by
  simp only [hsetMember, h, AList.lookup_insert]

theorem lookup_hsetMember_of_ne {hash : Hash} {m : Bytes × Json} {name : Bytes} (h : name ≠ m.1) :
    (hsetMember hash m).lookup name = hash.lookup name := by
  unfold hsetMember
  split
  · exact AList.lookup_insert_ne h
  · rfl

theorem lookup_foldl_of_notMem {name : Bytes} (members : List (Bytes × Json)) (hash : Hash)
    (h : name ∉ members.map Prod.fst) :
    (members.foldl hsetMember hash).lookup name = hash.lookup name := by
  induction members generalizing hash with
  | nil => rfl
  | cons m members ih =>
    rw [List.map_cons, List.mem_cons, not_or] at h
    rw [List.foldl_cons, ih _ h.2, lookup_hsetMember_of_ne h.1]

theorem lookup_foldl {name value : Bytes} (members : List (Bytes × Json)) (hash : Hash)
    (hone : ∀ m ∈ members, m.1 = name → hashValue m.2 = some value)
    (h : name ∈ members.map Prod.fst ∨ hash.lookup name = some value) :
    (members.foldl hsetMember hash).lookup name = some value := by
  induction members generalizing hash with
  | nil => exact h.resolve_left List.not_mem_nil
  | cons m members ih =>
    rw [List.forall_mem_cons] at hone
    apply ih _ hone.2
    by_cases hm : name = m.1
    · right
      rw [hm]
      exact lookup_hsetMember_self (hone.1 hm.symm)
    · rw [lookup_hsetMember_of_ne hm]
      rw [List.map_cons, List.mem_cons] at h
      exact h.imp_left fun h => h.resolve_left hm

theorem hashValue_of_mem {fields : List Field} {xs : Values fields} {m : Bytes × Json}
    (h : m ∈ fieldMembers fields xs) : ∃ value, hashValue m.2 = some value := by
  induction fields with
  | nil => cases h
  | cons field fields ih =>
    rcases List.mem_cons.mp h with rfl | h
    · obtain ⟨name, type⟩ := field
      cases type <;> exact ⟨_, rfl⟩
    · exact ih h

variable {c : FieldClass}

theorem mem_names_to_json (r : Record c) (name : Bytes) :
    name ∈ (FieldClass.to_json r).members.map Prod.fst ↔ name ∈ c.fields.map Prod.fst := by
  rw [← map_fst_fieldMembers c.fields r, List.mem_map, List.mem_map]
  simp only [FieldClass.mem_members_to_json]

/-- **The hash of a record** has its fields. -/
theorem lookup_json_to_hash (r : Record c) (hash : Hash) {m : Bytes × Json}
    (hm : m ∈ (FieldClass.to_json r).members) :
    (json_to_hash (FieldClass.to_json r) hash).lookup m.1 = hashValue m.2 := by
  obtain ⟨value, hvalue⟩ := hashValue_of_mem (FieldClass.mem_members_to_json.mp hm)
  rw [json_to_hash_eq_foldl, hvalue]
  refine lookup_foldl _ hash (fun m' hm' hname => ?_) (Or.inl (List.mem_map_of_mem hm))
  rw [FieldClass.mem_members_to_json] at hm hm'
  rw [FieldClass.snd_eq_of_mem hm' hm hname, hvalue]

theorem lookup_json_to_hash_of_notMem (r : Record c) (hash : Hash) {name : Bytes}
    (hname : name ∉ c.fields.map Prod.fst) :
    (json_to_hash (FieldClass.to_json r) hash).lookup name = hash.lookup name := by
  rw [json_to_hash_eq_foldl]
  exact lookup_foldl_of_notMem _ hash fun h => hname ((mem_names_to_json r name).mp h)

/-! ## What comes back -/

theorem pair_array_to_json_eq_null (reply : Reply) (jv_temp : Json) :
    pair_array_to_json reply jv_temp = .ok .null := by
  apply if_pos
  cases jv_temp <;> rfl

/-- The entries that the hash of the record holds, in any order. -/
def Stores {c : FieldClass} (r : Record c) (entries : List (Bytes × Bytes)) : Prop :=
  entries.Perm ((json_to_hash (FieldClass.to_json r) ∅).entries.map fun e => (e.1, e.2))

/-- The reply is converted to an object from which the record is restored. -/
def Restores {c : FieldClass} (r : Record c) (reply : Reply) : Prop :=
  ∃ jv, pair_array_to_json reply c.m_jv_temp = .ok jv ∧ jv.is_object = true ∧
    c.from_json jv = .ok r

theorem from_json_null (c : FieldClass) : c.from_json .null = .error (.type_error 305) := by
  obtain ⟨fields, hne, hnames⟩ := c
  cases fields with
  | nil => exact absurd rfl hne
  | cons field fields => rfl

theorem not_restores_of_eq_null {c : FieldClass} (r : Record c) (reply : Reply) :
    ¬ Restores r reply := by
  intro ⟨jv, hjv, hobject, _⟩
  rw [pair_array_to_json_eq_null, Except.ok.injEq] at hjv
  rw [← hjv] at hobject
  cases hobject

/-- **No record comes back.** For every record class, every record and every order in which its hash
is listed, `pair_array_to_json` returns null and `from_json` throws. -/
theorem not_restores {c : FieldClass} (r : Record c) {entries : List (Bytes × Bytes)}
    (_ : Stores r entries) :
    pair_array_to_json (hgetall entries) c.m_jv_temp = .ok .null ∧
      c.from_json .null = .error (.type_error 305) ∧ ¬ Restores r (hgetall entries) :=
  ⟨pair_array_to_json_eq_null _ _, from_json_null c, not_restores_of_eq_null r _⟩

/-- The account `bob` of user 7. -/
def bob : Record AccountInfo := (bytes "bob", (7 : BitVec 32), ())

/-- The hash of `bob`, listed backwards. -/
theorem not_restores_bob :
    Stores bob [(bytes "user_id", bytes "7"), (bytes "account", bytes "bob")] ∧
      ¬ Restores bob (hgetall [(bytes "user_id", bytes "7"), (bytes "account", bytes "bob")]) := by
  have h : Stores bob [(bytes "user_id", bytes "7"), (bytes "account", bytes "bob")] := by
    unfold Stores
    decide
  exact ⟨h, (not_restores bob h).2.2⟩

/-- It is not restored from the reply that lists it in the order of its fields either. -/
theorem bob_lost :
    Stores bob [(bytes "account", bytes "bob"), (bytes "user_id", bytes "7")] ∧
      pair_array_to_json (hgetall [(bytes "account", bytes "bob"), (bytes "user_id", bytes "7")])
        AccountInfo.m_jv_temp = .ok .null ∧
      ¬ Restores bob (hgetall [(bytes "account", bytes "bob"), (bytes "user_id", bytes "7")]) := by
  refine ⟨?_, rfl, not_restores_of_eq_null _ _⟩
  unfold Stores
  decide

end Redis

end SparkFrame.Resource
