import SparkFrame.Server.LoginModule

/-!
# What the login server writes

* `Connected`, `wrote`, `json_to_hash_of_client` : the commands of a record, and that they are sent;
* `SameValue`, `SameMembers`, `SameAccounts` : what the stores hold of the accounts, the counter left out;
* `Sets`, `Changes` : the fields that are set under a key; `sets_wrote` : **those whose commands are
  executed**; `Sets.sameValue_iff` : writes to Redis that change nothing;
* `HasRecord`, `sameMembers_update_one_iff` : updates in Mongo that change nothing.
-/

namespace SparkFrame.Server.LoginModule

open SparkFrame.Lib SparkFrame.Tools SparkFrame.Resource

variable {m : LoginModule} {s s' : Stores}

/-! ## Commands -/

theorem redis_client_eq_ok {map_key : Bytes} {server : Nat} (h : m.redis_client map_key = .ok server) :
    m.redis_resource map_key = some server := by
  unfold redis_client at h
  split at h
  · cases h
  · next hserver =>
    cases h
    exact hserver

theorem redis_client_of_eq {map_key : Bytes} {server : Nat} (h : m.redis_resource map_key = some server) :
    m.redis_client map_key = .ok server := by
  rw [redis_client, h]

theorem mongo_client_eq_ok : m.mongo_client = .ok () ↔ m.mongo_resource (bytes "default") = true := by
  unfold mongo_client
  cases m.mongo_resource (bytes "default") with
  | true => exact iff_of_true rfl rfl
  | false => exact iff_of_false (fun h => by cases h) Bool.false_ne_true

/-- Every command finds a connection. -/
structure Connected (commands : Commands) (jv : Json) : Prop where
  hset : ∀ member ∈ jv.members, Redis.hashValue member.2 ≠ none → commands.hset member.1 ≠ .disconnected
  expire : commands.expire ≠ .disconnected

theorem connected_executed (jv : Json) : Connected (.all .executed) jv := by
  have hsent : Command.executed ≠ .disconnected := by decide
  exact ⟨fun _ _ _ => hsent, hsent⟩

/-- The stores once the commands have been sent, which may be answered with errors. -/
def wrote (commands : Commands) (server : Nat) (jv : Json) (key : Bytes) (s : Stores) : Stores :=
  (hsetLoop server commands key jv.members s).1

section

variable {commands : Commands} {server : Nat} {key : Bytes}

/-- **The commands leave the documents and the counter alone.** -/
theorem frame_hsetLoop (server : Nat) (commands : Commands) (key : Bytes) (members : List (Bytes × Json))
    (s : Stores) :
    (hsetLoop server commands key members s).1.c_user_info = s.c_user_info ∧
      (hsetLoop server commands key members s).1.c_user_id = s.c_user_id := by
  induction members generalizing s with
  | nil => exact ⟨rfl, rfl⟩
  | cons member members ih =>
    rw [hsetLoop]
    split
    · exact ih s
    · split
      · exact ih (hset server key member s)
      · exact ih s
      · exact ⟨rfl, rfl⟩

theorem c_user_info_wrote (commands : Commands) (server : Nat) (jv : Json) (key : Bytes) (s : Stores) :
    (wrote commands server jv key s).c_user_info = s.c_user_info :=
  (frame_hsetLoop server commands key jv.members s).1

theorem c_user_id_wrote (commands : Commands) (server : Nat) (jv : Json) (key : Bytes) (s : Stores) :
    (wrote commands server jv key s).c_user_id = s.c_user_id :=
  (frame_hsetLoop server commands key jv.members s).2

theorem hsetLoop_snd_iff (server : Nat) (key : Bytes) (members : List (Bytes × Json)) (s : Stores) :
    (hsetLoop server commands key members s).2 = true ↔
      ∀ member ∈ members, Redis.hashValue member.2 ≠ none → commands.hset member.1 ≠ .disconnected := by
  induction members generalizing s with
  | nil => exact iff_of_true rfl fun _ h => absurd h List.not_mem_nil
  | cons member members ih =>
    rw [hsetLoop, List.forall_mem_cons]
    split
    · next hvalue => rw [ih, and_iff_right (absurd hvalue)]
    · next hvalue =>
      rw [imp_iff_right hvalue]
      split
      · next hsent => rw [ih, hsent, and_iff_right (by decide)]
      · next hsent => rw [ih, hsent, and_iff_right (by decide)]
      · next hsent => exact iff_of_false Bool.false_ne_true fun h => h.1 hsent

theorem json_to_hash_of_client (jv : Json) (key : Bytes) (s : Stores)
    (h : m.redis_resource [] = some server) (hsent : Connected commands jv) :
    m.json_to_hash commands jv key s = (wrote commands server jv key s, .ok ()) := by
  have hend := (hsetLoop_snd_iff server key jv.members s).mpr hsent.hset
  rw [json_to_hash, redis_client_of_eq h, wrote]
  rcases hloop : hsetLoop server commands key jv.members s with ⟨s', b⟩
  rw [hloop] at hend
  obtain rfl : b = true := hend
  simp only [hloop, if_neg hsent.expire]

theorem json_to_hash_eq_ok {jv : Json} (h : m.json_to_hash commands jv key s = (s', .ok ())) :
    ∃ server, m.redis_resource [] = some server ∧ Connected commands jv ∧
      s' = wrote commands server jv key s := by
  have hdef := h
  unfold json_to_hash at h
  split at h
  · cases h
  · next server hserver =>
    have hclient := redis_client_eq_ok hserver
    split at h
    · cases h
    · next hloop =>
      have hexpire : commands.expire ≠ .disconnected := by
        intro hexpire
        rw [if_pos hexpire] at h
        cases h
      have hsent : Connected commands jv :=
        ⟨(hsetLoop_snd_iff server key jv.members s).mp (congrArg Prod.snd hloop), hexpire⟩
      refine ⟨server, hclient, hsent, ?_⟩
      rw [json_to_hash_of_client jv key s hclient hsent] at hdef
      exact (congrArg Prod.fst hdef).symm

theorem exists_json_to_hash_error {jv : Json} (key : Bytes) (s : Stores) (h : ¬ Connected commands jv) :
    ∃ s' e, m.json_to_hash commands jv key s = (s', .error e) := by
  rcases hset : m.json_to_hash commands jv key s with ⟨s', e | ⟨⟩⟩
  · exact ⟨s', e, rfl⟩
  · obtain ⟨server, -, hsent, -⟩ := json_to_hash_eq_ok hset
    exact absurd hsent h

theorem frame_json_to_hash (commands : Commands) (jv : Json) (key : Bytes) (s : Stores) :
    (m.json_to_hash commands jv key s).1.c_user_info = s.c_user_info := by
  unfold json_to_hash
  split
  · rfl
  · next server _ =>
    have hframe := (frame_hsetLoop server commands key jv.members s).1
    split
    · next hloop =>
      rw [hloop] at hframe
      exact hframe
    · next hloop =>
      rw [hloop] at hframe
      exact hframe

end

/-! ## What the stores hold -/

/-- The same fields, or the same lack of them. -/
inductive SameValue : Option RedisValue → Option RedisValue → Prop where
  | none : SameValue none none
  | other : SameValue (some .other) (some .other)
  | hash {fields fields' : Hash} (h : ∀ name, fields'.lookup name = fields.lookup name) :
    SameValue (some (.hash fields)) (some (.hash fields'))

def SameMembers (doc doc' : Json) : Prop := ∀ name, doc'.find name = doc.find name

/-- The keys of Redis and the documents of Mongo are the same. -/
structure SameAccounts (s s' : Stores) : Prop where
  redis : ∀ server key, SameValue ((s.redis server).lookup key) ((s'.redis server).lookup key)
  documents : List.Forall₂ SameMembers s.c_user_info s'.c_user_info

theorem SameValue.refl (value : Option RedisValue) : SameValue value value := by
  rcases value with _ | fields | _
  · exact .none
  · exact .hash fun _ => rfl
  · exact .other

theorem forall₂_sameMembers_refl (docs : List Json) : List.Forall₂ SameMembers docs docs := by
  rw [List.forall₂_same]
  exact fun _ _ _ => rfl

theorem SameAccounts.of_eq (hredis : s'.redis = s.redis) (hdocs : s'.c_user_info = s.c_user_info) :
    SameAccounts s s' := by
  constructor
  · intro server key
    rw [hredis]
    exact .refl _
  · rw [hdocs]
    exact forall₂_sameMembers_refl _

/-! ## Writes to Redis -/

/-- The value has this string in the field, or can have none. -/
def Holds (name stored : Bytes) : Option RedisValue → Prop
  | none => False
  | some .other => True
  | some (.hash fields) => fields.lookup name = some stored

/-- What is set is not all there already. -/
def Changes (set : Bytes → Option Bytes) (value : Option RedisValue) : Prop :=
  ∃ name stored, set name = some stored ∧ ¬ Holds name stored value

/-- The second value is the first with these fields set. -/
inductive Sets (set : Bytes → Option Bytes) : Option RedisValue → Option RedisValue → Prop where
  | none (h : ∀ name, set name = none) : Sets set none none
  | created {fields : Hash} (hset : ∃ name, set name ≠ none) (h : ∀ name, fields.lookup name = set name) :
    Sets set none (some (.hash fields))
  | other : Sets set (some .other) (some .other)
  | hash {fields fields' : Hash} (h : ∀ name, fields'.lookup name = (set name).or (fields.lookup name)) :
    Sets set (some (.hash fields)) (some (.hash fields'))

namespace Sets

variable {set set' : Bytes → Option Bytes} {value value' value'' : Option RedisValue}

theorem refl (value : Option RedisValue) : Sets (fun _ => Option.none) value value := by
  rcases value with _ | fields | _
  · exact .none fun _ => rfl
  · exact .hash fun _ => rfl
  · exact .other

theorem trans (h : Sets set value value') (h' : Sets set' value' value'') :
    Sets (fun name => (set' name).or (set name)) value value'' := by
  cases h with
  | none hnone =>
    cases h' with
    | none hnone' => exact .none fun name => by rw [hnone, hnone', Option.or_none]
    | created hset hfields =>
      obtain ⟨name, hname⟩ := hset
      refine .created ⟨name, ?_⟩ fun name => ?_
      · rwa [hnone, Option.or_none]
      · rw [hfields, hnone, Option.or_none]
  | created hset hfields =>
    cases h' with
    | hash hfields' =>
      obtain ⟨name, hname⟩ := hset
      refine .created ⟨name, ?_⟩ fun name => ?_
      · rw [ne_eq, Option.or_eq_none_iff, not_and_or]
        exact Or.inr hname
      · rw [hfields', hfields]
  | other =>
    cases h' with
    | other => exact .other
  | hash hfields =>
    cases h' with
    | hash hfields' => exact .hash fun name => by rw [hfields', hfields, Option.or_assoc]

/-- **One command** sets its field. -/
theorem hset {member : Bytes × Json} {stored : Bytes} (hvalue : Redis.hashValue member.2 = some stored)
    (value : Option RedisValue) :
    Sets (fun name => if name = member.1 then some stored else Option.none) value
      (some (hsetValue member value)) := by
  have hfields : ∀ (fields : Hash) name, (Redis.hsetMember fields member).lookup name =
      (if name = member.1 then some stored else Option.none).or (fields.lookup name) := by
    intro fields name
    split
    · next hname =>
      rw [hname, Redis.lookup_hsetMember_self hvalue]
      rfl
    · next hname => rw [Redis.lookup_hsetMember_of_ne hname, Option.none_or]
  rcases value with _ | fields | _
  · refine .created ⟨member.1, by rw [if_pos rfl]; exact Option.some_ne_none stored⟩ fun name => ?_
    rw [hfields, AList.lookup_empty, Option.or_none]
  · exact .hash (hfields fields)
  · exact .other

/-- **Fields that are set leave the value as it was** if they were there already. -/
theorem sameValue_iff (h : Sets set value value') : SameValue value value' ↔ ¬ Changes set value := by
  unfold Changes
  cases h with
  | none hnone =>
    refine iff_of_true .none ?_
    rintro ⟨name, stored, hstored, -⟩
    rw [hnone] at hstored
    cases hstored
  | created hset hfields =>
    obtain ⟨name, hname⟩ := hset
    obtain ⟨stored, hstored⟩ := Option.ne_none_iff_exists'.mp hname
    exact iff_of_false (fun h => by cases h) fun h => h ⟨name, stored, hstored, id⟩
  | other => exact iff_of_true .other fun ⟨_, _, _, hholds⟩ => hholds trivial
  | @hash fields fields' hfields =>
    constructor
    · rintro (_ | _ | hsame) ⟨name, stored, hstored, hholds⟩
      apply hholds
      show fields.lookup name = some stored
      rw [← hsame, hfields, hstored, Option.some_or]
    · intro h
      refine .hash fun name => ?_
      rw [hfields]
      cases hstored : set name with
      | none => rw [Option.none_or]
      | some stored =>
        have hholds : Holds name stored (some (.hash fields)) := by
          by_contra hnew
          exact h ⟨name, stored, hstored, hnew⟩
        exact hholds.symm

end Sets

section

variable {commands : Commands} {server : Nat} {key : Bytes}

theorem redis_hset (member : Bytes × Json) (s : Stores) : (hset server key member s).redis =
    Function.update s.redis server
      ((s.redis server).insert key (hsetValue member ((s.redis server).lookup key))) := rfl

theorem lookup_hset_self (member : Bytes × Json) (s : Stores) :
    ((hset server key member s).redis server).lookup key =
      some (hsetValue member ((s.redis server).lookup key)) := by
  rw [redis_hset, Function.update_self, AList.lookup_insert]

theorem lookup_hset_of_ne (member : Bytes × Json) (s : Stores) {server' : Nat} {key' : Bytes}
    (h : server' ≠ server ∨ key' ≠ key) :
    ((hset server key member s).redis server').lookup key' = (s.redis server').lookup key' := by
  by_cases hserver : server' = server
  · rw [redis_hset, hserver, Function.update_self,
      AList.lookup_insert_ne (h.resolve_left (not_not.mpr hserver))]
  · rw [redis_hset, Function.update_of_ne hserver]

theorem lookup_hsetLoop_of_ne (members : List (Bytes × Json)) (s : Stores) {server' : Nat} {key' : Bytes}
    (h : server' ≠ server ∨ key' ≠ key) :
    ((hsetLoop server commands key members s).1.redis server').lookup key' =
      (s.redis server').lookup key' := by
  induction members generalizing s with
  | nil => rfl
  | cons member members ih =>
    rw [hsetLoop]
    split
    · exact ih s
    · split
      · rw [ih, lookup_hset_of_ne member s h]
      · exact ih s
      · rfl

/-- **The loop** sets the fields whose commands are executed. -/
theorem sets_hsetLoop (server : Nat) (key : Bytes) {g : Bytes → Option Bytes}
    (members : List (Bytes × Json)) (s : Stores)
    (hvalues : ∀ member ∈ members, Redis.hashValue member.2 = g member.1)
    (hend : (hsetLoop server commands key members s).2 = true) :
    Sets (fun name => if name ∈ members.map Prod.fst ∧ commands.hset name = .executed then g name else none)
      ((s.redis server).lookup key) (((hsetLoop server commands key members s).1.redis server).lookup key) := by
  induction members generalizing s with
  | nil =>
    simp only [List.map_nil, List.not_mem_nil, false_and, if_false]
    exact .refl _
  | cons member members ih =>
    rw [List.forall_mem_cons] at hvalues
    obtain ⟨hvalue, hvalues⟩ := hvalues
    have hskip : g member.1 = none ∨ commands.hset member.1 ≠ .executed →
        (fun name => if name ∈ (member :: members).map Prod.fst ∧ commands.hset name = .executed then g name
          else none) =
        fun name => if name ∈ members.map Prod.fst ∧ commands.hset name = .executed then g name else none := by
      intro hnone
      funext name
      by_cases hname : name = member.1
      · subst hname
        rcases hnone with hnone | hnone
        · rw [hnone, ite_self, ite_self]
        · rw [if_neg fun h => hnone h.2, if_neg fun h => hnone h.2]
      · simp only [List.map_cons, List.mem_cons, hname, false_or]
    rw [hsetLoop] at hend ⊢
    split at hend
    · next hnone =>
      rw [hskip (Or.inl (hvalue.symm.trans hnone)), if_pos hnone]
      exact ih s hvalues hend
    · next hsome =>
      rw [if_neg hsome]
      split at hend
      · next hexecuted =>
        obtain ⟨stored, hstored⟩ := Option.ne_none_iff_exists'.mp hsome
        have hrest := ih (hset server key member s) hvalues hend
        rw [lookup_hset_self] at hrest
        have hsets := (Sets.hset hstored ((s.redis server).lookup key)).trans hrest
        have heq : (fun name => (if name ∈ members.map Prod.fst ∧ commands.hset name = .executed then g name
              else none).or (if name = member.1 then some stored else none)) =
            fun name => if name ∈ (member :: members).map Prod.fst ∧ commands.hset name = .executed then g name
              else none := by
          funext name
          by_cases hname : name = member.1
          · subst hname
            simp only [List.map_cons, List.mem_cons, true_or, hexecuted, and_true, if_true, ← hvalue, hstored]
            split
            · rfl
            · rfl
          · rw [if_neg hname, Option.or_none]
            simp only [List.map_cons, List.mem_cons, hname, false_or]
        rwa [heq] at hsets
      · next hrefused =>
        rw [hskip (Or.inr (by rw [hrefused]; decide))]
        exact ih s hvalues hend
      · cases hend

end

/-- What the commands set. -/
def written (commands : Commands) (jv : Json) (name : Bytes) : Option Bytes :=
  if commands.hset name = .executed then (jv.find name).bind Redis.hashValue else none

section

variable {c : FieldClass} {commands : Commands} {server : Nat} {key : Bytes}

/-- **The commands for a record** set its fields. -/
theorem sets_wrote (server : Nat) (key : Bytes) (r : Record c) (s : Stores)
    (h : Connected commands (FieldClass.to_json r)) :
    Sets (written commands (FieldClass.to_json r)) ((s.redis server).lookup key)
      (((wrote commands server (FieldClass.to_json r) key s).redis server).lookup key) := by
  have hloop := sets_hsetLoop server key
    (g := fun name => ((FieldClass.to_json r).find name).bind Redis.hashValue)
    (FieldClass.to_json r).members s (fun member hmember => by rw [FieldClass.find_to_json hmember]; rfl)
    ((hsetLoop_snd_iff server key _ s).mpr h.hset)
  have heq : (fun name => if name ∈ (FieldClass.to_json r).members.map Prod.fst ∧
      commands.hset name = .executed then ((FieldClass.to_json r).find name).bind Redis.hashValue else none) =
      written commands (FieldClass.to_json r) := by
    funext name
    unfold written
    cases hfind : (FieldClass.to_json r).find name with
    | none => rw [Option.bind_none, ite_self, ite_self]
    | some value =>
      have hmem := List.mem_map_of_mem (f := Prod.fst) (Json.mem_members_of_find hfind)
      simp only [hmem, true_and]
  rwa [heq] at hloop

/-- Where every command is executed, these are the fields of `Redis.json_to_hash`. -/
theorem sets_json_to_hash (r : Record c) (fields : Hash) :
    Sets (written (.all .executed) (FieldClass.to_json r)) (some (.hash fields))
      (some (.hash (Redis.json_to_hash (FieldClass.to_json r) fields))) := by
  refine .hash fun name => ?_
  show _ = ((FieldClass.to_json r).find name |>.bind Redis.hashValue).or (fields.lookup name)
  by_cases hname : name ∈ c.fields.map Prod.fst
  · obtain ⟨member, hmember, rfl⟩ := List.mem_map.mp ((Redis.mem_names_to_json r name).mpr hname)
    obtain ⟨stored, hstored⟩ := Redis.hashValue_of_mem (FieldClass.mem_members_to_json.mp hmember)
    rw [Redis.lookup_json_to_hash r fields hmember, FieldClass.find_to_json hmember, Option.bind_some,
      hstored, Option.some_or]
  · have hfind : (FieldClass.to_json r).find name = none := by
      by_contra hsome
      obtain ⟨value, hvalue⟩ := Option.ne_none_iff_exists'.mp hsome
      exact hname ((Redis.mem_names_to_json r name).mp
        (List.mem_map_of_mem (f := Prod.fst) (Json.mem_members_of_find hvalue)))
    rw [Redis.lookup_json_to_hash_of_notMem r fields hname, hfind, Option.bind_none, Option.none_or]

theorem lookup_wrote_of_ne (commands : Commands) (jv : Json) (s : Stores) {server' : Nat} {key' : Bytes}
    (h : server' ≠ server ∨ key' ≠ key) :
    ((wrote commands server jv key s).redis server').lookup key' = (s.redis server').lookup key' :=
  lookup_hsetLoop_of_ne jv.members s h

end

theorem account_redis_key_ne (account : Bytes) (user_id : BitVec 32) :
    account_redis_key account ≠ user_info_redis_key user_id := by
  intro h
  have hlast := congrArg List.getLast? h
  rw [account_redis_key, user_info_redis_key, List.getLast?_append_of_ne_nil _ (by decide),
    List.getLast?_append_of_ne_nil _ (by decide)] at hlast
  exact absurd hlast (by decide)

/-! ## Writes to Mongo -/

section

variable {c : FieldClass}

theorem setMembers_to_json (r : Record c) (doc : Json) :
    setMembers (FieldClass.to_json r) doc =
      (FieldClass.to_json r).members.foldl (fun doc e => doc.assign e.1 e.2) doc := by
  have hobject := FieldClass.is_object_to_json r
  unfold setMembers
  cases hjv : FieldClass.to_json r with
  | object => rfl
  | _ =>
    rw [hjv] at hobject
    cases hobject

theorem find_setMembers (r : Record c) {doc : Json} (hdoc : doc.is_object = true) {e : Bytes × Json}
    (he : e ∈ (FieldClass.to_json r).members) :
    (setMembers (FieldClass.to_json r) doc).find e.1 = some e.2 := by
  rw [setMembers_to_json]
  refine Json.find_foldl_assign _ (.inr hdoc) (fun e' he' hname => ?_) (.inl he)
  rw [FieldClass.mem_members_to_json] at he he'
  exact FieldClass.snd_eq_of_mem he' he hname

theorem sameMembers_setMembers_iff (r : Record c) {doc : Json} (hdoc : doc.is_object = true) :
    SameMembers doc (setMembers (FieldClass.to_json r) doc) ↔
      ∀ e ∈ (FieldClass.to_json r).members, doc.find e.1 = some e.2 := by
  constructor
  · intro h e he
    rw [← h, find_setMembers r hdoc he]
  · intro h name
    by_cases hname : ∃ e ∈ (FieldClass.to_json r).members, e.1 = name
    · obtain ⟨e, he, rfl⟩ := hname
      rw [find_setMembers r hdoc he, h e he]
    · rw [setMembers_to_json]
      exact Json.find_foldl_assign_of_notMem _ doc fun e he heq => hname ⟨e, he, heq⟩

theorem is_object_of_hasNumber {name : Bytes} {value : BitVec 32} {doc : Json}
    (h : hasNumber name value doc = true) : doc.is_object = true := by
  cases doc with
  | object => rfl
  | _ => cases h

/-- The first document of the user has the record already. -/
def HasRecord (user_id : BitVec 32) (fields : Json) (docs : List Json) : Prop :=
  ∃ doc, docs.find? (hasNumber (bytes "user_id") user_id) = some doc ∧
    ∀ e ∈ fields.members, doc.find e.1 = some e.2

theorem sameMembers_update_one_iff (user_id : BitVec 32) (r : Record c) (docs : List Json) :
    List.Forall₂ SameMembers docs (update_one user_id (FieldClass.to_json r) docs) ↔
      HasRecord user_id (FieldClass.to_json r) docs := by
  unfold HasRecord
  induction docs with
  | nil => exact iff_of_false (fun h => by cases h) fun ⟨doc, hdoc, _⟩ => by cases hdoc
  | cons doc docs ih =>
    rw [update_one, List.find?_cons]
    cases hnumber : hasNumber (bytes "user_id") user_id doc with
    | true =>
      simp only [if_true, List.forall₂_cons, forall₂_sameMembers_refl docs, and_true, Option.some.injEq,
        exists_eq_left']
      exact sameMembers_setMembers_iff r (is_object_of_hasNumber hnumber)
    | false =>
      simp only [Bool.false_eq_true, if_false, List.forall₂_cons, ih]
      exact and_iff_right fun _ => rfl

theorem exists_mem_update_one (user_id : BitVec 32) (fields : Json) (docs : List Json) :
    ∃ doc, doc.is_object = true ∧ setMembers fields doc ∈ update_one user_id fields docs := by
  induction docs with
  | nil => exact ⟨_, rfl, List.mem_singleton_self _⟩
  | cons doc docs ih =>
    rw [update_one]
    split
    · next hnumber => exact ⟨doc, is_object_of_hasNumber hnumber, List.mem_cons_self ..⟩
    · obtain ⟨doc', hobject, hmem⟩ := ih
      exact ⟨doc', hobject, List.mem_cons_of_mem _ hmem⟩

end

end SparkFrame.Server.LoginModule
