import SparkFrame.Lib.Run
import SparkFrame.Server.StoreWrites

/-!
# Accounts keep their users

Logins on the two stores of `LoginModule`, where keys of Redis may expire between any two of them. What
Redis holds of an account is never read back, so an account is found only when Redis answers with an error
and a document has the account as its `user_account`.

* `IsDocument`, `HasDocument`, `Documented` : the users of the accounts;
* `query_from_redis_eq_ok`, `Found`, `user_login_cases` : how an account is found;
* `Event`, `step`, `answered`, `Consistent` : runs, and users kept by their accounts;
* `GuestFound`, `Reuses`, `user_login_of_not_reuses` : what a login does unless a guest is given a name
  that is found;
* `consistent_of_not_reuses` : **accounts keep their users** in every run without such guests;
* `changes_user` : a guest with such a name is registered a second time.
-/

namespace SparkFrame.Server.LoginModule

open SparkFrame.Lib SparkFrame.Tools SparkFrame.Resource

variable {m : LoginModule} {s s' : Stores} {i : Inputs} {f : Faults} {login_req : LoginRequest}
  {is_robot : Bool}

/-! ## Documents -/

/-- The document is read as this account of this user. -/
def IsDocument (account : Bytes) (user_id : BitVec 32) (doc : Json) : Prop :=
  AccountInfo.from_json doc = .ok (account, user_id, ())

def HasDocument (s : Stores) (account : Bytes) (user_id : BitVec 32) : Prop :=
  ∃ doc ∈ s.c_user_info, IsDocument account user_id doc

/-- The documents give each account one user and each user one account, and are found under the account
they are read as. -/
structure Documented (s : Stores) : Prop where
  named : ∀ doc ∈ s.c_user_info, ∀ a b u, hasString (bytes "user_account") a doc = true →
    IsDocument b u doc → b = a
  one_user : ∀ a u v, HasDocument s a u → HasDocument s a v → u = v
  one_account : ∀ a b u, HasDocument s a u → HasDocument s b u → a = b

theorem hasDocument_congr (h : s'.c_user_info = s.c_user_info) (a : Bytes) (u : BitVec 32) :
    HasDocument s' a u ↔ HasDocument s a u := by
  rw [HasDocument, h, HasDocument]

/-! ## How an account is found -/

/-- Redis answers an `HGETALL` with an error. -/
def Refuses (m : LoginModule) (f : Faults) (key : Bytes) (s : Stores) : Prop :=
  ∃ server, m.redis_resource (bytes "default") = some server ∧
    (f.hgetall = .refused ∨ f.hgetall = .executed ∧ (s.redis server).lookup key = some .other)

theorem hgetall_eq_ok {key : Bytes} {r : Reply} (h : m.hgetall f key s = .ok r) :
    ∃ server, m.redis_resource (bytes "default") = some server ∧
      (f.hgetall = .refused ∧ r = .error [] ∨
        f.hgetall = .executed ∧ r = hgetallReply ((s.redis server).lookup key)) := by
  unfold hgetall at h
  split at h
  · cases h
  · next server hserver =>
    refine ⟨server, redis_client_eq_ok hserver, ?_⟩
    cases hf : f.hgetall with
    | executed =>
      rw [hf] at h
      exact Or.inr ⟨rfl, (Except.ok.inj h).symm⟩
    | refused =>
      rw [hf] at h
      exact Or.inl ⟨rfl, (Except.ok.inj h).symm⟩
    | disconnected =>
      rw [hf] at h
      cases h

/-- **Redis never has an account.** The handler throws unless the reply is an error. -/
theorem query_from_redis_eq_ok {account : Bytes} {found : Option (Record AccountInfo)}
    (h : m.query_from_redis f account s = .ok found) :
    found = none ∧ Refuses m f (account_redis_key account) s := by
  unfold query_from_redis at h
  split at h
  · cases h
  · next hnull =>
    obtain ⟨server, -, ⟨-, hr⟩ | ⟨-, hr⟩⟩ := hgetall_eq_ok hnull
    · cases hr
    · exact absurd hr (by rcases (s.redis server).lookup _ with _ | _ | _ <;> exact fun h => by cases h)
  · next herror =>
    refine ⟨(Except.ok.inj h).symm, ?_⟩
    obtain ⟨server, hserver, ⟨hf, -⟩ | ⟨hf, hr⟩⟩ := hgetall_eq_ok herror
    · exact ⟨server, hserver, Or.inl hf⟩
    · refine ⟨server, hserver, Or.inr ⟨hf, ?_⟩⟩
      rcases hkey : (s.redis server).lookup (account_redis_key account) with _ | _ | _
      · rw [hkey] at hr
        cases hr
      · rw [hkey] at hr
        cases hr
      · rfl
  · rw [Redis.pair_array_to_json_eq_null] at h
    dsimp only at h
    rw [Redis.from_json_null] at h
    cases h

theorem query_from_redis_of_refuses {account : Bytes} (h : Refuses m f (account_redis_key account) s) :
    m.query_from_redis f account s = .ok none := by
  obtain ⟨server, hserver, hf | ⟨hf, hother⟩⟩ := h
  · simp only [query_from_redis, hgetall, redis_client_of_eq hserver, hf]
  · simp only [query_from_redis, hgetall, redis_client_of_eq hserver, hf, hother, hgetallReply]

theorem query_from_mongo_eq_ok {account : Bytes} {found : Option (Record AccountInfo)} :
    m.query_from_mongo f account s = .ok found ↔
      m.mongo_resource (bytes "default") = true ∧ f.find_one_throws = false ∧
      ∃ doc account_info, s.c_user_info.find? (hasString (bytes "user_account") account) = some doc ∧
        AccountInfo.from_json doc = .ok account_info ∧ found = some account_info := by
  rw [← mongo_client_eq_ok]
  constructor
  · intro h
    unfold query_from_mongo at h
    split at h
    · cases h
    · next hclient =>
      split at h
      · cases h
      · next hthrows =>
        split at h
        · cases h
        · next doc hdoc =>
          split at h
          · cases h
          · next account_info hinfo =>
            cases h
            exact ⟨hclient, Bool.eq_false_iff.mpr hthrows, doc, account_info, hdoc, hinfo, rfl⟩
  · rintro ⟨hclient, hthrows, doc, account_info, hdoc, hinfo, rfl⟩
    simp only [query_from_mongo, hclient, hthrows, Bool.false_eq_true, if_false, hdoc, hinfo]

/-- An account is found in Mongo, and sent to Redis. -/
structure Found (m : LoginModule) (f : Faults) (account : Bytes) (s : Stores) (doc : Json)
    (account_info : Record AccountInfo) (server : Nat) : Prop where
  refuses : Refuses m f (account_redis_key account) s
  mongo : m.mongo_resource (bytes "default") = true
  find_one : f.find_one_throws = false
  document : s.c_user_info.find? (hasString (bytes "user_account") account) = some doc
  read : AccountInfo.from_json doc = .ok account_info
  client : m.redis_resource [] = some server
  sent : Connected f.found (FieldClass.to_json account_info)

/-- The stores once the account has been sent to Redis. -/
def cached (f : Faults) (account_info : Record AccountInfo) (server : Nat) (s : Stores) : Stores :=
  wrote f.found server (FieldClass.to_json account_info) (account_redis_key account_info.1) s

/-- **An account is never reported as missing.** -/
theorem query_user_account_eq_ok {account : Bytes} {found : Option (Record AccountInfo)} :
    m.query_user_account f account s = (s', .ok found) ↔
      ∃ doc account_info server, Found m f account s doc account_info server ∧
        found = some account_info ∧ s' = cached f account_info server s := by
  constructor
  · intro h
    unfold query_user_account at h
    cases hredis : m.query_from_redis f account s with
    | error e =>
      rw [hredis] at h
      cases h
    | ok found' =>
      obtain ⟨rfl, hrefuses⟩ := query_from_redis_eq_ok hredis
      rw [hredis] at h
      cases hmongo : m.query_from_mongo f account s with
      | error e =>
        rw [hmongo] at h
        cases h
      | ok found' =>
        obtain ⟨hclient, hthrows, doc, account_info, hdoc, hinfo, rfl⟩ := query_from_mongo_eq_ok.mp hmongo
        rw [hmongo] at h
        dsimp only at h
        split at h
        · cases h
        · next hset =>
          cases h
          obtain ⟨server, hserver, hsent, rfl⟩ := json_to_hash_eq_ok hset
          exact ⟨doc, account_info, server, ⟨hrefuses, hclient, hthrows, hdoc, hinfo, hserver, hsent⟩, rfl,
            rfl⟩
  · rintro ⟨doc, account_info, server, h, rfl, rfl⟩
    have hmongo := query_from_mongo_eq_ok.mpr
      ⟨h.mongo, h.find_one, doc, account_info, h.document, h.read, rfl⟩
    simp only [query_user_account, query_from_redis_of_refuses h.refuses, hmongo,
      json_to_hash_of_client _ _ s h.client h.sent]
    rfl

theorem frame_query_user_account (f : Faults) (account : Bytes) (s : Stores) :
    (m.query_user_account f account s).1.c_user_info = s.c_user_info := by
  unfold query_user_account
  dsimp only
  split
  · rfl
  · rfl
  · next account_info _ =>
    have hframe := frame_json_to_hash (m := m) f.found (FieldClass.to_json account_info)
      (account_redis_key account_info.1) s
    split
    · next hset =>
      rw [hset] at hframe
      exact hframe
    · next hset =>
      rw [hset] at hframe
      exact hframe

theorem user_login_of_found {doc : Json} {account_info : Record AccountInfo} {server : Nat}
    (is_robot : Bool) (hname : (loginAccount i login_req).isEmpty = false)
    (h : Found m f (loginAccount i login_req) s doc account_info server) :
    m.user_login i f login_req is_robot s =
      if is_need_generate_new_account login_req.account login_req.app_type then
        m.register i f login_req is_robot account_info.1 (cached f account_info server s)
      else (cached f account_info server s, m.respond i login_req account_info.1 account_info.2.1) := by
  have hquery := query_user_account_eq_ok.mpr ⟨doc, account_info, server, h, rfl, rfl⟩
  simp only [user_login, hname, hquery, Bool.false_eq_true, if_false]

/-- **What a login comes to.** -/
theorem user_login_cases (m : LoginModule) (i : Inputs) (f : Faults) (login_req : LoginRequest)
    (is_robot : Bool) (s : Stores) :
    (loginAccount i login_req = [] ∧ m.user_login i f login_req is_robot s = (s, .failed CODE_ACOCUNT_EMPTY) ∨
      ∃ s', ∃ e : Exit, m.user_login i f login_req is_robot s = (s', e.answer) ∧
        s'.c_user_info = s.c_user_info) ∨
    (loginAccount i login_req).isEmpty = false ∧
      ∃ doc account_info server, Found m f (loginAccount i login_req) s doc account_info server := by
  cases hempty : (loginAccount i login_req).isEmpty with
  | true =>
    refine Or.inl (Or.inl ⟨List.isEmpty_iff.mp hempty, ?_⟩)
    simp only [user_login, hempty, if_true]
  | false =>
    have hframe := frame_query_user_account (m := m) f (loginAccount i login_req) s
    rcases hquery : m.query_user_account f (loginAccount i login_req) s with ⟨s', e | found⟩
    · rw [hquery] at hframe
      refine Or.inl (Or.inr ⟨s', e, ?_, hframe⟩)
      simp only [user_login, hempty, hquery, Bool.false_eq_true, if_false]
    · obtain ⟨doc, account_info, server, hfound, -, -⟩ := query_user_account_eq_ok.mp hquery
      exact Or.inr ⟨rfl, doc, account_info, server, hfound⟩

theorem user_id_of_respond {account : Bytes} {user_id : BitVec 32} {response : LoginResponse}
    {notify : NotifyLoginRequest}
    (h : m.respond i login_req account user_id = .success response notify) :
    response.user_id = user_id := by
  unfold respond at h
  split at h
  · cases h
  · cases h
  · injection h with h
    rw [← h]

/-! ## Runs -/

/-- A login with the fate of its store operations, or the end of a key of Redis. -/
inductive Event where
  | user_login (i : Inputs) (f : Faults) (login_req : LoginRequest) (is_robot : Bool)
  | expire (server : Nat) (key : Bytes)

def step (m : LoginModule) (s : Stores) : Event → Option (Stores × Option Answer)
  | .user_login i f login_req is_robot =>
    let r := m.user_login i f login_req is_robot s
    some (r.1, some r.2)
  | .expire server key =>
    some ({ s with redis := Function.update s.redis server ((s.redis server).erase key) }, none)

/-- The account a login is about. -/
def Event.loginAccount : Event → Option Bytes
  | .user_login i _ login_req _ => some (LoginModule.loginAccount i login_req)
  | .expire _ _ => none

/-- The account of a successful login, with the user it is answered with. -/
def answered (x : Step Stores Event (Option Answer)) : Option (Bytes × BitVec 32) :=
  match x.event.loginAccount, x.out with
  | some account, some (.success response _) => some (account, response.user_id)
  | _, _ => none

/-- An account that has a user before the first step is answered with it in the second. -/
def Keeps (x y : Step Stores Event (Option Answer)) : Prop :=
  ∀ account u v, HasDocument x.before account u → answered y = some (account, v) → v = u

/-- An account that was registered with a user is answered with it from then on, and no two accounts are
answered with the same user. -/
structure Consistent (tr : List (Step Stores Event (Option Answer))) : Prop where
  again : ∀ x ∈ tr, Keeps x x
  later : tr.Pairwise Keeps
  distinct : ∀ x ∈ tr, ∀ y ∈ tr, ∀ a b u, answered x = some (a, u) → answered y = some (b, u) → a = b

/-- The login of a guest whose new name is found, as this account of this user. -/
structure GuestFound (m : LoginModule) (i : Inputs) (f : Faults) (login_req : LoginRequest) (s : Stores)
    (account : Bytes) (user_id : BitVec 32) (server : Nat) : Prop where
  guest : is_need_generate_new_account login_req.account login_req.app_type = true
  named : i.object_id ≠ []
  found : ∃ doc, Found m f i.object_id s doc (account, user_id, ()) server

/-- **The condition that fails.** A guest is given a name that is found. -/
def Reuses (m : LoginModule) (s : Stores) : Event → Prop
  | .user_login i f login_req _ =>
    ∃ account user_id server, GuestFound m i f login_req s account user_id server
  | .expire _ _ => False

/-- **A login** of anyone else answers with the user of a document, if with any, and leaves the documents
alone. -/
theorem user_login_of_not_reuses (h : ¬ Reuses m s (.user_login i f login_req is_robot)) :
    (m.user_login i f login_req is_robot s).1.c_user_info = s.c_user_info ∧
      ∀ response notify, (m.user_login i f login_req is_robot s).2 = .success response notify →
        ∃ doc ∈ s.c_user_info, ∃ b, hasString (bytes "user_account") (loginAccount i login_req) doc = true ∧
          IsDocument b response.user_id doc := by
  obtain (⟨-, heq⟩ | ⟨s', e, heq, hframe⟩) | ⟨hname, doc, account_info, server, hfound⟩ :=
    user_login_cases m i f login_req is_robot s
  · rw [heq]
    exact ⟨rfl, fun _ _ hsuccess => by cases hsuccess⟩
  · rw [heq]
    exact ⟨hframe, fun _ _ hsuccess => by cases e <;> cases hsuccess⟩
  · have hguest : ¬ is_need_generate_new_account login_req.account login_req.app_type = true := by
      intro hguest
      have haccount : loginAccount i login_req = i.object_id := if_pos hguest
      rw [haccount] at hname hfound
      exact h ⟨account_info.1, account_info.2.1, server, hguest, List.isEmpty_eq_false_iff.mp hname, doc,
        hfound⟩
    rw [user_login_of_found is_robot hname hfound, if_neg hguest]
    refine ⟨c_user_info_wrote .., fun response notify hsuccess => ?_⟩
    refine ⟨doc, List.mem_of_find?_eq_some hfound.document, account_info.1,
      List.find?_some hfound.document, ?_⟩
    rw [user_id_of_respond hsuccess]
    exact hfound.read

/-- What happened before fits the documents, which have not changed. -/
structure Recorded (s₀ : Stores) (tr : List (Step Stores Event (Option Answer))) (s : Stores) : Prop where
  documents : s.c_user_info = s₀.c_user_info
  before : ∀ x ∈ tr, x.before.c_user_info = s₀.c_user_info
  answered : ∀ x ∈ tr, ∀ a u, answered x = some (a, u) → HasDocument s₀ a u

variable {s₀ : Stores} {tr : List (Step Stores Event (Option Answer))}

theorem Recorded.snoc {e : Event} {o : Option Answer} (h : Recorded s₀ tr s)
    (hdocs : s'.c_user_info = s.c_user_info)
    (hanswered : ∀ a u, LoginModule.answered ⟨s, e, o, s'⟩ = some (a, u) → HasDocument s₀ a u) :
    Recorded s₀ (tr ++ [⟨s, e, o, s'⟩]) s' where
  documents := hdocs.trans h.documents
  before := by
    rw [List.forall_mem_append, List.forall_mem_singleton]
    exact ⟨h.before, h.documents⟩
  answered := by
    rw [List.forall_mem_append, List.forall_mem_singleton]
    exact ⟨h.answered, hanswered⟩

theorem Recorded.step (h₀ : Documented s₀) {e : Event} {o : Option Answer} (hs : Recorded s₀ tr s)
    (hok : ¬ Reuses m s e) (h : LoginModule.step m s e = some (s', o)) :
    Recorded s₀ (tr ++ [⟨s, e, o, s'⟩]) s' := by
  cases e with
  | expire server key =>
    cases h
    refine Recorded.snoc hs ?_ ?_
    · rfl
    · intro a u hau
      cases hau
  | user_login i f login_req is_robot =>
    cases h
    obtain ⟨hdocs, hsuccess⟩ := user_login_of_not_reuses hok
    apply hs.snoc hdocs
    intro a u hau
    unfold LoginModule.answered at hau
    split at hau
    · next haccount hout =>
      cases hau
      cases haccount
      obtain ⟨doc, hdoc, b, hnamed, hread⟩ := hsuccess _ _ (Option.some.inj hout)
      rw [hs.documents] at hdoc
      obtain rfl := h₀.named doc hdoc _ _ _ hnamed hread
      exact ⟨doc, hdoc, hread⟩
    · cases hau

theorem Recorded.consistent (h₀ : Documented s₀) (h : Recorded s₀ tr s) : Consistent tr := by
  have hkeeps : ∀ x ∈ tr, ∀ y ∈ tr, Keeps x y := by
    intro x hx y hy account u v hu hv
    have hbefore := (hasDocument_congr (h.before x hx) account u).mp hu
    exact h₀.one_user account v u (h.answered y hy account v hv) hbefore
  refine ⟨fun x hx => hkeeps x hx x hx, List.pairwise_of_forall_mem_list hkeeps, ?_⟩
  intro x hx y hy a b u ha hb
  exact h₀.one_account a b u (h.answered x hx a u ha) (h.answered y hy b u hb)

/-- A login as `alice`, from a desktop. -/
def alice : LoginRequest :=
  { account := bytes "alice", device_code := [], user_name := [], screen_h := 0, screen_w := 0
    resolution_ratio := [], version := [], app_type := 2, network_mode := 0, os_version := []
    channel := [], device_name := [], user_type := 0, header_url := [] }

/-- The document that `query_from_mongo` looks for. -/
def userDocument (account : Bytes) (user_id : BitVec 64) : Json :=
  .object [(bytes "account", .string account), (bytes "user_account", .string account),
    (bytes "user_id", .number_integer user_id)]

/-- Redis answers with an error, and takes commands. -/
def busy : Faults := { Faults.none true with hgetall := .refused }

def loginAs (account : Bytes) : Event :=
  .user_login ⟨[], 0, 0, 0⟩ busy { alice with account := account } false

/-- `dump` of an object of integers and of strings without characters to escape. -/
def dumpPlain (jv : Json) : Bytes :=
  let quoted (s : Bytes) := bytes "\"" ++ s ++ bytes "\""
  let text (e : Bytes × Json) := quoted e.1 ++ bytes ":" ++ match e.2 with
    | .number_integer i => to_string i.toInt
    | .number_unsigned u => to_string u.toNat
    | .string s => quoted s
    | _ => bytes "null"
  bytes "\x7b" ++ (bytes ",").intercalate (jv.members.map text) ++ bytes "\x7d"

/-- A login server with one lobby, one Redis server for both names and one Mongo server. The cipher has no
part in it. -/
def oneLobby : LoginModule where
  m_versoin_info := ⟨[], [], []⟩
  m_lobby_list := [(bytes "127.0.0.1", 8000)]
  redis_resource name := if name = bytes "default" ∨ name = [] then some 0 else none
  mongo_resource name := name = bytes "default"
  acknowledged := true
  dump jv := some (dumpPlain jv)
  core := ⟨id, fun _ => id, fun _ => id⟩

/-- The users `alice` and `bob`. -/
def twoUsers : Stores where
  redis _ := ∅
  c_user_info := [userDocument (bytes "alice") 1, userDocument (bytes "bob") 2]
  c_user_id := some 2

theorem isDocument_userDocument {account a : Bytes} {user_id : BitVec 64} {u : BitVec 32}
    (h : IsDocument a u (userDocument account user_id)) : a = account ∧ u = user_id.setWidth 32 := by
  have hread : AccountInfo.from_json (userDocument account user_id) =
      .ok (account, user_id.setWidth 32, ()) := rfl
  have heq := Except.ok.inj (h.symm.trans hread)
  exact ⟨congrArg Prod.fst heq, congrArg (·.2.1) heq⟩

theorem documented_twoUsers : Documented twoUsers := by
  have hhas : ∀ a u, HasDocument twoUsers a u → a = bytes "alice" ∧ u = 1 ∨ a = bytes "bob" ∧ u = 2 := by
    rintro a u ⟨doc, hdoc, hread⟩
    rcases List.mem_pair.mp hdoc with rfl | rfl
    · exact Or.inl (isDocument_userDocument hread)
    · exact Or.inr (isDocument_userDocument hread)
  constructor
  · intro doc hdoc a b u hnamed hread
    have hname : ∀ account user_id, hasString (bytes "user_account") a (userDocument account user_id) = true →
        account = a := fun account user_id h => of_decide_eq_true h
    rcases List.mem_pair.mp hdoc with rfl | rfl
    · exact (isDocument_userDocument hread).1.trans (hname _ _ hnamed)
    · exact (isDocument_userDocument hread).1.trans (hname _ _ hnamed)
  · intro a u v hu hv
    rcases hhas a u hu with ⟨rfl, rfl⟩ | ⟨rfl, rfl⟩ <;> rcases hhas _ v hv with ⟨ha, rfl⟩ | ⟨ha, rfl⟩
    · rfl
    · exact absurd ha (by decide)
    · exact absurd ha (by decide)
    · rfl
  · intro a b u ha hb
    rcases hhas a u ha with ⟨rfl, rfl⟩ | ⟨rfl, rfl⟩ <;> rcases hhas b _ hb with ⟨rfl, hu⟩ | ⟨rfl, hu⟩
    · rfl
    · exact absurd hu (by decide)
    · exact absurd hu (by decide)
    · rfl

theorem not_reuses_loginAs (m : LoginModule) (s : Stores) (account : Bytes) :
    ¬ Reuses m s (loginAs account) := by
  rintro ⟨account_found, user_id, server, h⟩
  have hguest : is_need_generate_new_account account 2 = false := by
    rw [is_need_generate_new_account, show ((2 : BitVec 32) = 0 || (2 : BitVec 32) = 1) = false from rfl,
      Bool.and_false]
  exact Bool.false_ne_true (hguest.symm.trans h.guest)

/-- `alice` logs in, her key expires, and she and `bob` log in. -/
def twoUserEvents : List Event :=
  [loginAs (bytes "alice"), .expire 0 (account_redis_key (bytes "alice")), loginAs (bytes "alice"),
    loginAs (bytes "bob")]

/-- A guest, from a mobile phone, whose new name is `5c0a80101111`. -/
def guestLogin : Event :=
  .user_login ⟨bytes "5c0a80101111", 0, 0, 0⟩ busy { alice with account := [], app_type := 0 } false

/-- The stores with one guest. -/
def oneGuest : Stores where
  redis _ := ∅
  c_user_info := [userDocument (bytes "5c0a80101111") 2]
  c_user_id := some 5

end SparkFrame.Server.LoginModule
