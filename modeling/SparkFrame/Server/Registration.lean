import SparkFrame.Server.Accounts

/-!
# Registrations that fail

Logins whose store operations fare in any way. A guest is registered under a name that is found, and the
hash of the account is written twice before the user is; nothing takes it back.

* `Fails`, `register_failed_iff`, `user_login_failed_iff` : how far a login gets that fails;
* `LeavesTrace` : a failing login that has written; `hasDocument_of_success` : no login is answered with
  a user that was never created;
* `untouched_iff` : **a login that fails leaves the accounts as they were unless it has written before**;
  `guest_half` : a guest whose user does not get to Mongo.
-/

namespace SparkFrame.Server.LoginModule

open SparkFrame.Lib SparkFrame.Tools SparkFrame.Resource

variable {m : LoginModule} {s s' : Stores} {i : Inputs} {f : Faults} {login_req : LoginRequest}
  {is_robot : Bool}

/-! ## How far a login gets that fails -/

section

variable {account : Bytes} {new_id : BitVec 32} {user_info : Record UserInfo} {server : Nat} {counter : Int}

/-- The stores once the account has its number, and the user is inserted as far as it goes. -/
def unfinished (m : LoginModule) (f : Faults) (server : Nat) (account : Bytes) (user_info : Record UserInfo)
    (s : Stores) : Stores :=
  let s := wrote f.account server (FieldClass.to_json (c := AccountInfo) (account, m_user_id user_info, ()))
    (account_redis_key account) s
  let s := if m.acknowledged || f.written then upserted user_info s else s
  if m.acknowledged then
    wrote f.user_info server (FieldClass.to_json user_info) (user_info_redis_key (m_user_id user_info)) s
  else s

/-- A registration with a number that fails. -/
structure Fails (m : LoginModule) (i : Inputs) (f : Faults) (login_req : LoginRequest) (is_robot : Bool)
    (account : Bytes) (s : Stores) (counter : Int) : Prop where
  counted : f.find_one_and_update_throws = false
  number : s.c_user_id = some counter
  range : -2 ^ 31 ≤ counter + 1 ∧ counter + 1 < 2 ^ 31
  sent : Connected f.account (FieldClass.to_json (c := AccountInfo) (account, .ofInt 32 (counter + 1), ()))
  dump : m.dump (FieldClass.to_json
    (generate_new_user i login_req is_robot account (.ofInt 32 (counter + 1)))) ≠ none
  update_one : f.update_one_throws = false
  ends : m.acknowledged = true → Connected f.user_info (FieldClass.to_json
    (generate_new_user i login_req is_robot account (.ofInt 32 (counter + 1)))) ∧ f.returned = false

theorem query_new_userid_eq_none_iff (hmongo : m.mongo_resource (bytes "default") = true) :
    m.query_new_userid f s = (s', .ok none) ↔
      f.find_one_and_update_throws = false ∧ s.c_user_id = none ∧ s' = s := by
  rw [query_new_userid, mongo_client_eq_ok.mpr hmongo]
  cases f.find_one_and_update_throws with
  | true => simp
  | false =>
    cases s.c_user_id with
    | none =>
      simp only [Bool.false_eq_true, if_false, Prod.mk.injEq, and_true, true_and]
      exact eq_comm
    | some counter =>
      refine iff_of_false (fun h => ?_) (fun h => Option.some_ne_none _ h.2.1)
      have hexit := (Prod.mk.inj h).2
      split at hexit
      · cases hexit
      · cases hexit

theorem query_new_userid_eq_some_iff (hmongo : m.mongo_resource (bytes "default") = true) :
    m.query_new_userid f s = (s', .ok (some new_id)) ↔
      ∃ counter, f.find_one_and_update_throws = false ∧ s.c_user_id = some counter ∧
        (-2 ^ 31 ≤ counter + 1 ∧ counter + 1 < 2 ^ 31) ∧ new_id = .ofInt 32 (counter + 1) ∧
        s' = { s with c_user_id := some (counter + 1) } := by
  rw [query_new_userid, mongo_client_eq_ok.mpr hmongo]
  cases f.find_one_and_update_throws with
  | true => simp
  | false =>
    cases s.c_user_id with
    | none => simp
    | some counter =>
      by_cases hrange : -2 ^ 31 ≤ counter + 1 ∧ counter + 1 < 2 ^ 31
      · simp only [Bool.false_eq_true, if_false, if_pos hrange, Prod.mk.injEq, Except.ok.injEq,
          Option.some.injEq, true_and, exists_eq_left', and_iff_right hrange]
        rw [and_comm, eq_comm, eq_comm (a := s')]
      · refine iff_of_false (fun h => ?_) ?_
        · have hexit := (Prod.mk.inj h).2
          rw [if_neg hrange] at hexit
          cases hexit
        · rintro ⟨counter', -, hcounter, hrange', -⟩
          cases hcounter
          exact hrange hrange'

theorem insert_new_user_failed_iff (hmongo : m.mongo_resource (bytes "default") = true)
    (hdefault : ∃ server, m.redis_resource (bytes "default") = some server)
    (hclient : m.redis_resource [] = some server) :
    m.insert_new_user f user_info s = (s', .ok false) ↔
      m.dump (FieldClass.to_json user_info) ≠ none ∧ f.update_one_throws = false ∧
      (m.acknowledged = true → Connected f.user_info (FieldClass.to_json user_info) ∧ f.returned = false) ∧
      s' = (let s := if m.acknowledged || f.written then upserted user_info s else s
        if m.acknowledged then
          wrote f.user_info server (FieldClass.to_json user_info)
            (user_info_redis_key (m_user_id user_info)) s
        else s) := by
  obtain ⟨server', hdefault⟩ := hdefault
  rw [insert_new_user, insert_new_user_db, mongo_client_eq_ok.mpr hmongo]
  cases hdump : m.dump (FieldClass.to_json user_info) with
  | none => simp
  | some text =>
    cases f.update_one_throws with
    | true => simp
    | false =>
      cases m.acknowledged with
      | false =>
        simp only [Bool.false_eq_true, if_false, false_implies, Bool.false_or, Prod.mk.injEq, and_true,
          ne_eq, reduceCtorEq, not_false_eq_true, true_and]
        exact eq_comm
      | true =>
        simp only [insert_new_user_redis, redis_client_of_eq hdefault, if_true, Bool.false_eq_true, if_false]
        by_cases hsent : Connected f.user_info (FieldClass.to_json user_info)
        · rw [json_to_hash_of_client _ _ _ hclient hsent]
          simp only [ne_eq, reduceCtorEq, not_false_eq_true, hsent, true_and, forall_const, Bool.true_or,
            if_true, Prod.mk.injEq, Except.ok.injEq]
          rw [and_comm, eq_comm (a := s')]
        · obtain ⟨s', e, heq⟩ := exists_json_to_hash_error (m := m) (user_info_redis_key (m_user_id user_info))
            (upserted user_info s) hsent
          simp [hsent, heq]

theorem respond_ne_failed (i : Inputs) (login_req : LoginRequest) (account : Bytes) (user_id : BitVec 32)
    (code : Nat) : m.respond i login_req account user_id ≠ .failed code := by
  unfold respond
  intro h
  split at h
  · cases h
  · cases h
  · cases h

theorem answer_ne_failed (e : Exit) (code : Nat) : e.answer ≠ .failed code := by
  intro h
  cases e <;> cases h

theorem answer_ne_success (e : Exit) {response : LoginResponse} {notify : NotifyLoginRequest} :
    e.answer ≠ .success response notify := by
  intro h
  cases e <;> cases h

/-- **A registration fails** before it has a number, or once it has written. -/
theorem register_failed_iff (hmongo : m.mongo_resource (bytes "default") = true)
    (hdefault : ∃ server, m.redis_resource (bytes "default") = some server)
    (hclient : m.redis_resource [] = some server) (code : Nat) :
    m.register i f login_req is_robot account s = (s', .failed code) ↔
      (f.find_one_and_update_throws = false ∧ s.c_user_id = none ∧ code = CODE_SYSTEM_ERROR ∧ s' = s) ∨
      ∃ counter, Fails m i f login_req is_robot account s counter ∧ code = CODE_ACOCUNT_EMPTY ∧
        s' = unfinished m f server account
          (generate_new_user i login_req is_robot account (.ofInt 32 (counter + 1)))
          { s with c_user_id := some (counter + 1) } := by
  constructor
  · intro h
    unfold register at h
    split at h
    · exact absurd (Prod.mk.inj h).2 (answer_ne_failed _ code)
    · next hquery =>
      obtain ⟨hthrows, hc, rfl⟩ := (query_new_userid_eq_none_iff hmongo).mp hquery
      cases h
      exact Or.inl ⟨hthrows, hc, rfl, rfl⟩
    · next hquery =>
      obtain ⟨counter, hthrows, hc, hrange, rfl, rfl⟩ := (query_new_userid_eq_some_iff hmongo).mp hquery
      refine Or.inr ⟨counter, ?_⟩
      dsimp only at h
      split at h
      · exact absurd (Prod.mk.inj h).2 (answer_ne_failed _ code)
      · next hset =>
        obtain ⟨server', hclient', hsent, rfl⟩ := json_to_hash_eq_ok hset
        obtain rfl : server' = server := Option.some.inj (hclient'.symm.trans hclient)
        split at h
        · exact absurd (Prod.mk.inj h).2 (answer_ne_failed _ code)
        · next hinsert =>
          obtain ⟨hdump, hupdate, hends, rfl⟩ :=
            (insert_new_user_failed_iff hmongo hdefault hclient).mp hinsert
          cases h
          exact ⟨⟨hthrows, hc, hrange, hsent, hdump, hupdate, hends⟩, rfl, rfl⟩
        · exact absurd (Prod.mk.inj h).2 (respond_ne_failed _ _ _ _ code)
  · rintro (⟨hthrows, hc, rfl, rfl⟩ | ⟨counter, h, rfl, rfl⟩)
    · rw [register, (query_new_userid_eq_none_iff hmongo).mpr ⟨hthrows, hc, rfl⟩]
    · have hquery := (query_new_userid_eq_some_iff (f := f) (s := s) hmongo).mpr
        ⟨counter, h.counted, h.number, h.range, rfl, rfl⟩
      have hinsert := (insert_new_user_failed_iff (f := f) (s := wrote f.account server
        (FieldClass.to_json (c := AccountInfo) (account, .ofInt 32 (counter + 1), ()))
        (account_redis_key account) { s with c_user_id := some (counter + 1) })
        hmongo hdefault hclient).mpr ⟨h.dump, h.update_one, h.ends, rfl⟩
      rw [register, hquery]
      simp only [json_to_hash_of_client _ _ _ hclient h.sent, hinsert]
      rfl

end

/-- **A login fails** without a name, or as the registration of a guest whose name is found. -/
theorem user_login_failed_iff (m : LoginModule) (i : Inputs) (f : Faults) (login_req : LoginRequest)
    (is_robot : Bool) (s s' : Stores) (code : Nat) :
    m.user_login i f login_req is_robot s = (s', .failed code) ↔
      (loginAccount i login_req = [] ∧ code = CODE_ACOCUNT_EMPTY ∧ s' = s) ∨
      ∃ account user_id server, GuestFound m i f login_req s account user_id server ∧
        m.register i f login_req is_robot account (cached f (account, user_id, ()) server s) =
          (s', .failed code) := by
  constructor
  · intro h
    obtain (⟨hname, heq⟩ | ⟨_, e, heq, -⟩) | ⟨hname, doc, account_info, server, hfound⟩ :=
      user_login_cases m i f login_req is_robot s
    · rw [heq] at h
      cases h
      exact Or.inl ⟨hname, rfl, rfl⟩
    · rw [heq] at h
      exact absurd (Prod.mk.inj h).2 (answer_ne_failed _ code)
    · rw [user_login_of_found is_robot hname hfound] at h
      split at h
      · next hguest =>
        have haccount : loginAccount i login_req = i.object_id := if_pos hguest
        rw [haccount] at hname hfound
        obtain ⟨account, user_id, _⟩ := account_info
        exact Or.inr ⟨account, user_id, server,
          ⟨hguest, List.isEmpty_eq_false_iff.mp hname, doc, hfound⟩, h⟩
      · exact absurd (Prod.mk.inj h).2 (respond_ne_failed _ _ _ _ code)
  · rintro (⟨hname, rfl, rfl⟩ | ⟨account, user_id, server, ⟨hguest, hnamed, doc, hfound⟩, h⟩)
    · simp only [user_login, hname, List.isEmpty_nil, if_true]
    · have haccount : loginAccount i login_req = i.object_id := if_pos hguest
      rw [← haccount] at hnamed hfound
      rw [user_login_of_found is_robot (List.isEmpty_eq_false_iff.mpr hnamed) hfound, if_pos hguest]
      exact h

/-! ## Traces -/

/-- A write of a failed registration is not what is there already. -/
inductive Writes (m : LoginModule) (f : Faults) (server : Nat) (account : Bytes) (user_id : BitVec 32)
    (user_info : Record UserInfo) (s : Stores) : Prop where
  /-- The number that is new, over the one that was found. -/
  | account (h : Changes
      (fun name => (written f.account
        (FieldClass.to_json (c := AccountInfo) (account, m_user_id user_info, ())) name).or
          (written f.found (FieldClass.to_json (c := AccountInfo) (account, user_id, ())) name))
      ((s.redis server).lookup (account_redis_key account)))
  | document (h : (m.acknowledged || f.written) = true)
    (hnew : ¬ HasRecord (m_user_id user_info) (FieldClass.to_json user_info) s.c_user_info)
  | user_info (hacknowledged : m.acknowledged = true)
    (h : Changes (written f.user_info (FieldClass.to_json user_info))
      ((s.redis server).lookup (user_info_redis_key (m_user_id user_info))))

/-- The registration of a guest whose new name is found fails for want of a counter or with a number, and a
write before that is not what is there already. -/
inductive GuestTrace (m : LoginModule) (i : Inputs) (f : Faults) (login_req : LoginRequest)
    (is_robot : Bool) (s : Stores) (account : Bytes) (user_id : BitVec 32) (server : Nat) : Prop where
  | uncounted (hcounted : f.find_one_and_update_throws = false) (hnumber : s.c_user_id = none)
    (h : Changes (written f.found (FieldClass.to_json (c := AccountInfo) (account, user_id, ())))
      ((s.redis server).lookup (account_redis_key account)))
  | counted (counter : Int) (hfails : Fails m i f login_req is_robot account s counter)
    (hwrites : Writes m f server account user_id
      (generate_new_user i login_req is_robot account (.ofInt 32 (counter + 1))) s)

/-- **A trace is left.** -/
def LeavesTrace (m : LoginModule) (i : Inputs) (f : Faults) (login_req : LoginRequest) (is_robot : Bool)
    (s : Stores) : Prop :=
  ∃ account user_id server, GuestFound m i f login_req s account user_id server ∧
    GuestTrace m i f login_req is_robot s account user_id server

section

variable {account : Bytes} {user_id : BitVec 32} {user_info : Record UserInfo} {server : Nat}

theorem sets_cached (server : Nat) (s : Stores)
    (h : Connected f.found (FieldClass.to_json (c := AccountInfo) (account, user_id, ()))) :
    Sets (written f.found (FieldClass.to_json (c := AccountInfo) (account, user_id, ())))
      ((s.redis server).lookup (account_redis_key account))
      (((cached f (account, user_id, ()) server s).redis server).lookup (account_redis_key account)) :=
  sets_wrote (c := AccountInfo) server _ (account, user_id, ()) s h

theorem lookup_cached_of_ne {server' : Nat} {key : Bytes}
    (h : server' ≠ server ∨ key ≠ account_redis_key account) :
    ((cached f (account, user_id, ()) server s).redis server').lookup key = (s.redis server').lookup key :=
  lookup_wrote_of_ne _ _ _ h

theorem c_user_info_cached : (cached f (account, user_id, ()) server s).c_user_info = s.c_user_info :=
  c_user_info_wrote ..

theorem sameAccounts_cached_iff
    (h : Connected f.found (FieldClass.to_json (c := AccountInfo) (account, user_id, ()))) :
    SameAccounts s (cached f (account, user_id, ()) server s) ↔
      ¬ Changes (written f.found (FieldClass.to_json (c := AccountInfo) (account, user_id, ())))
        ((s.redis server).lookup (account_redis_key account)) := by
  have hkey := (sets_cached server s h).sameValue_iff
  constructor
  · intro hsame
    exact hkey.mp (hsame.redis server (account_redis_key account))
  · intro hnone
    constructor
    · intro server' key
      by_cases haccount : server' = server ∧ key = account_redis_key account
      · obtain ⟨rfl, rfl⟩ := haccount
        exact hkey.mpr hnone
      · rw [lookup_cached_of_ne (not_and_or.mp haccount)]
        exact .refl _
    · rw [c_user_info_cached]
      exact forall₂_sameMembers_refl _

theorem c_user_info_unfinished (s : Stores) :
    (unfinished m f server account user_info s).c_user_info =
      if m.acknowledged || f.written then
        update_one (m_user_id user_info) (FieldClass.to_json user_info) s.c_user_info
      else s.c_user_info := by
  have hdocs : ∀ s, (if m.acknowledged then wrote f.user_info server (FieldClass.to_json user_info)
      (user_info_redis_key (m_user_id user_info)) s else s).c_user_info = s.c_user_info := by
    intro s
    split
    · exact c_user_info_wrote ..
    · rfl
  rw [unfinished, hdocs]
  split
  · rw [upserted, c_user_info_wrote]
  · rw [c_user_info_wrote]

theorem redis_upserted_ite (user_info : Record UserInfo) (b : Bool) (s : Stores) :
    (if b then upserted user_info s else s).redis = s.redis := by
  split
  · rfl
  · rfl

theorem lookup_unfinished_of_ne {server' : Nat} {key : Bytes} (s : Stores)
    (h : server' ≠ server ∨ key ≠ user_info_redis_key (m_user_id user_info)) :
    ((unfinished m f server account user_info s).redis server').lookup key =
      ((wrote f.account server (FieldClass.to_json (c := AccountInfo) (account, m_user_id user_info, ()))
        (account_redis_key account) s).redis server').lookup key := by
  unfold unfinished
  dsimp only
  split
  · rw [lookup_wrote_of_ne _ _ _ h, redis_upserted_ite]
  · rw [redis_upserted_ite]

/-- The hash of the account has been written twice. -/
theorem sets_account {s' : Stores} (hredis : s'.redis = (cached f (account, user_id, ()) server s).redis)
    (hfound : Connected f.found (FieldClass.to_json (c := AccountInfo) (account, user_id, ())))
    (haccount : Connected f.account
      (FieldClass.to_json (c := AccountInfo) (account, m_user_id user_info, ()))) :
    Sets (fun name => (written f.account
        (FieldClass.to_json (c := AccountInfo) (account, m_user_id user_info, ())) name).or
          (written f.found (FieldClass.to_json (c := AccountInfo) (account, user_id, ())) name))
      ((s.redis server).lookup (account_redis_key account))
      (((unfinished m f server account user_info s').redis server).lookup (account_redis_key account)) := by
  have hfirst := sets_cached server s hfound
  have hsecond := sets_wrote (c := AccountInfo) server (account_redis_key account)
    (account, m_user_id user_info, ()) s' haccount
  rw [hredis] at hsecond
  rw [lookup_unfinished_of_ne s' (Or.inr (account_redis_key_ne account _))]
  exact hfirst.trans hsecond

theorem sets_user_info (account : Bytes) (server : Nat) (s : Stores)
    (hacknowledged : m.acknowledged = true)
    (huser : Connected f.user_info (FieldClass.to_json user_info)) :
    Sets (written f.user_info (FieldClass.to_json user_info))
      ((s.redis server).lookup (user_info_redis_key (m_user_id user_info)))
      (((unfinished m f server account user_info s).redis server).lookup
        (user_info_redis_key (m_user_id user_info))) := by
  have hother : user_info_redis_key (m_user_id user_info) ≠ account_redis_key account :=
    (account_redis_key_ne _ _).symm
  unfold unfinished
  dsimp only
  rw [if_pos hacknowledged, ← lookup_wrote_of_ne f.account
    (FieldClass.to_json (c := AccountInfo) (account, m_user_id user_info, ())) s (Or.inr hother),
    ← redis_upserted_ite user_info (m.acknowledged || f.written)]
  exact sets_wrote server _ user_info _ huser

theorem lookup_user_info (s : Stores) (hacknowledged : ¬ m.acknowledged = true) :
    ((unfinished m f server account user_info s).redis server).lookup
        (user_info_redis_key (m_user_id user_info)) =
      (s.redis server).lookup (user_info_redis_key (m_user_id user_info)) := by
  unfold unfinished
  dsimp only
  rw [if_neg hacknowledged, redis_upserted_ite,
    lookup_wrote_of_ne _ _ _ (Or.inr (account_redis_key_ne _ _).symm)]

theorem sameAccounts_unfinished_iff {s' : Stores}
    (hredis : s'.redis = (cached f (account, user_id, ()) server s).redis)
    (hdocs : s'.c_user_info = s.c_user_info)
    (hfound : Connected f.found (FieldClass.to_json (c := AccountInfo) (account, user_id, ())))
    (haccount : Connected f.account
      (FieldClass.to_json (c := AccountInfo) (account, m_user_id user_info, ())))
    (huser : m.acknowledged = true → Connected f.user_info (FieldClass.to_json user_info)) :
    SameAccounts s (unfinished m f server account user_info s') ↔
      ¬ Writes m f server account user_id user_info s := by
  have hkey := (sets_account (m := m) hredis hfound haccount).sameValue_iff
  have huserkey : (s'.redis server).lookup (user_info_redis_key (m_user_id user_info)) =
      (s.redis server).lookup (user_info_redis_key (m_user_id user_info)) := by
    rw [hredis, lookup_cached_of_ne (Or.inr (account_redis_key_ne _ _).symm)]
  constructor
  · rintro ⟨hsame, hdocuments⟩ (hchanges | ⟨hwritten, hnew⟩ | ⟨hacknowledged, hchanges⟩)
    · exact hkey.mp (hsame _ _) hchanges
    · rw [c_user_info_unfinished, if_pos hwritten, hdocs] at hdocuments
      exact hnew ((sameMembers_update_one_iff _ _ _).mp hdocuments)
    · have hsets := sets_user_info account server s' hacknowledged (huser hacknowledged)
      rw [huserkey] at hsets
      exact hsets.sameValue_iff.mp (hsame _ _) hchanges
  · intro h
    constructor
    · intro server' key
      by_cases hfirst : server' = server ∧ key = account_redis_key account
      · obtain ⟨rfl, rfl⟩ := hfirst
        exact hkey.mpr fun hchanges => h (.account hchanges)
      · by_cases hsecond : server' = server ∧ key = user_info_redis_key (m_user_id user_info)
        · obtain ⟨rfl, rfl⟩ := hsecond
          by_cases hacknowledged : m.acknowledged = true
          · have hsets := sets_user_info account server' s' hacknowledged (huser hacknowledged)
            rw [huserkey] at hsets
            exact hsets.sameValue_iff.mpr fun hchanges => h (.user_info hacknowledged hchanges)
          · rw [lookup_user_info s' hacknowledged, huserkey]
            exact .refl _
        · rw [lookup_unfinished_of_ne _ (not_and_or.mp hsecond),
            lookup_wrote_of_ne _ _ _ (not_and_or.mp hfirst), hredis,
            lookup_cached_of_ne (not_and_or.mp hfirst)]
          exact .refl _
    · rw [c_user_info_unfinished, hdocs]
      split
      · next hwritten =>
        refine (sameMembers_update_one_iff _ _ _).mpr ?_
        by_contra hnew
        exact h (.document hwritten hnew)
      · exact forall₂_sameMembers_refl _

end

/-! ## Logins that succeed -/

section

variable {account : Bytes} {user_info : Record UserInfo} {response : LoginResponse}
  {notify : NotifyLoginRequest}

theorem from_json_setMembers {c : FieldClass} (r : Record c) {doc : Json} (hdoc : doc.is_object = true) (account : Bytes)
    (user_id : BitVec 32)
    (haccount : (bytes "account", .string account) ∈ (FieldClass.to_json r).members)
    (huser : (bytes "user_id", .number_integer (user_id.signExtend 64)) ∈ (FieldClass.to_json r).members) :
    IsDocument account user_id (setMembers (FieldClass.to_json r) doc) := by
  refine readFields_of_find AccountInfo.fields (account, user_id, ()) ?_
  intro e he
  rcases List.mem_cons.mp he with rfl | he
  · exact find_setMembers r hdoc haccount
  · rcases List.mem_singleton.mp he with rfl
    exact find_setMembers r hdoc huser

theorem c_user_info_of_insert_new_user (h : m.insert_new_user f user_info s = (s', .ok true)) :
    s'.c_user_info = update_one (m_user_id user_info) (FieldClass.to_json user_info) s.c_user_info := by
  unfold insert_new_user at h
  split at h
  · next hdb =>
    unfold insert_new_user_db at hdb
    split at hdb
    · cases hdb
    · cases hdb
    · split at hdb
      · cases hdb
      · split at hdb
        · cases hdb
          split at h
          · cases h
          · next hredis =>
            obtain ⟨rfl, -⟩ := Prod.mk.inj h
            unfold insert_new_user_redis at hredis
            split at hredis
            · cases hredis
            · exact (congrArg (·.1.c_user_info) hredis).symm.trans (frame_json_to_hash ..)
        · cases hdb
  · next hfailed => exact absurd h (hfailed s')

theorem hasDocument_of_register
    (h : m.register i f login_req is_robot account s = (s', .success response notify)) :
    HasDocument s' account response.user_id := by
  unfold register at h
  split at h
  · exact absurd (Prod.mk.inj h).2 (answer_ne_success _)
  · cases h
  · next new_id _ =>
    dsimp only at h
    split at h
    · exact absurd (Prod.mk.inj h).2 (answer_ne_success _)
    · split at h
      · exact absurd (Prod.mk.inj h).2 (answer_ne_success _)
      · cases h
      · next hinsert =>
        obtain ⟨rfl, hrespond⟩ := Prod.mk.inj h
        rw [user_id_of_respond hrespond]
        obtain ⟨doc, hobject, hmem⟩ := exists_mem_update_one new_id (FieldClass.to_json
          (generate_new_user i login_req is_robot account new_id)) _
        refine ⟨_, (c_user_info_of_insert_new_user hinsert).symm ▸ hmem, ?_⟩
        apply from_json_setMembers _ hobject
        · exact FieldClass.mem_members_to_json.mpr (List.mem_cons_self ..)
        · refine FieldClass.mem_members_to_json.mpr ?_
          iterate 4 apply List.mem_cons_of_mem
          exact List.mem_cons_self ..

/-- **A login is answered with a user that has a document.** -/
theorem hasDocument_of_success
    (h : m.user_login i f login_req is_robot s = (s', .success response notify)) :
    ∃ account, HasDocument s' account response.user_id := by
  obtain (⟨-, heq⟩ | ⟨_, e, heq, -⟩) | ⟨hname, doc, account_info, server, hfound⟩ :=
    user_login_cases m i f login_req is_robot s
  · rw [heq] at h
    cases h
  · rw [heq] at h
    exact absurd (Prod.mk.inj h).2 (answer_ne_success _)
  · rw [user_login_of_found is_robot hname hfound] at h
    split at h
    · exact ⟨_, hasDocument_of_register h⟩
    · obtain ⟨rfl, hrespond⟩ := Prod.mk.inj h
      refine ⟨account_info.1, doc, ?_, ?_⟩
      · exact (c_user_info_wrote ..).symm ▸ List.mem_of_find?_eq_some hfound.document
      · rw [user_id_of_respond hrespond]
        exact hfound.read

end

/-! ## Atomicity -/

/-- The accounts are as they were, and no login from then on is answered with a user that has no
document. -/
structure Untouched (m : LoginModule) (s s' : Stores) : Prop where
  same : SameAccounts s s'
  created : ∀ tr t, Run m.step s' tr t → ∀ x ∈ tr, ∀ account user_id,
    answered x = some (account, user_id) → ∃ account, HasDocument x.after account user_id

theorem Untouched.of_sameAccounts (m : LoginModule) (h : SameAccounts s s') : Untouched m s s' := by
  refine ⟨h, fun tr t hr x hx account user_id hanswered => ?_⟩
  have hstep := hr.step_of_mem hx
  obtain ⟨s, e, o, s'⟩ := x
  cases e with
  | expire server key => cases hanswered
  | user_login i f login_req is_robot =>
    dsimp only at hstep ⊢
    rw [step, Option.some.injEq, Prod.mk.injEq] at hstep
    obtain ⟨rfl, rfl⟩ := hstep
    unfold answered at hanswered
    split at hanswered
    · next hout =>
      cases hanswered
      exact hasDocument_of_success (Prod.ext rfl (Option.some.inj hout))
    · cases hanswered

section

variable {account : Bytes} {user_id : BitVec 32} {server : Nat}

theorem Fails.congr {counter : Int} (h : Fails m i f login_req is_robot account s counter)
    (hnumber : s'.c_user_id = s.c_user_id) : Fails m i f login_req is_robot account s' counter :=
  ⟨h.counted, hnumber.trans h.number, h.range, h.sent, h.dump, h.update_one, h.ends⟩

theorem c_user_id_cached : (cached f (account, user_id, ()) server s).c_user_id = s.c_user_id :=
  c_user_id_wrote ..

theorem GuestFound.clients (h : GuestFound m i f login_req s account user_id server) :
    m.mongo_resource (bytes "default") = true ∧
      (∃ server, m.redis_resource (bytes "default") = some server) ∧ m.redis_resource [] = some server := by
  obtain ⟨doc, hfound⟩ := h.found
  obtain ⟨server', hserver', -⟩ := hfound.refuses
  exact ⟨hfound.mongo, ⟨server', hserver'⟩, hfound.client⟩

theorem GuestFound.sent (h : GuestFound m i f login_req s account user_id server) :
    Connected f.found (FieldClass.to_json (c := AccountInfo) (account, user_id, ())) := by
  obtain ⟨doc, hfound⟩ := h.found
  exact hfound.sent

theorem Fails.sameAccounts_iff {counter : Int} (h : Fails m i f login_req is_robot account s counter)
    (hguest : GuestFound m i f login_req s account user_id server) :
    SameAccounts s (unfinished m f server account
        (generate_new_user i login_req is_robot account (.ofInt 32 (counter + 1)))
        { cached f (account, user_id, ()) server s with c_user_id := some (counter + 1) }) ↔
      ¬ Writes m f server account user_id
        (generate_new_user i login_req is_robot account (.ofInt 32 (counter + 1))) s :=
  sameAccounts_unfinished_iff rfl c_user_info_cached hguest.sent h.sent
    fun hacknowledged => (h.ends hacknowledged).1

theorem GuestTrace.failed (hguest : GuestFound m i f login_req s account user_id server)
    (h : GuestTrace m i f login_req is_robot s account user_id server) :
    ∃ s' code, m.register i f login_req is_robot account (cached f (account, user_id, ()) server s) =
      (s', .failed code) ∧ ¬ SameAccounts s s' := by
  obtain ⟨hmongo, hdefault, hclient⟩ := hguest.clients
  cases h with
  | uncounted hcounted hnumber hchanges =>
    refine ⟨_, CODE_SYSTEM_ERROR, (register_failed_iff hmongo hdefault hclient _).mpr (Or.inl
      ⟨hcounted, c_user_id_cached.trans hnumber, rfl, rfl⟩), fun hsame => ?_⟩
    exact (sameAccounts_cached_iff hguest.sent).mp hsame hchanges
  | counted counter hfails hwrites =>
    refine ⟨_, CODE_ACOCUNT_EMPTY, (register_failed_iff hmongo hdefault hclient _).mpr (Or.inr
      ⟨counter, hfails.congr c_user_id_cached, rfl, rfl⟩), fun hsame => ?_⟩
    exact (hfails.sameAccounts_iff hguest).mp hsame hwrites

theorem sameAccounts_of_register_failed (hguest : GuestFound m i f login_req s account user_id server)
    {code : Nat} (hregister : m.register i f login_req is_robot account
      (cached f (account, user_id, ()) server s) = (s', .failed code))
    (h : ¬ GuestTrace m i f login_req is_robot s account user_id server) : SameAccounts s s' := by
  obtain ⟨hmongo, hdefault, hclient⟩ := hguest.clients
  rcases (register_failed_iff hmongo hdefault hclient code).mp hregister with
    ⟨hcounted, hnumber, -, rfl⟩ | ⟨counter, hfails, -, rfl⟩
  · refine (sameAccounts_cached_iff hguest.sent).mpr fun hchanges => h ?_
    exact .uncounted hcounted (c_user_id_cached.symm.trans hnumber) hchanges
  · have hwrites := fun hwrites => h (.counted counter (hfails.congr c_user_id_cached.symm) hwrites)
    exact ((hfails.congr c_user_id_cached.symm).sameAccounts_iff hguest).mpr hwrites

end

/-- **Failures leave no trace.** In any stores, for any request and whatever fails, a login that is answered
with a failure code leaves the accounts as they were exactly when it leaves no trace. -/
theorem untouched_iff (m : LoginModule) (i : Inputs) (f : Faults) (login_req : LoginRequest)
    (is_robot : Bool) (s : Stores) :
    (∀ s' code, m.user_login i f login_req is_robot s = (s', .failed code) → Untouched m s s') ↔
      ¬ LeavesTrace m i f login_req is_robot s := by
  constructor
  · rintro h ⟨account, user_id, server, hguest, htrace⟩
    obtain ⟨s', code, hregister, hnot⟩ := htrace.failed hguest
    have hlogin := (user_login_failed_iff m i f login_req is_robot s s' code).mpr
      (Or.inr ⟨account, user_id, server, hguest, hregister⟩)
    exact hnot (h s' code hlogin).same
  · intro h s' code hlogin
    apply Untouched.of_sameAccounts
    rcases (user_login_failed_iff m i f login_req is_robot s s' code).mp hlogin with
      ⟨-, -, rfl⟩ | ⟨account, user_id, server, hguest, hregister⟩
    · exact .of_eq rfl rfl
    · refine sameAccounts_of_register_failed hguest hregister fun htrace => h ?_
      exact ⟨account, user_id, server, hguest, htrace⟩

/-- Mongo does not acknowledge updates. -/
def unacknowledged : LoginModule := { oneLobby with acknowledged := false }

/-- **Half an account.** The guest's new name is in use, Redis answers `HGETALL` with an error, and the user
does not get to Mongo. The account hash is left with a number that no document has. -/
theorem guest_half : ∃ s',
    unacknowledged.user_login ⟨bytes "5c0a80101111", 0, 0, 0⟩ { busy with written := false }
      { alice with account := [], app_type := 0 } false oneGuest = (s', .failed CODE_ACOCUNT_EMPTY) ∧
    (∃ fields, (s'.redis 0).lookup (account_redis_key (bytes "5c0a80101111")) = some (.hash fields) ∧
      fields.lookup (bytes "user_id") = some (bytes "6")) ∧
    (∀ account, ¬ HasDocument s' account 6) ∧ ¬ SameAccounts oneGuest s' := by
  refine ⟨_, rfl, ⟨_, rfl, by decide +kernel⟩, ?_, fun h => ?_⟩
  · rintro account ⟨doc, hdoc, hread⟩
    obtain rfl := List.mem_singleton.mp hdoc
    exact absurd (isDocument_userDocument hread).2 (by decide)
  · have hkey := h.redis 0 (account_redis_key (bytes "5c0a80101111"))
    cases hkey

end SparkFrame.Server.LoginModule
