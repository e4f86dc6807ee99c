import SparkFrame.Server.Accounts
import SparkFrame.Server.PlayerManager
import SparkFrame.Tools.AesEcb

/-!
# Tokens: from `LoginModule::user_login` to `PlayerManager::player_token_login`

The login server puts a JSON object into the token, encrypted, and the lobby takes it out again.

* `LobbyServer`, `check_user_token`, `player_token_login` : the lobby;
* `ReadsBack` : what is assumed of the JSON library; `Accepted` : what the lobby should do;
* `respond_of_user_login` : every successful login ends in `respond`;
* `decrypt_token` : the lobby reads the text the login server wrote; `find_user_account_tokenJson` :
  there is no account in it;
* `token_rejected` : **no token is accepted**; `alice_rejected` : the token of one login.
-/

namespace SparkFrame.Server

open SparkFrame.Lib SparkFrame.Tools SparkFrame.Resource

/-! ## The lobby -/

/-- What the lobby takes from libraries. `Json::parse` throws on what is no JSON. -/
structure LobbyServer where
  core : AesCore
  parse : Bytes → Option Json

/-- What becomes of a token login. -/
inductive TokenAnswer (S : Type) where
  /-- The text of the token depends on bytes that nothing has written. -/
  | undetermined
  /-- An exception leaves the handler. -/
  | raised
  /-- `CODE_CHECK_GAME_TOKEN_FAILED`, and a `ShutDownSessionRequest` to the session. -/
  | check_token_failed
  /-- `CODE_SUCCESS`, and what `add_user_session` does. -/
  | success (user_id : BitVec 32) (effects : List (PlayerManager.Effect S))
deriving DecidableEq, Repr

namespace LobbyServer

variable {S R : Type} [DecidableEq S]

/-- A member of a constant object passes a test. One that is missing is not of any type. -/
def memberIs (test : Json → Bool) (key : Bytes) (jv : Json) : Bool :=
  match jv.find key with
  | some value => test value
  | none => false

/-- The first member access throws when the value is no object. -/
def check_user_token (user_token : Json) : Except JsonError Bool :=
  if !user_token.is_valid then .ok false
  else if !user_token.is_object then .error (.type_error 305)
  else .ok (memberIs Json.is_number (bytes "user_id") user_token &&
    memberIs Json.is_string (bytes "user_account") user_token &&
    memberIs Json.is_number (bytes "user_type") user_token)

def player_token_login (l : LobbyServer) (usertoken : Bytes) (session : S) (m : PlayerManager S R) :
    PlayerManager S R × TokenAnswer S :=
  match AesBt.AES_ecb128_decrypt l.core usertoken AesBt.seed with
  | none => (m, .undetermined)
  | some decode_token =>
    match l.parse decode_token with
    | none => (m, .raised)
    | some jv =>
      match check_user_token jv with
      | .error _ => (m, .raised)
      | .ok false => (m, .check_token_failed)
      | .ok true =>
        match jv.member (bytes "user_id") >>= Json.get_integer 32 with
        | .error _ => (m, .raised)
        | .ok user_id =>
          let r := m.add_user_session user_id.toInt session
          (r.1, .success user_id r.2)

/-- The check of the token passes, and the session is bound to the user. -/
structure Accepted (l : LobbyServer) (usertoken : Bytes) (user_id : BitVec 32) (session : S)
    (m : PlayerManager S R) : Prop where
  check : ∃ decode_token jv, AesBt.AES_ecb128_decrypt l.core usertoken AesBt.seed = some decode_token ∧
    l.parse decode_token = some jv ∧ check_user_token jv = .ok true
  bound : (l.player_token_login usertoken session m).1.check_user_msg session = some user_id.toInt

/-- `Json::parse` reads what `Json::dump` writes: the members of an object come back under their
names. No character of a text is zero. -/
structure ReadsBack (dump : Json → Option Bytes) (parse : Bytes → Option Json) : Prop where
  parse : ∀ jv text, jv.is_object = true → dump jv = some text →
    ∃ jv', parse text = some jv' ∧ jv'.is_object = true ∧
      ∀ key, (jv'.find key).isSome = (jv.find key).isSome
  no_zero : ∀ jv text, dump jv = some text → 0 ∉ text

end LobbyServer

/-! ## What the login server sends -/

namespace LoginModule

variable {m : LoginModule} {i : Inputs} {f : Faults} {login_req : LoginRequest} {is_robot : Bool}
  {s s' : Stores} {response : LoginResponse} {notify : NotifyLoginRequest}

theorem respond_of_register {account : Bytes}
    (h : m.register i f login_req is_robot account s = (s', .success response notify)) :
    ∃ user_id, m.respond i login_req account user_id = .success response notify := by
  unfold register at h
  split at h
  · next e _ => cases e <;> cases h
  · cases h
  · dsimp only at h
    split at h
    · next e _ => cases e <;> cases h
    · split at h
      · next e _ => cases e <;> cases h
      · cases h
      · exact ⟨_, (Prod.mk.inj h).2⟩

theorem respond_of_user_login
    (h : m.user_login i f login_req is_robot s = (s', .success response notify)) :
    ∃ account user_id, m.respond i login_req account user_id = .success response notify := by
  obtain (⟨-, heq⟩ | ⟨_, e, heq, -⟩) | ⟨hname, doc, account_info, server, hfound⟩ :=
    user_login_cases m i f login_req is_robot s
  · rw [heq] at h
    cases h
  · rw [heq] at h
    cases e <;> cases h
  · rw [user_login_of_found is_robot hname hfound] at h
    split at h
    · exact ⟨_, respond_of_register h⟩
    · exact ⟨_, _, (Prod.mk.inj h).2⟩

theorem token_of_respond {account : Bytes} {user_id : BitVec 32}
    (h : m.respond i login_req account user_id = .success response notify) :
    ∃ text, m.dump (tokenJson i login_req user_id) = some text ∧
      response.token = AesBt.AES_ecb128_encrypt m.core text AesBt.seed := by
  unfold respond at h
  split at h
  · cases h
  · cases h
  · next htext =>
    injection h with h
    exact ⟨_, htext, by rw [← h]⟩

theorem is_object_tokenJson (i : Inputs) (login_req : LoginRequest) (user_id : BitVec 32) :
    (tokenJson i login_req user_id).is_object = true := rfl

theorem find_user_account_tokenJson (i : Inputs) (login_req : LoginRequest) (user_id : BitVec 32) :
    (tokenJson i login_req user_id).find (bytes "user_account") = none := by
  unfold tokenJson
  iterate 7 rw [Json.find_assign_of_ne (by decide)]
  rfl

theorem decrypt_token {l : LobbyServer} (hcore : l.core = m.core) (hinverts : m.core.Inverts)
    {text : Bytes} (hzero : 0 ∉ text) :
    AesBt.AES_ecb128_decrypt l.core (AesBt.AES_ecb128_encrypt m.core text AesBt.seed) AesBt.seed =
      some text := by
  rw [hcore]
  exact AesBt.decrypt_encrypt hinverts hzero AesBt.seed

end LoginModule

/-! ## What the lobby makes of it -/

namespace LobbyServer

variable {S R : Type} [DecidableEq S]

theorem check_user_token_of_missing {jv : Json} (hobject : jv.is_object = true)
    (hmissing : jv.find (bytes "user_account") = none) : check_user_token jv = .ok false := by
  have hvalid : jv.is_valid = true := by
    cases jv with
    | object => rfl
    | _ => cases hobject
  simp [check_user_token, hvalid, hobject, memberIs, hmissing]

/-- **No token is accepted.** Whatever login the login server answers with success, the lobby fails
the check of the token, closes the session and binds it to nobody. -/
theorem token_rejected (m : LoginModule) (l : LobbyServer) (hcore : l.core = m.core)
    (hinverts : m.core.Inverts) (hjson : ReadsBack m.dump l.parse) (i : Inputs) (f : Faults)
    (login_req : LoginRequest) (is_robot : Bool) (s s' : Stores) (response : LoginResponse)
    (notify : NotifyLoginRequest)
    (hlogin : m.user_login i f login_req is_robot s = (s', .success response notify))
    (session : S) (pm : PlayerManager S R) :
    l.player_token_login response.token session pm = (pm, .check_token_failed) ∧
      ¬ Accepted l response.token response.user_id session pm := by
  obtain ⟨account, user_id, hrespond⟩ := LoginModule.respond_of_user_login hlogin
  obtain ⟨text, htext, htoken⟩ := LoginModule.token_of_respond hrespond
  have hdecrypt := LoginModule.decrypt_token hcore hinverts (hjson.no_zero _ _ htext)
  rw [← htoken] at hdecrypt
  obtain ⟨jv, hjv, hobject, hmembers⟩ :=
    hjson.parse _ _ (LoginModule.is_object_tokenJson i login_req user_id) htext
  have hmissing : jv.find (bytes "user_account") = none := by
    rw [← Option.isNone_iff_eq_none, ← Option.not_isSome, hmembers,
      LoginModule.find_user_account_tokenJson]
    rfl
  have hcheck := check_user_token_of_missing hobject hmissing
  constructor
  · simp only [player_token_login, hdecrypt, hjv, hcheck]
  · intro ⟨⟨text', jv', htext', hjv', hcheck'⟩, _⟩
    obtain rfl : text = text' := Option.some.inj (hdecrypt.symm.trans htext')
    obtain rfl : jv = jv' := Option.some.inj (hjv.symm.trans hjv')
    rw [hcheck] at hcheck'
    cases hcheck'

/-! ## One token -/

/-- A clock that shows a microsecond. -/
def aliceInputs : Inputs := ⟨[], 1000, 0, 0⟩

/-- The token of `alice`, before it is dumped. -/
def aliceJson : Json := LoginModule.tokenJson aliceInputs LoginModule.alice 1

def names (jv : Json) : List Bytes := jv.members.map Prod.fst

/-- A value as it is parsed: numbers that are not negative are unsigned. -/
def asParsed (jv : Json) : Json :=
  .object (jv.members.map fun e => (e.1, match e.2 with
    | .number_integer i => if 0 ≤ i.toInt then .number_unsigned i else .number_integer i
    | value => value))

/-- `dump`, of values that are written as this one. -/
def dumpKnown (jv : Json) : Option Bytes :=
  if names jv = names aliceJson ∧ LoginModule.dumpPlain jv = LoginModule.dumpPlain aliceJson then
    some (LoginModule.dumpPlain aliceJson)
  else none

/-- `parse`, of their text. -/
def parseKnown (text : Bytes) : Option Json :=
  if text = LoginModule.dumpPlain aliceJson then some (asParsed aliceJson) else none

def aliceText : Bytes :=
  bytes "\x7b\"app_type\":2,\"channel\":\"\",\"os_version\":\"\",\"time\":1000,\"user_id\":1,\"user_type\":0,\"version\":\"\"\x7d"

def aliceToken : Bytes :=
  ["nRW1aUBFztJQnuxm", "Jgr/iXUK1/UZ0Dd6", "ALCY5scLsIOaTm6J", "Zl1V32/3k5DSxoFz", "YrIzKy3BoMzMX6/8",
    "ne+aTllAZQGnEQRV", "mg/+tAUWN4klm4Yt", "mKdJCk2oIk+vnIJ7"].flatMap bytes

theorem isSome_find_iff {key : Bytes} {jv : Json} (h : jv.is_object = true) :
    (jv.find key).isSome = true ↔ key ∈ names jv := by
  cases jv with
  | object members =>
    show (members.lookup key).isSome = true ↔ key ∈ members.map Prod.fst
    induction members with
    | nil => simp
    | cons e members ih =>
      rw [Json.lookup_cons, List.map_cons, List.mem_cons, ← ih rfl]
      split <;> simp_all
  | _ => cases h

theorem names_asParsed (jv : Json) : names (asParsed jv) = names jv := by
  show (jv.members.map _).map Prod.fst = _
  rw [List.map_map]
  rfl

theorem dumpPlain_aliceJson : LoginModule.dumpPlain aliceJson = aliceText := by decide +kernel

theorem encrypt_aliceText :
    AesBt.AES_ecb128_encrypt AesEcb.libtools aliceText AesBt.seed = aliceToken := by
  decide +kernel

theorem readsBack_known : ReadsBack dumpKnown parseKnown := by
  have hdump : ∀ jv text, dumpKnown jv = some text →
      names jv = names aliceJson ∧ text = LoginModule.dumpPlain aliceJson := by
    intro jv text h
    unfold dumpKnown at h
    split at h
    · next hjv => exact ⟨hjv.1, (Option.some.inj h).symm⟩
    · cases h
  constructor
  · intro jv text hobject h
    obtain ⟨hnames, rfl⟩ := hdump jv text h
    refine ⟨asParsed aliceJson, if_pos rfl, rfl, fun key => ?_⟩
    apply Bool.eq_iff_iff.2
    rw [isSome_find_iff hobject, isSome_find_iff rfl, names_asParsed, hnames]
  · intro jv text h
    obtain ⟨-, rfl⟩ := hdump jv text h
    rw [dumpPlain_aliceJson]
    decide +kernel

/-- The login server, with the cipher and the digest of `libtools`. -/
def aliceServer : LoginModule := { LoginModule.oneLobby with dump := dumpKnown, core := AesEcb.libtools }

def aliceLobby : LobbyServer where
  core := AesEcb.libtools
  parse := parseKnown

/-- The login of `alice` succeeds, with this token. -/
theorem alice_success : ∃ s' response notify,
    aliceServer.user_login aliceInputs LoginModule.busy LoginModule.alice false LoginModule.twoUsers =
      (s', .success response notify) ∧ response.user_id = 1 ∧ response.token = aliceToken := by
  have hdump : dumpKnown aliceJson = some aliceText := by
    rw [dumpKnown, if_pos ⟨rfl, rfl⟩, dumpPlain_aliceJson]
  have hfound : LoginModule.Found aliceServer LoginModule.busy (bytes "alice") LoginModule.twoUsers
      (LoginModule.userDocument (bytes "alice") 1) (bytes "alice", (1 : BitVec 32), ()) 0 := by
    have hnamed : LoginModule.hasString (bytes "user_account") (bytes "alice")
        (LoginModule.userDocument (bytes "alice") 1) = true := by decide +kernel
    refine ⟨⟨0, rfl, Or.inl rfl⟩, rfl, rfl, ?_, rfl, rfl, LoginModule.connected_executed _⟩
    rw [LoginModule.twoUsers, List.find?_cons, hnamed]
  have hname : (LoginModule.loginAccount aliceInputs LoginModule.alice).isEmpty = false := rfl
  have hlogin := LoginModule.user_login_of_found (m := aliceServer) (i := aliceInputs) false hname hfound
  rw [if_neg (by decide)] at hlogin
  have hrespond : ∃ response notify, aliceServer.respond aliceInputs LoginModule.alice (bytes "alice") 1 =
      .success response notify ∧ response.user_id = 1 ∧ response.token = aliceToken := by
    have hdump : aliceServer.dump (LoginModule.tokenJson aliceInputs LoginModule.alice 1) = some aliceText :=
      hdump
    rw [LoginModule.respond, hdump]
    exact ⟨_, _, rfl, rfl, encrypt_aliceText⟩
  obtain ⟨response, notify, hrespond, huser, htoken⟩ := hrespond
  exact ⟨_, response, notify, hlogin.trans (congrArg _ hrespond), huser, htoken⟩

/-- The lobby rejects the token of `alice`. -/
theorem token_rejected_alice : ∃ s' response notify,
    aliceServer.user_login aliceInputs LoginModule.busy LoginModule.alice false LoginModule.twoUsers =
      (s', .success response notify) ∧
    ¬ Accepted aliceLobby response.token response.user_id 0 (.new : PlayerManager Nat Nat) := by
  obtain ⟨s', response, notify, hlogin, -⟩ := alice_success
  exact ⟨s', response, notify, hlogin, (token_rejected aliceServer aliceLobby rfl AesEcb.libtools_inverts
    readsBack_known _ _ _ _ _ _ _ _ hlogin 0 .new).2⟩

/-- The login of `alice` is answered with success, and the check of its token fails. -/
theorem alice_check_failed : (∃ s' response notify,
    aliceServer.user_login aliceInputs LoginModule.busy LoginModule.alice false LoginModule.twoUsers =
      (s', .success response notify) ∧ response.user_id = 1 ∧ response.token = aliceToken) ∧
    (∃ jv, (AesBt.AES_ecb128_decrypt AesEcb.libtools aliceToken AesBt.seed).bind parseKnown = some jv ∧
      check_user_token jv = .ok false) ∧
    ∀ user_id, ¬ Accepted aliceLobby aliceToken user_id 0 (.new : PlayerManager Nat Nat) := by
  have hdecrypt : AesBt.AES_ecb128_decrypt AesEcb.libtools aliceToken AesBt.seed = some aliceText := by
    rw [← encrypt_aliceText]
    exact AesBt.decrypt_encrypt AesEcb.libtools_inverts (by decide +kernel) AesBt.seed
  have hparse : parseKnown aliceText = some (asParsed aliceJson) := if_pos dumpPlain_aliceJson.symm
  have hfalse : check_user_token (asParsed aliceJson) = .ok false := by decide +kernel
  refine ⟨alice_success, ⟨_, by rw [hdecrypt]; exact hparse, hfalse⟩, ?_⟩
  intro user_id ⟨⟨text, jv, htext, hjv, htrue⟩, _⟩
  obtain rfl : aliceText = text := Option.some.inj (hdecrypt.symm.trans htext)
  obtain rfl : asParsed aliceJson = jv := Option.some.inj (hparse.symm.trans hjv)
  rw [hfalse] at htrue
  cases htrue

end LobbyServer

end SparkFrame.Server
