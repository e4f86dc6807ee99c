import SparkFrame.Server.Sessions

/-!
# Whom a message is taken to be from

A message no handler is registered for goes to `on_unknown_msg`, which asks `check_user_msg` for the
user of its session. Users may share a session here, or leave an old player behind; what carries the
result is the half of `Mutual` that sharing does not break.

* `LoginEvent` : token logins, closes of sessions and `destory_player`;
* `LastLogin u s es` : in the history `es` the last login on `s` and the last login of `u` are the
  same one, and `s` has not been closed since;
* `Entry`, `Tracked` : every entry of `m_online_user` is for a logged-in player who refers to its
  session and came with the last login on it;
* `Move.tracked` : **one event**; `check_user_msg_lastLogin` : **whole runs**.
-/

namespace SparkFrame.Server.PlayerManager

open SparkFrame.Lib Function

variable {S R : Type}

/-- The events of a lobby that hands out no players of its own accord. -/
def LoginEvent : Event S R → Prop
  | .player_token_login .. | .on_session_close _ | .destory_player _ => True
  | _ => False

instance : DecidablePred (LoginEvent : Event S R → Prop)
  | .player_token_login .. | .on_session_close _ | .destory_player _ => .isTrue trivial
  | .make_player .. | .set_room .. => .isFalse id

/-- The event ends the login of the user on the session. -/
def Supersedes (u : Int) (s : S) : Event S R → Prop
  | .player_token_login v t => v = u ∨ t = s
  | .on_session_close t => t = s
  | _ => False

/-- The user logged in on the session, and no event after that superseded the login. -/
def LastLogin (u : Int) (s : S) (es : List (Event S R)) : Prop :=
  ∃ pre post, es = pre ++ .player_token_login u s :: post ∧ ∀ e ∈ post, ¬ Supersedes u s e

namespace LastLogin

theorem login (u : Int) (s : S) (es : List (Event S R)) :
    LastLogin u s (es ++ [.player_token_login u s]) :=
  ⟨es, [], rfl, List.forall_mem_nil _⟩

theorem snoc {u : Int} {s : S} {es : List (Event S R)} {e : Event S R} (h : LastLogin u s es)
    (he : ¬ Supersedes u s e) : LastLogin u s (es ++ [e]) := by
  obtain ⟨pre, post, rfl, hpost⟩ := h
  refine ⟨pre, post ++ [e], by simp, ?_⟩
  rw [List.forall_mem_append, List.forall_mem_singleton]
  exact ⟨hpost, he⟩

end LastLogin

/-- The player refers to the session, is logged in, and came with the last login on the session. -/
structure Entry (es : List (Event S R)) (m : PlayerManager S R) (s : S) (p : PlayerPtr) : Prop where
  session : m.session p = some s
  login : m.m_login_user (m.players p).m_user_id = some p
  last : LastLogin (m.players p).m_user_id s es

/-- What is known of a manager after the events `es`. -/
structure Tracked (es : List (Event S R)) (m : PlayerManager S R) : Prop where
  wf : Wf m
  entry : ∀ s p, m.m_online_user s = some p → Entry es m s p

theorem Tracked.new : Tracked [] (.new : PlayerManager S R) where
  wf := .new
  entry := fun _ _ => (nomatch ·)

variable {es : List (Event S R)} {m m' : PlayerManager S R} {e : Event S R} {s t : S}
  {p q : PlayerPtr}

theorem Entry.kept (h : Entry es m s p) (hp : m'.players p = m.players p)
    (hu : m'.m_login_user (m.players p).m_user_id = m.m_login_user (m.players p).m_user_id)
    (he : ¬ Supersedes (m.players p).m_user_id s e) : Entry (es ++ [e]) m' s p where
  session := by rw [PlayerManager.session, hp]; exact h.session
  login := by rw [hp, hu]; exact h.login
  last := by rw [hp]; exact h.last.snoc he

theorem Entry.player_ne (h : Entry es m s p) (hq : m.session q ≠ some s) : p ≠ q := by
  rintro rfl
  exact hq h.session

theorem Entry.user_ne (h : Entry es m s p) {u : Int} (hu : m.m_login_user u = some q)
    (hne : p ≠ q) : (m.players p).m_user_id ≠ u := by
  rintro rfl
  have := h.login
  rw [hu] at this
  exact hne (Option.some.inj this).symm

theorem Tracked.player_ne (h : Tracked es m) (hp : m.m_online_user s = some p)
    (hq : m.m_online_user t = some q) (hts : t ≠ s) : q ≠ p := by
  apply (h.entry t q hq).player_ne
  rw [(h.entry s p hp).session]
  exact fun heq => hts (Option.some.inj heq).symm

variable [DecidableEq S]

/-- **One event.** -/
theorem Move.tracked (hm : Move m e m') (he : LoginEvent e) (h : Tracked es m) :
    Tracked (es ++ [e]) m' := by
  refine ⟨hm.wf h.wf, ?_⟩
  cases hm with
  | make | made | room => cases he
  | relogin u s p hu =>
    intro t q (ht : update (forget m.m_online_user (m.session p)) s (some p) t = some q)
    obtain ⟨rfl, hp⟩ | ⟨hts, ht⟩ := update_eq_some_iff.1 ht
    · cases hp
      have hid := h.wf.user_id u p hu
      refine ⟨?_, ?_, ?_⟩
      · simp [session]
      · simp [hid, hu]
      · simp [hid, LastLogin.login]
    · obtain ⟨hold, ht⟩ := forget_eq_some_iff.1 ht
      have hentry := h.entry t q ht
      have hne := hentry.player_ne hold
      refine hentry.kept (update_of_ne hne _ _) rfl ?_
      rintro (huser | hsession)
      · exact hentry.user_ne hu hne huser.symm
      · exact hts hsession.symm
  | login u s hu =>
    intro t q (ht : update m.m_online_user s (some m.allocated) t = some q)
    obtain ⟨rfl, hp⟩ | ⟨hts, ht⟩ := update_eq_some_iff.1 ht
    · cases hp
      refine ⟨?_, ?_, ?_⟩
      · simp [session, insert_player]
      · simp [insert_player]
      · simp [insert_player, LastLogin.login]
    · have hentry := h.entry t q ht
      have hnew : q ≠ m.allocated := Nat.ne_of_lt (h.wf.allocated _ q hentry.login)
      have huser : (m.players q).m_user_id ≠ u := by
        rintro rfl
        rw [hentry.login] at hu
        cases hu
      refine hentry.kept (update_of_ne hnew _ _) (update_of_ne huser _ _) ?_
      rintro (heq | hsession)
      · exact huser heq.symm
      · exact hts hsession.symm
  | unknown s hs =>
    intro t q ht
    refine (h.entry t q ht).kept rfl rfl ?_
    rintro rfl
    rw [hs] at ht
    cases ht
  | leave s p hs =>
    intro t q (ht : update m.m_online_user s none t = some q)
    obtain ⟨-, hq⟩ | ⟨hts, ht⟩ := update_eq_some_iff.1 ht
    · cases hq
    have hentry := h.entry t q ht
    have hne := h.player_ne hs ht hts
    exact hentry.kept (update_of_ne hne _ _) rfl fun hsession => hts hsession.symm
  | logout s p hs =>
    intro t q (ht : update m.m_online_user s none t = some q)
    obtain ⟨-, hq⟩ | ⟨hts, ht⟩ := update_eq_some_iff.1 ht
    · cases hq
    have hentry := h.entry t q ht
    have hne := h.player_ne hs ht hts
    have huser := hentry.user_ne (h.entry s p hs).login hne
    exact hentry.kept (update_of_ne hne _ _) (update_of_ne huser _ _) fun hs => hts hs.symm
  | destory p r hr =>
    intro t q (ht : forget m.m_online_user (m.session r) t = some q)
    obtain ⟨hold, ht⟩ := forget_eq_some_iff.1 ht
    have hentry := h.entry t q ht
    have huser := hentry.user_ne hr (hentry.player_ne hold)
    exact hentry.kept rfl (update_of_ne huser _ _) id
  | destroyed p => exact fun t q ht => (h.entry t q ht).kept rfl rfl id

/-- **Messages are dispatched as the user who logged in last.** After any run of token logins, closes
of sessions and `destory_player`: if a message on a session is taken to be from a user, then the last
login on the session and the last login of the user are one and the same, and the session has not
been closed since. -/
theorem check_user_msg_lastLogin {tr : List (Step (PlayerManager S R) _ _)} {m : PlayerManager S R}
    (hr : Run (step .lobby) new tr m) (hev : ∀ x ∈ tr, LoginEvent x.event) {s : S} {u : Int}
    (h : m.check_user_msg s = some u) : LastLogin u s (tr.map Step.event) := by
  have htr : Tracked (tr.map Step.event) m := by
    refine hr.invariant (fun tr m => Tracked (tr.map Step.event) m) (fun _ e => LoginEvent e)
      .new ?_ hev
    intro tr m m' e o hm he hs
    rw [List.map_append]
    exact (move_of_step hs).tracked he hm
  rw [check_user_msg] at h
  split at h
  · cases h
  · next p hs =>
    cases h
    exact (htr.entry s p hs).last

/-- Users 1 and 2 log in on one session, and user 1 moves on: the first session is no one's, and
messages on the second are from user 1. -/
theorem check_user_msg_lastLogin_shared :
    ∃ tr m, Run (step .lobby) (new : PlayerManager Nat Nat) tr m ∧
      m.on_unknown_msg 7 = .session_hav_no_user ∧ m.on_unknown_msg 8 = .dispatch_app_msg 1 ∧
      LastLogin 1 8 (tr.map Step.event) := by
  obtain ⟨tr, m, hr, hev, h7, h8, hc⟩ := Run.exists_of_exec (step .lobby)
    (new : PlayerManager Nat Nat)
    [.player_token_login 1 7, .player_token_login 2 7, .player_token_login 1 8]
    (P := fun tr m => (∀ x ∈ tr, LoginEvent x.event) ∧ m.on_unknown_msg 7 = .session_hav_no_user ∧
      m.on_unknown_msg 8 = .dispatch_app_msg 1 ∧ m.check_user_msg 8 = some 1) (by decide)
  exact ⟨tr, m, hr, h7, h8, check_user_msg_lastLogin hr hev hc⟩

end SparkFrame.Server.PlayerManager
