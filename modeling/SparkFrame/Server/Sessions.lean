import SparkFrame.Server.PlayerManager

/-!
# Who is on which session

`add_user_session` and `make_player` enter a player under a session without asking whose it is, so a
second user on a session takes the entry of the first, who still refers to the session.

* `Mutual` : the two maps and the players' sessions agree; `mutual_iff_indexes` : `m_online_user` is
  an index of the logged-in players by session;
* `Wf` : logged-in players are allocated, under their own ids;
* `Move`, `move_of_step` : the ways through the code; `Move.wf`, `Move.mutual_iff` : **one event**;
* `Unshared` : nobody else is on the session;
* `consistent_iff_unshared` : **whole runs, on both servers**; `not_mutual_of_sharing` : two users on
  one session.
-/

namespace SparkFrame.Server.PlayerManager

open SparkFrame.Lib Function

variable {S R : Type}

/-- The session of a player. -/
def session (m : PlayerManager S R) (p : PlayerPtr) : Option S := (m.players p).m_session

/-- The maps and the players agree. -/
structure Mutual (m : PlayerManager S R) : Prop where
  online : ∀ s p, m.m_online_user s = some p →
    m.session p = some s ∧ m.m_login_user (m.players p).m_user_id = some p
  login : ∀ u p s, m.m_login_user u = some p → m.session p = some s → m.m_online_user s = some p

/-- **The condition.** A user who logs in finds nobody else on the session, and a player who is made
finds nobody on it. -/
def Unshared (m : PlayerManager S R) : Event S R → Prop
  | .player_token_login user_id session =>
    ∀ p ∈ m.m_online_user session, (m.players p).m_user_id = user_id
  | .make_player player_id session =>
    m.m_login_user player_id = none → m.m_online_user session = none
  | _ => True

/-- After the step the maps agree, and nobody who is logged in refers to a session that has closed
in it. -/
def Consistent (x : Step (PlayerManager S R) (Event S R) (List (Effect S))) : Prop :=
  Mutual x.after ∧ ∀ s, x.event = .on_session_close s →
    ∀ u p, x.after.m_login_user u = some p → x.after.session p ≠ some s

/-! ## Well-formed managers -/

/-- Logged-in players are allocated, under their own ids. -/
structure Wf (m : PlayerManager S R) : Prop where
  user_id : ∀ u p, m.m_login_user u = some p → (m.players p).m_user_id = u
  allocated : ∀ u p, m.m_login_user u = some p → p < m.allocated

namespace Wf

variable {m : PlayerManager S R}

theorem new : Wf (.new : PlayerManager S R) := ⟨fun _ _ => (nomatch ·), fun _ _ => (nomatch ·)⟩

theorem unique (h : Wf m) {u v : Int} {p : PlayerPtr} (hu : m.m_login_user u = some p)
    (hv : m.m_login_user v = some p) : v = u :=
  (h.user_id v p hv).symm.trans (h.user_id u p hu)

/-- The players' sessions and rooms and the online map have no part in it. -/
theorem congr (h : Wf m) {m' : PlayerManager S R} (hlogin : m'.m_login_user = m.m_login_user)
    (hid : ∀ p, (m'.players p).m_user_id = (m.players p).m_user_id)
    (hal : m'.allocated = m.allocated) : Wf m' := by
  constructor
  · intro u p hu
    rw [hid]
    exact h.user_id u p (hlogin ▸ hu)
  · intro u p hu
    rw [hal]
    exact h.allocated u p (hlogin ▸ hu)

theorem erase (h : Wf m) (u : Int) : Wf { m with m_login_user := update m.m_login_user u none } := by
  have hsome {v : Int} {p : PlayerPtr} (hv : update m.m_login_user u none v = some p) :
      m.m_login_user v = some p := by
    by_cases hvu : v = u
    · rw [hvu, update_self] at hv
      cases hv
    · rwa [update_of_ne hvu] at hv
  exact ⟨fun v p hv => h.user_id v p (hsome hv), fun v p hv => h.allocated v p (hsome hv)⟩

/-- The state of a player changes, the id apart. -/
theorem set_player (h : Wf m) (p : PlayerPtr) (x : Player S R)
    (hx : x.m_user_id = (m.players p).m_user_id) (online : S → Option PlayerPtr) :
    Wf { m with players := update m.players p x, m_online_user := online } := by
  refine h.congr rfl (fun q => ?_) rfl
  show (update m.players p x q).m_user_id = _
  by_cases hq : q = p
  · rw [hq, update_self, hx]
  · rw [update_of_ne hq]

theorem insert_player [DecidableEq S] (h : Wf m) (u : Int) (s : S) : Wf (m.insert_player u s) := by
  constructor
  · intro v p hv
    show (update m.players m.allocated _ p).m_user_id = v
    by_cases hvu : v = u
    · rw [hvu] at hv ⊢
      cases (update_self .. : update m.m_login_user u (some m.allocated) u = _).symm.trans hv
      rw [update_self]
    · have hv : m.m_login_user v = some p := (update_of_ne hvu _ _).symm.trans hv
      rw [update_of_ne (Nat.ne_of_lt (h.allocated v p hv))]
      exact h.user_id v p hv
  · intro v p hv
    show p < m.allocated + 1
    by_cases hvu : v = u
    · rw [hvu] at hv
      cases (update_self .. : update m.m_login_user u (some m.allocated) u = _).symm.trans hv
      exact Nat.lt_succ_self _
    · have hv : m.m_login_user v = some p := (update_of_ne hvu _ _).symm.trans hv
      exact Nat.lt_succ_of_lt (h.allocated v p hv)

end Wf

/-! ## The online map as an index -/

theorem mutual_iff_indexes {m : PlayerManager S R} (h : Wf m) :
    Mutual m ↔ Indexes m.m_login_user m.session m.m_online_user := by
  constructor
  · intro hm s p
    constructor
    · intro hs
      exact ⟨⟨_, (hm.online s p hs).2⟩, (hm.online s p hs).1⟩
    · rintro ⟨⟨u, hu⟩, hsession⟩
      exact hm.login u p s hu hsession
  · intro hi
    constructor
    · intro s p hs
      obtain ⟨⟨u, hu⟩, hsession⟩ := (hi s p).1 hs
      exact ⟨hsession, by rw [h.user_id u p hu, hu]⟩
    · intro u p s hu hsession
      exact (hi s p).2 ⟨⟨u, hu⟩, hsession⟩

theorem session_set_player (m : PlayerManager S R) (p : PlayerPtr) (x : Player S R) (login online al) :
    session ⟨login, online, update m.players p x, al⟩ = update m.session p x.m_session := by
  funext q
  show (update m.players p x q).m_session = _
  by_cases hq : q = p
  · rw [hq, update_self, update_self]
  · rw [update_of_ne hq, update_of_ne hq]
    rfl

/-! ## What an event does to the maps -/

variable [DecidableEq S]

/-- The new state after an event, one case for each way through the code. -/
inductive Move (m : PlayerManager S R) : Event S R → PlayerManager S R → Prop where
  | relogin (u : Int) (s : S) (p : PlayerPtr) : m.m_login_user u = some p →
      Move m (.player_token_login u s)
        { m with
          players := update m.players p { m.players p with m_session := some s }
          m_online_user := update (forget m.m_online_user (m.session p)) s (some p) }
  | login (u : Int) (s : S) : m.m_login_user u = none →
      Move m (.player_token_login u s) (m.insert_player u s)
  | make (u : Int) (s : S) : m.m_login_user u = none →
      Move m (.make_player u s) (m.insert_player u s)
  | made (u : Int) (s : S) (p : PlayerPtr) : m.m_login_user u = some p → Move m (.make_player u s) m
  | unknown (s : S) : m.m_online_user s = none → Move m (.on_session_close s) m
  | leave (s : S) (p : PlayerPtr) : m.m_online_user s = some p →
      Move m (.on_session_close s)
        { m.session_close p with m_online_user := update m.m_online_user s none }
  | logout (s : S) (p : PlayerPtr) : m.m_online_user s = some p →
      Move m (.on_session_close s)
        { m.session_close p with
          m_online_user := update m.m_online_user s none
          m_login_user := update m.m_login_user (m.players p).m_user_id none }
  | destory (p q : PlayerPtr) : m.m_login_user (m.players p).m_user_id = some q →
      Move m (.destory_player p)
        { m with
          m_online_user := forget m.m_online_user (m.session q)
          m_login_user := update m.m_login_user (m.players p).m_user_id none }
  | destroyed (p : PlayerPtr) : m.m_login_user (m.players p).m_user_id = none →
      Move m (.destory_player p) m
  | room (p : PlayerPtr) (r : Option R) :
      Move m (.set_room p r)
        { m with players := update m.players p { m.players p with m_room := r } }

theorem move_of_step {m m' : PlayerManager S R} {e : Event S R} {o : List (Effect S)}
    (h : step server m e = some (m', o)) : Move m e m' := by
  cases e with
  | player_token_login u s =>
    simp only [step, add_user_session] at h
    split at h
    · next p hp =>
      cases h
      exact .relogin u s p hp
    · next hu =>
      cases h
      exact .login u s hu
  | make_player u s =>
    cases hu : m.m_login_user u with
    | none =>
      cases server <;> simp only [step, Lobby.make_player, Game.make_player, hu] at h <;>
        cases h <;> exact .make u s hu
    | some p =>
      cases server <;> simp only [step, Lobby.make_player, Game.make_player, hu] at h <;>
        cases h <;> exact .made u s p hu
  | on_session_close s =>
    cases hs : m.m_online_user s with
    | none =>
      cases server <;> simp only [step, Lobby.on_session_close, Game.on_session_close, hs] at h <;>
        cases h <;> exact .unknown s hs
    | some p =>
      have hid : ((m.session_close p).players p).m_user_id = (m.players p).m_user_id := by
        simp [session_close]
      cases server with
      | lobby =>
        simp only [step, Lobby.on_session_close, hs, hid] at h
        cases h
        exact .logout s p hs
      | gamesvr =>
        simp only [step, Game.on_session_close, hs, hid] at h
        split at h
        · split at h
          · cases h
            exact .logout s p hs
          · cases h
            exact .leave s p hs
        · cases h
          exact .leave s p hs
  | destory_player p =>
    simp only [step, destory_player] at h
    split at h
    · split at h
      · next q hq =>
        cases h
        exact .destory p q hq
      · next hp =>
        cases h
        exact .destroyed p hp
    · cases h
  | set_room p r =>
    simp only [step] at h
    split at h
    · cases h
      exact .room p r
    · cases h

theorem Move.wf {m m' : PlayerManager S R} {e : Event S R} (hm : Move m e m') (h : Wf m) :
    Wf m' := by
  cases hm with
  | relogin u s p => exact h.set_player p { m.players p with m_session := some s } rfl _
  | login u s | make u s => exact h.insert_player u s
  | made | unknown | destroyed => exact h
  | leave s p => exact h.set_player p { m.players p with m_session := none } rfl _
  | logout s p => exact (h.set_player p { m.players p with m_session := none } rfl _).erase _
  | destory p q => exact (h.erase _).congr rfl (fun _ => rfl) rfl
  | room p r => exact h.set_player p { m.players p with m_room := r } rfl _

/-- **One event.** Where the maps agree they still do after an event exactly when it shares no
session. -/
theorem Move.mutual_iff {m m' : PlayerManager S R} {e : Event S R} (hm : Move m e m') (h : Wf m)
    (hmut : Mutual m) : Mutual m' ↔ Unshared m e := by
  have hi := (mutual_iff_indexes h).1 hmut
  rw [mutual_iff_indexes (hm.wf h)]
  cases hm with
  | relogin u s p hu =>
    rw [session_set_player]
    refine (hi.rekey_iff hu).trans (forall₂_congr fun q hq => ?_)
    constructor
    · rintro rfl
      exact h.user_id u q hu
    · intro hq'
      have := (hmut.online s q hq).2
      rw [hq', hu] at this
      exact (Option.some.inj this).symm
  | login u s hu =>
    rw [insert_player, session_set_player]
    refine (hi.insert_iff hu fun v hv => absurd (h.allocated v _ hv) (Nat.lt_irrefl _)).trans ?_
    constructor
    · intro hnone q hq
      rw [hnone] at hq
      cases hq
    · intro hq
      by_contra hne
      obtain ⟨q, hs⟩ := Option.ne_none_iff_exists'.1 hne
      have := (hmut.online s q hs).2
      rw [hq q hs, hu] at this
      cases this
  | make u s hu =>
    refine Iff.trans ?_ (forall_prop_of_true hu).symm
    rw [insert_player, session_set_player]
    exact hi.insert_iff hu fun v hv => absurd (h.allocated v _ hv) (Nat.lt_irrefl _)
  | made u s p hu => exact iff_of_true hi fun hn => absurd (hu.symm.trans hn) (by simp)
  | unknown | destroyed => exact iff_of_true hi trivial
  | leave s p hs =>
    refine iff_of_true ?_ trivial
    rw [session_close, session_set_player]
    exact hi.unkey hs
  | logout s p hs =>
    refine iff_of_true ?_ trivial
    rw [session_close, session_set_player]
    have := (hi.unkey hs).erase (hmut.online s p hs).2 fun v hv => h.unique (hmut.online s p hs).2 hv
    rwa [update_self] at this
  | destory p q hq =>
    exact iff_of_true (hi.erase hq fun v hv => h.unique hq hv) trivial
  | room p r =>
    refine iff_of_true ?_ trivial
    rw [session_set_player, show update m.session p (m.players p).m_session = m.session from
      update_eq_self p m.session]
    exact hi

/-! ## Runs -/

theorem Move.closed {m m' : PlayerManager S R} {s : S} (hm : Move m (.on_session_close s) m') :
    m'.m_online_user s = none := by
  cases hm with
  | unknown _ hs => exact hs
  | leave _ p => exact update_self ..
  | logout _ p => exact update_self ..

theorem consistent_step_iff {m m' : PlayerManager S R} {e : Event S R} {o : List (Effect S)}
    (h : Wf m ∧ Mutual m) (hs : step server m e = some (m', o)) :
    Consistent ⟨m, e, o, m'⟩ ↔ Unshared m e := by
  have hm := move_of_step hs
  rw [← hm.mutual_iff h.1 h.2]
  refine and_iff_left_of_imp fun hmut => ?_
  rintro s rfl u p hu hsession
  have := hmut.login u p s hu hsession
  rw [hm.closed] at this
  cases this

/-- **Sessions are consistent exactly when none is shared.** On both servers, over runs of any
length from empty maps: after every event the maps are mutually inverse and nobody refers to a
session that has just closed, if and only if no user logged in on, and no player was made on, a
session that somebody else was on. -/
theorem consistent_iff_unshared {tr : List (Step (PlayerManager S R) _ _)} {m : PlayerManager S R}
    (hr : Run (step server) new tr m) :
    (∀ x ∈ tr, Consistent x) ↔ ∀ x ∈ tr, Unshared x.before x.event := by
  have hnew : Mutual (new : PlayerManager S R) :=
    ⟨fun _ _ => (nomatch ·), fun _ _ _ => (nomatch ·)⟩
  refine hr.forall_iff ⟨.new, hnew⟩ consistent_step_iff ?_
  intro m m' e o h hok hs
  have hm := move_of_step hs
  exact ⟨hm.wf h.1, (hm.mutual_iff h.1 h.2).2 hok⟩

/-- User 1 logs in, moves to another session, and the first one closes. -/
theorem consistent_iff_unshared_relogin :
    ∃ tr m, Run (step .lobby) (new : PlayerManager Nat Nat) tr m ∧
      m.m_login_user 1 = some 0 ∧ m.session 0 = some 8 ∧
      ((∀ x ∈ tr, Consistent x) ↔ ∀ x ∈ tr, Unshared x.before x.event) := by
  obtain ⟨tr, m, hr, hl, hs⟩ := Run.exists_of_exec (step .lobby) (new : PlayerManager Nat Nat)
    [.player_token_login 1 7, .player_token_login 1 8, .on_session_close 7]
    (P := fun _ m => m.m_login_user 1 = some 0 ∧ m.session 0 = some 8) (by decide)
  exact ⟨tr, m, hr, hl, hs, consistent_iff_unshared hr⟩

/-- Users 1 and 2 log in on one session: when it closes, user 1 still refers to it. -/
theorem not_mutual_of_sharing :
    ∃ tr m, Run (step .lobby) (new : PlayerManager Nat Nat) tr m ∧
      m.m_login_user 1 = some 0 ∧ m.session 0 = some 7 ∧ m.m_online_user 7 = none ∧
      ¬ Mutual m := by
  obtain ⟨tr, m, hr, hl, hs, ho⟩ := Run.exists_of_exec (step .lobby) (new : PlayerManager Nat Nat)
    [.player_token_login 1 7, .player_token_login 2 7, .on_session_close 7]
    (P := fun _ m => m.m_login_user 1 = some 0 ∧ m.session 0 = some 7 ∧ m.m_online_user 7 = none)
    (by decide)
  refine ⟨tr, m, hr, hl, hs, ho, fun hm => ?_⟩
  have := hm.login 1 0 7 hl hs
  rw [ho] at this
  cases this

end SparkFrame.Server.PlayerManager
