import SparkFrame.Server.Sessions

/-!
# Seats: `gamesvr/GameRoom` beside `gamesvr/PlayerManager`

A seated player is recorded in the table of the room, in the maps of the manager and in the player.

* `GameServer`, `add_player`, `destroy_player`, `step` : the manager and the tables of all rooms;
* `Entered` : what an entry of `m_online_user` says about its player; `Move.entered`;
* `Stays` : a player is still logged in, with the room it had; one lemma for each member function;
* `Seated`, `Inv`, `inv_step` : the players at the tables;
* `KeepsSeats`, `seats_kept` : **whole runs**; `seats_kept_relogin` : a seated player loses the session
  and logs in again.
-/

namespace SparkFrame.Server

open SparkFrame.Lib Function

/-- The game server. A room is known by its object, and its `m_all_player` is looked up by it. -/
structure GameServer (S R : Type) where
  manager : PlayerManager S R
  m_all_player : R → Int → Option PlayerPtr

namespace GameServer

open PlayerManager (Effect)

variable {S R : Type} [DecidableEq S] [DecidableEq R]

inductive Event (S R : Type) where
  /-- A token login that is accepted for the user. -/
  | player_token_login (user_id : Int) (session : S)
  | on_session_close (session : S)
  | add_player (room : R) (player_id : Int) (session : S)
  /-- `destroy_player` of the player that the room has for the id. -/
  | destroy_player (room : R) (player_id : Int)
deriving DecidableEq, Repr

def new : GameServer S R := { manager := .new, m_all_player := fun _ _ => none }

/-- The table of one room with another entry. -/
def set_seat (room : R) (player_id : Int) (player : Option PlayerPtr) (g : GameServer S R) :
    R → Int → Option PlayerPtr :=
  update g.m_all_player room (update (g.m_all_player room) player_id player)

/-- `GameRoom::add_player`. -/
def add_player (room : R) (player_id : Int) (session : S) (g : GameServer S R) :
    Option PlayerPtr × GameServer S R :=
  match g.m_all_player room player_id with
  | some player => (some player, g)
  | none =>
    match PlayerManager.Game.make_player player_id session g.manager with
    | (none, m) => (none, { g with manager := m })
    | (some player, m) =>
      (some player,
        { manager := { m with
            players := update m.players player { m.players player with m_room := some room } }
          m_all_player := g.set_seat room player_id (some player) })

/-- `GameRoom::destroy_player`. The player keeps its room. -/
def destroy_player (room : R) (player : PlayerPtr) (g : GameServer S R) :
    GameServer S R × List (Effect S) :=
  let r := g.manager.destory_player player
  ({ manager := r.1
     m_all_player := g.set_seat room (g.manager.players player).m_user_id none }, r.2)

def step (g : GameServer S R) : Event S R → Option (GameServer S R × List (Effect S))
  | .player_token_login user_id session =>
    let r := g.manager.add_user_session user_id session
    some ({ g with manager := r.1 }, r.2)
  | .on_session_close session =>
    let r := PlayerManager.Game.on_session_close session g.manager
    some ({ g with manager := r.1 }, r.2)
  | .add_player room player_id session => some ((g.add_player room player_id session).2, [])
  | .destroy_player room player_id =>
    (g.m_all_player room player_id).map fun player => g.destroy_player room player

end GameServer

namespace PlayerManager

variable {S R : Type} {m m' : PlayerManager S R} {u v : Int} {s : S} {p q : PlayerPtr}

/-! ## Entries of `m_online_user` -/

/-- An entry is for a logged-in player who refers to its session. -/
def Entered (m : PlayerManager S R) : Prop :=
  ∀ s p, m.m_online_user s = some p →
    m.session p = some s ∧ m.m_login_user (m.players p).m_user_id = some p

theorem Entered.new : Entered (.new : PlayerManager S R) := fun _ _ => (nomatch ·)

theorem Entered.player_ne (h : Entered m) (hs : m.m_online_user s = some p)
    (hq : m.session q ≠ some s) : p ≠ q := by
  rintro rfl
  exact hq (h s p hs).1

theorem Entered.user_ne (h : Entered m) (hs : m.m_online_user s = some p)
    (hu : m.m_login_user u = some q) (hne : p ≠ q) : (m.players p).m_user_id ≠ u := by
  rintro rfl
  have hp := (h s p hs).2
  rw [hu] at hp
  exact hne (Option.some.inj hp).symm

theorem Entered.kept (h : Entered m) (hs : m.m_online_user s = some p)
    (hp : m'.players p = m.players p)
    (hu : m'.m_login_user (m.players p).m_user_id = m.m_login_user (m.players p).m_user_id) :
    m'.session p = some s ∧ m'.m_login_user (m'.players p).m_user_id = some p := by
  obtain ⟨hsession, hlogin⟩ := h s p hs
  rw [session, hp, hu]
  exact ⟨hsession, hlogin⟩

variable [DecidableEq S]

theorem Entered.insert_player (h : Entered m) (hwf : Wf m) (hu : m.m_login_user u = none) (s : S) :
    Entered (m.insert_player u s) := by
  intro t q (ht : update m.m_online_user s (some m.allocated) t = some q)
  obtain ⟨rfl, hq⟩ | ⟨-, ht⟩ := update_eq_some_iff.1 ht
  · cases hq
    simp [session, PlayerManager.insert_player]
  · have hlogin := (h t q ht).2
    have hnew : q ≠ m.allocated := Nat.ne_of_lt (hwf.allocated _ q hlogin)
    have huser : (m.players q).m_user_id ≠ u := by
      rintro rfl
      rw [hlogin] at hu
      cases hu
    exact h.kept ht (update_of_ne hnew _ _) (update_of_ne huser _ _)

theorem Entered.left (h : Entered m) (hs : m.m_online_user s = some p) {t : S}
    (ht : update m.m_online_user s none t = some q) : m.m_online_user t = some q ∧ q ≠ p := by
  obtain ⟨-, hq⟩ | ⟨hts, ht⟩ := update_eq_some_iff.1 ht
  · cases hq
  · refine ⟨ht, h.player_ne ht ?_⟩
    rw [(h s p hs).1]
    exact fun heq => hts (Option.some.inj heq).symm

/-- **One event.** Sharing a session loses entries and leaves no wrong one. -/
theorem Move.entered {e : PlayerManager.Event S R} (hm : Move m e m') (hwf : Wf m)
    (h : Entered m) : Entered m' := by
  cases hm with
  | made | unknown | destroyed => exact h
  | login u s hu | make u s hu => exact h.insert_player hwf hu s
  | relogin u s p hu =>
    intro t q (ht : update (forget m.m_online_user (m.session p)) s (some p) t = some q)
    obtain ⟨rfl, hq⟩ | ⟨-, ht⟩ := update_eq_some_iff.1 ht
    · cases hq
      simp [session, hwf.user_id u p hu, hu]
    · obtain ⟨hold, ht⟩ := forget_eq_some_iff.1 ht
      exact h.kept ht (update_of_ne (h.player_ne ht hold) _ _) rfl
  | leave s p hs =>
    intro t q ht
    obtain ⟨ht, hne⟩ := h.left hs ht
    exact h.kept ht (update_of_ne hne _ _) rfl
  | logout s p hs =>
    intro t q ht
    obtain ⟨ht, hne⟩ := h.left hs ht
    exact h.kept ht (update_of_ne hne _ _) (update_of_ne (h.user_ne ht (h s p hs).2 hne) _ _)
  | destory p r hr =>
    intro t q (ht : forget m.m_online_user (m.session r) t = some q)
    obtain ⟨hold, ht⟩ := forget_eq_some_iff.1 ht
    exact h.kept ht rfl (update_of_ne (h.user_ne ht hr (h.player_ne ht hold)) _ _)
  | room p r =>
    intro t q ht
    obtain ⟨hsession, hlogin⟩ := h t q ht
    by_cases hq : q = p
    · subst hq
      simpa [session] using ⟨hsession, hlogin⟩
    · exact h.kept ht (update_of_ne hq _ _) rfl

/-! ## Players who stay -/

/-- The player is logged in as the user, with the room it had. -/
def Stays (m m' : PlayerManager S R) (u : Int) (p : PlayerPtr) : Prop :=
  m'.m_login_user u = some p ∧ (m'.players p).m_room = (m.players p).m_room

theorem Stays.insert_player (hwf : Wf m) (hp : m.m_login_user u = some p)
    (hv : m.m_login_user v = none) (s : S) : Stays m (m.insert_player v s) u p := by
  have huv : u ≠ v := by
    rintro rfl
    rw [hp] at hv
    cases hv
  have hnew := update_of_ne (Nat.ne_of_lt (hwf.allocated u p hp)) ⟨v, some s, none⟩ m.players
  exact ⟨(update_of_ne huv _ _).trans hp, congrArg Player.m_room hnew⟩

theorem stays_add_user_session (hwf : Wf m) (hp : m.m_login_user u = some p) (v : Int) (s : S) :
    Stays m (m.add_user_session v s).1 u p := by
  rw [add_user_session]
  split
  · next q hq =>
    refine ⟨hp, ?_⟩
    by_cases hpq : p = q
    · subst hpq
      simp
    · simp [hpq]
  · next hv => exact .insert_player hwf hp hv s

theorem session_add_user_session (hp : m.m_login_user u = some p) (s : S) :
    (m.add_user_session u s).1.session p = some s ∧
      (m.add_user_session u s).1.m_online_user s = some p := by
  rw [add_user_session, hp]
  simp [session]

theorem add_user_session_asserts (u : Int) (s : S) :
    .assert_failed ∉ (m.add_user_session u s).2 := by
  rw [add_user_session]
  split
  · dsimp only
    split
    · split <;> simp
    · simp
  · simp

theorem stays_make_player (hwf : Wf m) (hp : m.m_login_user u = some p) (v : Int) (s : S) :
    Stays m (Game.make_player v s m).2 u p := by
  rw [Game.make_player]
  split
  · next hv => exact .insert_player hwf hp hv s
  · exact ⟨hp, rfl⟩

/-- A session that closes: its player is logged out, unless in a room. The assertion holds. -/
theorem on_session_close_eq (h : Entered m) (hs : m.m_online_user s = some q) :
    Game.on_session_close s m =
      ({ m.session_close q with
          m_online_user := update m.m_online_user s none
          m_login_user := if (m.players q).m_room.isNone then
            update m.m_login_user (m.players q).m_user_id none else m.m_login_user }, []) := by
  have hlogin := (h s q hs).2
  rw [Game.on_session_close, hs]
  by_cases hroom : (m.players q).m_room.isNone
  · simp [session_close, hroom, hlogin]
  · simp [session_close, hroom]

theorem on_session_close_asserts (h : Entered m) (s : S) : (Game.on_session_close s m).2 = [] := by
  rcases hs : m.m_online_user s with _ | q
  · rw [Game.on_session_close, hs]
  · rw [on_session_close_eq h hs]

/-- Whatever session closes, a player in a room stays. -/
theorem stays_on_session_close (h : Entered m) (hp : m.m_login_user u = some p)
    (hroom : (m.players p).m_room ≠ none) (s : S) :
    Stays m (Game.on_session_close s m).1 u p := by
  rcases hs : m.m_online_user s with _ | q
  · rw [Game.on_session_close, hs]
    exact ⟨hp, rfl⟩
  rw [on_session_close_eq h hs]
  constructor
  · show (if (m.players q).m_room.isNone then
      update m.m_login_user (m.players q).m_user_id none else m.m_login_user) u = some p
    split
    · next hnone =>
      have hqp : q ≠ p := by
        rintro rfl
        exact hroom (Option.isNone_iff_eq_none.mp hnone)
      rw [update_of_ne (h.user_ne hs hp hqp).symm]
      exact hp
    · exact hp
  · show (update m.players q _ p).m_room = _
    by_cases hpq : p = q
    · rw [hpq, update_self]
    · rw [update_of_ne hpq]

theorem stays_destory_player (hp : m.m_login_user u = some p) (hu : (m.players q).m_user_id ≠ u) :
    Stays m (m.destory_player q).1 u p := by
  rw [destory_player]
  split
  · exact ⟨(update_of_ne hu.symm _ _).trans hp, rfl⟩
  · exact ⟨hp, rfl⟩

end PlayerManager

namespace GameServer

open PlayerManager

variable {S R : Type} {g g' : GameServer S R} {r r' : R} {u v : Int} {p : PlayerPtr}

/-! ## The tables -/

/-- Every player at a table is the object the manager has for the id, and its room is that of the
table. -/
def Seated (g : GameServer S R) : Prop :=
  ∀ r u p, g.m_all_player r u = some p →
    g.manager.m_login_user u = some p ∧ (g.manager.players p).m_room = some r

/-- The invariant of all runs. -/
structure Inv (g : GameServer S R) : Prop where
  wf : Wf g.manager
  entered : Entered g.manager
  seated : Seated g

theorem inv_new : Inv (new : GameServer S R) :=
  ⟨.new, .new, fun _ _ _ => (nomatch ·)⟩

theorem Seated.once (h : Seated g) (hwf : Wf g.manager) (hp : g.m_all_player r u = some p)
    (hp' : g.m_all_player r' v = some p) : r' = r ∧ v = u := by
  obtain ⟨hu, hr⟩ := h r u p hp
  obtain ⟨hv, hr'⟩ := h r' v p hp'
  rw [hr, Option.some.injEq] at hr'
  exact ⟨hr'.symm, hwf.unique hu hv⟩

/-- Where everybody at a table stays, the tables are as they should be. -/
theorem Seated.of_stays (h : Seated g) {m : PlayerManager S R}
    (hstays : ∀ r u p, g.m_all_player r u = some p → Stays g.manager m u p) :
    Seated { g with manager := m } := by
  intro r u p hp
  obtain ⟨hlogin, hroom⟩ := hstays r u p hp
  exact ⟨hlogin, hroom.trans (h r u p hp).2⟩

section

variable [DecidableEq R]

theorem set_seat_eq_some_iff {o : Option PlayerPtr} :
    g.set_seat r u o r' v = some p ↔
      (r' = r ∧ v = u) ∧ o = some p ∨ ¬ (r' = r ∧ v = u) ∧ g.m_all_player r' v = some p := by
  rw [set_seat]
  by_cases hr : r' = r
  · subst hr
    rw [update_self, update_eq_some_iff]
    simp
  · rw [update_of_ne hr]
    simp [hr]

end

/-! ## One event -/

variable [DecidableEq S]

theorem Inv.player_token_login (h : Inv g) (u : Int) (s : S) :
    Inv { g with manager := (g.manager.add_user_session u s).1 } := by
  have hm : Move g.manager (.player_token_login u s) (g.manager.add_user_session u s).1 :=
    move_of_step (show PlayerManager.step .gamesvr _ _ = some (_, _) from rfl)
  exact ⟨hm.wf h.wf, hm.entered h.wf h.entered,
    h.seated.of_stays fun r v p hp => stays_add_user_session h.wf (h.seated r v p hp).1 u s⟩

theorem Inv.on_session_close (h : Inv g) (s : S) :
    Inv { g with manager := (Game.on_session_close s g.manager).1 } := by
  have hm : Move g.manager (.on_session_close s) (Game.on_session_close s g.manager).1 :=
    move_of_step (show PlayerManager.step .gamesvr _ _ = some (_, _) from rfl)
  refine ⟨hm.wf h.wf, hm.entered h.wf h.entered, h.seated.of_stays fun r v p hp => ?_⟩
  obtain ⟨hlogin, hroom⟩ := h.seated r v p hp
  exact stays_on_session_close h.entered hlogin (by simp [hroom]) s

theorem make_player_eq_some {m m' : PlayerManager S R} {s : S}
    (h : Game.make_player u s m = (some p, m')) :
    m'.m_login_user u = some p ∧ (m'.players p).m_room = none := by
  rw [Game.make_player] at h
  split at h
  · cases h
    simp [insert_player]
  · next q hq =>
    by_cases hroom : (m.players q).m_room.isNone
    · simp only [if_pos hroom, Prod.mk.injEq, Option.some.injEq] at h
      obtain ⟨rfl, rfl⟩ := h
      exact ⟨hq, Option.isNone_iff_eq_none.mp hroom⟩
    · simp only [if_neg hroom, Prod.mk.injEq, reduceCtorEq, false_and] at h

variable [DecidableEq R]

theorem Inv.add_player (h : Inv g) (r : R) (u : Int) (s : S) : Inv (g.add_player r u s).2 := by
  rw [GameServer.add_player]
  split
  · exact h
  have hm : Move g.manager (.make_player u s) (Game.make_player u s g.manager).2 :=
    move_of_step (show PlayerManager.step .gamesvr _ _ = some (_, _) from rfl)
  have hstays := fun r v p (hp : g.m_all_player r v = some p) =>
    stays_make_player h.wf (h.seated r v p hp).1 u s
  have hwf := hm.wf h.wf
  have hentered := hm.entered h.wf h.entered
  rcases hmake : Game.make_player u s g.manager with ⟨_ | p, m⟩
  · rw [hmake] at hstays hwf hentered
    exact ⟨hwf, hentered, h.seated.of_stays hstays⟩
  · obtain ⟨hlogin, hnone⟩ := make_player_eq_some hmake
    rw [hmake] at hstays hwf hentered
    have hroom : Move m (.set_room p (some r))
        { m with players := update m.players p { m.players p with m_room := some r } } :=
      .room p (some r)
    refine ⟨hroom.wf hwf, hroom.entered hwf hentered, ?_⟩
    intro r' v q hq
    rcases set_seat_eq_some_iff.1 hq with ⟨⟨rfl, rfl⟩, hp⟩ | ⟨-, hq⟩
    · cases hp
      exact ⟨hlogin, congrArg Player.m_room (update_self p _ m.players)⟩
    · obtain ⟨hloginq, hroomq⟩ := h.seated.of_stays hstays r' v q hq
      refine ⟨hloginq, ?_⟩
      have hqp : q ≠ p := by
        rintro rfl
        rw [hnone] at hroomq
        cases hroomq
      exact (congrArg Player.m_room (update_of_ne hqp _ m.players)).trans hroomq

theorem destroy_player_asserts (h : Inv g) (hp : g.m_all_player r u = some p) :
    (g.destroy_player r p).2 = [] := by
  obtain ⟨hlogin, -⟩ := h.seated r u p hp
  rw [destroy_player, destory_player, h.wf.user_id u p hlogin, hlogin]

theorem Inv.destroy_player (h : Inv g) (hp : g.m_all_player r u = some p) :
    Inv (g.destroy_player r p).1 := by
  have hlogin := (h.seated r u p hp).1
  have hid := h.wf.user_id u p hlogin
  have hm : Move g.manager (.destory_player p) (g.manager.destory_player p).1 := by
    rw [destory_player, hid, hlogin]
    have hmove := Move.destory (m := g.manager) p p (by rw [hid, hlogin])
    rwa [hid] at hmove
  refine ⟨hm.wf h.wf, hm.entered h.wf h.entered, ?_⟩
  intro r' v q hq
  obtain ⟨-, hnone⟩ | ⟨hseat, hq⟩ := set_seat_eq_some_iff.1 hq
  · cases hnone
  obtain ⟨hloginq, hroomq⟩ := h.seated r' v q hq
  have hne : (g.manager.players p).m_user_id ≠ v := by
    rintro rfl
    rw [hid, hlogin, Option.some.injEq] at hloginq
    subst hloginq
    obtain ⟨hr, -⟩ := h.seated.once h.wf hp hq
    exact hseat ⟨hr, rfl⟩
  obtain ⟨hlogin', hroom'⟩ := stays_destory_player hloginq hne
  exact ⟨hlogin', hroom'.trans hroomq⟩

/-- What an event does to the players at the tables. -/
structure KeepsSeats (x : Step (GameServer S R) (Event S R) (List (Effect S))) : Prop where
  close : ∀ s, x.event = .on_session_close s → ∀ r u p, x.before.m_all_player r u = some p →
    x.after.m_all_player r u = some p ∧ x.after.manager.m_login_user u = some p
  relogin : ∀ u s, x.event = .player_token_login u s →
    ∀ r p, x.before.m_all_player r u = some p →
      x.after.m_all_player r u = some p ∧ x.after.manager.m_login_user u = some p ∧
        x.after.manager.session p = some s ∧ x.after.manager.m_online_user s = some p
  asserts : .assert_failed ∉ x.out

/-- **One event.** -/
theorem inv_step {e : Event S R} {o : List (Effect S)} (h : Inv g) (hs : step g e = some (g', o)) :
    Inv g' ∧ KeepsSeats ⟨g, e, o, g'⟩ := by
  cases e with
  | player_token_login u s =>
    rw [step, Option.some.injEq, Prod.mk.injEq] at hs
    obtain ⟨rfl, rfl⟩ := hs
    refine ⟨h.player_token_login u s, nofun, ?_, ?_⟩
    · rintro v t he r p hp
      cases he
      obtain ⟨hlogin, -⟩ := h.seated r u p hp
      exact ⟨hp, (stays_add_user_session h.wf hlogin u s).1, session_add_user_session hlogin s⟩
    · exact add_user_session_asserts u s
  | on_session_close s =>
    rw [step, Option.some.injEq, Prod.mk.injEq] at hs
    obtain ⟨rfl, rfl⟩ := hs
    refine ⟨h.on_session_close s, ?_, nofun, ?_⟩
    · rintro t he r u p hp
      obtain ⟨hlogin, hroom⟩ := h.seated r u p hp
      exact ⟨hp, (stays_on_session_close h.entered hlogin (by simp [hroom]) s).1⟩
    · rw [on_session_close_asserts h.entered s]
      exact List.not_mem_nil
  | add_player r u s =>
    rw [step, Option.some.injEq, Prod.mk.injEq] at hs
    obtain ⟨rfl, rfl⟩ := hs
    exact ⟨h.add_player r u s, nofun, nofun, List.not_mem_nil⟩
  | destroy_player r u =>
    obtain ⟨p, hp, heq⟩ := Option.map_eq_some_iff.mp hs
    obtain ⟨rfl, rfl⟩ : (g.destroy_player r p).1 = g' ∧ (g.destroy_player r p).2 = o := by
      rw [heq]
      exact ⟨rfl, rfl⟩
    refine ⟨h.destroy_player hp, nofun, nofun, ?_⟩
    rw [destroy_player_asserts h hp]
    exact List.not_mem_nil

/-! ## Runs -/

/-- **Seats are kept.** In every run from empty tables: whoever sits at a table is logged in as the
object the manager has for the id, has that room and sits at no other table; a session that closes
removes nobody who sits, a login finds the object that sits, and no assertion fails. -/
theorem seats_kept {tr : List (Step (GameServer S R) (Event S R) (List (Effect S)))}
    (hr : Run step new tr g) :
    (∀ r u p, g.m_all_player r u = some p →
      (g.manager.players p).m_user_id = u ∧ g.manager.m_login_user u = some p ∧
        (g.manager.players p).m_room = some r ∧
        ∀ r' v, g.m_all_player r' v = some p → r' = r ∧ v = u) ∧
      ∀ x ∈ tr, KeepsSeats x := by
  have hstep : ∀ {g g' e o}, Inv g → step (S := S) (R := R) g e = some (g', o) → Inv g' :=
    fun h hs => (inv_step h hs).1
  have h : Inv g := hr.state_invariant inv_new hstep
  constructor
  · intro r u p hp
    obtain ⟨hlogin, hroom⟩ := h.seated r u p hp
    exact ⟨h.wf.user_id u p hlogin, hlogin, hroom, fun r' v hp' => h.seated.once h.wf hp hp'⟩
  · intro x hx
    exact (inv_step (hr.before_invariant inv_new hstep x hx) (hr.step_of_mem hx)).2

/-- User 1 is seated, loses the session, logs in on another and is destroyed. -/
theorem seats_kept_relogin :
    ∃ tr g, Run step (new : GameServer Nat Nat) tr g ∧
      tr.map Step.event = [.player_token_login 1 7, .add_player 3 1 7, .on_session_close 7,
        .player_token_login 1 8, .destroy_player 3 1] ∧ ∀ x ∈ tr, KeepsSeats x := by
  obtain ⟨tr, g, hr, he⟩ := Run.exists_of_exec step (new : GameServer Nat Nat)
    [.player_token_login 1 7, .add_player 3 1 7, .on_session_close 7, .player_token_login 1 8,
      .destroy_player 3 1]
    (P := fun tr _ => tr.map Step.event = [.player_token_login 1 7, .add_player 3 1 7,
      .on_session_close 7, .player_token_login 1 8, .destroy_player 3 1]) (by decide)
  exact ⟨tr, g, hr, he, (seats_kept hr).2⟩

end GameServer

end SparkFrame.Server
