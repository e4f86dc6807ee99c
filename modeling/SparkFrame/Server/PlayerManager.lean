import Mathlib.Logic.Function.Basic
import SparkFrame.Lib.Index
import SparkFrame.Lib.Run

/-!
# Logged-in players: `LobbyServer/PlayerManager` and `gamesvr/PlayerManager`

The two servers keep their players in the same two maps: by user, and by the session the user is on.
Players are shared objects, so they live in a store of their own and the maps hold references.

* `Player`, `PlayerManager` : the objects and the maps;
* `add_user_session`, `destory_player` : the same code in both servers; `Lobby.make_player`,
  `Lobby.on_session_close`, `Game.make_player`, `Game.on_session_close` : where they differ;
* `check_user_msg`, `on_unknown_msg` : whom the lobby takes a message to be from;
* `step` : a server taking one event.
-/

namespace SparkFrame.Server

open SparkFrame.Lib Function

/-- `Player`, with sessions `S` and rooms `R`. -/
structure Player (S R : Type) where
  m_user_id : Int
  m_session : Option S
  m_room : Option R
deriving DecidableEq, Repr

/-- `PLAYER_PTR`. -/
abbrev PlayerPtr := Nat

/-- `PlayerManager`. No session that the maps are asked to store is null. -/
structure PlayerManager (S R : Type) where
  m_login_user : Int → Option PlayerPtr
  m_online_user : S → Option PlayerPtr
  /-- The player objects, those that no map holds included. -/
  players : PlayerPtr → Player S R
  /-- How many there have been. -/
  allocated : Nat

/-- Which of the two servers. -/
inductive ServerKind where
  | lobby
  | gamesvr
deriving DecidableEq, Repr

namespace PlayerManager

variable {S R : Type} [DecidableEq S]

inductive Effect (S : Type) where
  | shutdown_user_session (session : S)
  | assert_failed
deriving DecidableEq, Repr

inductive Event (S R : Type) where
  /-- A token login that is accepted for the user. -/
  | player_token_login (user_id : Int) (session : S)
  | on_session_close (session : S)
  | make_player (player_id : Int) (session : S)
  | destory_player (player : PlayerPtr)
  /-- A game room takes the player in or lets it go. -/
  | set_room (player : PlayerPtr) (room : Option R)

def new : PlayerManager S R :=
  { m_login_user := fun _ => none, m_online_user := fun _ => none
    players := fun _ => ⟨-1, none, none⟩, allocated := 0 }

/-! ## Member functions -/

/-- `make_shared<Player>()`, `set_player_id`, `set_session`, and the entries in both maps. -/
def insert_player (user_id : Int) (session : S) (m : PlayerManager S R) : PlayerManager S R :=
  { m_login_user := update m.m_login_user user_id (some m.allocated)
    m_online_user := update m.m_online_user session (some m.allocated)
    players := update m.players m.allocated ⟨user_id, some session, none⟩
    allocated := m.allocated + 1 }

def add_user_session (user_id : Int) (session : S) (m : PlayerManager S R) :
    PlayerManager S R × List (Effect S) :=
  match m.m_login_user user_id with
  | some player =>
    let old_session := (m.players player).m_session
    ({ m with
        players := update m.players player { m.players player with m_session := some session }
        m_online_user := update (forget m.m_online_user old_session) session (some player) },
      match old_session with
      | some old => if old ≠ session then [.shutdown_user_session old] else []
      | none => [])
  | none => (m.insert_player user_id session, [])

def destory_player (player : PlayerPtr) (m : PlayerManager S R) :
    PlayerManager S R × List (Effect S) :=
  match m.m_login_user (m.players player).m_user_id with
  | some q =>
    ({ m with
        m_online_user := forget m.m_online_user (m.players q).m_session
        m_login_user := update m.m_login_user (m.players player).m_user_id none },
      [])
  | none => (m, [.assert_failed])

/-- `Player::session_close`. -/
def session_close (player : PlayerPtr) (m : PlayerManager S R) : PlayerManager S R :=
  { m with players := update m.players player { m.players player with m_session := none } }

namespace Lobby

/-- `PlayerManager::make_player` of the lobby: the player it returns and the maps. -/
def make_player (player_id : Int) (session : S) (m : PlayerManager S R) :
    PlayerPtr × PlayerManager S R :=
  match m.m_login_user player_id with
  | none => (m.allocated, m.insert_player player_id session)
  | some player => (player, m)

def on_session_close (session : S) (m : PlayerManager S R) :
    PlayerManager S R × List (Effect S) :=
  match m.m_online_user session with
  | none => (m, [])
  | some player =>
    let m := m.session_close player
    ({ m with
        m_online_user := update m.m_online_user session none
        m_login_user := update m.m_login_user (m.players player).m_user_id none },
      [])

end Lobby

namespace Game

/-- `PlayerManager::make_player` of the game server: a player in a room is not returned. -/
def make_player (player_id : Int) (session : S) (m : PlayerManager S R) :
    Option PlayerPtr × PlayerManager S R :=
  match m.m_login_user player_id with
  | none => (some m.allocated, m.insert_player player_id session)
  | some player => (if (m.players player).m_room.isNone then some player else none, m)

/-- A player in a room stays logged in without a session. -/
def on_session_close (session : S) (m : PlayerManager S R) :
    PlayerManager S R × List (Effect S) :=
  match m.m_online_user session with
  | none => (m, [])
  | some player =>
    let m := m.session_close player
    let m := { m with m_online_user := update m.m_online_user session none }
    if (m.players player).m_room.isNone then
      match m.m_login_user (m.players player).m_user_id with
      | some _ =>
        ({ m with m_login_user := update m.m_login_user (m.players player).m_user_id none }, [])
      | none => (m, [.assert_failed])
    else (m, [])

end Game

/-! ## Messages of logged-in users -/

/-- `Lobby::PlayerManager::check_user_msg`: the user a message is from. -/
def check_user_msg (session : S) (m : PlayerManager S R) : Option Int :=
  match m.m_online_user session with
  | none => none
  | some player => some (m.players player).m_user_id

/-- What becomes of a message no handler is registered for. -/
inductive Dispatch where
  /-- `send_failed_reason(CODE_SESSION_HAV_NO_USER)`. -/
  | session_hav_no_user
  | dispatch_app_msg (user_id : Int)
deriving DecidableEq, Repr

/-- `LobbyTask::on_unknown_msg`. -/
def on_unknown_msg (session : S) (m : PlayerManager S R) : Dispatch :=
  match m.check_user_msg session with
  | none => .session_hav_no_user
  | some user_id => .dispatch_app_msg user_id

/-! ## A server as a state machine -/

/-- Rooms belong to the game server. -/
def step (server : ServerKind) (m : PlayerManager S R) :
    Event S R → Option (PlayerManager S R × List (Effect S))
  | .player_token_login user_id session => some (m.add_user_session user_id session)
  | .on_session_close session =>
    match server with
    | .lobby => some (Lobby.on_session_close session m)
    | .gamesvr => some (Game.on_session_close session m)
  | .make_player player_id session =>
    match server with
    | .lobby => some ((Lobby.make_player player_id session m).2, [])
    | .gamesvr => some ((Game.make_player player_id session m).2, [])
  | .destory_player player =>
    if player < m.allocated then some (m.destory_player player) else none
  | .set_room player room =>
    if server = .gamesvr ∧ player < m.allocated then
      some ({ m with
        players := update m.players player { m.players player with m_room := room } }, [])
    else none

end PlayerManager

end SparkFrame.Server
