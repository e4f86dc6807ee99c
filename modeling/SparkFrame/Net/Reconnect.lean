import SparkFrame.Net.Client

/-!
# One connection at a time

The three flags, the socket and the outstanding attempts of a client are meant to describe one of
three modes. A reconnect handler that was queued before its timer was cancelled does not look at
them, and `on_connet_complete` does not look at what the handler of a failed attempt has done.

* `Mode` : idle, connecting or connected; `Is c mode` : the client describes the mode;
* `OneAttempt` : what the flags are for; `Is.oneAttempt` : it holds in every mode;
* `Timely` : the condition, that the reconnect handler finds the client idle, and that the handler of
  a failed attempt does not connect;
* `Handled`, `Handled.handle_message` : the client while that handler runs;
* `Is.step` : **every timely event leads from mode to mode**; `oneAttempt_iff` : **the flags are right
  exactly as long as all events are timely**; `two_attempts` : a late handler.
-/

namespace SparkFrame.Net.Client

open SparkFrame.Lib

/-- At most one attempt is outstanding, `m_is_connecting` says whether one is, and at most one flag
is set. -/
structure OneAttempt (c : Client) : Prop where
  connects : c.connects ≤ 1
  connecting : c.m_is_connecting = true ↔ 0 < c.connects
  flags : c.m_is_connecting.toNat + c.m_is_wait_connect.toNat + c.m_is_connected.toNat ≤ 1

/-- A step that ends so, in which `on_connet_complete` finds a socket, and after which it will. -/
structure Sound (x : Step Client Event (List Effect)) : Prop where
  after : OneAttempt x.after
  socket : ∀ err_code calls, x.event = .on_connet_complete err_code calls → x.before.m_socket ≠ none
  next : 0 < x.after.connects → x.after.m_socket ≠ none

/-- **The condition.** The handler of an expired reconnect timer finds the client neither connecting
nor connected, and the handler of a failed attempt does not call `connect`. -/
def Timely (c : Client) : Event → Prop
  | .on_wait_reconnect false => c.m_is_connecting = false ∧ c.m_is_connected = false
  | .on_connet_complete err_code calls =>
    c.m_socket = some false ∨ err_code = true → ∀ endpoint, .connect endpoint ∉ calls
  | _ => True

/-! ## Modes -/

/-- What a client can be doing. Waiting for a reconnect timer is a way of being idle. -/
inductive Mode where
  | idle
  | connecting
  | connected (id : Nat)
deriving DecidableEq, Repr

namespace Mode

def connects : Mode → Nat
  | .connecting => 1
  | _ => 0

def sessions : Mode → List Nat
  | .connected id => [id]
  | _ => []

def isConnecting (mode : Mode) : Bool := mode = .connecting

def isConnected : Mode → Bool
  | .connected _ => true
  | _ => false

end Mode

/-- The client's data describe the mode. -/
structure Is (c : Client) (mode : Mode) : Prop where
  connects : c.connects = mode.connects
  sessions : c.sessions = mode.sessions
  connecting : c.m_is_connecting = mode.isConnecting
  connected : c.m_is_connected = mode.isConnected
  wait_connect : c.m_is_wait_connect = true → mode = .idle
  session_ref : ∀ id, mode = .connected id → c.m_session_ref = some id
  socket : c.m_socket.isSome = mode.isConnecting

namespace Is

variable {c : Client} {mode : Mode}

theorem new : Is .new .idle := ⟨rfl, rfl, rfl, rfl, fun _ => rfl, nofun, rfl⟩

/-- The endpoint, the option and the timers say nothing of the mode. -/
theorem with_settings (h : Is c mode) (auto_reconnect : Bool) (endpoint : Endpoint) (t t' : SteadyTimer) :
    Is { c with
      m_auto_reconnect := auto_reconnect, m_endpoint := endpoint
      m_connect_timer := t, m_reconnet_timer := t' } mode :=
  ⟨h.connects, h.sessions, h.connecting, h.connected, h.wait_connect, h.session_ref, h.socket⟩

theorem not_waiting (h : Is c mode) (hmode : mode ≠ .idle) : c.m_is_wait_connect = false :=
  Bool.eq_false_iff.2 fun hw => hmode (h.wait_connect hw)

theorem not_connected (h : Is c mode) (hmode : mode.isConnected = false) :
    ¬ c.m_is_connected = true :=
  Bool.eq_false_iff.1 (h.connected.trans hmode)

theorem oneAttempt (h : Is c mode) : OneAttempt c := by
  constructor
  case connects =>
    rw [h.connects]
    cases mode <;> simp [Mode.connects]
  case connecting =>
    rw [h.connecting, h.connects]
    cases mode <;> simp [Mode.connects, Mode.isConnecting]
  case flags =>
    rw [h.connecting, h.connected]
    cases mode with
    | idle => simpa [Mode.isConnecting, Mode.isConnected] using Bool.toNat_le c.m_is_wait_connect
    | connecting => simp [h.not_waiting nofun, Mode.isConnecting, Mode.isConnected]
    | connected id => simp [h.not_waiting nofun, Mode.isConnecting, Mode.isConnected]

theorem socket_ne_none (h : Is c mode) (hconnects : 0 < c.connects) : c.m_socket ≠ none := by
  have hsocket := h.socket
  rw [h.connects] at hconnects
  cases mode with
  | connecting => exact Option.isSome_iff_ne_none.1 hsocket
  | _ => cases hconnects

/-! ## From mode to mode -/

theorem connect (h : Is c .idle) (hwait : c.m_is_wait_connect = false) :
    Is c.connect.1 .connecting where
  connects := congrArg (· + 1) h.connects
  sessions := h.sessions
  connecting := rfl
  connected := h.connected
  wait_connect := fun hw => by
    have hw : c.m_is_wait_connect = true := hw
    rw [hwait] at hw
    cases hw
  session_ref := nofun
  socket := rfl

theorem sessionClose {id : Nat} (h : Is c (.connected id)) : Is (c.sessionClose id).1 .connecting := by
  have hwait := h.not_waiting nofun
  have hid : id ∈ c.sessions := by simp [h.sessions, Mode.sessions]
  rw [Client.sessionClose, if_pos hid]
  have hidle : Is { c with sessions := c.sessions.erase id, m_is_connected := false } .idle := by
    refine ⟨h.connects, by simp [h.sessions, Mode.sessions], h.connecting, rfl, fun _ => rfl, ?_, h.socket⟩
    intro id hid
    cases hid
  exact hidle.connect hwait

theorem sessionRefClose {id : Nat} (h : Is c (.connected id)) :
    Is c.sessionRefClose.1 .connecting := by
  rw [Client.sessionRefClose, h.session_ref id rfl]
  exact h.sessionClose

theorem socketClose (h : Is c .connecting) : Is c.socketClose.1 .connecting := by
  have hsocket := h.socket
  unfold Client.socketClose
  split
  case h_1 hs => simp [hs, Mode.isConnecting] at hsocket
  case h_2 =>
    exact ⟨h.connects, h.sessions, h.connecting, h.connected, h.wait_connect, h.session_ref, rfl⟩

theorem on_connet_complete_of_open (h : Is c .connecting) (hopen : c.m_socket = some true)
    (calls : List Call) :
    Is ({ c with connects := c.connects - 1 }.on_connet_complete false calls).1
      (.connected (c.session_id + 1)) := by
  have hconnects : c.connects - 1 = 0 := by rw [h.connects]; rfl
  have hwait := h.not_waiting nofun
  simp only [Client.on_connet_complete, hopen, Bool.not_true, Bool.or_self, Bool.false_eq_true, if_false]
  refine ⟨hconnects, ?_, rfl, rfl, ?_, ?_, rfl⟩
  · simp [h.sessions, Mode.sessions]
  · intro hw
    have hw : c.m_is_wait_connect = true := hw
    rw [hwait] at hw
    cases hw
  · intro id hid
    cases hid
    rfl

theorem on_connect_timeout (h : Is c mode) (err : Bool) : Is (c.on_connect_timeout err).1 mode := by
  unfold Client.on_connect_timeout
  split
  · split
    case isTrue hs =>
      exact ⟨h.connects, h.sessions, h.connecting, h.connected, h.wait_connect, h.session_ref,
        by rw [← h.socket, hs]; rfl⟩
    case isFalse => exact h
  · exact h

theorem of_flags (h : Is c mode) (hconnecting : c.m_is_connecting = false)
    (hconnected : c.m_is_connected = false) : mode = .idle := by
  rw [h.connecting] at hconnecting
  rw [h.connected] at hconnected
  cases mode with
  | idle => rfl
  | connecting => cases hconnecting
  | connected id => cases hconnected

theorem do_connect (h : Is c mode) (endpoint : Endpoint) :
    ∃ mode', Is (c.do_connect endpoint).1 mode' := by
  have ha : Is { c with m_auto_reconnect := true, m_endpoint := endpoint } mode :=
    h.with_settings true endpoint c.m_connect_timer c.m_reconnet_timer
  refine ⟨.connecting, ?_⟩
  unfold Client.do_connect
  dsimp only
  cases mode with
  | connected id =>
    rw [if_pos (show c.m_is_connected = true from h.connected)]
    exact ha.sessionRefClose
  | connecting =>
    rw [if_neg (h.not_connected rfl), if_pos (show c.m_is_connecting = true from h.connecting)]
    exact ha.socketClose
  | idle =>
    rw [if_neg (h.not_connected rfl), if_neg (Bool.eq_false_iff.1 h.connecting)]
    split
    case isTrue =>
      apply Is.connect
      · exact ⟨h.connects, h.sessions, h.connecting, h.connected, nofun, nofun, h.socket⟩
      · rfl
    case isFalse hw => exact ha.connect (Bool.eq_false_iff.2 hw)

theorem do_close_client (h : Is c mode) : ∃ mode', Is c.do_close_client.1 mode' := by
  have ha : Is { c with m_auto_reconnect := false } mode :=
    h.with_settings false c.m_endpoint c.m_connect_timer c.m_reconnet_timer
  have hcancel : ∀ {c' : Client} {mode' : Mode}, Is c' mode' →
      Is { c' with m_connect_timer := c'.m_connect_timer.cancel } mode' := fun h =>
    h.with_settings _ _ _ _
  unfold Client.do_close_client
  dsimp only
  cases mode with
  | connected id =>
    rw [if_pos (show c.m_is_connected = true from h.connected)]
    exact ⟨_, hcancel ha.sessionRefClose⟩
  | connecting =>
    rw [if_neg (h.not_connected rfl), if_pos (show c.m_is_connecting = true from h.connecting)]
    exact ⟨_, hcancel ha.socketClose⟩
  | idle =>
    rw [if_neg (h.not_connected rfl), if_neg (Bool.eq_false_iff.1 h.connecting)]
    refine ⟨.idle, hcancel ?_⟩
    split
    · exact ⟨h.connects, h.sessions, h.connecting, h.connected, nofun, nofun, h.socket⟩
    · exact ha

end Is

/-! ## Handlers of failed attempts -/

/-- The client while the handler of a failed attempt runs: it has not connected, or it has and is
connecting again. -/
structure Handled (c : Client) (connected : Bool) : Prop where
  connects : c.connects = connected.toNat
  sessions : c.sessions = []
  connecting : c.m_is_connecting = connected
  not_connected : c.m_is_connected = false
  not_waiting : c.m_is_wait_connect = false
  socket : c.m_socket ≠ none
  crashed : c.crashed = false

namespace Handled

variable {c : Client} {connected : Bool}

theorem socketClose (h : Handled c connected) : Handled c.socketClose.1 connected := by
  obtain ⟨is_open, hs⟩ := Option.ne_none_iff_exists'.1 h.socket
  simp only [Client.socketClose, hs]
  exact ⟨h.connects, h.sessions, h.connecting, h.not_connected, h.not_waiting,
    Option.some_ne_none false, h.crashed⟩

theorem do_connect (h : Handled c connected) (endpoint : Endpoint) :
    Handled (c.do_connect endpoint).1 true := by
  have ha : Handled { c with m_auto_reconnect := true, m_endpoint := endpoint } connected :=
    ⟨h.connects, h.sessions, h.connecting, h.not_connected, h.not_waiting, h.socket, h.crashed⟩
  unfold Client.do_connect
  dsimp only
  rw [if_neg (Bool.eq_false_iff.1 h.not_connected)]
  split
  · next hconnecting =>
    obtain rfl : connected = true := h.connecting.symm.trans hconnecting
    exact ha.socketClose
  · next hconnecting =>
    obtain rfl : connected = false := h.connecting.symm.trans (Bool.eq_false_iff.2 hconnecting)
    rw [if_neg (Bool.eq_false_iff.1 h.not_waiting)]
    exact ⟨congrArg (· + 1) h.connects, h.sessions, rfl, h.not_connected, h.not_waiting,
      Option.some_ne_none true, h.crashed⟩

theorem do_close_client (h : Handled c connected) : Handled c.do_close_client.1 connected := by
  have ha : Handled { c with m_auto_reconnect := false } connected :=
    ⟨h.connects, h.sessions, h.connecting, h.not_connected, h.not_waiting, h.socket, h.crashed⟩
  have hcancel : ∀ {c' : Client}, Handled c' connected →
      Handled { c' with m_connect_timer := c'.m_connect_timer.cancel } connected := fun h =>
    ⟨h.connects, h.sessions, h.connecting, h.not_connected, h.not_waiting, h.socket, h.crashed⟩
  unfold Client.do_close_client
  dsimp only
  rw [if_neg (Bool.eq_false_iff.1 h.not_connected)]
  split
  · exact hcancel ha.socketClose
  · rw [if_neg (Bool.eq_false_iff.1 h.not_waiting)]
    exact hcancel ha

/-- **A handler connects** if one of its calls does. -/
theorem handle_message (h : Handled c connected) (calls : List Call) :
    ∃ connected', Handled (Client.handle_message calls c).1 connected' ∧
      (connected' = true ↔ connected = true ∨ ∃ endpoint, .connect endpoint ∈ calls) := by
  induction calls generalizing c connected with
  | nil => exact ⟨connected, h, by simp⟩
  | cons call calls ih =>
    rw [Client.handle_message, if_neg (Bool.eq_false_iff.1 h.crashed)]
    cases call with
    | connect endpoint =>
      obtain ⟨connected', h', hiff⟩ := ih (h.do_connect endpoint)
      refine ⟨connected', h', iff_of_true (hiff.2 (Or.inl rfl)) (Or.inr ⟨endpoint, List.mem_cons_self ..⟩)⟩
    | close_client =>
      obtain ⟨connected', h', hiff⟩ := ih h.do_close_client
      exact ⟨connected', h', by simpa using hiff⟩

/-- **A failed attempt** leaves the client idle, or an attempt without a socket. -/
theorem connectFailed (h : Handled c false) (calls : List Call) :
    (∀ endpoint, .connect endpoint ∉ calls) ∧ Is (c.connectFailed calls).1 .idle ∨
      (∃ endpoint, .connect endpoint ∈ calls) ∧ (c.connectFailed calls).1.connects = 1 ∧
        (c.connectFailed calls).1.m_socket = none := by
  obtain ⟨connected, h', hiff⟩ := h.handle_message calls
  simp only [Bool.false_eq_true, false_or] at hiff
  have heq : (c.connectFailed calls).1 = (Client.handle_message calls c).1.retry := by
    show (if _ then _ else _) = _
    exact if_neg (Bool.eq_false_iff.1 h'.crashed)
  rw [heq]
  cases connected with
  | true =>
    refine Or.inr ⟨hiff.1 rfl, ?_, ?_⟩
    · rw [← show _ = 1 from h'.connects, retry]
      dsimp only
      split
      · rfl
      · rfl
    · rw [retry]
      dsimp only
      split
      · rfl
      · rfl
  | false =>
    refine Or.inl ⟨fun endpoint hmem => Bool.false_ne_true (hiff.2 ⟨endpoint, hmem⟩), ?_⟩
    rw [retry]
    dsimp only
    split
    · exact ⟨h'.connects, h'.sessions, h'.connecting, h'.not_connected, fun _ => rfl, nofun, rfl⟩
    · exact ⟨h'.connects, h'.sessions, h'.connecting, h'.not_connected, fun _ => rfl, nofun, rfl⟩

theorem of_connecting {c : Client} (h : Is c .connecting) (hcrashed : c.crashed = false) {err_code : Bool}
    (hfailed : c.m_socket = some false ∨ err_code = true) (calls : List Call) :
    ∃ c', Handled c' false ∧
      { c with connects := c.connects - 1 }.on_connet_complete err_code calls = c'.connectFailed calls := by
  obtain ⟨is_open, hs⟩ := Option.isSome_iff_exists.1 (h.socket.trans rfl)
  have hcond : (!is_open || err_code) = true := by
    rcases hfailed with hclosed | herr
    · rw [hs, Option.some.injEq] at hclosed
      rw [hclosed]
      rfl
    · rw [herr, Bool.or_true]
  refine ⟨{ c with
    connects := c.connects - 1, m_is_connecting := false, m_connect_timer := c.m_connect_timer.cancel },
    ⟨by rw [h.connects]; rfl, h.sessions, rfl, h.connected, h.not_waiting nofun, by rw [hs]; nofun, hcrashed⟩,
    ?_⟩
  unfold Client.on_connet_complete
  dsimp only
  rw [hs]
  exact if_pos hcond

end Handled

namespace Is

variable {c : Client} {mode : Mode}

theorem on_connet_complete (h : Is c .connecting) (hcrashed : c.crashed = false) {err_code : Bool}
    {calls : List Call} (ht : Timely c (.on_connet_complete err_code calls)) :
    ∃ mode', Is ({ c with connects := c.connects - 1 }.on_connet_complete err_code calls).1 mode' := by
  by_cases hfailed : c.m_socket = some false ∨ err_code = true
  · obtain ⟨c', hhandled, heq⟩ := Handled.of_connecting h hcrashed hfailed calls
    rw [heq]
    rcases hhandled.connectFailed calls with ⟨-, hidle⟩ | ⟨⟨endpoint, hmem⟩, -⟩
    · exact ⟨_, hidle⟩
    · exact absurd hmem (ht hfailed endpoint)
  · rw [not_or, Bool.not_eq_true] at hfailed
    obtain ⟨is_open, hs⟩ := Option.isSome_iff_exists.1 (h.socket.trans rfl)
    have hopen : c.m_socket = some true := by
      cases is_open with
      | true => exact hs
      | false => exact absurd hs hfailed.1
    rw [hfailed.2]
    exact ⟨_, h.on_connet_complete_of_open hopen calls⟩

/-- **One event** that is timely. -/
theorem step {e : Event} {c' : Client} {o : List Effect} (h : Is c mode) (ht : Timely c e)
    (hs : step c e = some (c', o)) : ∃ mode', Is c' mode' := by
  obtain ⟨hcrashed, htakes⟩ := step_eq_some_iff.1 hs
  cases e with
  | do_connect endpoint =>
    have := h.do_connect endpoint
    rwa [htakes] at this
  | do_close_client =>
    have := h.do_close_client
    rwa [htakes] at this
  | session_close id =>
    obtain ⟨hid, htakes⟩ := htakes
    rw [h.sessions] at hid
    cases mode with
    | connected j =>
      obtain rfl := List.mem_singleton.1 hid
      have := h.sessionClose
      rw [htakes] at this
      exact ⟨_, this⟩
    | _ => cases hid
  | on_connet_complete err_code calls =>
    obtain ⟨hconnects, htakes⟩ := htakes
    rw [h.connects] at hconnects
    cases mode with
    | connecting =>
      have := h.on_connet_complete hcrashed ht
      rwa [htakes] at this
    | _ => cases hconnects
  | connect_timer_expires =>
    obtain ⟨t, -, htakes⟩ := htakes
    cases htakes
    exact ⟨mode, h.with_settings c.m_auto_reconnect c.m_endpoint t c.m_reconnet_timer⟩
  | on_connect_timeout err =>
    obtain ⟨t, -, htakes⟩ := htakes
    have := (h.with_settings c.m_auto_reconnect c.m_endpoint t c.m_reconnet_timer).on_connect_timeout err
    rw [htakes] at this
    exact ⟨mode, this⟩
  | reconnet_timer_expires =>
    obtain ⟨t, -, htakes⟩ := htakes
    cases htakes
    exact ⟨mode, h.with_settings c.m_auto_reconnect c.m_endpoint c.m_connect_timer t⟩
  | on_wait_reconnect err =>
    obtain ⟨t, -, htakes⟩ := htakes
    have hw : Is { c with m_reconnet_timer := t, m_is_wait_connect := false } mode :=
      ⟨h.connects, h.sessions, h.connecting, h.connected, nofun, h.session_ref, h.socket⟩
    cases err with
    | true =>
      cases htakes
      exact ⟨mode, hw⟩
    | false =>
      obtain rfl := h.of_flags ht.1 ht.2
      have := hw.connect rfl
      cases htakes
      exact ⟨_, this⟩

end Is

/-! ## Runs -/

/-- A late handler starts a second attempt, or the first one of a client that is connected. -/
theorem not_oneAttempt_of_late {c : Client} {t : SteadyTimer} (h : OneAttempt c)
    (hlate : ¬ Timely c (.on_wait_reconnect false)) :
    ¬ OneAttempt ({ c with m_reconnet_timer := t }.on_wait_reconnect false).1 := by
  intro h'
  have hconnects : c.connects + 1 ≤ 1 := h'.connects
  have hflags : true.toNat + false.toNat + c.m_is_connected.toNat ≤ 1 := h'.flags
  apply hlate
  constructor
  · apply Bool.eq_false_iff.2
    intro hconnecting
    have := h.connecting.1 hconnecting
    omega
  · cases hc : c.m_is_connected with
    | false => rfl
    | true => simp [hc] at hflags

theorem not_sound_of_connected {c c' : Client} {err_code : Bool} {calls : List Call} {o : List Effect}
    (h : Is c .connecting) (hlate : ¬ Timely c (.on_connet_complete err_code calls))
    (hs : step c (.on_connet_complete err_code calls) = some (c', o)) :
    0 < c'.connects ∧ c'.m_socket = none := by
  obtain ⟨hcrashed, -, htakes⟩ := step_eq_some_iff.1 hs
  have hcalls : (c.m_socket = some false ∨ err_code = true) ∧ ∃ endpoint, .connect endpoint ∈ calls := by
    simpa [Timely] using hlate
  obtain ⟨c'', hhandled, heq⟩ := Handled.of_connecting h hcrashed hcalls.1 calls
  rw [htakes] at heq
  rcases hhandled.connectFailed calls with ⟨hnone, -⟩ | ⟨-, hconnects, hsocket⟩
  · obtain ⟨endpoint, hmem⟩ := hcalls.2
    exact absurd hmem (hnone endpoint)
  · rw [← heq] at hconnects hsocket
    exact ⟨hconnects ▸ Nat.one_pos, hsocket⟩

/-- **One event**, exactly. -/
theorem sound_step_iff {c c' : Client} {e : Event} {o : List Effect} (h : ∃ mode, Is c mode)
    (hs : step c e = some (c', o)) : Sound ⟨c, e, o, c'⟩ ↔ Timely c e := by
  obtain ⟨mode, h⟩ := h
  constructor
  · intro hsound
    by_contra hlate
    cases e with
    | on_wait_reconnect err =>
      cases err with
      | true => exact hlate trivial
      | false =>
        obtain ⟨-, t, -, htakes⟩ := step_eq_some_iff.1 hs
        have := not_oneAttempt_of_late (t := t) h.oneAttempt hlate
        rw [htakes] at this
        exact this hsound.after
    | on_connet_complete err_code calls =>
      obtain ⟨-, hconnects, -⟩ := step_eq_some_iff.1 hs
      have hmode : mode = .connecting := by
        rw [h.connects] at hconnects
        cases mode with
        | connecting => rfl
        | _ => cases hconnects
      obtain ⟨hconnects', hsocket⟩ := not_sound_of_connected (hmode ▸ h) hlate hs
      exact hsound.next hconnects' hsocket
    | _ => exact hlate trivial
  · intro ht
    obtain ⟨mode', h'⟩ := h.step ht hs
    refine ⟨h'.oneAttempt, fun err_code calls he => ?_, h'.socket_ne_none⟩
    cases he
    obtain ⟨-, hconnects, -⟩ := step_eq_some_iff.1 hs
    exact h.socket_ne_none hconnects

/-- **The flags are right exactly as long as all events are timely.** Over every run: after every
step at most one attempt is outstanding, the flags say so, and `on_connet_complete` has always found
a socket and will, if and only if every handler of an expired reconnect timer found the client idle
and no handler of a failed attempt connected. -/
theorem oneAttempt_iff {tr : List (Step Client Event (List Effect))} {c : Client}
    (hr : Run step new tr c) :
    (∀ x ∈ tr, Sound x) ↔ ∀ x ∈ tr, Timely x.before x.event :=
  hr.forall_iff (I := fun c => ∃ mode, Is c mode) ⟨_, Is.new⟩ sound_step_iff
    fun ⟨_, h⟩ ht hs => h.step ht hs

/-- A failed attempt, whose handler closes the client, and one that is repeated when the timer expires
and succeeds. -/
theorem oneAttempt_iff_repeated :
    ∃ tr c, Run step new tr c ∧ c.m_is_connected = true ∧
      ((∀ x ∈ tr, Sound x) ↔ ∀ x ∈ tr, Timely x.before x.event) := by
  obtain ⟨tr, c, hr, hc⟩ := Run.exists_of_exec step new
    [.do_connect ⟨"10.0.0.1", 8000⟩, .on_connet_complete true [.close_client],
      .do_connect ⟨"10.0.0.1", 8000⟩, .on_connet_complete true [], .reconnet_timer_expires,
      .on_wait_reconnect false, .on_connet_complete false []]
    (P := fun _ c => c.m_is_connected = true) (by decide)
  exact ⟨tr, c, hr, hc, oneAttempt_iff hr⟩

/-- The reconnect timer expires, the user connects before its handler runs, and the handler starts a
second attempt; when both fail the second completion dereferences a null socket. -/
theorem two_attempts :
    ∃ tr c, Run step new tr c ∧ c.crashed = true ∧
      ∃ x ∈ tr, x.event = .on_wait_reconnect false ∧ x.after.connects = 2 ∧ ¬ Sound x := by
  obtain ⟨tr, c, hr, hc, x, hx, he, hconnects⟩ := Run.exists_of_exec step new
    [.do_connect ⟨"10.0.0.1", 8000⟩, .on_connet_complete true [], .reconnet_timer_expires,
      .do_connect ⟨"10.0.0.2", 8000⟩, .on_wait_reconnect false, .on_connet_complete true [],
      .on_connet_complete true []]
    (P := fun tr c => c.crashed = true ∧
      ∃ x ∈ tr, x.event = .on_wait_reconnect false ∧ x.after.connects = 2) (by decide)
  refine ⟨tr, c, hr, hc, x, hx, he, hconnects, fun hsound => ?_⟩
  have := hsound.after.connects
  omega

/-- The handler of a failed attempt connects. The client is connecting and waiting at once, and the next
completion dereferences a null socket. -/
example : ∃ p ∈ exec step new [.do_connect ⟨"10.0.0.1", 8000⟩,
      .on_connet_complete true [.connect ⟨"10.0.0.2", 8000⟩], .on_connet_complete true []],
    p.2.crashed = true ∧ p.2.m_is_wait_connect = true := by decide

end SparkFrame.Net.Client
