import SparkFrame.Lib.Index
import SparkFrame.Lib.Run
import SparkFrame.Lib.StdMap

/-!
# The registry of accepted sessions: `libserver/ServerSessionManager`

Sessions are shared objects in a store of their own; the registry holds weak pointers to them under
ids it hands out. A session closes its socket first and asks to be unregistered afterwards.

* `Session`, `ServerSessionManager` : the objects and the registry;
* `do_add_session`, `do_close_session`, `check_session_alive` : the member functions;
* `step` : the registry and its sessions taking one event, for `Lib.Run`;
* `WellRegistered` : what the registry is for; `HasRoom` : the counter has not reached its last id;
* `wellRegistered_iff` : **the registry is right exactly as long as there is room**;
* `not_wellRegistered_of_many` : sessions that come and go one after another wear it out.
-/

namespace SparkFrame.Net

open SparkFrame.Lib Function

/-- What the registry uses of a `TcpSession`. -/
structure Session where
  m_session_id : BitVec 32
  /-- `m_socket.is_open()` -/
  is_open : Bool
  /-- `start()` has been called. -/
  started : Bool
  /-- `close_session` has been called for it, and `do_close_session` has not run yet. -/
  closing : Bool
  /-- The last `shared_ptr` to it has gone. -/
  expired : Bool
deriving DecidableEq, Repr

/-- An accepted session. -/
def Session.accepted : Session := ⟨0, true, false, false, false⟩

/-- `weak_ptr<TcpSession>`. -/
abbrev SessionPtr := Nat

structure ServerSessionManager where
  m_max_session_count : Nat
  m_current_session : BitVec 32
  m_session_all : StdMap (BitVec 32) SessionPtr
  /-- The session objects, those that are not registered included. -/
  sessions : SessionPtr → Option Session

namespace ServerSessionManager

/-- `numeric_limits<int>::max()`. -/
def m_max_session_id : BitVec 32 := .intMax 32

inductive Effect where
  | start (session : SessionPtr)
  | close (session : SessionPtr)
  | check_alive (session : SessionPtr)
deriving DecidableEq, Repr

inductive Event where
  /-- A connection has been accepted; its session object is a new one. -/
  | do_add_session (session : SessionPtr)
  /-- The session closes itself, for whatever reason. -/
  | do_close (session : SessionPtr)
  | do_close_session (session : SessionPtr)
  | check_session_alive
  /-- The last reference to the session goes, and the socket with it. -/
  | expire (session : SessionPtr)
deriving DecidableEq, Repr

def new (m_max_session_count : Nat) : ServerSessionManager :=
  { m_max_session_count, m_current_session := 0, m_session_all := ∅, sessions := fun _ => none }

/-! ## Member functions -/

def is_session_over_limit (m : ServerSessionManager) : Bool :=
  m.m_max_session_count ≤ m.m_session_all.size

/-- The object `session` afterwards. -/
def set_session (session : SessionPtr) (s : Session) (m : ServerSessionManager) :
    ServerSessionManager :=
  { m with sessions := update m.sessions session (some s) }

/-- `m_current_session + 1 % m_max_session_id`. -/
def next_session (m : ServerSessionManager) : BitVec 32 :=
  m.m_current_session + (1#32).srem m_max_session_id

/-- `do_add_session` on the object `s`. -/
def do_add_session (session : SessionPtr) (s : Session) (m : ServerSessionManager) :
    ServerSessionManager × List Effect :=
  if m.is_session_over_limit then (m.set_session session s, [.close session])
  else
    ({ m.set_session session { s with m_session_id := m.next_session, started := true } with
        m_current_session := m.next_session
        m_session_all := m.m_session_all.try_insert m.next_session session },
      [.start session])

/-- `do_close_session` on the object `s`. -/
def do_close_session (session : SessionPtr) (s : Session) (m : ServerSessionManager) :
    ServerSessionManager × List Effect :=
  ({ m.set_session session { s with m_session_id := -1, closing := false } with
      m_session_all := m.m_session_all.erase s.m_session_id },
    [])

/-- `lock()` succeeds. -/
def alive (m : ServerSessionManager) (session : SessionPtr) : Bool :=
  (m.sessions session).any fun s => !s.expired

def check_session_alive (m : ServerSessionManager) : ServerSessionManager × List Effect :=
  let m_session_all := m.m_session_all.keep m.alive
  ({ m with m_session_all }, m_session_all.entries.map fun e => .check_alive e.2)

/-- `TcpSession::do_close` on the object `s`, as far as the registry is concerned. -/
def do_close (session : SessionPtr) (s : Session) (m : ServerSessionManager) :
    ServerSessionManager × List Effect :=
  if s.is_open then (m.set_session session { s with is_open := false, closing := true }, [])
  else (m, [])

def step (m : ServerSessionManager) : Event → Option (ServerSessionManager × List Effect)
  | .do_add_session session =>
    match m.sessions session with
    | none => some (m.do_add_session session .accepted)
    | some _ => none
  | .do_close session => (m.sessions session).map fun s => m.do_close session s
  | .do_close_session session =>
    match m.sessions session with
    | none => none
    | some s => if s.closing then some (m.do_close_session session s) else none
  | .check_session_alive => some m.check_session_alive
  | .expire session =>
    match m.sessions session with
    | none => none
    | some s =>
      -- the posted `do_close_session` holds a reference
      if s.closing then none
      else some (m.set_session session { s with is_open := false, expired := true }, [])

/-! ## The registry as it should be -/

/-- A live object that the registry finds under some id. -/
def Registered (m : ServerSessionManager) (session : SessionPtr) (s : Session) : Prop :=
  m.sessions session = some s ∧ s.expired = false ∧
    ∃ id, m.m_session_all.lookup id = some session

structure WellRegistered (m : ServerSessionManager) : Prop where
  ids : ∀ id ∈ m.m_session_all, 0 ≤ id.toInt ∧ id.toInt ≤ m_max_session_id.toInt - 1
  distinct : ∀ p s q t, m.Registered p s → m.Registered q t → s.m_session_id = t.m_session_id → p = q
  present : ∀ p s, m.sessions p = some s → s.started = true → s.is_open = true →
    m.m_session_all.lookup s.m_session_id = some p
  count : m.m_session_all.size ≤ m.m_max_session_count

/-- The step does not hand out an id, or hands out one below `m_max_session_id`. -/
def HasRoom (m : ServerSessionManager) : Event → Prop
  | .do_add_session _ =>
    m.is_session_over_limit = false → m.m_current_session.toInt < m_max_session_id.toInt - 1
  | _ => True

/-! ## The invariant -/

theorem toInt_m_max_session_id : m_max_session_id.toInt = 2147483647 := by decide

/-- The remainder is taken before the sum. -/
theorem next_session_eq (m : ServerSessionManager) : m.next_session = m.m_current_session + 1 := by
  rw [next_session, show (1#32).srem m_max_session_id = 1 by decide]

theorem toInt_next_session {m : ServerSessionManager} (h₀ : 0 ≤ m.m_current_session.toInt)
    (h : m.m_current_session.toInt < m_max_session_id.toInt) :
    m.next_session.toInt = m.m_current_session.toInt + 1 := by
  rw [toInt_m_max_session_id] at h
  rw [next_session_eq, BitVec.toInt_add, show (1 : BitVec 32).toInt = 1 by decide,
    Int.bmod_eq_of_le (by omega) (by omega)]

/-- What holds of the object `s` at `p`, beside the map `all`. -/
structure SessionInv (all : StdMap (BitVec 32) SessionPtr) (p : SessionPtr) (s : Session) : Prop where
  held : s.started = true → s.is_open = true ∨ s.closing = true → all.lookup s.m_session_id = some p
  rejected : s.started = false → s.is_open = true ∨ s.closing = true → s.m_session_id = 0
  live : s.is_open = true ∨ s.closing = true → s.expired = false
  closed : s.closing = true → s.is_open = false

structure Inv (m : ServerSessionManager) : Prop where
  current_nonneg : 0 ≤ m.m_current_session.toInt
  current_lt : m.m_current_session.toInt < m_max_session_id.toInt
  ids : ∀ id ∈ m.m_session_all, 1 ≤ id.toInt ∧ id.toInt ≤ m.m_current_session.toInt
  values : ∀ id p, m.m_session_all.lookup id = some p →
    ∃ s, m.sessions p = some s ∧ s.m_session_id = id
  sessions : ∀ p s, m.sessions p = some s → SessionInv m.m_session_all p s
  count : m.m_session_all.size ≤ m.m_max_session_count

theorem inv_new (m_max_session_count : Nat) : Inv (new m_max_session_count) where
  current_nonneg := show 0 ≤ (0 : BitVec 32).toInt by decide
  current_lt := show (0 : BitVec 32).toInt < _ by decide
  ids := fun _ h => absurd h (AList.notMem_empty _)
  values := fun _ _ h => nomatch h
  sessions := fun _ _ h => nomatch h
  count := Nat.zero_le _

theorem Inv.wellRegistered {m : ServerSessionManager} (h : Inv m) : WellRegistered m where
  ids := by
    intro id hid
    have := h.ids id hid
    have := h.current_lt
    omega
  distinct := by
    intro p s q t ⟨hp, _, i, hi⟩ ⟨hq, _, j, hj⟩ hst
    obtain ⟨s', hs', rfl⟩ := h.values i p hi
    obtain ⟨t', ht', rfl⟩ := h.values j q hj
    rw [hp, Option.some.injEq] at hs'
    rw [hq, Option.some.injEq] at ht'
    rw [← hs', hst, ht', hj, Option.some.injEq] at hi
    exact hi.symm
  present := fun p s hp hs ho => (h.sessions p s hp).held hs (.inl ho)
  count := h.count

theorem Inv.reject {m : ServerSessionManager} (h : Inv m) {p : SessionPtr}
    (hp : m.sessions p = none) : Inv (m.set_session p .accepted) where
  current_nonneg := h.current_nonneg
  current_lt := h.current_lt
  ids := h.ids
  count := h.count
  values := by
    intro id q hq
    obtain ⟨s, hs, hid⟩ := h.values id q hq
    have hne : q ≠ p := fun he => by simp [he, hp] at hs
    exact ⟨s, update_eq_some_iff.2 (.inr ⟨hne, hs⟩), hid⟩
  sessions := by
    intro q s hq
    rcases update_eq_some_iff.1 hq with ⟨rfl, hs⟩ | ⟨-, hs⟩
    · rw [← Option.some.inj hs]
      exact ⟨nofun, fun _ _ => rfl, fun _ => rfl, nofun⟩
    · exact h.sessions q s hs

theorem Inv.register {m : ServerSessionManager} (h : Inv m) {p : SessionPtr}
    (hp : m.sessions p = none) (hlimit : m.is_session_over_limit = false)
    (hroom : m.m_current_session.toInt < m_max_session_id.toInt - 1) :
    Inv (m.do_add_session p .accepted).1 := by
  have hnext := toInt_next_session h.current_nonneg h.current_lt
  have hnonneg := h.current_nonneg
  have hfree : m.next_session ∉ m.m_session_all := fun hmem => by
    have := h.ids _ hmem
    omega
  have hlookup : ∀ {id q}, m.m_session_all.lookup id = some q →
      (m.m_session_all.try_insert m.next_session p).lookup id = some q := fun {id q} hq => by
    have hne : id ≠ m.next_session := fun he => hfree (he ▸ StdMap.mem_of_lookup hq)
    rw [StdMap.lookup_try_insert_of_ne hne, hq]
  rw [do_add_session, if_neg (by rw [hlimit]; exact Bool.false_ne_true)]
  constructor
  case current_nonneg =>
    show 0 ≤ m.next_session.toInt
    omega
  case current_lt =>
    show m.next_session.toInt < _
    omega
  case ids =>
    intro id hid
    show 1 ≤ id.toInt ∧ id.toInt ≤ m.next_session.toInt
    have hid : id ∈ m.m_session_all.insert m.next_session p := by
      simpa only [StdMap.try_insert, if_neg hfree] using hid
    rcases (AList.mem_insert _).1 hid with rfl | hid
    · omega
    · have := h.ids id hid
      omega
  case values =>
    intro id q hq
    by_cases hid : id = m.next_session
    · have hq : (m.m_session_all.try_insert m.next_session p).lookup id = some q := hq
      rw [hid, StdMap.lookup_try_insert_self hfree, Option.some.injEq] at hq
      exact ⟨_, update_eq_some_iff.2 (.inl ⟨hq.symm, rfl⟩), hid.symm⟩
    · have hq : (m.m_session_all.try_insert m.next_session p).lookup id = some q := hq
      rw [StdMap.lookup_try_insert_of_ne hid] at hq
      obtain ⟨s, hs, hid⟩ := h.values id q hq
      have hne : q ≠ p := fun he => by simp [he, hp] at hs
      exact ⟨s, update_eq_some_iff.2 (.inr ⟨hne, hs⟩), hid⟩
  case sessions =>
    intro q s hq
    rcases update_eq_some_iff.1 hq with ⟨rfl, hs⟩ | ⟨-, hs⟩
    · rw [← Option.some.inj hs]
      exact ⟨fun _ _ => StdMap.lookup_try_insert_self hfree _, fun h => absurd h Bool.false_ne_true.symm,
        fun _ => rfl, fun h => absurd h Bool.false_ne_true⟩
    · have hs := h.sessions q s hs
      exact ⟨fun hstarted ho => hlookup (hs.held hstarted ho), hs.rejected, hs.live, hs.closed⟩
  case count =>
    show StdMap.size _ ≤ m.m_max_session_count
    have hle := StdMap.size_try_insert_le m.next_session p m.m_session_all
    have hlt : ¬ m.m_max_session_count ≤ m.m_session_all.size := by
      simpa [is_session_over_limit] using hlimit
    exact Nat.le_trans hle (Nat.lt_of_not_le hlt)

theorem Inv.set_session {m : ServerSessionManager} (h : Inv m) {p : SessionPtr} {s t : Session}
    (hp : m.sessions p = some s) (hid : t.m_session_id = s.m_session_id)
    (ht : SessionInv m.m_session_all p t) : Inv (m.set_session p t) where
  current_nonneg := h.current_nonneg
  current_lt := h.current_lt
  ids := h.ids
  count := h.count
  values := by
    intro id q hq
    obtain ⟨s', hs', hid'⟩ := h.values id q hq
    by_cases hne : q = p
    · rw [hne, hp, Option.some.injEq] at hs'
      exact ⟨t, update_eq_some_iff.2 (.inl ⟨hne, rfl⟩), by rw [hid, hs', hid']⟩
    · exact ⟨s', update_eq_some_iff.2 (.inr ⟨hne, hs'⟩), hid'⟩
  sessions := by
    intro q s' hq
    rcases update_eq_some_iff.1 hq with ⟨rfl, hs'⟩ | ⟨-, hs'⟩
    · rwa [← Option.some.inj hs']
    · exact h.sessions q s' hs'

theorem Inv.unregister {m : ServerSessionManager} (h : Inv m) {p : SessionPtr} {s : Session}
    (hp : m.sessions p = some s) (hclosing : s.closing = true) :
    Inv (m.do_close_session p s).1 where
  current_nonneg := h.current_nonneg
  current_lt := h.current_lt
  ids := fun id hid => h.ids id (AList.mem_erase.1 hid).2
  count := Nat.le_trans (StdMap.size_erase_le _ _) h.count
  values := by
    intro id q hq
    have hne : id ≠ s.m_session_id := fun he => by
      rw [he] at hq
      exact absurd (StdMap.mem_of_lookup hq) fun hmem => (AList.mem_erase.1 hmem).1 rfl
    have hq : (m.m_session_all.erase s.m_session_id).lookup id = some q := hq
    rw [AList.lookup_erase_ne hne] at hq
    obtain ⟨s', hs', hid⟩ := h.values id q hq
    have hqp : q ≠ p := fun he => by
      rw [he, hp, Option.some.injEq] at hs'
      exact hne (hs' ▸ hid.symm)
    exact ⟨s', update_eq_some_iff.2 (.inr ⟨hqp, hs'⟩), hid⟩
  sessions := by
    intro q s' hq
    have hs := h.sessions p s hp
    rcases update_eq_some_iff.1 hq with ⟨rfl, hs'⟩ | ⟨hqp, hs'⟩
    · have hopen := hs.closed hclosing
      rw [← Option.some.inj hs']
      exact ⟨fun _ ho => by simp [hopen] at ho, fun _ ho => by simp [hopen] at ho,
        fun ho => by simp [hopen] at ho, nofun⟩
    · have hs' := h.sessions q s' hs'
      refine ⟨fun hstarted ho => ?_, hs'.rejected, hs'.live, hs'.closed⟩
      have hheld := hs'.held hstarted ho
      have hne : s'.m_session_id ≠ s.m_session_id := fun he => by
        rw [he] at hheld
        cases hst : s.started with
        | true =>
          rw [hs.held hst (.inr hclosing), Option.some.injEq] at hheld
          exact hqp hheld.symm
        | false =>
          have hrange := h.ids _ (StdMap.mem_of_lookup hheld)
          rw [hs.rejected hst (.inr hclosing)] at hrange
          simp at hrange
      show (m.m_session_all.erase s.m_session_id).lookup s'.m_session_id = some q
      rw [AList.lookup_erase_ne hne, hheld]

theorem Inv.check {m : ServerSessionManager} (h : Inv m) : Inv m.check_session_alive.1 where
  current_nonneg := h.current_nonneg
  current_lt := h.current_lt
  ids := by
    intro id hid
    obtain ⟨p, hp⟩ := Option.isSome_iff_exists.1 (AList.lookup_isSome.2 hid)
    exact h.ids id (StdMap.mem_of_lookup (StdMap.lookup_keep.1 hp).1)
  count := Nat.le_trans (StdMap.size_keep_le _ _) h.count
  values := fun id p hp => h.values id p (StdMap.lookup_keep.1 hp).1
  sessions := by
    intro p s hp
    have hs := h.sessions p s hp
    refine ⟨fun hstarted ho => StdMap.lookup_keep.2 ⟨hs.held hstarted ho, ?_⟩, hs.rejected, hs.live,
      hs.closed⟩
    have hp : m.sessions p = some s := hp
    simp [alive, hp, hs.live ho]

/-- **One event.** -/
theorem Inv.step {m m' : ServerSessionManager} {e : Event} {o : List Effect} (h : Inv m)
    (hroom : m.HasRoom e) (hs : m.step e = some (m', o)) : Inv m' := by
  cases e with
  | do_add_session p =>
    simp only [ServerSessionManager.step] at hs
    split at hs
    case h_2 => cases hs
    case h_1 hp =>
      have hm : (m.do_add_session p .accepted).1 = m' := congrArg Prod.fst (Option.some.inj hs)
      rw [← hm]
      cases hlimit : m.is_session_over_limit with
      | true =>
        rw [do_add_session, if_pos hlimit]
        exact h.reject hp
      | false => exact h.register hp hlimit (hroom hlimit)
  | do_close p =>
    obtain ⟨s, hp, hm⟩ := Option.map_eq_some_iff.1 hs
    have hm : (m.do_close p s).1 = m' := congrArg Prod.fst hm
    rw [← hm, do_close]
    split
    case isFalse => exact h
    case isTrue hopen =>
      have hinv := h.sessions p s hp
      exact h.set_session hp rfl ⟨fun hstarted _ => hinv.held hstarted (.inl hopen),
        fun hstarted _ => hinv.rejected hstarted (.inl hopen), fun _ => hinv.live (.inl hopen),
        fun _ => rfl⟩
  | do_close_session p =>
    simp only [ServerSessionManager.step] at hs
    split at hs
    case h_1 => cases hs
    case h_2 s hp =>
      split at hs
      case isFalse => cases hs
      case isTrue hclosing =>
        have hm : (m.do_close_session p s).1 = m' := congrArg Prod.fst (Option.some.inj hs)
        rw [← hm]
        exact h.unregister hp hclosing
  | check_session_alive =>
    have hm : m.check_session_alive.1 = m' := congrArg Prod.fst (Option.some.inj hs)
    rw [← hm]
    exact h.check
  | expire p =>
    simp only [ServerSessionManager.step] at hs
    split at hs
    case h_1 => cases hs
    case h_2 s hp =>
      split at hs
      case isTrue => cases hs
      case isFalse hclosing =>
        have hm : m.set_session p _ = m' := congrArg Prod.fst (Option.some.inj hs)
        rw [← hm]
        exact h.set_session hp rfl ⟨fun _ ho => by simp [hclosing] at ho,
          fun _ ho => by simp [hclosing] at ho, fun ho => by simp [hclosing] at ho, fun _ => rfl⟩

/-! ## Runs -/

theorem not_wellRegistered_of_not_hasRoom {m : ServerSessionManager} (h : Inv m) {p : SessionPtr}
    (hlimit : m.is_session_over_limit = false)
    (hroom : ¬ m.m_current_session.toInt < m_max_session_id.toInt - 1) :
    ¬ WellRegistered (m.do_add_session p .accepted).1 := by
  intro hw
  have hnext := toInt_next_session h.current_nonneg h.current_lt
  have hmem : m.next_session ∈ (m.do_add_session p .accepted).1.m_session_all := by
    rw [do_add_session, if_neg (by rw [hlimit]; exact Bool.false_ne_true)]
    show m.next_session ∈ m.m_session_all.try_insert m.next_session p
    unfold StdMap.try_insert
    split
    · assumption
    · exact (AList.mem_insert _).2 (.inl rfl)
  have := (hw.ids _ hmem).2
  omega

/-- **One event**, exactly. -/
theorem wellRegistered_step_iff {m m' : ServerSessionManager} {e : Event} {o : List Effect}
    (h : Inv m) (hs : m.step e = some (m', o)) : WellRegistered m' ↔ m.HasRoom e := by
  refine ⟨fun hw => ?_, fun hroom => (h.step hroom hs).wellRegistered⟩
  cases e with
  | do_add_session p =>
    intro hlimit
    by_contra hroom
    simp only [step] at hs
    split at hs
    case h_2 => cases hs
    case h_1 =>
      have hm : (m.do_add_session p .accepted).1 = m' := congrArg Prod.fst (Option.some.inj hs)
      exact not_wellRegistered_of_not_hasRoom h hlimit hroom (hm ▸ hw)
  | _ => trivial

/-- **The registry is right exactly as long as there is room.** Over every run: all states reached
are as they should be if and only if every id that is handed out is below `m_max_session_id`. -/
theorem wellRegistered_iff {m_max_session_count : Nat}
    {tr : List (Step ServerSessionManager Event (List Effect))} {m : ServerSessionManager}
    (hr : Run step (new m_max_session_count) tr m) :
    (∀ x ∈ tr, WellRegistered x.after) ↔ ∀ x ∈ tr, HasRoom x.before x.event :=
  hr.forall_iff (inv_new _) wellRegistered_step_iff fun h hroom hs => h.step hroom hs

/-- Two sessions come, the first one goes. -/
theorem wellRegistered_iff_two :
    ∃ tr m, Run step (new 2) tr m ∧ m.m_session_all.lookup 2 = some 1 ∧
      ((∀ x ∈ tr, WellRegistered x.after) ↔ ∀ x ∈ tr, HasRoom x.before x.event) := by
  obtain ⟨tr, m, hr, hm⟩ := Run.exists_of_exec step (new 2)
    [.do_add_session 0, .do_add_session 1, .do_close 0, .do_close_session 0, .check_session_alive]
    (P := fun _ m => m.m_session_all.lookup 2 = some 1) (by decide)
  exact ⟨tr, m, hr, hm, wellRegistered_iff hr⟩

/-! ## Sessions that come and go -/

theorem step_do_add_session {m : ServerSessionManager} {p : SessionPtr} (hp : m.sessions p = none) :
    m.step (.do_add_session p) = some (m.do_add_session p .accepted) := by
  simp only [step, hp]

theorem do_add_session_eq {m : ServerSessionManager} (hlimit : m.is_session_over_limit = false)
    (p : SessionPtr) :
    m.do_add_session p .accepted =
      (⟨m.m_max_session_count, m.next_session, m.m_session_all.try_insert m.next_session p,
          update m.sessions p (some ⟨m.next_session, true, true, false, false⟩)⟩, [.start p]) := by
  rw [do_add_session, if_neg (by rw [hlimit]; exact Bool.false_ne_true)]
  rfl

theorem step_do_close {m : ServerSessionManager} {p : SessionPtr} {s : Session}
    (hp : m.sessions p = some s) (hopen : s.is_open = true) :
    m.step (.do_close p) =
      some (m.set_session p { s with is_open := false, closing := true }, []) := by
  simp only [step, hp, Option.map_some, do_close, if_pos hopen]

theorem step_do_close_session {m : ServerSessionManager} {p : SessionPtr} {s : Session}
    (hp : m.sessions p = some s) (hclosing : s.closing = true) :
    m.step (.do_close_session p) = some (m.do_close_session p s) := by
  simp only [step, hp, if_pos hclosing]

@[simp] theorem sessions_set_session (m : ServerSessionManager) (p : SessionPtr) (s : Session) :
    (m.set_session p s).sessions p = some s := update_self ..

/-- A session comes and goes. -/
def visit (p : SessionPtr) : List Event := [.do_add_session p, .do_close p, .do_close_session p]

/-- The registry is empty again after a visit, and the counter has moved. -/
theorem exists_run_visit {m : ServerSessionManager} (hcount : 0 < m.m_max_session_count)
    (hall : m.m_session_all = ∅) {p : SessionPtr} (hp : m.sessions p = none) :
    ∃ tr m', Run step m tr m' ∧ tr.map Step.event = visit p ∧
      m'.m_max_session_count = m.m_max_session_count ∧ m'.m_session_all = ∅ ∧
      m'.m_current_session = m.m_current_session + 1 ∧
      ∀ q, q ≠ p → m'.sessions q = m.sessions q := by
  have hlimit : m.is_session_over_limit = false := by
    simp [is_session_over_limit, hall, Nat.ne_of_gt hcount]
  have hadd := step_do_add_session hp
  rw [do_add_session_eq hlimit] at hadd
  have hr := Run.snoc .nil hadd
  have hsession : Function.update m.sessions p (some ⟨m.next_session, true, true, false, false⟩) p =
    some ⟨m.next_session, true, true, false, false⟩ := update_self ..
  have hr := hr.snoc (step_do_close hsession rfl)
  have hr := hr.snoc (step_do_close_session (sessions_set_session _ p _) rfl)
  refine ⟨_, _, hr, rfl, rfl, ?_, next_session_eq m, ?_⟩
  · show AList.erase _ (StdMap.try_insert _ _ m.m_session_all) = ∅
    rw [hall]
    exact StdMap.erase_try_insert_empty _ _
  · intro q hq
    show update (update (update m.sessions p _) p _) p _ q = m.sessions q
    rw [update_of_ne hq, update_of_ne hq, update_of_ne hq]

/-- The first `n` sessions come and go, one after another. -/
def visits (n : Nat) : List Event := (List.range n).flatMap visit

theorem exists_run_visits {m_max_session_count : Nat} (hcount : 0 < m_max_session_count) (n : Nat) :
    ∃ tr m, Run step (new m_max_session_count) tr m ∧ tr.map Step.event = visits n ∧
      m.m_max_session_count = m_max_session_count ∧ m.m_session_all = ∅ ∧
      m.m_current_session = .ofNat 32 n ∧ ∀ q, n ≤ q → m.sessions q = none := by
  induction n with
  | zero => exact ⟨[], _, .nil, rfl, rfl, rfl, rfl, fun _ _ => rfl⟩
  | succ n ih =>
    obtain ⟨tr, m, hr, hevents, hm, hall, hcurrent, hfree⟩ := ih
    obtain ⟨tr', m', hr', hevents', hm', hall', hcurrent', hsame⟩ :=
      exists_run_visit (hm ▸ hcount) hall (hfree n (Nat.le_refl n))
    refine ⟨tr ++ tr', m', hr.append hr', ?_, hm'.trans hm, hall', ?_, fun q hq => ?_⟩
    · rw [List.map_append, hevents, hevents', visits, visits, List.range_succ, List.flatMap_append,
        List.flatMap_singleton]
    · rw [hcurrent', hcurrent, BitVec.ofNat_add]
      rfl
    · rw [hsame q (Nat.ne_of_gt hq), hfree q (Nat.le_of_succ_le hq)]

/-- `2 ^ 31 - 2` sessions come and go; the one that comes next is registered under
`m_max_session_id`. -/
theorem not_wellRegistered_of_many :
    ∃ tr m, Run step (new 100000) tr m ∧
      tr.map Step.event = visits 2147483646 ++ [.do_add_session 2147483646] ∧
      m_max_session_id ∈ m.m_session_all ∧ ¬ WellRegistered m := by
  obtain ⟨tr, m, hr, hevents, hm, hall, hcurrent, hfree⟩ :=
    exists_run_visits (show 0 < 100000 by decide) 2147483646
  have hlimit : m.is_session_over_limit = false := by simp [is_session_over_limit, hall, hm]
  have hnext : m.next_session = m_max_session_id := by
    rw [next_session_eq, hcurrent]
    decide
  have hadd := step_do_add_session (hfree _ (Nat.le_refl _))
  rw [do_add_session_eq hlimit, hnext] at hadd
  have hmem : m_max_session_id ∈ m.m_session_all.try_insert m_max_session_id 2147483646 := by
    rw [hall, StdMap.try_insert, if_neg (AList.notMem_empty _)]
    exact (AList.mem_insert _).2 (.inl rfl)
  refine ⟨_, _, .snoc hr hadd, ?_, hmem, fun hw => ?_⟩
  · rw [List.map_append, hevents]
    rfl
  · have := (hw.ids _ hmem).2
    omega

end ServerSessionManager

end SparkFrame.Net
