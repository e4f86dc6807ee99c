import SparkFrame.Net.MqClient

/-!
# Bindings on every channel

`binding_exchange` replays what the maps hold on each new channel, and the maps hold one list of keys
for each exchange, the first. A key that comes later for an exchange is bound at once where the session
is open, and is never replayed.

* `requests`, `direct` : what is recorded, and what was bound at once on the current channel;
* `Kept` : the keys that are replayed; `kept_append_singleton`;
* `Covers`, `Replays` : what is known of a channel and of a session; one lemma for each member function;
* `After`, `replays_step` : **one event**;
* `Bound`, `Covered` : what should be bound, and the condition; `bound_iff_covered` : **whole runs**;
  `bound_afterConnect`, `second_key_lost`.
-/

namespace SparkFrame.Net

open SparkFrame.Lib SparkFrame.Tools MqInfo

/-- The key is among those asked for first for the exchange. -/
def Kept (binds : List Bind) (exchange key : Bytes) : Prop :=
  ∃ b ∈ first binds exchange, key ∈ b.routkeys

theorem kept_append_singleton {binds : List Bind} {b : Bind} {exchange key : Bytes} :
    Kept (binds ++ [b]) exchange key ↔
      Kept binds exchange key ∨
        first binds exchange = none ∧ b.exchange = exchange ∧ key ∈ b.routkeys := by
  rw [Kept, Kept, first_append_singleton]
  rcases first binds exchange with _ | f
  · by_cases hb : b.exchange = exchange
    · simp [hb]
    · simp [hb]
  · simp

namespace MqClient

/-! ## Channels -/

/-- A channel of a session that records the requests, on which `d` was bound at once. -/
structure Covers (binds : List Bind) (d : List (Bytes × Bytes)) (queue : Bytes) (isOpen : Bool)
    (ch : TcpChannel) : Prop where
  opened : ch.ready = true → ch.closed = false → isOpen = true
  issued : ch.ready = true → ch.closed = false → ∀ exchange key, Kept binds exchange key →
    (exchange, queue, key) ∈ ch.bound ∨ (∃ type, .exchange exchange type ∈ ch.declares) ∨
      ch.failed = true
  direct : ∀ p ∈ d, (p.1, queue, p.2) ∈ ch.bound
  only : ∀ exchange key, (exchange, queue, key) ∈ ch.bound →
    Kept binds exchange key ∨ (exchange, key) ∈ d

namespace Covers

variable {binds : List Bind} {d : List (Bytes × Bytes)} {queue : Bytes} {isOpen : Bool}
  {ch : TcpChannel}

theorem new (binds : List Bind) (queue : Bytes) (isOpen : Bool) :
    Covers binds [] queue isOpen .new :=
  ⟨nofun, nofun, nofun, nofun⟩

theorem declare (h : Covers binds d queue isOpen ch) (ds : List Declare) :
    Covers binds d queue isOpen (ch.declare ds) := by
  refine ⟨h.opened, fun hready hclosed exchange key hkept => ?_, h.direct, h.only⟩
  rcases h.issued hready hclosed exchange key hkept with hbound | ⟨type, hdeclared⟩ | hfailed
  · exact .inl hbound
  · exact .inr (.inl ⟨type, List.mem_append_left _ hdeclared⟩)
  · exact .inr (.inr hfailed)

theorem bindQueues (h : Covers binds d queue isOpen ch) {exchange : Bytes} {keys : List Bytes}
    (hkept : ∀ key ∈ keys, Kept binds exchange key) :
    Covers binds d queue isOpen
      (ch.bindQueues (keys.map fun e => (exchange, queue, e))) := by
  refine ⟨h.opened, fun hready hclosed exchange key hkept => ?_, fun p hp => ?_, ?_⟩
  · rcases h.issued hready hclosed exchange key hkept with hbound | hdeclared
    · exact .inl (List.mem_append_left _ hbound)
    · exact .inr hdeclared
  · exact List.mem_append_left _ (h.direct p hp)
  · intro exchange' key hbound
    rcases List.mem_append.1 hbound with hbound | hbound
    · exact h.only exchange' key hbound
    · obtain ⟨e, he, heq⟩ := List.mem_map.1 hbound
      cases heq
      exact .inl (hkept key he)

/-- A declaration comes back. The keys of an exchange have been bound by then. -/
theorem answer (h : Covers binds d queue isOpen ch) {x : Declare}
    (hx : ∀ exchange type, x = .exchange exchange type → ∀ key, Kept binds exchange key →
      (exchange, queue, key) ∈ ch.bound) :
    Covers binds d queue isOpen (ch.answer x) := by
  refine ⟨h.opened, fun hready hclosed exchange key hkept => ?_, h.direct, h.only⟩
  rcases h.issued hready hclosed exchange key hkept with hbound | ⟨type, hdeclared⟩ | hfailed
  · exact .inl hbound
  · by_cases heq : x = .exchange exchange type
    · exact .inl (hx exchange type heq key hkept)
    · exact .inr (.inl ⟨type, (List.mem_erase_of_ne (Ne.symm heq)).2 hdeclared⟩)
  · exact .inr (.inr hfailed)

theorem fail (h : Covers binds d queue isOpen ch) (x : Declare) :
    Covers binds d queue isOpen { ch.answer x with failed := true } :=
  ⟨h.opened, fun _ _ _ _ _ => .inr (.inr rfl), h.direct, h.only⟩

theorem close (h : Covers binds d queue isOpen ch) :
    Covers binds d queue false { ch with closed := true } :=
  ⟨nofun, nofun, h.direct, h.only⟩

/-- The channel becomes ready: every exchange that is asked for is declared. -/
theorem ready (h : Covers binds d queue isOpen ch) {ds : List Declare}
    (hds : ∀ exchange, (first binds exchange).isSome → ∃ type, .exchange exchange type ∈ ds) :
    Covers binds d queue true (({ ch.declare [.queue] with ready := true }).declare ds) := by
  refine ⟨fun _ _ => rfl, fun _ _ exchange key ⟨b, hb, _⟩ => ?_, h.direct, h.only⟩
  obtain ⟨type, hdeclared⟩ := hds exchange (Option.isSome_of_mem hb)
  exact .inr (.inl ⟨type, List.mem_append_right _ hdeclared⟩)

theorem request_open (h : Covers binds d queue true ch) (b : Bind) {key : Bytes}
    (hb : b.routkeys = [key]) :
    Covers (binds ++ [b]) (d ++ [(b.exchange, key)]) queue true
      (ch.bindQueues [(b.exchange, queue, key)]) := by
  refine ⟨fun _ _ => rfl, fun hready hclosed exchange k hkept => ?_, fun p hp => ?_, ?_⟩
  · rcases kept_append_singleton.1 hkept with hkept | ⟨-, rfl, hk⟩
    · rcases h.issued hready hclosed exchange k hkept with hbound | hdeclared
      · exact .inl (List.mem_append_left _ hbound)
      · exact .inr hdeclared
    · rw [hb, List.mem_singleton] at hk
      subst hk
      exact .inl (List.mem_append_right _ (List.mem_singleton_self _))
  · rcases List.mem_append.1 hp with hp | hp
    · exact List.mem_append_left _ (h.direct p hp)
    · rw [List.mem_singleton.1 hp]
      exact List.mem_append_right _ (List.mem_singleton_self _)
  · intro exchange k hbound
    rcases List.mem_append.1 hbound with hbound | hbound
    · exact (h.only exchange k hbound).imp (fun hkept => kept_append_singleton.2 (.inl hkept))
        (List.mem_append_left _)
    · cases List.mem_singleton.1 hbound
      exact .inr (List.mem_append_right _ (List.mem_singleton_self _))

/-- A request that does not is only recorded. -/
theorem request_closed (h : Covers binds d queue false ch) (b : Bind) :
    Covers (binds ++ [b]) d queue false ch := by
  refine ⟨h.opened, fun hready hclosed => absurd (h.opened hready hclosed) Bool.false_ne_true,
    h.direct, fun exchange key hbound => ?_⟩
  exact (h.only exchange key hbound).imp_left fun hkept => kept_append_singleton.2 (.inl hkept)

end Covers

/-! ## Sessions -/

/-- A session that records the requests. -/
structure Replays (binds : List Bind) (d : List (Bytes × Bytes)) (s : Session) : Prop where
  records : Records s.m_mq_info binds
  channel : ∀ ch, s.m_channel = some ch →
    Covers binds d s.m_mq_info.m_queue s.m_is_session_opend ch

namespace Replays

variable {binds : List Bind} {d : List (Bytes × Bytes)} {s : Session}

theorem new {mq_info : MqInfo} (h : Records mq_info binds) : Replays binds [] (.new mq_info) :=
  ⟨h, nofun⟩

theorem set_handler (h : Replays binds d s) (handler : Option MqHandler) :
    Replays binds d { s with m_mq_handler := handler } := ⟨h.records, h.channel⟩

theorem onChannel (h : Replays binds d s) {f : TcpChannel → TcpChannel}
    (hf : ∀ ch, Covers binds d s.m_mq_info.m_queue s.m_is_session_opend ch →
      Covers binds d s.m_mq_info.m_queue s.m_is_session_opend (f ch)) :
    Replays binds d (s.onChannel f) := by
  refine ⟨h.records, fun ch' hch' => ?_⟩
  obtain ⟨ch, hch, rfl⟩ := Option.map_eq_some_iff.1 hch'
  exact hf ch (h.channel ch hch)

theorem init (h : Replays binds d s) : Replays binds [] s.init.1 := by
  refine ⟨h.records, ?_⟩
  rintro _ ⟨⟩
  exact .new ..

theorem binding_exchange (h : Replays binds d s) : Replays binds d s.binding_exchange :=
  h.onChannel fun _ hch => hch.declare _

theorem exists_declare (h : Replays binds d s) {exchange : Bytes}
    (hex : (first binds exchange).isSome) :
    ∃ type, .exchange exchange type ∈
      s.m_mq_info.m_exchanges.entries.map fun e => Declare.exchange e.1 e.2 := by
  obtain ⟨b, hb⟩ := Option.isSome_iff_exists.1 hex
  have hlookup := h.records.m_exchanges exchange
  rw [hb] at hlookup
  exact ⟨b.type, List.mem_map.2 ⟨⟨exchange, b.type⟩, AList.mem_lookup_iff.1 hlookup, rfl⟩⟩

theorem channel_ready_call (h : Replays binds d s) : Replays binds d s.channel_ready_call.1 := by
  refine ⟨h.records, fun ch' hch' => ?_⟩
  obtain ⟨ch₁, hch₁, rfl⟩ := Option.map_eq_some_iff.1 hch'
  obtain ⟨ch, hch, rfl⟩ := Option.map_eq_some_iff.1 hch₁
  exact (h.channel ch hch).ready fun exchange hex => h.exists_declare hex

theorem declare_success (h : Replays binds d s) (x : Declare) :
    Replays binds d ((s.onChannel (.answer x)).declare_success x).1 := by
  cases x with
  | queue =>
    have hanswer : Replays binds d (s.onChannel (.answer .queue)) := by
      apply h.onChannel
      intro ch hch
      refine hch.answer fun exchange _ heq => ?_
      cases heq
    exact hanswer.binding_exchange
  | exchange name type =>
    have hlookup := h.records.m_binds name
    rw [Session.declare_success, Session.exchange_success_call, Session.m_mq_info_onChannel, hlookup]
    rcases hb : first binds name with _ | b
    · apply h.onChannel
      intro ch hch
      refine hch.answer fun exchange _ heq key hkept => ?_
      cases heq
      obtain ⟨b, hb', -⟩ := hkept
      rw [hb] at hb'
      cases hb'
    · have hkept : ∀ key ∈ b.routkeys, Kept binds name key := fun key hkey => ⟨b, hb, hkey⟩
      dsimp only [Option.map_some]
      rw [Session.onChannel_onChannel]
      apply h.onChannel
      intro ch hch
      refine (hch.bindQueues hkept).answer fun exchange _ heq key hasked => ?_
      cases heq
      obtain ⟨f, hf, hkey⟩ := hasked
      rw [hb] at hf
      cases hf
      exact List.mem_append_right _ (List.mem_map_of_mem hkey)

theorem declare_error (h : Replays binds d s) (x : Declare) :
    Replays binds d (s.onChannel (.answer x)).declare_error := by
  refine ⟨h.records, fun ch' hch' => ?_⟩
  obtain ⟨ch₁, hch₁, rfl⟩ := Option.map_eq_some_iff.1 hch'
  obtain ⟨ch, hch, rfl⟩ := Option.map_eq_some_iff.1 hch₁
  exact (h.channel ch hch).fail x

theorem do_close (h : Replays binds d s) : Replays binds d s.do_close.1 := by
  rw [Session.do_close]
  split
  · exact h
  · refine ⟨h.records, fun ch' hch' => ?_⟩
    obtain ⟨ch, hch, rfl⟩ := Option.map_eq_some_iff.1 hch'
    exact (h.channel ch hch).close

/-- **A request.** It is recorded, and where the session is open it is bound at once. -/
theorem bind_one_exchange (h : Replays binds d s) (exchange : Bytes) (type : Int) (key : Bytes) :
    Replays (binds ++ [⟨exchange, type, [key]⟩])
      (d ++ if s.m_is_session_opend then [(exchange, key)] else [])
      (s.bind_one_exchange exchange type key) := by
  have hrecords := h.records.insert_bind ⟨exchange, type, [key]⟩
  rw [Session.bind_one_exchange]
  rcases hopen : s.m_is_session_opend with _ | _
  · rw [if_neg Bool.false_ne_true, List.append_nil]
    refine ⟨hrecords, fun ch hch => ?_⟩
    have hch := h.channel ch hch
    rw [hopen] at hch
    exact hch.request_closed _
  · rw [if_pos rfl]
    refine ⟨hrecords, fun ch' hch' => ?_⟩
    obtain ⟨ch, hch, rfl⟩ := Option.map_eq_some_iff.1 hch'
    have hch := h.channel ch hch
    rw [hopen] at hch
    exact hch.request_open ⟨exchange, type, [key]⟩ rfl

end Replays

/-! ## Clients -/

variable {binds : List Bind} {d : List (Bytes × Bytes)} {c c' : MqClient} {e : Event}
  {o : List Effect}

/-- What a member function leaves: on a new channel nothing was bound at once. -/
def After (binds : List Bind) (d : List (Bytes × Bytes)) (r : MqClient × List Effect) : Prop :=
  Replays binds (if r.2.any connects then [] else d) r.1.m_session

theorem not_connects_do_close (s : Session) : s.do_close.2.any connects = false := by
  rw [Session.do_close]
  split <;> rfl

theorem not_connects_declare_success (x : Declare) (s : Session) :
    (s.declare_success x).2.any connects = false := by
  cases x <;> rfl

theorem after_ofSession {r : Session × List Effect} (h : Replays binds d r.1)
    (hr : r.2.any connects = false) : After binds d (c.ofSession r) := by
  rw [After, ofSession, hr]
  exact h

theorem after_do_connect (h : Replays binds d c.m_session) : After binds d c.do_connect := by
  rw [do_connect]
  split
  · exact h
  · exact h.init

theorem not_connects_close_session (c : MqClient) : c.close_session.2.any connects = false := by
  rw [close_session]
  split
  · exact not_connects_do_close _
  · rfl

theorem replays_close_session (h : Replays binds d c.m_session) :
    Replays binds d c.close_session.1.m_session := by
  rw [close_session]
  split
  · exact h.do_close
  · exact h

theorem after_do_close_client (h : Replays binds d c.m_session) :
    After binds d c.do_close_client := by
  rw [After, do_close_client, not_connects_close_session]
  exact replays_close_session h

theorem after_then_connect {p : MqClient × List Effect} (h : Replays binds d p.1.m_session)
    (hp : p.2.any connects = false) (b : Bool) :
    After binds d ((if b then p.1.connect_mq else (p.1, [])).1,
      p.2 ++ (if b then p.1.connect_mq else (p.1, [])).2) := by
  rw [After, List.any_append, hp]
  cases b with
  | false => exact h
  | true => exact h.init

theorem after_tick (h : Replays binds d c.m_session) : After binds d c.tick := by
  have hsession : Replays binds d
      (if !c.m_session.is_connected then c.close_session else (c, [])).1.m_session := by
    split
    · exact replays_close_session h
    · exact h
  have hout : (if !c.m_session.is_connected then c.close_session else (c, [])).2.any connects =
      false := by
    split
    · exact not_connects_close_session c
    · rfl
  rw [tick]
  split
  · split
    · exact h
    · exact h
  · exact after_then_connect hsession hout _

theorem after_on_timeout (h : Replays binds d c.m_session) (err : Bool) :
    After binds d (c.on_timeout err) := by
  rw [on_timeout]
  split
  · exact h
  · exact after_tick h

/-! ## Histories -/

/-- What a call asks for. -/
def request (x : Step MqClient Event (List Effect)) : Option Bind :=
  match x.event with
  | .do_bind exchange_name exchange_type rout_key => some ⟨exchange_name, exchange_type, [rout_key]⟩
  | _ => none

/-- What has been asked for, by the configuration and since. -/
def requests (config : List Bind) (tr : List (Step MqClient Event (List Effect))) : List Bind :=
  config ++ tr.filterMap request

/-- A request that finds the session open. -/
def at_once (x : Step MqClient Event (List Effect)) : Option (Bytes × Bytes) :=
  match x.event with
  | .do_bind exchange_name _ rout_key =>
    if x.before.m_session.m_is_session_opend then some (exchange_name, rout_key) else none
  | _ => none

/-- The requests that have found the session open since the channel was made. -/
def direct (tr : List (Step MqClient Event (List Effect))) : List (Bytes × Bytes) :=
  (since attempted tr).filterMap at_once

theorem requests_append_singleton (config : List Bind)
    (tr : List (Step MqClient Event (List Effect))) (x : Step MqClient Event (List Effect)) :
    requests config (tr ++ [x]) = requests config tr ++ (request x).toList := by
  rw [requests, requests, List.filterMap_append, List.append_assoc]
  rcases hx : request x with _ | b <;> simp [hx]

theorem direct_append_singleton (tr : List (Step MqClient Event (List Effect)))
    (x : Step MqClient Event (List Effect)) :
    direct (tr ++ [x]) = if attempted x then [] else direct tr ++ (at_once x).toList := by
  rw [direct, since_append_singleton]
  split
  · rfl
  · rw [List.filterMap_append, ← direct]
    rcases hx : at_once x with _ | p <;> simp [hx]

theorem after_moves {p : MqClient × List Effect} (h : Replays binds d c.m_session)
    (hm : Moves c e p) (he : ∀ exchange_name exchange_type rout_key,
      e ≠ .do_bind exchange_name exchange_type rout_key) : After binds d p := by
  cases hm with
  | do_connect => exact after_do_connect h
  | do_close_client => exact after_do_close_client h
  | do_bind exchange_name exchange_type rout_key => exact absurd rfl (he _ _ _)
  | close => exact after_ofSession h.do_close (not_connects_do_close _)
  | link l handler => exact after_ofSession (h.set_handler _) rfl
  | channel_ready => exact after_ofSession h.channel_ready_call rfl
  | declare_success x =>
    exact after_ofSession (h.declare_success x) (not_connects_declare_success ..)
  | declare_error x => exact after_ofSession (h.declare_error x) rfl
  | timer_expires t => exact h
  | on_timeout err t => exact after_on_timeout (c := { c with m_timer := t }) h err

/-- **One event.** -/
theorem replays_step {config : List Bind} {tr : List (Step MqClient Event (List Effect))}
    (h : Replays (requests config tr) (direct tr) c.m_session) (hs : step c e = some (c', o)) :
    Replays (requests config (tr ++ [⟨c, e, o, c'⟩])) (direct (tr ++ [⟨c, e, o, c'⟩]))
      c'.m_session := by
  rw [requests_append_singleton, direct_append_singleton]
  by_cases he : ∃ exchange_name exchange_type rout_key,
      e = .do_bind exchange_name exchange_type rout_key
  · obtain ⟨exchange_name, exchange_type, rout_key, rfl⟩ := he
    cases hs
    have hbind := h.bind_one_exchange exchange_name exchange_type rout_key
    rcases hopen : c.m_session.m_is_session_opend with _ | _
    · simpa [request, at_once, attempted, do_bind, hopen] using hbind
    · simpa [request, at_once, attempted, do_bind, hopen] using hbind
  · simp only [not_exists] at he
    have hafter := after_moves h (moves_of_step hs) he
    have hrequest : request ⟨c, e, o, c'⟩ = none := by
      cases e with
      | do_bind exchange_name exchange_type rout_key => exact absurd rfl (he _ _ _)
      | _ => rfl
    have hat : at_once ⟨c, e, o, c'⟩ = none := by
      cases e with
      | do_bind exchange_name exchange_type rout_key => exact absurd rfl (he _ _ _)
      | _ => rfl
    rw [hrequest, hat, Option.toList_none, Option.toList_none, List.append_nil, List.append_nil]
    exact hafter

/-! ## What should be bound -/

/-- The key is among the first keys for the exchange. -/
def Among (entries : List (Bytes × List Bytes)) (exchange key : Bytes) : Prop :=
  ∃ e ∈ entries.find? fun e => e.1 = exchange, key ∈ e.2

/-- Once the channel is ready and the declarations have succeeded, everything asked for is bound to
the queue on it. -/
def Bound (asked : List (Bytes × List Bytes)) (s : Session) : Prop :=
  ∀ ch, s.m_channel = some ch → ch.Settled → ∀ e ∈ asked, ∀ key ∈ e.2,
    (e.1, s.m_mq_info.m_queue, key) ∈ ch.bound

/-- **The condition.** By then, every key asked for is among those recorded first for its exchange, or
was asked for on this channel while the session was open. -/
def Covered (asked recorded : List (Bytes × List Bytes)) (d : List (Bytes × Bytes)) (s : Session) :
    Prop :=
  ∀ ch, s.m_channel = some ch → ch.Settled → ∀ e ∈ asked, ∀ key ∈ e.2,
    Among recorded e.1 key ∨ (e.1, key) ∈ d

theorem among_map_entry {binds : List Bind} {exchange key : Bytes} :
    Among (binds.map Bind.entry) exchange key ↔ Kept binds exchange key := by
  simp only [Among, Kept, first, List.find?_map, Option.mem_def, Option.map_eq_some_iff]
  constructor
  · rintro ⟨-, ⟨b, hb, rfl⟩, hkey⟩
    exact ⟨b, hb, hkey⟩
  · rintro ⟨b, hb, hkey⟩
    exact ⟨_, ⟨b, hb, rfl⟩, hkey⟩

theorem Replays.bound_iff {s : Session} (h : Replays binds d s) (asked : List (Bytes × List Bytes)) :
    Bound asked s ↔ Covered asked (binds.map Bind.entry) d s := by
  constructor
  · intro hbound ch hch hsettled e he key hkey
    rw [among_map_entry]
    exact (h.channel ch hch).only _ _ (hbound ch hch hsettled e he key hkey)
  · intro hcovered ch hch hsettled e he key hkey
    have hcovers := h.channel ch hch
    have hkey := hcovered ch hch hsettled e he key hkey
    rw [among_map_entry] at hkey
    rcases hkey with hkept | hdirect
    · have hissued := hcovers.issued hsettled.ready hsettled.open_ _ _ hkept
      rw [hsettled.declares, hsettled.failed] at hissued
      simpa using hissued
    · exact hcovers.direct _ hdirect

/-- The calls, after what the configuration has. -/
def withCalls (config : List (Bytes × List Bytes)) (tr : List (Step MqClient Event (List Effect))) :
    List (Bytes × List Bytes) :=
  config ++ (tr.filterMap request).map Bind.entry

/-- **Bindings survive exactly when they are covered.** For every configuration that is read, after
every run: all that the configuration and the calls ask for is bound on a channel that has settled if
and only if it was recorded first for its exchange, or asked for on this channel while the session was
open. -/
theorem bound_iff_covered {proc_name sub_str : Bytes} {jv : Json} {r : Bool × MqInfo}
    (hconfig : MqInfo.new.parse_config proc_name sub_str jv = .ok r)
    {tr : List (Step MqClient Event (List Effect))} (hr : Run step (new r.2) tr c) :
    Bound (withCalls (config_requests proc_name sub_str jv) tr) c.m_session ↔
      Covered (withCalls (config_requests proc_name sub_str jv) tr)
        (withCalls (config_recorded proc_name sub_str jv) tr) (direct tr) c.m_session := by
  obtain ⟨binds, hrecords, hentries⟩ := records_parse_config hconfig
  have hnew : Replays (requests binds []) (direct []) (new r.2).m_session := by
    rw [requests, List.filterMap_nil, List.append_nil]
    exact .new hrecords
  have hreplays := hr.invariant (fun tr c => Replays (requests binds tr) (direct tr) c.m_session)
    (fun _ _ => True) hnew (fun h _ hs => replays_step h hs) fun _ _ => trivial
  have hrecorded : (requests binds tr).map Bind.entry =
      withCalls (config_recorded proc_name sub_str jv) tr := by
    rw [requests, List.map_append, hentries, withCalls]
  rw [← hrecorded]
  exact hreplays.bound_iff _

/-! ## One configuration -/

/-- A string of a configuration. -/
def str (s : String) : Json := .string (bytes s)

/-- The process `gamesvr` binds one exchange with one key. -/
def gameConfig : Json :=
  .object [(bytes "mq", .object [
    (bytes "default", .object [(bytes "dir", str "test"), (bytes "ip", str "127.0.0.1"),
      (bytes "passwd", str "123456"), (bytes "port", str "5672"), (bytes "user", str "guest")]),
    (bytes "gamesvr", .object [
      (bytes "binds", .array [.object [(bytes "exchange", str "game.direct"),
        (bytes "routkeys", .array [str "game"])]]),
      (bytes "queue", str "gamesvr")])])]

/-- What it leaves. -/
def gameInfo : MqInfo :=
  { m_ip := bytes "127.0.0.1", m_port := 5672, m_login := ⟨bytes "guest", bytes "123456"⟩
    m_work_dir := bytes "test", m_queue := bytes "gamesvr"
    m_exchanges := .singleton (bytes "game.direct") MqInfo.direct
    m_binds := .singleton (bytes "game.direct") [bytes "game"] }

theorem parse_gameConfig :
    MqInfo.new.parse_config (bytes "gamesvr") [] gameConfig = .ok (true, gameInfo) := by
  have hfields : ∃ r ∈ (MqInfo.new.parse_config (bytes "gamesvr") [] gameConfig).toOption,
      r.1 = true ∧ r.2.m_ip = gameInfo.m_ip ∧ r.2.m_port = gameInfo.m_port ∧
        r.2.m_login = gameInfo.m_login ∧ r.2.m_work_dir = gameInfo.m_work_dir ∧
        r.2.m_queue = gameInfo.m_queue ∧
        r.2.m_exchanges.entries = gameInfo.m_exchanges.entries ∧
        r.2.m_binds.entries = gameInfo.m_binds.entries := by
    decide +kernel
  obtain ⟨⟨valid, info⟩, hr, rfl, hip, hport, hlogin, hdir, hqueue, hexchanges, hbinds⟩ := hfields
  have hinfo : info = gameInfo :=
    MqInfo.ext hip hport hlogin hdir hqueue (AList.ext hexchanges) (AList.ext hbinds)
  rw [← hinfo]
  rcases hparse : MqInfo.new.parse_config (bytes "gamesvr") [] gameConfig with error | r
  · rw [hparse] at hr
    cases hr
  · rw [hparse] at hr
    cases hr
    rfl

/-- The callbacks of a channel on which that exchange is declared. -/
def settle : List Event :=
  [.declare_success .queue, .declare_success (.exchange (bytes "game.direct") MqInfo.direct),
    .declare_success (.exchange (bytes "game.direct") MqInfo.direct)]

/-- The first channel settles. -/
theorem bound_afterConnect :
    ∃ tr c, MqInfo.new.parse_config (bytes "gamesvr") [] gameConfig = .ok (true, gameInfo) ∧
      Run step (new gameInfo) tr c ∧ (∃ ch ∈ c.m_session.m_channel, ch.Settled) ∧
      (Bound (withCalls (config_requests (bytes "gamesvr") [] gameConfig) tr) c.m_session ↔
        Covered (withCalls (config_requests (bytes "gamesvr") [] gameConfig) tr)
          (withCalls (config_recorded (bytes "gamesvr") [] gameConfig) tr) (direct tr) c.m_session) := by
  obtain ⟨tr, c, hr, hch⟩ := Run.exists_of_exec step (new gameInfo)
    ([.do_connect, .channel_ready] ++ settle)
    (P := fun _ c => ∃ ch ∈ c.m_session.m_channel, ch.Settled) (by decide +kernel)
  exact ⟨tr, c, parse_gameConfig, hr, hch, bound_iff_covered parse_gameConfig hr⟩

/-- A second key for the exchange, asked for before the channel is ready, is never bound. -/
theorem second_key_lost :
    ∃ tr c, MqInfo.new.parse_config (bytes "gamesvr") [] gameConfig = .ok (true, gameInfo) ∧
      Run step (new gameInfo) tr c ∧
      tr.map Step.event = [.do_bind (bytes "game.direct") MqInfo.direct (bytes "lobby"), .do_connect,
        .channel_ready] ++ settle ∧
      ¬ Bound (withCalls (config_requests (bytes "gamesvr") [] gameConfig) tr) c.m_session := by
  obtain ⟨tr, c, hr, hevents, hrequest, ch, hch, hsettled, hlost⟩ :=
    Run.exists_of_exec step (new gameInfo)
      ([.do_bind (bytes "game.direct") MqInfo.direct (bytes "lobby"), .do_connect, .channel_ready] ++
        settle)
      (P := fun tr c => tr.map Step.event = [.do_bind (bytes "game.direct") MqInfo.direct
          (bytes "lobby"), .do_connect, .channel_ready] ++ settle ∧
        ⟨bytes "game.direct", MqInfo.direct, [bytes "lobby"]⟩ ∈ tr.filterMap request ∧
        ∃ ch ∈ c.m_session.m_channel, ch.Settled ∧
          (bytes "game.direct", c.m_session.m_mq_info.m_queue, bytes "lobby") ∉ ch.bound)
      (by decide +kernel)
  refine ⟨tr, c, parse_gameConfig, hr, hevents, fun hbound => ?_⟩
  have hlobby := hbound ch hch hsettled _ (List.mem_append_right _ (List.mem_map_of_mem hrequest))
    (bytes "lobby") (List.mem_singleton_self _)
  exact hlost hlobby

end MqClient

end SparkFrame.Net
