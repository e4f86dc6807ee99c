import SparkFrame.Net.TcpSession

/-!
# What the task layer sees of a session

`handle_message` tells the opening and the closing of a session from other messages by the command
in the header, and a peer chooses the commands of what it sends.

* `handled`, `history` : the calls of `handle_message`; `Lifecycle` : an opening, ordinary messages,
  a closing, and nothing afterwards;
* `request`, `closes` : the request that a step decodes, and whether it makes the session close;
* `Orderly` : the condition; `Outcome`, `step_outcome` : what one step can do to the history;
* `lifecycle_iff` : **the history is a lifecycle exactly as long as all steps are orderly**;
* `rejected_session`, `forged_close` : a session over the limit, and a closing sent by the peer.
-/

namespace SparkFrame.Net.TcpSession

open SparkFrame.Lib

variable {M : Type} {env : Env M}

/-- The calls of `handle_message` among some effects. -/
def handled (o : List (Effect M)) : List (Message (PbMessage M)) :=
  o.filterMap fun
    | .handle_message msg => some msg
    | _ => none

/-- What the task layer has seen in a run. -/
def history (tr : List (Step TcpSession Event (List (Effect M)))) : List (Message (PbMessage M)) :=
  tr.flatMap fun x => handled x.out

/-- What `do_session_open` hands on. -/
def openMessage : Message (PbMessage M) :=
  ⟨{ Header.new with cmdtype := CMD_SESSION_OPEN, type := REQUEST_TYPE }, .SessionOpenRequest⟩

/-- What `do_close` hands on. -/
def closeMessage : Message (PbMessage M) :=
  ⟨{ Header.new with cmdtype := CMD_SESSION_CLOSE, type := REQUEST_TYPE }, .SessionCloseRequest⟩

/-- A message that `do_handle_message` takes neither for an opening nor for a closing. -/
def Ordinary (msg : Message (PbMessage M)) : Prop :=
  msg.header.cmdtype ≠ CMD_SESSION_OPEN ∧ msg.header.cmdtype ≠ CMD_SESSION_CLOSE

/-- What the task layer should see, by whether the socket is open. -/
inductive Lifecycle (is_open : Bool) : List (Message (PbMessage M)) → Prop where
  | unopened : Lifecycle is_open []
  | opened {msgs : List (Message (PbMessage M))} (ordinary : ∀ msg ∈ msgs, Ordinary msg)
      (socket : is_open = true) : Lifecycle is_open (openMessage :: msgs)
  | closed {msgs : List (Message (PbMessage M))} (ordinary : ∀ msg ∈ msgs, Ordinary msg)
      (socket : is_open = false) : Lifecycle is_open (openMessage :: msgs ++ [closeMessage])

/-! ## The condition -/

/-- `do_session_open` has run. -/
def Opened (s : TcpSession) : Prop := s.started = true ∧ Posted.do_session_open ∉ s.posted

/-- The session closes on what a read has brought. -/
def refuses (env : Env M) (s : TcpSession) : ReadHandler → Bool
  | .on_read_head_len_complete =>
    (s.m_recv_msg_buf.decode_header_length env.big_endian).header_length > MSG_BUF_SIZE
  | .on_read_head_complete => !(s.decode_header env).2
  | .on_read_complete => (s.make_msg env).isNone

/-- The request that a read has brought. -/
def requests (env : Env M) (s : TcpSession) : ReadHandler → Option (Message (PbMessage M))
  | .on_read_complete => (s.make_msg env).filter fun msg => msg.header.type = REQUEST_TYPE
  | _ => none

/-- The request that a step decodes from the peer's bytes. -/
def request (env : Env M) (s : TcpSession) : Event → Option (Message (PbMessage M))
  | .read_complete false bytes => s.reading.bind fun r => requests env (s.received r bytes) r.handler
  | _ => none

/-- The step makes the session close, if its socket is open. -/
def closes (env : Env M) (s : TcpSession) : Event → Bool
  | .run .close_fun _ => true
  | .run .do_check_alive alive => !alive
  | .read_complete err_code bytes =>
    s.reading.any fun r => err_code || refuses env (s.received r bytes) r.handler
  | .write_failed => true
  | _ => false

/-- **The condition.** A request of the peer is decoded while the session is open, after
`do_session_open` has run, and has neither of the two commands; and the socket is not closed before
`do_session_open` has run. -/
structure Orderly (env : Env M) (s : TcpSession) (e : Event) : Prop where
  request : ∀ msg, request env s e = some msg → s.Opened ∧ s.is_open = true ∧ Ordinary msg
  closes : closes env s e = true → s.is_open = true → s.Opened

/-! ## Reads and closings -/

@[simp] theorem handled_append (o o' : List (Effect M)) :
    handled (o ++ o') = handled o ++ handled o' := List.filterMap_append ..

theorem handled_handle_recv_message (msg : Message (PbMessage M)) :
    handled (handle_recv_message msg) = if msg.header.type = REQUEST_TYPE then [msg] else [] := by
  unfold handle_recv_message
  split <;> rfl

/-- What a handler of the session does to the history and the socket. -/
structure Does (s : TcpSession) (p : TcpSession × List (Effect M))
    (msgs : List (Message (PbMessage M))) (is_open : Bool) : Prop where
  handled : handled p.2 = msgs
  is_open : p.1.is_open = is_open
  started : p.1.started = s.started
  posted : p.1.posted = s.posted

theorem does_do_close (env : Env M) (s : TcpSession) :
    Does s (s.do_close env) (if s.is_open = true then [closeMessage] else []) false := by
  unfold do_close
  cases hopen : s.is_open with
  | false => exact ⟨rfl, hopen, rfl, rfl⟩
  | true => cases hm : env.has_session_manager <;> exact ⟨rfl, rfl, rfl, rfl⟩

/-- A completion handler closes the session or hands on the request it decodes. -/
theorem does_complete (env : Env M) (err_code : Bool) (s : TcpSession) (handler : ReadHandler) :
    if (err_code || refuses env s handler) = true then
      Does s (s.complete env err_code handler) (if s.is_open = true then [closeMessage] else []) false
    else Does s (s.complete env err_code handler) (requests env s handler).toList s.is_open := by
  cases err_code with
  | true => cases handler <;> exact does_do_close env s
  | false =>
    rw [Bool.false_or]
    cases handler with
    | on_read_head_len_complete =>
      show if refuses env s .on_read_head_len_complete = true then
        Does s (s.do_read_head env) _ _ else Does s (s.do_read_head env) _ _
      unfold do_read_head refuses
      by_cases hlong : (s.m_recv_msg_buf.decode_header_length env.big_endian).header_length > MSG_BUF_SIZE
      · simp only [hlong, decide_true, if_true]
        obtain ⟨h, ho, hs, hp⟩ := does_do_close env
          { s with m_recv_msg_buf := s.m_recv_msg_buf.decode_header_length env.big_endian }
        exact ⟨h, ho, hs, hp⟩
      · simp only [hlong, decide_false, if_false, Bool.false_eq_true]
        exact ⟨rfl, rfl, rfl, rfl⟩
    | on_read_head_complete =>
      show if refuses env s .on_read_head_complete = true then
        Does s (s.do_read_body env) _ _ else Does s (s.do_read_body env) _ _
      have hkeeps : (s.decode_header env).1.is_open = s.is_open ∧
          (s.decode_header env).1.started = s.started ∧ (s.decode_header env).1.posted = s.posted := by
        unfold decode_header
        split
        · exact ⟨rfl, rfl, rfl⟩
        · dsimp only
          split
          · exact ⟨rfl, rfl, rfl⟩
          · split <;> exact ⟨rfl, rfl, rfl⟩
      unfold do_read_body refuses
      generalize s.decode_header env = p at hkeeps
      obtain ⟨s', ok⟩ := p
      obtain ⟨hopen, hstarted, hposted⟩ := hkeeps
      cases ok with
      | false =>
        obtain ⟨h, ho, hs, hp⟩ := does_do_close env s'
        exact ⟨hopen ▸ h, ho, hs.trans hstarted, hp.trans hposted⟩
      | true => exact ⟨rfl, hopen, hstarted, hposted⟩
    | on_read_complete =>
      show if refuses env s .on_read_complete = true then
        Does s (s.on_read_complete env false) _ _ else Does s (s.on_read_complete env false) _ _
      unfold on_read_complete refuses requests
      simp only [Bool.not_false, if_true]
      cases s.make_msg env with
      | none => exact does_do_close env s
      | some msg =>
        refine ⟨?_, rfl, rfl, rfl⟩
        simp only [handled_append, handled_handle_recv_message, Option.filter_some]
        by_cases ht : msg.header.type = REQUEST_TYPE
        · simp only [if_pos ht, decide_eq_true ht, if_true]
          rfl
        · simp only [if_neg ht, decide_eq_false ht]
          rfl

/-! ## One step -/

/-- `do_session_open` is posted at most once, and only to a started session. -/
def PostedOnce (s : TcpSession) : Prop :=
  s.posted.count .do_session_open ≤ if s.started = true then 1 else 0

theorem opened_iff_count (s : TcpSession) :
    s.Opened ↔ s.started = true ∧ s.posted.count .do_session_open = 0 := by
  rw [Opened, List.count_eq_zero]

/-- The ways a step can add to the history. -/
inductive Outcome (env : Env M) (s : TcpSession) (e : Event) (s' : TcpSession) :
    List (Message (PbMessage M)) → Prop where
  | silent (request : request env s e = none) (closes : closes env s e = true → s.is_open = false)
      (is_open : s'.is_open = s.is_open) (opened : s'.Opened ↔ s.Opened) : Outcome env s e s' []
  | opens (request : request env s e = none) (closes : closes env s e = false)
      (unopened : ¬ s.Opened) (is_open : s'.is_open = s.is_open) (opened : s'.Opened) :
      Outcome env s e s' [openMessage]
  | closes (request : request env s e = none) (closes : closes env s e = true)
      (was_open : s.is_open = true) (is_open : s'.is_open = false) (opened : s'.Opened ↔ s.Opened) :
      Outcome env s e s' [closeMessage]
  | requests {header : Header} {m : M} (request : request env s e = some ⟨header, .message m⟩)
      (closes : closes env s e = false) (is_open : s'.is_open = s.is_open)
      (opened : s'.Opened ↔ s.Opened) : Outcome env s e s' [⟨header, .message m⟩]

theorem outcome_of_closes {s s₀ s' : TcpSession} {e : Event} {o : List (Effect M)}
    (hrequest : request env s e = none) (hcloses : closes env s e = true)
    (hd : Does s₀ (s', o) (if s.is_open = true then [closeMessage] else []) false)
    (hopened : s'.Opened ↔ s.Opened) : Outcome env s e s' (handled o) := by
  have ho : handled o = _ := hd.handled
  rw [ho]
  by_cases hopen : s.is_open = true
  · rw [if_pos hopen]
    exact .closes hrequest hcloses hopen hd.is_open hopened
  · rw [if_neg hopen]
    have hclosed := Bool.eq_false_iff.2 hopen
    exact .silent hrequest (fun _ => hclosed) (hd.is_open.trans hclosed.symm) hopened

/-- Taking another handler out of the queue changes nothing for `do_session_open`. -/
theorem opened_erase {s s' : TcpSession} (handler : Posted) (hne : handler ≠ .do_session_open)
    (hstarted : s'.started = s.started) (hposted : s'.posted = s.posted.erase handler) :
    s'.Opened ↔ s.Opened := by
  rw [Opened, Opened, hstarted, hposted, List.mem_erase_of_ne hne.symm]

theorem opened_congr {s s' : TcpSession} (hstarted : s'.started = s.started)
    (hposted : s'.posted = s.posted) : s'.Opened ↔ s.Opened := by
  rw [Opened, Opened, hstarted, hposted]

theorem exists_of_requests {s : TcpSession} {handler : ReadHandler} {msg : Message (PbMessage M)}
    (h : requests env s handler = some msg) : ∃ header m, msg = ⟨header, .message m⟩ := by
  cases handler with
  | on_read_complete =>
    obtain ⟨hmake, -⟩ := Option.filter_eq_some_iff.1 h
    unfold make_msg at hmake
    obtain ⟨parse, -, hmake⟩ := Option.bind_eq_some_iff.1 hmake
    obtain ⟨m, -, hmake⟩ := Option.bind_eq_some_iff.1 hmake
    exact ⟨_, m, (Option.some.inj hmake).symm⟩
  | _ => cases h

theorem outcome_run {s s' : TcpSession} {handler : Posted} {alive : Bool} {o : List (Effect M)}
    (honce : PostedOnce s) (hmem : handler ∈ s.posted)
    (hs : runPosted env alive { s with posted := s.posted.erase handler } handler = (s', o)) :
    Outcome env s (.run handler alive) s' (handled o) := by
  cases handler with
  | do_read_head_len =>
    cases hs
    exact .silent rfl nofun rfl (opened_erase .do_read_head_len nofun rfl rfl)
  | do_session_open =>
    cases hs
    have hcount := List.count_pos_iff.2 hmem
    have hstarted : s.started = true := by
      by_contra hst
      rw [PostedOnce, if_neg hst] at honce
      omega
    rw [PostedOnce, if_pos hstarted] at honce
    refine .opens rfl rfl (fun h => h.2 hmem) rfl ((opened_iff_count _).2 ⟨hstarted, ?_⟩)
    show List.count _ (s.posted.erase _) = 0
    rw [List.count_erase_self]
    omega
  | close_fun =>
    have hd := does_do_close env { s with posted := s.posted.erase .close_fun }
    rw [show do_close env _ = (s', o) from hs] at hd
    exact outcome_of_closes rfl rfl hd (opened_erase .close_fun nofun hd.started hd.posted)
  | do_check_alive =>
    cases alive with
    | true =>
      cases hs
      exact .silent rfl nofun rfl (opened_erase .do_check_alive nofun rfl rfl)
    | false =>
      have hd := does_do_close env { s with posted := s.posted.erase .do_check_alive }
      rw [show do_close env _ = (s', o) from hs] at hd
      exact outcome_of_closes rfl rfl hd (opened_erase .do_check_alive nofun hd.started hd.posted)

theorem outcome_read {s s' : TcpSession} {r : AsyncRead} {err_code : Bool} {bytes : List TyByte}
    {o : List (Effect M)} (hreading : s.reading = some r)
    (hs : (s.received r bytes).complete env err_code r.handler = (s', o)) :
    Outcome env s (.read_complete err_code bytes) s' (handled o) := by
  have hcloses : closes env s (.read_complete err_code bytes) =
      (err_code || refuses env (s.received r bytes) r.handler) := by
    simp only [closes, hreading, Option.any_some]
  have hd := does_complete env err_code (s.received r bytes) r.handler
  rw [hs] at hd
  split at hd
  case isTrue hrefuses =>
    refine outcome_of_closes ?_ (hcloses.trans hrefuses) hd (opened_congr hd.started hd.posted)
    cases err_code with
    | true => rfl
    | false =>
      rw [Bool.false_or] at hrefuses
      simp only [request, hreading, Option.bind_some]
      cases hh : r.handler with
      | on_read_complete =>
        rw [hh] at hrefuses
        simp only [requests, Option.isNone_iff_eq_none.1 hrefuses, Option.filter_none]
      | _ => rfl
  case isFalse hrefuses =>
    have hcloses := hcloses.trans (Bool.eq_false_iff.2 hrefuses)
    have hopened := opened_congr hd.started hd.posted
    have hopened : s'.Opened ↔ s.Opened := hopened
    cases err_code with
    | true => simp at hrefuses
    | false =>
      have hrequest : request env s (.read_complete false bytes) =
          requests env (s.received r bytes) r.handler := by
        simp only [request, hreading, Option.bind_some]
      have ho : handled o = _ := hd.handled
      rw [ho]
      cases hq : requests env (s.received r bytes) r.handler with
      | none => exact .silent (hrequest.trans hq) (fun h => by rw [hcloses] at h; cases h) hd.is_open hopened
      | some msg =>
        obtain ⟨header, m, rfl⟩ := exists_of_requests hq
        exact .requests (hrequest.trans hq) hcloses hd.is_open hopened

/-- **One event.** -/
theorem step_outcome {s s' : TcpSession} {e : Event} {o : List (Effect M)} (honce : PostedOnce s)
    (hs : step env s e = some (s', o)) : Outcome env s e s' (handled o) := by
  cases e with
  | start =>
    simp only [step, Option.ite_none_left_eq_some] at hs
    obtain ⟨hstarted, hs⟩ := hs
    cases hs
    exact .silent rfl nofun rfl ⟨fun h => absurd (List.mem_append_right _ (by simp)) h.2,
      fun h => absurd h.1 hstarted⟩
  | close =>
    cases hs
    refine .silent rfl nofun rfl ?_
    simp [Opened]
  | check_alive =>
    cases hs
    refine .silent rfl nofun rfl ?_
    simp [Opened]
  | run handler alive =>
    simp only [step, Option.ite_none_right_eq_some] at hs
    exact outcome_run honce hs.1 (Option.some.inj hs.2)
  | read_complete err_code bytes =>
    simp only [step] at hs
    split at hs
    case h_1 => cases hs
    case h_2 r hreading =>
      simp only [Option.ite_none_right_eq_some] at hs
      exact outcome_read hreading (Option.some.inj hs.2)
  | write_failed =>
    have hd := does_do_close env s
    rw [show do_close env s = (s', o) from Option.some.inj hs] at hd
    exact outcome_of_closes rfl rfl hd (opened_congr hd.started hd.posted)

theorem PostedOnce.mono {s s' : TcpSession} (h : PostedOnce s) (hstarted : s'.started = s.started)
    (hposted : s'.posted.count .do_session_open ≤ s.posted.count .do_session_open) :
    PostedOnce s' := by
  unfold PostedOnce at h ⊢
  rw [hstarted]
  exact Nat.le_trans hposted h

theorem keeps_runPosted (env : Env M) (alive : Bool) (s : TcpSession) (handler : Posted) :
    (runPosted env alive s handler).1.started = s.started ∧
      (runPosted env alive s handler).1.posted = s.posted := by
  have hd := does_do_close env s
  cases handler with
  | do_check_alive =>
    cases alive with
    | true => exact ⟨rfl, rfl⟩
    | false => exact ⟨hd.started, hd.posted⟩
  | close_fun => exact ⟨hd.started, hd.posted⟩
  | _ => exact ⟨rfl, rfl⟩

theorem keeps_complete (env : Env M) (err_code : Bool) (s : TcpSession) (handler : ReadHandler) :
    (s.complete env err_code handler).1.started = s.started ∧
      (s.complete env err_code handler).1.posted = s.posted := by
  have hd := does_complete env err_code s handler
  split at hd
  · exact ⟨hd.started, hd.posted⟩
  · exact ⟨hd.started, hd.posted⟩

theorem PostedOnce.step {s s' : TcpSession} {e : Event} {o : List (Effect M)} (h : PostedOnce s)
    (hs : step env s e = some (s', o)) : PostedOnce s' := by
  cases e with
  | start =>
    simp only [TcpSession.step, Option.ite_none_left_eq_some] at hs
    obtain ⟨hstarted, hs⟩ := hs
    cases hs
    rw [PostedOnce, if_neg hstarted] at h
    show List.count _ (s.posted ++ _) ≤ 1
    rw [List.count_append, Nat.le_zero.1 h]
    decide
  | close =>
    cases hs
    exact h.mono rfl (by simp)
  | check_alive =>
    cases hs
    exact h.mono rfl (by simp)
  | run handler alive =>
    simp only [TcpSession.step, Option.ite_none_right_eq_some] at hs
    have hs' : (runPosted env alive { s with posted := s.posted.erase handler } handler).1 = s' :=
      congrArg Prod.fst (Option.some.inj hs.2)
    obtain ⟨hstarted, hposted⟩ :=
      keeps_runPosted env alive { s with posted := s.posted.erase handler } handler
    rw [hs'] at hstarted hposted
    refine h.mono hstarted ?_
    rw [hposted]
    exact List.erase_sublist.count_le _
  | read_complete err_code bytes =>
    simp only [TcpSession.step] at hs
    split at hs
    case h_1 => cases hs
    case h_2 r _ =>
      simp only [Option.ite_none_right_eq_some] at hs
      have hs' : ((s.received r bytes).complete env err_code r.handler).1 = s' :=
        congrArg Prod.fst (Option.some.inj hs.2)
      obtain ⟨hstarted, hposted⟩ := keeps_complete env err_code (s.received r bytes) r.handler
      rw [hs'] at hstarted hposted
      exact h.mono hstarted (by rw [hposted]; exact Nat.le_refl _)
  | write_failed =>
    have hd := does_do_close env s
    rw [show do_close env s = (s', o) from Option.some.inj hs] at hd
    exact h.mono hd.started (by rw [hd.posted])

/-! ## Runs -/

/-- The history of an orderly run: not opened yet, open, or closed. -/
inductive Phase (s : TcpSession) : List (Message (PbMessage M)) → Prop where
  | unopened (is_open : s.is_open = true) (opened : ¬ s.Opened) : Phase s []
  | live {msgs : List (Message (PbMessage M))} (ordinary : ∀ msg ∈ msgs, Ordinary msg)
      (is_open : s.is_open = true) (opened : s.Opened) : Phase s (openMessage :: msgs)
  | closed {msgs : List (Message (PbMessage M))} (ordinary : ∀ msg ∈ msgs, Ordinary msg)
      (is_open : s.is_open = false) (opened : s.Opened) :
      Phase s (openMessage :: msgs ++ [closeMessage])

theorem Phase.lifecycle {s : TcpSession} {msgs : List (Message (PbMessage M))} (h : Phase s msgs) :
    Lifecycle s.is_open msgs := by
  cases h with
  | unopened => exact .unopened
  | live ordinary is_open => exact .opened ordinary is_open
  | closed ordinary is_open => exact .closed ordinary is_open

theorem Phase.congr {s s' : TcpSession} {msgs : List (Message (PbMessage M))} (h : Phase s msgs)
    (hopen : s'.is_open = s.is_open) (hopened : s'.Opened ↔ s.Opened) : Phase s' msgs := by
  cases h with
  | unopened is_open opened => exact .unopened (hopen.trans is_open) (hopened.not.2 opened)
  | live ordinary is_open opened => exact .live ordinary (hopen.trans is_open) (hopened.2 opened)
  | closed ordinary is_open opened =>
    exact .closed ordinary (hopen.trans is_open) (hopened.2 opened)

theorem Phase.step {s s' : TcpSession} {e : Event} {msgs new : List (Message (PbMessage M))}
    (h : Phase s msgs) (horderly : Orderly env s e) (ho : Outcome env s e s' new) :
    Phase s' (msgs ++ new) := by
  cases ho with
  | silent _ _ is_open opened =>
    rw [List.append_nil]
    exact h.congr is_open opened
  | opens _ _ unopened is_open opened =>
    cases h with
    | unopened was_open => exact .live (List.forall_mem_nil _) (is_open.trans was_open) opened
    | live _ _ h => exact absurd h unopened
    | closed _ _ h => exact absurd h unopened
  | closes _ closes was_open is_open opened =>
    have hopened := horderly.closes closes was_open
    cases h with
    | unopened _ h => exact absurd hopened h
    | live ordinary => exact .closed ordinary is_open (opened.2 hopened)
    | closed _ h =>
      rw [was_open] at h
      cases h
  | requests request _ is_open opened =>
    obtain ⟨hopened, hopen, hord⟩ := horderly.request _ request
    cases h with
    | unopened _ h => exact absurd hopened h
    | live ordinary =>
      have hords := List.forall_mem_append.2 ⟨ordinary, List.forall_mem_singleton.2 hord⟩
      exact .live hords (is_open.trans hopen) (opened.2 hopened)
    | closed _ h =>
      rw [hopen] at h
      cases h

theorem Lifecycle.of_cons {is_open : Bool} {msg : Message (PbMessage M)}
    {msgs : List (Message (PbMessage M))} (h : Lifecycle is_open (msg :: msgs)) :
    msg = openMessage ∧ ((is_open = true ∧ ∀ msg ∈ msgs, Ordinary msg) ∨
      (is_open = false ∧ ∃ pre, msgs = pre ++ [closeMessage] ∧ ∀ msg ∈ pre, Ordinary msg)) := by
  cases h with
  | opened ordinary socket => exact ⟨rfl, .inl ⟨socket, ordinary⟩⟩
  | closed ordinary socket => exact ⟨rfl, .inr ⟨socket, _, rfl, ordinary⟩⟩

theorem Phase.orderly {s s' : TcpSession} {e : Event} {msgs new : List (Message (PbMessage M))}
    (h : Phase s msgs) (ho : Outcome env s e s' new) (hl : Lifecycle s'.is_open (msgs ++ new)) :
    Orderly env s e := by
  cases ho with
  | silent request closes =>
    refine ⟨fun msg hm => (by rw [request] at hm; cases hm), fun hc hopen => ?_⟩
    rw [closes hc] at hopen
    cases hopen
  | opens request closes =>
    refine ⟨fun msg hm => (by rw [request] at hm; cases hm), fun hc => ?_⟩
    rw [closes] at hc
    cases hc
  | closes request _ was_open =>
    refine ⟨fun msg hm => (by rw [request] at hm; cases hm), fun _ _ => ?_⟩
    cases h with
    | unopened =>
      have hne := hl.of_cons.1
      simp [closeMessage, openMessage] at hne
    | live _ _ opened => exact opened
    | closed _ _ opened => exact opened
  | @requests header m request closes is_open =>
    refine ⟨fun msg hm => ?_, fun hc => by rw [closes] at hc; cases hc⟩
    rw [request, Option.some.injEq] at hm
    rw [← hm]
    cases h with
    | unopened =>
      have hne := hl.of_cons.1
      simp [openMessage] at hne
    | live ordinary hopen opened =>
      obtain ⟨-, ⟨-, hords⟩ | ⟨hclosed, -⟩⟩ := hl.of_cons
      · exact ⟨opened, hopen, hords _ (List.mem_append_right _ (List.mem_singleton_self _))⟩
      · rw [is_open, hopen] at hclosed
        cases hclosed
    | closed _ hclosed =>
      obtain ⟨-, ⟨hopen, -⟩ | ⟨-, pre, hpre, -⟩⟩ := hl.of_cons
      · rw [is_open, hclosed] at hopen
        cases hopen
      · -- the last message came from the peer
        have hlast := (List.append_inj' hpre rfl).2
        simp [closeMessage] at hlast

/-- **The history is a lifecycle exactly as long as all steps are orderly.** Over every run of an
accepted session, started or not: at every point the task layer has seen an opening, ordinary
messages and a closing that says that the socket is closed, in this order, if and only if every
request of the peer is decoded while the session is open and has neither of the two commands, and the
socket is not closed before `do_session_open` has run. -/
theorem lifecycle_iff {memory : Memory} {tr : List (Step TcpSession Event (List (Effect M)))}
    {s : TcpSession} (hr : Run (step env) (new true memory) tr s) :
    (∀ tr' s', tr' <+: tr → Run (step env) (new true memory) tr' s' →
        Lifecycle s'.is_open (history tr')) ↔
      ∀ x ∈ tr, Orderly env x.before x.event := by
  have hsnoc : ∀ (tr : List (Step TcpSession Event (List (Effect M)))) x,
      history (tr ++ [x]) = history tr ++ handled x.out := fun tr x => by
    rw [history, List.flatMap_append, List.flatMap_singleton, history]
  refine hr.forall_upto_iff (I := fun tr s => Phase s (history tr) ∧ PostedOnce s)
    ⟨.unopened rfl fun h => Bool.false_ne_true h.1, Nat.zero_le _⟩ .unopened ?_ ?_
  · intro tr s s' e o ⟨hphase, honce⟩ hs
    have ho := step_outcome honce hs
    rw [hsnoc]
    exact ⟨hphase.orderly ho, fun horderly => (hphase.step horderly ho).lifecycle⟩
  · intro tr s s' e o ⟨hphase, honce⟩ horderly hs
    rw [hsnoc]
    exact ⟨hphase.step horderly (step_outcome honce hs), honce.step hs⟩

/-! ### Examples -/

/-- Headers of two bytes, the command and the type, before bodies of no bytes; every command is
registered. -/
def byteEnv : Env Unit :=
  { big_endian := false
    ParseFromArray := fun p size =>
      if size = 2 then
        let header := { Header.new with cmdtype := (p 0).setWidth 32, type := (p 1).setWidth 32 }
        some { header with check_result := header.check }
      else none
    make_message := fun _ _ => some fun _ _ => some ()
    has_session_manager := true }

/-- A session that exchanges one message with a peer and is shut down. -/
theorem lifecycle_iff_request :
    ∃ tr s, Run (step byteEnv) (new true fun _ => 0) tr s ∧
      (history tr).map (·.header.cmdtype) = [CMD_SESSION_OPEN, 7, CMD_SESSION_CLOSE] ∧
      ((∀ tr' s', tr' <+: tr → Run (step byteEnv) (new true fun _ => 0) tr' s' →
          Lifecycle s'.is_open (history tr')) ↔
        ∀ x ∈ tr, Orderly byteEnv x.before x.event) := by
  obtain ⟨tr, s, hr, h⟩ := Run.exists_of_exec (step byteEnv) (new true fun _ => 0)
    [.start, .run .do_read_head_len true, .run .do_session_open true,
      .read_complete false [0, 0, 0, 2], .read_complete false [7, 1], .read_complete false [],
      .close, .run .close_fun true]
    (P := fun tr _ =>
      (history tr).map (·.header.cmdtype) = [CMD_SESSION_OPEN, 7, CMD_SESSION_CLOSE]) (by decide)
  exact ⟨tr, s, hr, h, lifecycle_iff hr⟩

theorem Lifecycle.no_close {msgs : List (Message (PbMessage M))} (h : Lifecycle true msgs) :
    ∀ msg ∈ msgs, msg.header.cmdtype ≠ CMD_SESSION_CLOSE := by
  cases h with
  | unopened => exact List.forall_mem_nil _
  | opened ordinary =>
    rw [List.forall_mem_cons]
    exact ⟨show CMD_SESSION_OPEN ≠ CMD_SESSION_CLOSE by decide,
      fun msg hmsg => (ordinary msg hmsg).2⟩
  | closed _ socket => cases socket

/-- A peer sends a header with command 3: the task layer sees a closing and the session stays open. -/
theorem forged_close :
    ∃ tr s, Run (step byteEnv) (new true fun _ => 0) tr s ∧ s.is_open = true ∧
      (history tr).map (·.header.cmdtype) = [CMD_SESSION_OPEN, CMD_SESSION_CLOSE] ∧
      ¬ Lifecycle s.is_open (history tr) := by
  obtain ⟨tr, s, hr, hopen, hcmds⟩ := Run.exists_of_exec (step byteEnv) (new true fun _ => 0)
    [.start, .run .do_read_head_len true, .run .do_session_open true,
      .read_complete false [0, 0, 0, 2], .read_complete false [3, 1], .read_complete false []]
    (P := fun tr s => s.is_open = true ∧
      (history tr).map (·.header.cmdtype) = [CMD_SESSION_OPEN, CMD_SESSION_CLOSE]) (by decide)
  refine ⟨tr, s, hr, hopen, hcmds, fun hl => ?_⟩
  rw [hopen] at hl
  have hmem : CMD_SESSION_CLOSE ∈ (history tr).map (·.header.cmdtype) := by rw [hcmds]; simp
  obtain ⟨msg, hmsg, hclose⟩ := List.mem_map.1 hmem
  exact hl.no_close msg hmsg hclose

/-- A session over the limit is closed without having been started: the task layer sees a closing
only. -/
theorem rejected_session :
    ∃ tr s, Run (step byteEnv) (new true fun _ => 0) tr s ∧ s.started = false ∧
      history tr = [closeMessage] ∧ ¬ Lifecycle s.is_open (history tr) := by
  obtain ⟨tr, s, hr, hstarted, hseen⟩ := Run.exists_of_exec (step byteEnv) (new true fun _ => 0)
    [.close, .run .close_fun true]
    (P := fun tr s => s.started = false ∧ history tr = [closeMessage]) ⟨_, rfl, rfl, rfl⟩
  refine ⟨tr, s, hr, hstarted, hseen, fun hl => ?_⟩
  rw [hseen] at hl
  have hne := hl.of_cons.1
  simp [closeMessage, openMessage] at hne

end SparkFrame.Net.TcpSession
