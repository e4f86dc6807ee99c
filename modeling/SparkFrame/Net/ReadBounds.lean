import SparkFrame.Net.TcpSession

/-!
# Where a session's reads go

`m_recv_msg_buf` has `MSG_BUF_SIZE + HEADER_LENGTH` bytes. The two size checks of the read loop
compare signed numbers, so a length of `2 ^ 31` or more passes them.

* `ReadsInside` : the reads lie inside the buffer, and there is one or the session is closed;
* `Fits` : the lengths the peer has sent survive the conversions;
* `readsInside_do_read_head_iff`, `readsInside_do_read_body_iff` : the two checks, one at a time;
* `step_safe_iff`, `step_headerInside` : one event; `reads_inside_iff` : **a run reads inside the
  buffer exactly when every step fits**; `reads_outside` : the prefix `ff ff ff ff`.
-/

namespace SparkFrame.Net

open SparkFrame.Lib

/-- The read stays inside `m_recv_msg_buf`. -/
def AsyncRead.Inside (r : AsyncRead) : Prop :=
  r.offset + r.length ≤ (MSG_BUF_SIZE + HEADER_LENGTH).toNat

instance (r : AsyncRead) : Decidable r.Inside := Nat.decLe _ _

namespace TcpSession

variable {M : Type} {env : Env M}

/-- The reads among some effects. -/
def reads (effects : List (Effect M)) : List AsyncRead :=
  effects.filterMap fun
    | .async_read r => some r
    | _ => none

/-- What a completion handler leaves: reads inside the buffer, or a closed session. -/
def ReadsInside (p : TcpSession × List (Effect M)) : Prop :=
  (∀ r ∈ reads p.2, r.Inside) ∧ (reads p.2 ≠ [] ∨ p.1.is_open = false)

/-- One step is safe: its reads lie inside the buffer, and a completed read is followed by another
one or by a closed session. -/
def Safe (x : Step TcpSession Event (List (Effect M))) : Prop :=
  (∀ r ∈ reads x.out, r.Inside) ∧
    ∀ err_code bytes, x.event = .read_complete err_code bytes →
      reads x.out ≠ [] ∨ x.after.is_open = false

/-- The header in the buffer, if it parses and passes its check, has a length that survives the
sum of the lengths. -/
def HeaderFits (env : Env M) (buf : MsgBuffer) : Prop :=
  ∀ header, env.ParseFromArray (buf.m_buffer.offset buf.header_buffer) buf.header_length =
      some header → header.check_result ^^^ header.check = 0 →
    0 ≤ header.length.toInt ∧ 4 + buf.header_length + header.length.toInt < 2 ^ 31 ∨
      header.length.toInt < 0 ∧ MSG_BUF_SIZE < 4 + buf.header_length + header.length.toInt

/-- **The condition.** A completed length prefix is below `2 ^ 31`, and a completed header fits. -/
def Fits (env : Env M) (s : TcpSession) : Event → Prop
  | .read_complete false bytes =>
    ∀ r, s.reading = some r →
      match r.handler with
      | .on_read_head_len_complete => bigEndianValue (s.received r bytes).m_recv_msg_buf.m_buffer < 2 ^ 31
      | .on_read_head_complete => HeaderFits env (s.received r bytes).m_recv_msg_buf
      | .on_read_complete => True
  | _ => True

/-- While a header is being read its length is within the limit. -/
def HeaderInside (s : TcpSession) : Prop :=
  ∀ r, s.reading = some r → r.handler = .on_read_head_complete →
    0 ≤ s.m_recv_msg_buf.header_length ∧ s.m_recv_msg_buf.header_length ≤ MSG_BUF_SIZE

/-! ## Effects -/

@[simp] theorem reads_nil : reads ([] : List (Effect M)) = [] := rfl

@[simp] theorem reads_append (a b : List (Effect M)) : reads (a ++ b) = reads a ++ reads b :=
  List.filterMap_append

@[simp] theorem reads_handle_recv_message (msg : Message (PbMessage M)) :
    reads (handle_recv_message msg) = [] := by
  unfold handle_recv_message
  split <;> rfl

@[simp] theorem reads_async_read (s : TcpSession) (n l : Nat) (h : ReadHandler) :
    reads (s.async_read n l h : TcpSession × List (Effect M)).2 = [⟨n, l, h⟩] := rfl

@[simp] theorem reads_do_close (s : TcpSession) : reads (s.do_close env).2 = [] := by
  unfold do_close
  split
  · simp only [reads_append, reads_handle_recv_message, List.append_nil]
    split <;> rfl
  · rfl

@[simp] theorem is_open_do_close (s : TcpSession) : (s.do_close env).1.is_open = false := by
  unfold do_close
  split
  · rfl
  · next h => simpa using h

@[simp] theorem reading_do_close (s : TcpSession) : (s.do_close env).1.reading = s.reading := by
  unfold do_close
  split <;> rfl

theorem readsInside_do_close (env : Env M) (s : TcpSession) : ReadsInside (s.do_close env) :=
  ⟨by simp, .inr (is_open_do_close s)⟩

theorem readsInside_async_read_iff (s : TcpSession) (n l : Nat) (h : ReadHandler) :
    ReadsInside (s.async_read n l h : TcpSession × List (Effect M)) ↔
      n + l ≤ (MSG_BUF_SIZE + HEADER_LENGTH).toNat := by
  simp [ReadsInside, AsyncRead.Inside]

theorem readsInside_do_read_head_len (s : TcpSession) :
    ReadsInside (s.do_read_head_len : TcpSession × List (Effect M)) := by
  unfold do_read_head_len
  rw [readsInside_async_read_iff]
  decide

/-! ## The two size checks -/

theorem readsInside_do_read_head_iff (s : TcpSession) :
    ReadsInside (s.do_read_head env) ↔ bigEndianValue s.m_recv_msg_buf.m_buffer < 2 ^ 31 := by
  have hv := s.m_recv_msg_buf.toNat_m_header_length_decode env.big_endian
  have hl := (s.m_recv_msg_buf.decode_header_length env.big_endian).header_length_eq
  rw [hv] at hl
  unfold do_read_head
  generalize s.m_recv_msg_buf.decode_header_length env.big_endian = buf at hl ⊢
  by_cases hlt : bigEndianValue s.m_recv_msg_buf.m_buffer < 2 ^ 31
  · rw [if_pos hlt] at hl
    refine iff_of_true ?_ hlt
    dsimp only
    split
    · exact readsInside_do_close env _
    · next hle =>
      have hsize := toSize_of_nonneg (i := buf.header_length) (by omega) (by omega)
      rw [readsInside_async_read_iff]
      show HEADER_LENGTH.toNat + _ ≤ _
      simp only [HEADER_LENGTH, MSG_BUF_SIZE] at hle ⊢
      omega
  · rw [if_neg hlt] at hl
    have hneg : buf.header_length < 0 := by omega
    have hsize := le_toSize_of_neg hneg (by omega)
    refine iff_of_false ?_ hlt
    dsimp only
    rw [if_neg (by simp only [MSG_BUF_SIZE]; omega), readsInside_async_read_iff]
    simp only [HEADER_LENGTH, MSG_BUF_SIZE]
    omega

/-- The limit on the sum of the lengths, for a header length inside the limit. -/
theorem body_inside_iff {buf : MsgBuffer} (h₀ : 0 ≤ buf.header_length)
    (h₁ : buf.header_length ≤ MSG_BUF_SIZE) (hsum : buf.buffer_length ≤ MSG_BUF_SIZE) :
    buf.body_buffer + toSize buf.body_length ≤ (MSG_BUF_SIZE + HEADER_LENGTH).toNat ↔
      0 ≤ buf.body_length ∧ 4 + buf.header_length + buf.body_length < 2 ^ 31 := by
  have hb : -2 ^ 31 ≤ buf.body_length ∧ buf.body_length < 2 ^ 31 :=
    ⟨BitVec.le_toInt buf.m_msg_length, BitVec.toInt_lt⟩
  have hl := buf.header_length_eq
  have hoff : buf.body_buffer = 4 + buf.m_header_length.toNat := rfl
  rw [buf.buffer_length_eq_wrap, Int.bmod_def] at hsum
  simp only [MSG_BUF_SIZE, HEADER_LENGTH] at *
  constructor
  · intro hin
    have hnonneg : 0 ≤ buf.body_length := by
      by_contra hneg
      have := le_toSize_of_neg (i := buf.body_length) (by omega) hb.1
      omega
    have := toSize_of_nonneg hnonneg hb.2
    omega
  · rintro ⟨hnonneg, hlt⟩
    have := toSize_of_nonneg hnonneg hb.2
    omega

theorem buffer_length_gt_of_neg {buf : MsgBuffer} (h₀ : 0 ≤ buf.header_length)
    (h₁ : buf.header_length ≤ MSG_BUF_SIZE) (hneg : buf.body_length < 0) :
    buf.buffer_length > MSG_BUF_SIZE ↔ MSG_BUF_SIZE < 4 + buf.header_length + buf.body_length := by
  have hb : -2 ^ 31 ≤ buf.body_length := BitVec.le_toInt buf.m_msg_length
  rw [buf.buffer_length_eq_wrap, Int.bmod_def]
  simp only [MSG_BUF_SIZE] at *
  omega

theorem lt_of_buffer_length_gt {buf : MsgBuffer} (h₀ : 0 ≤ buf.header_length)
    (h₁ : buf.header_length ≤ MSG_BUF_SIZE) (hb : 0 ≤ buf.body_length)
    (hsum : buf.buffer_length > MSG_BUF_SIZE) :
    0 ≤ buf.body_length ∧ 4 + buf.header_length + buf.body_length < 2 ^ 31 := by
  have hlt : buf.body_length < 2 ^ 31 := BitVec.toInt_lt
  rw [buf.buffer_length_eq_wrap, Int.bmod_def] at hsum
  simp only [MSG_BUF_SIZE] at *
  omega

/-- `s` with a decoded header. -/
def decoded (s : TcpSession) (header : Header) : TcpSession :=
  { s with
    m_recv_msg_buf := { s.m_recv_msg_buf with m_msg_length := header.length }
    m_cur_msg := header }

theorem do_read_body_eq {s : TcpSession} {header : Header}
    (h : env.ParseFromArray (s.m_recv_msg_buf.m_buffer.offset s.m_recv_msg_buf.header_buffer)
      s.m_recv_msg_buf.header_length = some header) :
    s.do_read_body env =
      if (s.decoded header).m_recv_msg_buf.buffer_length > MSG_BUF_SIZE then
        (s.decoded header).do_close env
      else if header.check_result ^^^ header.check ≠ 0 then (s.decoded header).do_close env
      else (s.decoded header).async_read (s.decoded header).m_recv_msg_buf.body_buffer
        (toSize (s.decoded header).m_recv_msg_buf.body_length) .on_read_complete := by
  have hdecode : s.decode_header env =
      if (s.decoded header).m_recv_msg_buf.buffer_length > MSG_BUF_SIZE then (s.decoded header, false)
      else if header.check_result ^^^ header.check ≠ 0 then (s.decoded header, false)
      else (s.decoded header, true) := by
    unfold decode_header MsgBuffer.decode_header
    rw [h]
    rfl
  unfold do_read_body
  rw [hdecode]
  split_ifs <;> rfl

theorem readsInside_do_read_body_iff {s : TcpSession}
    (h₀ : 0 ≤ s.m_recv_msg_buf.header_length)
    (h₁ : s.m_recv_msg_buf.header_length ≤ MSG_BUF_SIZE) :
    ReadsInside (s.do_read_body env) ↔ HeaderFits env s.m_recv_msg_buf := by
  unfold HeaderFits
  cases hp : env.ParseFromArray (s.m_recv_msg_buf.m_buffer.offset s.m_recv_msg_buf.header_buffer)
      s.m_recv_msg_buf.header_length with
  | none =>
    refine iff_of_true ?_ (by simp)
    unfold do_read_body decode_header MsgBuffer.decode_header
    rw [hp]
    exact readsInside_do_close env _
  | some header =>
    rw [do_read_body_eq hp]
    simp only [Option.some.injEq, forall_eq']
    have hh : (s.decoded header).m_recv_msg_buf.header_length = s.m_recv_msg_buf.header_length := rfl
    have hb : (s.decoded header).m_recv_msg_buf.body_length = header.length.toInt := rfl
    rw [← hh] at h₀ h₁ ⊢
    rw [← hb]
    split_ifs with hsum hcheck
    · refine iff_of_true (readsInside_do_close env _) fun _ => ?_
      by_cases hneg : (s.decoded header).m_recv_msg_buf.body_length < 0
      · exact .inr ⟨hneg, (buffer_length_gt_of_neg h₀ h₁ hneg).1 hsum⟩
      · exact .inl (lt_of_buffer_length_gt h₀ h₁ (by omega) hsum)
    · exact iff_of_true (readsInside_do_close env _) fun h => absurd h hcheck
    · rw [readsInside_async_read_iff, body_inside_iff h₀ h₁ (by omega)]
      have : header.check_result ^^^ header.check = 0 := by simpa using hcheck
      simp only [this, forall_const]
      constructor
      · exact .inl
      · rintro (h | ⟨hneg, hgt⟩)
        · exact h
        · exact absurd ((buffer_length_gt_of_neg h₀ h₁ hneg).2 hgt) hsum

/-! ## One event -/

theorem complete_error (s : TcpSession) (h : ReadHandler) :
    s.complete env true h = s.do_close env := by
  cases h <;> rfl

theorem on_read_complete_cases (env : Env M) (s : TcpSession) (err_code : Bool) :
    s.on_read_complete env err_code = s.do_close env ∨
      ∃ msg, s.on_read_complete env err_code =
        (let (s', effects) := s.do_read_head_len
        (s', handle_recv_message msg ++ effects)) := by
  unfold on_read_complete
  split
  · next msg _ => exact .inr ⟨msg, rfl⟩
  · exact .inl rfl

theorem readsInside_on_read_complete (s : TcpSession) (err_code : Bool) :
    ReadsInside (s.on_read_complete env err_code) := by
  rcases s.on_read_complete_cases env err_code with h | ⟨msg, h⟩
  · rw [h]
    exact readsInside_do_close env s
  · rw [h]
    have := readsInside_do_read_head_len (M := M) s
    unfold ReadsInside at this ⊢
    rwa [reads_append, reads_handle_recv_message, List.nil_append]

theorem readsInside_complete_iff {s : TcpSession} (hs : s.HeaderInside) {r : AsyncRead}
    (hr : s.reading = some r) (err_code : Bool) (bytes : List TyByte) :
    ReadsInside ((s.received r bytes).complete env err_code r.handler) ↔
      Fits env s (.read_complete err_code bytes) := by
  cases err_code with
  | true =>
    rw [complete_error]
    exact iff_of_true (readsInside_do_close env _) trivial
  | false =>
    simp only [Fits, hr, Option.some.injEq, forall_eq']
    cases hh : r.handler with
    | on_read_head_len_complete => exact readsInside_do_read_head_iff (s.received r bytes)
    | on_read_head_complete =>
      obtain ⟨h₀, h₁⟩ := hs r hr hh
      exact readsInside_do_read_body_iff (s := s.received r bytes) h₀ h₁
    | on_read_complete => exact iff_of_true (readsInside_on_read_complete _ _) trivial

theorem reads_runPosted_inside (env : Env M) (s : TcpSession) (alive : Bool) (h : Posted) :
    ∀ r ∈ reads (s.runPosted env alive h).2, r.Inside := by
  cases h with
  | do_read_head_len => exact (readsInside_do_read_head_len s).1
  | do_session_open => simp [runPosted, do_session_open]
  | close_fun => exact (readsInside_do_close env s).1
  | do_check_alive =>
    simp only [runPosted]
    split
    · exact (readsInside_do_close env s).1
    · simp

theorem step_read_complete {s s' : TcpSession} {o : List (Effect M)} {err_code : Bool}
    {bytes : List TyByte} (h : step env s (.read_complete err_code bytes) = some (s', o)) :
    ∃ r, s.reading = some r ∧ (s.received r bytes).complete env err_code r.handler = (s', o) := by
  simp only [step] at h
  split at h
  · cases h
  · next r hr =>
    split at h
    · exact ⟨r, hr, Option.some.inj h⟩
    · cases h

/-- **One event.** With a header length inside the limit, a step is safe exactly when it fits. -/
theorem step_safe_iff {s s' : TcpSession} {e : Event} {o : List (Effect M)} (hs : s.HeaderInside)
    (h : step env s e = some (s', o)) : Safe ⟨s, e, o, s'⟩ ↔ Fits env s e := by
  have other (ho : ∀ r ∈ reads o, r.Inside) (he : ∀ err bytes, e ≠ .read_complete err bytes) :
      Safe ⟨s, e, o, s'⟩ := ⟨ho, fun err bytes h => absurd h (he err bytes)⟩
  cases e with
  | read_complete err_code bytes =>
    obtain ⟨r, hr, hc⟩ := step_read_complete h
    rw [← readsInside_complete_iff hs hr, hc]
    constructor
    · exact fun hsafe => ⟨hsafe.1, hsafe.2 _ _ rfl⟩
    · exact fun hin => ⟨hin.1, fun _ _ _ => hin.2⟩
  | start =>
    refine iff_of_true (other ?_ (by simp)) trivial
    simp only [step] at h
    split at h
    · cases h
    · cases h
      simp
  | close =>
    refine iff_of_true (other ?_ (by simp)) trivial
    cases h
    simp
  | check_alive =>
    refine iff_of_true (other ?_ (by simp)) trivial
    cases h
    simp
  | run handler alive =>
    refine iff_of_true (other ?_ (by simp)) trivial
    simp only [step] at h
    split at h
    · have hin := reads_runPosted_inside env { s with posted := s.posted.erase handler } alive handler
      rwa [Option.some.inj h] at hin
    · cases h
  | write_failed =>
    refine iff_of_true (other ?_ (by simp)) trivial
    have hin := (readsInside_do_close env s).1
    rwa [Option.some.inj h] at hin

/-! ### The header length while a header is read -/

theorem headerInside_of_reading_none {s : TcpSession} (h : s.reading = none) : s.HeaderInside := by
  intro r hr
  rw [h] at hr
  cases hr

theorem headerInside_async_read {s : TcpSession} {n l : Nat} {h : ReadHandler}
    (hne : h ≠ .on_read_head_complete) :
    (s.async_read n l h : TcpSession × List (Effect M)).1.HeaderInside := by
  intro r hr hh
  cases hr
  exact absurd hh hne

theorem headerInside_do_close (env : Env M) {s : TcpSession} (hs : s.HeaderInside) :
    (s.do_close env).1.HeaderInside := by
  have hbuf : (s.do_close env).1.m_recv_msg_buf = s.m_recv_msg_buf := by
    unfold do_close
    split <;> rfl
  intro r hr
  rw [reading_do_close] at hr
  rw [hbuf]
  exact hs r hr

theorem headerInside_do_read_head {s : TcpSession} (hn : s.reading = none)
    (hfit : bigEndianValue s.m_recv_msg_buf.m_buffer < 2 ^ 31) :
    (s.do_read_head env).1.HeaderInside := by
  have hv := s.m_recv_msg_buf.toNat_m_header_length_decode env.big_endian
  have hl := (s.m_recv_msg_buf.decode_header_length env.big_endian).header_length_eq
  rw [hv, if_pos hfit] at hl
  unfold do_read_head
  generalize s.m_recv_msg_buf.decode_header_length env.big_endian = buf at hl ⊢
  dsimp only
  split
  · exact headerInside_do_close env (headerInside_of_reading_none hn)
  · next hle =>
    intro r hr hh
    exact ⟨show 0 ≤ buf.header_length by omega, show buf.header_length ≤ _ by omega⟩

theorem headerInside_do_read_body {s : TcpSession} (hn : s.reading = none) :
    (s.do_read_body env).1.HeaderInside := by
  unfold do_read_body
  have hd : (s.decode_header env).1.reading = none := by
    unfold decode_header
    split
    · exact hn
    · dsimp only
      split_ifs <;> exact hn
  split
  · next s' heq =>
    rw [heq] at hd
    exact headerInside_do_close env (headerInside_of_reading_none hd)
  · exact headerInside_async_read (by decide)

theorem headerInside_complete {s : TcpSession} {r : AsyncRead} (hr : s.reading = some r)
    {err_code : Bool} {bytes : List TyByte} (hfit : Fits env s (.read_complete err_code bytes)) :
    ((s.received r bytes).complete env err_code r.handler).1.HeaderInside := by
  have hn : (s.received r bytes).reading = none := rfl
  cases err_code with
  | true =>
    rw [complete_error]
    exact headerInside_do_close env (headerInside_of_reading_none hn)
  | false =>
    have hfit := hfit r hr
    cases hh : r.handler with
    | on_read_head_len_complete =>
      rw [hh] at hfit
      exact headerInside_do_read_head hn hfit
    | on_read_head_complete => exact headerInside_do_read_body hn
    | on_read_complete =>
      show ((s.received r bytes).on_read_complete env false).1.HeaderInside
      rcases (s.received r bytes).on_read_complete_cases env false with h | ⟨msg, h⟩
      · rw [h]
        exact headerInside_do_close env (headerInside_of_reading_none hn)
      · rw [h]
        exact headerInside_async_read (M := M) (by decide)

theorem headerInside_runPosted (env : Env M) {s : TcpSession} (hs : s.HeaderInside)
    (posted : List Posted) (alive : Bool) (h : Posted) :
    (runPosted env alive { s with posted } h).1.HeaderInside := by
  cases h with
  | do_read_head_len => exact headerInside_async_read (M := M) (by decide)
  | do_session_open => exact hs
  | close_fun => exact headerInside_do_close env hs
  | do_check_alive =>
    simp only [runPosted]
    split
    · exact headerInside_do_close env hs
    · exact hs

theorem step_headerInside {s s' : TcpSession} {e : Event} {o : List (Effect M)}
    (hs : s.HeaderInside) (hfit : Fits env s e) (h : step env s e = some (s', o)) :
    s'.HeaderInside := by
  cases e with
  | read_complete err_code bytes =>
    obtain ⟨r, hr, hc⟩ := step_read_complete h
    have := headerInside_complete hr hfit
    rwa [hc] at this
  | start =>
    simp only [step] at h
    split at h
    · cases h
    · cases h
      exact hs
  | close =>
    cases h
    exact hs
  | check_alive =>
    cases h
    exact hs
  | run handler alive =>
    simp only [step] at h
    split at h
    · have hin := headerInside_runPosted env hs (s.posted.erase handler) alive handler
      rwa [Option.some.inj h] at hin
    · cases h
  | write_failed =>
    have hin := headerInside_do_close env hs
    rwa [Option.some.inj h] at hin

/-! ## Runs -/

/-- **Reads stay inside the buffer exactly when every step fits.** For every session, whatever the
peer sends and in whatever order the handlers run, all reads lie inside `m_recv_msg_buf` and every
refused length closes the session, if and only if no completed prefix reaches `2 ^ 31` and every
accepted header has a length that survives the sum of the lengths. -/
theorem reads_inside_iff {is_open : Bool} {memory : Memory} {tr : List (Step _ _ (List (Effect M)))}
    {s : TcpSession} (hr : Run (step env) (new is_open memory) tr s) :
    (∀ x ∈ tr, Safe x) ↔ ∀ x ∈ tr, Fits env x.before x.event := by
  exact hr.forall_iff (headerInside_of_reading_none rfl) step_safe_iff step_headerInside

/-- A little-endian host whose header class accepts the empty input only. -/
def littleEndian : Env Unit :=
  ⟨false, fun _ size => if size = 0 then some .new else none, fun _ _ => none, true⟩

/-- Headers of three bytes: the command, the length of the body and the check. -/
def threeByteHeaders : Env Unit :=
  { littleEndian with
    ParseFromArray := fun p size =>
      if size = 3 then
        some { Header.new with
          cmdtype := (p 0).setWidth 32
          length := (p 1).setWidth 32
          check_result := (p 2).setWidth 64 }
      else none
    make_message := fun _ _ => some fun _ _ => some () }

/-- A header of three bytes and a body of two. -/
theorem reads_inside_iff_twoBytes :
    ∃ tr s, Run (step threeByteHeaders) (new true fun _ => 0) tr s ∧
      (∃ x ∈ tr, ⟨4, 3, .on_read_head_complete⟩ ∈ reads x.out) ∧
      (∃ x ∈ tr, ⟨7, 2, .on_read_complete⟩ ∈ reads x.out) ∧
      ((∀ x ∈ tr, Safe x) ↔ ∀ x ∈ tr, Fits threeByteHeaders x.before x.event) := by
  obtain ⟨tr, s, hr, hheader, hbody⟩ := Run.exists_of_exec (step threeByteHeaders) (new true fun _ => 0)
    [.start, .run .do_read_head_len true, .read_complete false [0, 0, 0, 3],
      .read_complete false [7, 2, 7], .read_complete false [1, 2]]
    (P := fun tr _ => (∃ x ∈ tr, ⟨4, 3, .on_read_head_complete⟩ ∈ reads x.out) ∧
      ∃ x ∈ tr, ⟨7, 2, .on_read_complete⟩ ∈ reads x.out) (by decide)
  exact ⟨tr, s, hr, hheader, hbody, reads_inside_iff hr⟩

/-- The prefix `ff ff ff ff` makes the session read `2 ^ 64 - 1` bytes. -/
theorem reads_outside :
    ∃ tr s, Run (step littleEndian) (new true fun _ => 0) tr s ∧
      (∃ x ∈ tr, ⟨4, 2 ^ 64 - 1, .on_read_head_complete⟩ ∈ reads x.out) ∧ ¬ ∀ x ∈ tr, Safe x := by
  obtain ⟨tr, s, hr, x, hx, hread⟩ := Run.exists_of_exec (step littleEndian) (new true fun _ => 0)
    [.start, .run .do_read_head_len true, .read_complete false [0xff, 0xff, 0xff, 0xff]]
    (P := fun tr _ => ∃ x ∈ tr, ⟨4, 2 ^ 64 - 1, .on_read_head_complete⟩ ∈ reads x.out)
    (by decide)
  refine ⟨tr, s, hr, ⟨x, hx, hread⟩, fun h => ?_⟩
  exact absurd ((h x hx).1 _ hread) (by decide)

end TcpSession

end SparkFrame.Net
