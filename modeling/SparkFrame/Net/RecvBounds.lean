import SparkFrame.Net.MqSession

/-!
# Where the reads of a delivery go: `MqSession::recv_data`

A delivered body says itself where its header and its message end. `recv_data` is also told how many
bytes there are, and compares neither length with it.

* `BodyRead`, `recv_data_reads` : what is read, in the order of the calls; `BodyRead.Inside` : the
  read stays in the body;
* `LengthsFit` : both lengths are ones the body has room for;
* `recv_data_congr` : then the bytes behind the body have no part in the result;
* `recv_data_inside_iff` : **all reads stay in the body exactly when the lengths fit**;
  `recv_data_outside` : a body of four bytes.
-/

namespace SparkFrame.Net.MqSession

variable {M : Type}

/-- `size` bytes from `body() + offset` on. The parsers take the size as an `int`. -/
structure BodyRead where
  offset : Nat
  size : Int
deriving DecidableEq, Repr

/-- The read stays between `body()` and `body() + bodySize`. What a parser reads when it is given a
negative size nobody says. -/
def BodyRead.Inside (bodySize : Nat) (r : BodyRead) : Prop :=
  0 ≤ r.size ∧ r.offset + r.size ≤ bodySize

instance (bodySize : Nat) (r : BodyRead) : Decidable (r.Inside bodySize) :=
  inferInstanceAs (Decidable (_ ∧ _))

/-- The reads of `recv_data`: the length prefix, the header and, if the command is known, the
message. -/
def recv_data_reads (env : MqEnv M) (body : Memory) (bodySize : Nat) : List BodyRead :=
  let msg_buf := (MsgBuffer.const body (.ofNat 32 bodySize)).decode_header_length env.big_endian
  ⟨0, HEADER_LENGTH⟩ :: ⟨msg_buf.header_buffer, msg_buf.header_length⟩ ::
    match msg_buf.decode_header env.ParseFromArray MqHeader.length with
    | (_, none) => []
    | (msg_buf, some header) =>
      match env.make_message header.type header.cmdtype with
      | none => []
      | some _ => [⟨msg_buf.body_buffer, msg_buf.body_length⟩]

/-- **The condition.** There are four bytes for the prefix and as many behind them as it says; and a
header found there, of a known command, gives a length that is not negative and not more than what
is left. -/
structure LengthsFit (env : MqEnv M) (body : Memory) (bodySize : Nat) : Prop where
  header : 4 + bigEndianValue body ≤ bodySize
  representable : bigEndianValue body < 2 ^ 31
  message : ∀ header parse,
    env.ParseFromArray (body.offset 4) (bigEndianValue body) = some header →
    env.make_message header.type header.cmdtype = some parse →
    0 ≤ header.length.toInt ∧ 4 + bigEndianValue body + header.length.toInt ≤ bodySize

/-! ## What the lengths decide -/

section Lengths

variable (env : MqEnv M) (body : Memory) (bodySize : Nat)

/-- The buffer behind the length prefix. -/
def prefixed : MsgBuffer :=
  (MsgBuffer.const body (.ofNat 32 bodySize)).decode_header_length env.big_endian

theorem header_length_prefixed :
    (prefixed env body bodySize).header_length =
      if bigEndianValue body < 2 ^ 31 then (bigEndianValue body : Int)
      else bigEndianValue body - 2 ^ 32 := by
  unfold prefixed
  rw [MsgBuffer.header_length_eq, MsgBuffer.toNat_m_header_length_decode]
  rfl

/-- The header is in the body exactly when there is room for it and its length is an `int`. -/
theorem header_inside_iff :
    BodyRead.Inside bodySize ⟨4, (prefixed env body bodySize).header_length⟩ ↔
      4 + bigEndianValue body ≤ bodySize ∧ bigEndianValue body < 2 ^ 31 := by
  have hlt : bigEndianValue body < 2 ^ 32 := by
    rw [← toNat_ntoh32_load32 env.big_endian]
    exact BitVec.isLt _
  have hlen := header_length_prefixed env body bodySize
  show 0 ≤ (prefixed env body bodySize).header_length ∧
    ((4 : Nat) : Int) + (prefixed env body bodySize).header_length ≤ bodySize ↔ _
  split at hlen <;> omega

theorem recv_data_reads_eq :
    recv_data_reads env body bodySize =
      ⟨0, 4⟩ :: ⟨4, (prefixed env body bodySize).header_length⟩ ::
        ((env.ParseFromArray (body.offset 4) (prefixed env body bodySize).header_length).bind
          fun header => (env.make_message header.type header.cmdtype).map fun _ =>
            ⟨4 + bigEndianValue body, header.length.toInt⟩).toList := by
  have hnat : (prefixed env body bodySize).body_buffer = 4 + bigEndianValue body :=
    congrArg (4 + ·) (MsgBuffer.toNat_m_header_length_decode env.big_endian _)
  have hoffset : (prefixed env body bodySize).m_buffer.offset
      (prefixed env body bodySize).header_buffer = body.offset 4 := rfl
  rw [← hnat, ← hoffset]
  unfold recv_data_reads MsgBuffer.decode_header
  change BodyRead.mk 0 4 :: BodyRead.mk 4 (prefixed env body bodySize).header_length :: _ = _
  refine congrArg (_ :: _ :: ·) ?_
  cases hp : env.ParseFromArray ((prefixed env body bodySize).m_buffer.offset
      (prefixed env body bodySize).header_buffer) (prefixed env body bodySize).header_length with
  | none =>
    unfold prefixed at hp
    rw [hp]
    rfl
  | some header =>
    unfold prefixed at hp
    rw [hp]
    cases hm : env.make_message header.type header.cmdtype with
    | none => simp only [hm, Option.bind_some, Option.map_none, Option.toList_none]
    | some parse => simp only [hm, Option.bind_some, Option.map_some]; rfl

/-- A generated class looks at the bytes it is given and at no others. -/
def Local {H : Type} (parse : Parser H) : Prop :=
  ∀ (p q : Memory) (size : Int), (∀ i : Nat, i < size → p i = q i) → parse p size = parse q size

theorem bigEndianValue_congr {body body' : Memory} (h : ∀ i < 4, body i = body' i) :
    bigEndianValue body = bigEndianValue body' := by
  unfold bigEndianValue
  rw [h 0 (by decide), h 1 (by decide), h 2 (by decide), h 3 (by decide)]

/-- **Reads stay in the body exactly when the lengths fit.** For every body, of any size, and
whatever lies behind it: all that `recv_data` reads before it returns is in the body if and only if
the body has room for the two lengths it names, as non-negative `int`s. -/
theorem recv_data_inside_iff :
    (∀ r ∈ recv_data_reads env body bodySize, r.Inside bodySize) ↔
      LengthsFit env body bodySize := by
  have hhead := header_inside_iff env body bodySize
  have hlen := header_length_prefixed env body bodySize
  rw [recv_data_reads_eq, List.forall_mem_cons, List.forall_mem_cons, hhead]
  constructor
  · rintro ⟨-, ⟨hroom, hrep⟩, hmessage⟩
    rw [if_pos hrep] at hlen
    refine ⟨hroom, hrep, fun header parse hparse hmake => ?_⟩
    have hin := hmessage ⟨4 + bigEndianValue body, header.length.toInt⟩
      (by simp [hlen, hparse, hmake])
    exact ⟨hin.1, by simpa [BodyRead.Inside] using hin.2⟩
  · intro hfit
    rw [if_pos hfit.representable] at hlen
    refine ⟨⟨by decide, ?_⟩, ⟨hfit.header, hfit.representable⟩, fun r hr => ?_⟩
    · have := hfit.header
      show ((0 : Nat) : Int) + 4 ≤ bodySize
      omega
    · rw [hlen, Option.mem_toList, Option.bind_eq_some_iff] at hr
      obtain ⟨header, hparse, hr⟩ := hr
      obtain ⟨parse, hmake, rfl⟩ := Option.map_eq_some_iff.1 hr
      have hin := hfit.message header parse hparse hmake
      exact ⟨hin.1, by simpa using hin.2⟩

theorem recv_data_eq :
    recv_data env body bodySize =
      ([], ((env.ParseFromArray (body.offset 4) (prefixed env body bodySize).header_length).bind
        fun header => (env.make_message header.type header.cmdtype).bind fun pbmsg =>
          pbmsg (body.offset (4 + bigEndianValue body)) header.length.toInt).isSome) := by
  have hnat : (prefixed env body bodySize).body_buffer = 4 + bigEndianValue body :=
    congrArg (4 + ·) (MsgBuffer.toNat_m_header_length_decode env.big_endian _)
  have hoffset : (prefixed env body bodySize).m_buffer.offset
      (prefixed env body bodySize).header_buffer = body.offset 4 := rfl
  rw [← hnat, ← hoffset]
  unfold recv_data MsgBuffer.decode_header
  cases hp : env.ParseFromArray ((prefixed env body bodySize).m_buffer.offset
      (prefixed env body bodySize).header_buffer) (prefixed env body bodySize).header_length with
  | none =>
    unfold prefixed at hp
    simp only [hp, Option.bind_none, Option.isSome_none]
  | some header =>
    unfold prefixed at hp
    simp only [hp, Option.bind_some]
    cases hm : env.make_message header.type header.cmdtype with
    | none => simp only [Option.bind_none, Option.isSome_none]
    | some pbmsg =>
      simp only [Option.bind_some]
      have hmessage : MsgBuffer.decode_message pbmsg
          { prefixed env body bodySize with m_msg_length := header.length } =
          pbmsg (body.offset (prefixed env body bodySize).body_buffer) header.length.toInt := rfl
      cases hbody : pbmsg (body.offset (prefixed env body bodySize).body_buffer)
          header.length.toInt with
      | none =>
        rw [hbody] at hmessage
        unfold prefixed at hmessage
        simp only [hmessage, Option.isSome_none]
      | some m =>
        rw [hbody] at hmessage
        unfold prefixed at hmessage
        simp only [hmessage, Option.isSome_some]

/-- **What lies behind the body has no part in the result**, as long as the lengths fit. -/
theorem recv_data_congr {env : MqEnv M} {body body' : Memory} {bodySize : Nat}
    (hheader : Local env.ParseFromArray)
    (hmessage : ∀ type cmdtype parse, env.make_message type cmdtype = some parse → Local parse)
    (hfit : LengthsFit env body bodySize) (h : ∀ i < bodySize, body i = body' i) :
    recv_data env body bodySize = recv_data env body' bodySize := by
  have hroom := hfit.header
  have hvalue : bigEndianValue body = bigEndianValue body' :=
    bigEndianValue_congr fun i hi => h i (by omega)
  have hlen := header_length_prefixed env body bodySize
  have hlen' := header_length_prefixed env body' bodySize
  rw [← hvalue] at hlen'
  rw [if_pos hfit.representable] at hlen hlen'
  have hparse : env.ParseFromArray (body.offset 4) (bigEndianValue body) =
      env.ParseFromArray (body'.offset 4) (bigEndianValue body) := by
    apply hheader
    intro i hi
    exact h (4 + i) (by omega)
  rw [recv_data_eq, recv_data_eq, hlen, hlen', ← hvalue, ← hparse]
  cases hp : env.ParseFromArray (body.offset 4) (bigEndianValue body) with
  | none => rfl
  | some header =>
    simp only [Option.bind_some]
    cases hm : env.make_message header.type header.cmdtype with
    | none => rfl
    | some pbmsg =>
      have hin := hfit.message header pbmsg hp hm
      have hsame : pbmsg (body.offset (4 + bigEndianValue body)) header.length.toInt =
          pbmsg (body'.offset (4 + bigEndianValue body)) header.length.toInt := by
        apply hmessage _ _ _ hm
        intro i hi
        exact h (4 + bigEndianValue body + i) (by omega)
      simp only [Option.bind_some, hsame]

end Lengths

/-! ## One body -/

/-- Four bytes that announce a header of 255 more. -/
def announced : Memory := Memory.write (fun _ => 0) 0 [0, 0, 0, 255]

/-- Neither an empty body nor one that ends with its prefix is safe to read. -/
theorem recv_data_outside :
    (¬ ∀ r ∈ recv_data_reads shortEnv announced 4, r.Inside 4) ∧
      ¬ ∀ r ∈ recv_data_reads shortEnv announced 0, r.Inside 0 := by
  have hvalue : bigEndianValue announced = 255 := by decide
  rw [recv_data_inside_iff, recv_data_inside_iff]
  constructor
  · intro hfit
    have := hfit.header
    omega
  · intro hfit
    have := hfit.header
    omega

end SparkFrame.Net.MqSession
