import SparkFrame.Lib.Buffer
import SparkFrame.Tools.AesBt

/-!
# The buffers behind a token: `AES_ecb128_decrypt`

Anybody can send a token. `AES_ecb128_decrypt` decodes it into one buffer, decrypts that one into
another, and makes a string of what is there.

* `Unit_Decode`, `decodeLoop`, `Base64Decode`, `decryptLoop`, `AES_ecb128_decrypt` : the functions with
  every access they make;
* `AES_ecb128_decrypt_eq`, `str_decode_eq` : what they do to the buffers is what `AesBt` says they
  compute;
* `ne_out_of_bounds` : **no access is outside a buffer**;
* `Safe` : nothing else goes wrong either; `WellFormed` : the tokens that are coded as the encoder codes;
* `safe_encrypt`, `safe_iff` : the tokens of the encoder are safe; **the safe ones are well formed**.
-/

namespace SparkFrame.Tools.TokenBuffers

open SparkFrame.Lib

/-! ## Accesses -/

/-- Where `strchr` finds nothing, the difference of two pointers is computed from a null pointer. -/
def not_found : Fault Unit := .raised ()

def Base64ChPos (ch : UInt8) : Except (Fault Unit) UInt8 := orFault not_found (Tools.Base64ChPos ch)

def Unit_Decode (src : Buffer UInt8) (pSrc : Nat) (dest : Buffer UInt8) (pDes : Nat) :
    Except (Fault Unit) (Buffer UInt8) := do
  let c₃ ← src.read (pSrc + 3)
  if c₃ ≠ base64EndChar then
    let code₀ ← Base64ChPos (← src.read pSrc)
    let code₁ ← Base64ChPos (← src.read (pSrc + 1))
    let code₂ ← Base64ChPos (← src.read (pSrc + 2))
    let code₃ ← Base64ChPos (← src.read (pSrc + 3))
    dest.writeMany pDes [(code₀ <<< 2) ||| (code₁ >>> 4), (code₁ <<< 4) ||| (code₂ >>> 2),
      (code₂ <<< 6) ||| code₃]
  else
    let c₂ ← src.read (pSrc + 2)
    if c₂ = base64EndChar then
      let code₀ ← Base64ChPos (← src.read pSrc)
      let code₁ ← Base64ChPos (← src.read (pSrc + 1))
      dest.writeMany pDes [(code₀ <<< 2) ||| (code₁ >>> 4)]
    else
      let code₀ ← Base64ChPos (← src.read pSrc)
      let code₁ ← Base64ChPos (← src.read (pSrc + 1))
      let code₂ ← Base64ChPos (← src.read (pSrc + 2))
      dest.writeMany pDes [(code₀ <<< 2) ||| (code₁ >>> 4), (code₁ <<< 4) ||| (code₂ >>> 2)]

/-- `n` units, the first of which is the unit `i`. -/
def decodeLoop (src : Buffer UInt8) : Nat → Nat → Buffer UInt8 → Except (Fault Unit) (Buffer UInt8)
  | 0, _, dest => .ok dest
  | n + 1, i, dest => do
    let dest ← Unit_Decode src (4 * i) dest (3 * i)
    decodeLoop src n (i + 1) dest

/-- How many of the last two characters are `=`. -/
def readPadding (src : Buffer UInt8) (src_length : Nat) : Except (Fault Unit) Nat := do
  let last ← src.read (src_length - 1)
  if last = base64EndChar then
    let previous ← src.read (src_length - 2)
    return if previous = base64EndChar then 2 else 1
  else return 0

/-- `Base64Decode` of `strEn.c_str()`, behind which there is a zero. -/
def Base64Decode (strEn : Bytes) (length : Nat) : Except (Fault Unit) (Buffer UInt8 × Nat) :=
  if strEn.isEmpty then .ok ([], 0)
  else
    let src : Buffer UInt8 := (strEn ++ [0]).map some
    let buf : Buffer UInt8 := Buffer.alloc (strEn.length / 4 * 3)
    if strEn.length < 4 then .ok (buf, length)
    else do
      let padding ← readPadding src strEn.length
      let buf ← decodeLoop src (strEn.length / 4) 0 buf
      return (buf, strEn.length / 4 * 3 - padding)

variable (core : AesCore)

/-- `round` blocks, the first of which is the block `i`. -/
def decryptLoop (key : Block) (bin_in : Buffer UInt8) :
    Nat → Nat → Buffer UInt8 → Except (Fault Unit) (Buffer UInt8)
  | 0, _, bin_out => .ok bin_out
  | round + 1, i, bin_out => do
    let block ← bin_in.readMany (16 * i) 16
    let bin_out ← bin_out.writeMany (16 * i)
      (AesBt.storeBlock (core.AES_decrypt key (AesBt.loadBlock block)))
    decryptLoop key bin_in round (i + 1) bin_out

/-- The buffers of a call, before they are deleted, and what it returns. -/
structure Decrypted where
  bin_in : Buffer UInt8
  length : Nat
  bin_out : Buffer UInt8
  str_decode : Bytes
  deriving DecidableEq

/-- `AES_ecb128_decrypt` of a string. `in.c_str()` ends at the first zero. -/
def AES_ecb128_decrypt (token : Bytes) : Except (Fault Unit) Decrypted := do
  let (bin_in, length) ← Base64Decode (token.takeWhile (· ≠ 0)) 0
  let bin_out ← decryptLoop core (AesBt.loadBlock (AesBt.get_key core AesBt.seed)) bin_in (length / 16) 0
    (Buffer.alloc (length + 1))
  let bin_out ← bin_out.write length 0
  let str_decode ← bin_out.readUntil (· = 0)
  return { bin_in, length, bin_out, str_decode }

variable {core}

/-! ## The decoder -/

theorem unitDecode_eq {src : Buffer UInt8} {pSrc pDes : Nat} {c₀ c₁ c₂ c₃ : UInt8}
    (h₀ : src.read (ε := Unit) pSrc = .ok c₀) (h₁ : src.read (ε := Unit) (pSrc + 1) = .ok c₁)
    (h₂ : src.read (ε := Unit) (pSrc + 2) = .ok c₂) (h₃ : src.read (ε := Unit) (pSrc + 3) = .ok c₃)
    (pre post : Buffer UInt8) (hpre : pre.length = pDes) :
    Unit_Decode src pSrc (pre ++ (none :: none :: none :: post)) pDes =
      (orFault not_found (Tools.Unit_Decode c₀ c₁ c₂ c₃)).map fun unit => pre ++ (unit ++ post) := by
  have hwrite : ∀ cs : Bytes, ∀ k, cs.length + k = 3 →
      Buffer.writeMany (ε := Unit) (pre ++ (none :: none :: none :: post)) pDes cs =
        .ok (pre ++ (cs.map some ++ (List.replicate k none ++ post))) := by
    intro cs k hk
    have hblank : (none :: none :: none :: post : Buffer UInt8) =
        List.replicate cs.length none ++ (List.replicate k none ++ post) := by
      rw [← List.append_assoc, List.replicate_append_replicate, hk]
      rfl
    rw [hblank]
    exact Buffer.writeMany_append pre _ _ List.length_replicate hpre
  unfold Unit_Decode Tools.Unit_Decode Base64ChPos
  simp only [h₀, h₁, h₂, h₃, bind, Except.bind]
  by_cases hc₃ : c₃ ≠ base64EndChar
  · rw [if_pos hc₃, if_pos hc₃]
    cases Tools.Base64ChPos c₀ with
    | none => rfl
    | some code₀ =>
    cases Tools.Base64ChPos c₁ with
    | none => rfl
    | some code₁ =>
    cases Tools.Base64ChPos c₂ with
    | none => rfl
    | some code₂ =>
    cases Tools.Base64ChPos c₃ with
    | none => rfl
    | some code₃ => exact hwrite _ 0 rfl
  · rw [if_neg hc₃, if_neg hc₃]
    by_cases hc₂ : c₂ = base64EndChar
    · rw [if_pos hc₂, if_pos hc₂]
      cases Tools.Base64ChPos c₀ with
      | none => rfl
      | some code₀ =>
      cases Tools.Base64ChPos c₁ with
      | none => rfl
      | some code₁ => exact hwrite _ 2 rfl
    · rw [if_neg hc₂, if_neg hc₂]
      cases Tools.Base64ChPos c₀ with
      | none => rfl
      | some code₀ =>
      cases Tools.Base64ChPos c₁ with
      | none => rfl
      | some code₁ =>
      cases Tools.Base64ChPos c₂ with
      | none => rfl
      | some code₂ => exact hwrite _ 1 rfl

theorem read_drop {t : Bytes} {i : Nat} {unit rest : Bytes} (h : t.drop i = unit ++ rest) {k : Nat}
    (hk : k < unit.length) :
    Buffer.read (ε := Unit) ((t ++ [0]).map some) (i + k) = .ok unit[k] := by
  have hlength := congrArg List.length h
  rw [List.length_drop, List.length_append] at hlength
  have hlt : i + k < t.length := by omega
  have hlt' : i + k < (t ++ [0]).length := by rw [List.length_append]; omega
  have hget : t[i + k] = unit[k] := by
    have hdrop : (t.drop i)[k]? = some t[i + k] := by
      rw [List.getElem?_drop, List.getElem?_eq_getElem hlt]
    rw [h, List.getElem?_append_left hk, List.getElem?_eq_getElem hk] at hdrop
    exact (Option.some.inj hdrop).symm
  rw [Buffer.read_map_some _ hlt', List.getElem_append_left hlt, hget]

theorem exists_unit {l : Bytes} {n : Nat} (h : l.length / 4 = n + 1) :
    ∃ c₀ c₁ c₂ c₃ rest, l = c₀ :: c₁ :: c₂ :: c₃ :: rest ∧ rest.length / 4 = n := by
  rcases l with _ | ⟨c₀, _ | ⟨c₁, _ | ⟨c₂, _ | ⟨c₃, rest⟩⟩⟩⟩
  case cons.cons.cons.cons =>
    refine ⟨c₀, c₁, c₂, c₃, rest, rfl, ?_⟩
    simp only [List.length_cons] at h
    omega
  all_goals simp at h

theorem length_unit {c₀ c₁ c₂ c₃ : UInt8} {unit : List Cell}
    (h : Tools.Unit_Decode c₀ c₁ c₂ c₃ = some unit) : unit.length = 3 := by
  unfold Tools.Unit_Decode at h
  split_ifs at h
  all_goals
    simp only [Option.bind_eq_bind, Option.bind_eq_some_iff, Option.pure_def, Option.some.injEq] at h
  · obtain ⟨_, -, _, -, _, -, _, -, rfl⟩ := h
    rfl
  · obtain ⟨_, -, _, -, rfl⟩ := h
    rfl
  · obtain ⟨_, -, _, -, _, -, rfl⟩ := h
    rfl

theorem decodeUnits_short {l : Bytes} (h : l.length < 4) : decodeUnits l = some [] := by
  rcases l with _ | ⟨c₀, _ | ⟨c₁, _ | ⟨c₂, _ | ⟨c₃, rest⟩⟩⟩⟩
  case cons.cons.cons.cons =>
    simp only [List.length_cons] at h
    omega
  all_goals rfl

/-- **The loop** writes the units one after another. -/
theorem decodeLoop_eq {t : Bytes} {n i : Nat} (hn : (t.drop (4 * i)).length / 4 = n) {pre : Buffer UInt8}
    (hpre : pre.length = 3 * i) :
    decodeLoop ((t ++ [0]).map some) n i (pre ++ Buffer.alloc (3 * n)) =
      (orFault not_found (decodeUnits (t.drop (4 * i)))).map (pre ++ ·) := by
  induction n generalizing i pre with
  | zero =>
    rw [decodeUnits_short (by omega)]
    rfl
  | succ n ih =>
    obtain ⟨c₀, c₁, c₂, c₃, rest, hdrop, hrest⟩ := exists_unit hn
    have hread : ∀ k, ∀ hk : k < 4, Buffer.read (ε := Unit) ((t ++ [0]).map some) (4 * i + k) =
        .ok ([c₀, c₁, c₂, c₃].get ⟨k, hk⟩) := fun k hk =>
      read_drop (show t.drop (4 * i) = [c₀, c₁, c₂, c₃] ++ rest from hdrop) hk
    have hnext : t.drop (4 * (i + 1)) = rest := by
      rw [show 4 * (i + 1) = 4 * i + 4 by omega, ← List.drop_drop, hdrop]
      rfl
    have hunit : Unit_Decode ((t ++ [0]).map some) (4 * i) (pre ++ (none :: none :: none :: Buffer.alloc (3 * n)))
        (3 * i) = (orFault not_found (Tools.Unit_Decode c₀ c₁ c₂ c₃)).map
          fun unit => pre ++ (unit ++ Buffer.alloc (3 * n)) :=
      unitDecode_eq (hread 0 (by decide)) (hread 1 (by decide)) (hread 2 (by decide)) (hread 3 (by decide))
        pre _ hpre
    have halloc : Buffer.alloc (3 * (n + 1)) = (none :: none :: none :: Buffer.alloc (3 * n) : Buffer UInt8) := rfl
    rw [decodeLoop, halloc, hunit, hdrop, decodeUnits]
    cases hdecode : Tools.Unit_Decode c₀ c₁ c₂ c₃ with
    | none => rfl
    | some unit =>
      have hlength := length_unit hdecode
      have hloop := @ih (i + 1) (by rw [hnext]; exact hrest) (pre ++ unit)
        (by rw [List.length_append, hlength, hpre]; omega)
      rw [hnext, List.append_assoc] at hloop
      refine hloop.trans ?_
      cases decodeUnits rest with
      | none => rfl
      | some units => exact congrArg Except.ok (List.append_assoc ..)

/-- The last two characters are read where they are. -/
theorem readPadding_eq {t : Bytes} (h : 2 ≤ t.length) :
    readPadding ((t ++ [0]).map some) t.length = .ok (padding t) := by
  obtain ⟨c, d, l, hl⟩ : ∃ c d l, t.reverse = c :: d :: l := by
    have hlength : 2 ≤ t.reverse.length := by rwa [List.length_reverse]
    match t.reverse, hlength with
    | c :: d :: l, _ => exact ⟨c, d, l, rfl⟩
  have ht : t = l.reverse ++ [d, c] := by
    rw [← List.reverse_reverse t, hl, List.reverse_cons, List.reverse_cons, List.append_assoc]
    rfl
  have hlength : t.length = l.reverse.length + 2 := by rw [ht, List.length_append]; rfl
  have hdrop : t.drop l.reverse.length = [d, c] ++ [] := by rw [ht, List.drop_left, List.append_nil]
  have hlast : Buffer.read (ε := Unit) ((t ++ [0]).map some) (t.length - 1) = .ok c := by
    rw [hlength]
    exact read_drop hdrop (by decide : 1 < 2)
  have hprevious : Buffer.read (ε := Unit) ((t ++ [0]).map some) (t.length - 2) = .ok d := by
    rw [hlength]
    exact read_drop hdrop (by decide : 0 < 2)
  simp only [readPadding, padding, hl, hlast, hprevious, bind, Except.bind]
  by_cases hc : c = base64EndChar
  · rw [if_pos hc, if_pos hc]
    rfl
  · rw [if_neg hc, if_neg hc]
    rfl

/-- **What the decoder leaves** is what `Tools.Base64Decode` says. -/
theorem Base64Decode_eq (t : Bytes) (length : Nat) :
    Base64Decode t length = orFault not_found (Tools.Base64Decode t length) := by
  unfold Base64Decode Tools.Base64Decode
  by_cases hempty : t.isEmpty = true
  · rw [if_pos hempty, if_pos hempty]
    rfl
  rw [if_neg hempty, if_neg hempty]
  by_cases hshort : t.length < 4
  · rw [if_pos hshort, if_pos hshort, show t.length / 4 * 3 = 0 by omega]
    rfl
  have hloop : decodeLoop ((t ++ [0]).map some) (t.length / 4) 0 (Buffer.alloc (t.length / 4 * 3)) =
      orFault not_found (decodeUnits t) := by
    have h := @decodeLoop_eq t (t.length / 4) 0 rfl [] rfl
    rw [Nat.mul_comm] at h
    refine h.trans ?_
    rw [Nat.mul_zero, List.drop_zero]
    cases decodeUnits t <;> rfl
  simp only [if_neg hshort, readPadding_eq (by omega : 2 ≤ t.length), hloop, bind, Except.bind]
  cases decodeUnits t <;> rfl

/-! ## The cipher -/

theorem written_eq_mapM (cells : List Cell) : AesBt.written cells = cells.mapM id := by
  induction cells with
  | nil => rfl
  | cons c cells ih =>
    rw [AesBt.written, List.mapM_cons, ih]
    rfl

theorem length_decryptRounds {key : Block} {round : Nat} {cells out : List Cell}
    (h : AesBt.decryptRounds core key round cells = some out) : out.length = 16 * round := by
  induction round generalizing cells out with
  | zero =>
    rw [AesBt.decryptRounds, Option.some.injEq] at h
    rw [← h]
    rfl
  | succ round ih =>
    simp only [AesBt.decryptRounds, Option.bind_eq_bind, Option.bind_eq_some_iff, Option.pure_def,
      Option.some.injEq] at h
    obtain ⟨p, -, rest, hrest, rfl⟩ := h
    rw [List.length_append, List.length_map, AesBt.length_storeBlock, ih hrest]
    omega

/-- **The loop** writes the blocks one after another. -/
theorem decryptLoop_eq {key : Block} {cells : Buffer UInt8} {round i : Nat}
    (hcells : 16 * (i + round) ≤ cells.length) {pre : Buffer UInt8} (post : Buffer UInt8)
    (hpre : pre.length = 16 * i) :
    decryptLoop core key cells round i (pre ++ (Buffer.alloc (16 * round) ++ post)) =
      (orFault .uninitialised (AesBt.decryptRounds core key round (cells.drop (16 * i)))).map
        fun out => pre ++ (out ++ post) := by
  induction round generalizing i pre with
  | zero => rfl
  | succ round ih =>
    have hblock : 16 * i + 16 ≤ cells.length := by omega
    rw [decryptLoop, Buffer.readMany_eq hblock, ← written_eq_mapM, AesBt.decryptRounds]
    cases AesBt.written ((cells.drop (16 * i)).take 16) with
    | none => rfl
    | some block =>
      have halloc : Buffer.alloc (16 * (round + 1)) ++ post =
          (Buffer.alloc 16 ++ (Buffer.alloc (16 * round) ++ post) : Buffer UInt8) := by
        rw [← List.append_assoc, Buffer.alloc, Buffer.alloc, Buffer.alloc,
          List.replicate_append_replicate, Nat.mul_succ, Nat.add_comm]
      have hwrite := Buffer.writeMany_append (ε := Unit) pre (Buffer.alloc 16)
        (Buffer.alloc (16 * round) ++ post)
        (AesBt.length_storeBlock (core.AES_decrypt key (AesBt.loadBlock block))).symm hpre
      have hloop := @ih (i + 1) (by omega)
        (pre ++ (AesBt.storeBlock (core.AES_decrypt key (AesBt.loadBlock block))).map some)
        (by rw [List.length_append, List.length_map, AesBt.length_storeBlock, hpre]; omega)
      rw [List.append_assoc] at hloop
      simp only [orFault, bind, Except.bind, halloc, hwrite]
      refine hloop.trans ?_
      rw [List.drop_drop, Nat.mul_succ]
      cases AesBt.decryptRounds core key round (cells.drop (16 * i + 16)) with
      | none => rfl
      | some out => exact congrArg Except.ok (by simp only [List.append_assoc])

/-! ## The whole call -/

theorem length_decodeUnits {t : Bytes} {cells : List Cell} (h : decodeUnits t = some cells) :
    cells.length = t.length / 4 * 3 := by
  fun_induction decodeUnits t generalizing cells with
  | case1 c₀ c₁ c₂ c₃ src ih =>
    simp only [Option.bind_eq_bind, Option.bind_eq_some_iff, Option.pure_def, Option.some.injEq] at h
    obtain ⟨unit, hunit, units, hunits, rfl⟩ := h
    rw [List.length_append, length_unit hunit, ih hunits]
    simp only [List.length_cons]
    omega
  | case2 t ht =>
    obtain rfl := Option.some.inj h
    have hshort : t.length < 4 := by
      rcases t with _ | ⟨c₀, _ | ⟨c₁, _ | ⟨c₂, _ | ⟨c₃, src⟩⟩⟩⟩
      case cons.cons.cons.cons => exact absurd rfl (ht c₀ c₁ c₂ c₃ src)
      all_goals simp
    rw [List.length_nil]
    omega

theorem length_le_of_Base64Decode {t : Bytes} {cells : List Cell} {length : Nat}
    (h : Tools.Base64Decode t 0 = some (cells, length)) : length ≤ cells.length := by
  unfold Tools.Base64Decode at h
  split_ifs at h
  · obtain ⟨rfl, rfl⟩ := Prod.mk.inj (Option.some.inj h)
    exact le_rfl
  · obtain ⟨rfl, rfl⟩ := Prod.mk.inj (Option.some.inj h)
    exact le_rfl
  · obtain ⟨cells, hcells, heq⟩ := Option.map_eq_some_iff.mp h
    obtain ⟨rfl, rfl⟩ := Prod.mk.inj heq
    rw [length_decodeUnits hcells]
    exact Nat.sub_le ..

/-- **What a call does to its buffers** is what `AesBt` says is computed. -/
theorem AES_ecb128_decrypt_eq (token : Bytes) :
    AES_ecb128_decrypt core token = (do
      let (bin_in, length) ← orFault not_found (Tools.Base64Decode (token.takeWhile (· ≠ 0)) 0)
      let out ← orFault .uninitialised
        (AesBt.decryptBuffer core (AesBt.loadBlock (AesBt.get_key core AesBt.seed)) bin_in length)
      let str_decode ← Buffer.readUntil (· = 0) (out ++ [some 0])
      return { bin_in, length, bin_out := out ++ [some 0], str_decode }) := by
  unfold AES_ecb128_decrypt
  rw [Base64Decode_eq]
  cases hdecode : Tools.Base64Decode (token.takeWhile (· ≠ 0)) 0 with
  | none => rfl
  | some p =>
  obtain ⟨bin_in, length⟩ := p
  have hle := length_le_of_Base64Decode hdecode
  have halloc : Buffer.alloc (length + 1) =
      (Buffer.alloc (16 * (length / 16)) ++ (Buffer.alloc (length % 16) ++ [none]) : Buffer UInt8) := by
    rw [← List.append_assoc, Buffer.alloc, Buffer.alloc, Buffer.alloc, List.replicate_append_replicate,
      Nat.div_add_mod, List.replicate_succ']
  have hloop := @decryptLoop_eq core (AesBt.loadBlock (AesBt.get_key core AesBt.seed)) bin_in (length / 16) 0
    (by omega) [] (Buffer.alloc (length % 16) ++ [none]) rfl
  rw [List.nil_append, ← halloc, Nat.mul_zero, List.drop_zero] at hloop
  simp only [orFault, bind, Except.bind, hloop, AesBt.decryptBuffer]
  cases hrounds : AesBt.decryptRounds core (AesBt.loadBlock (AesBt.get_key core AesBt.seed)) (length / 16) bin_in with
  | none => rfl
  | some out =>
  have hlength : (out ++ Buffer.alloc (length % 16)).length = length := by
    rw [List.length_append, length_decryptRounds hrounds, Buffer.alloc, List.length_replicate]
    exact Nat.div_add_mod ..
  have hwrite := Buffer.write_append (ε := Unit) (out ++ Buffer.alloc (length % 16)) none [] 0 hlength
  rw [List.append_assoc] at hwrite
  simp only [Except.map, List.nil_append, hwrite]
  rfl

/-- **No access is outside a buffer**, whatever the token. -/
theorem ne_out_of_bounds (token : Bytes) : AES_ecb128_decrypt core token ≠ .error .out_of_bounds := by
  rw [AES_ecb128_decrypt_eq]
  cases Tools.Base64Decode (token.takeWhile (· ≠ 0)) 0 with
  | none => exact nofun
  | some p =>
  obtain ⟨bin_in, length⟩ := p
  simp only [orFault, bind, Except.bind]
  cases AesBt.decryptBuffer core (AesBt.loadBlock (AesBt.get_key core AesBt.seed)) bin_in length with
  | none => exact nofun
  | some out =>
  have hread : Buffer.readUntil (ε := Unit) (· = 0) (out ++ [some (0 : UInt8)]) ≠
      .error .out_of_bounds :=
    Buffer.readUntil_ne_out_of_bounds (List.mem_append_right out (List.mem_singleton_self _)) rfl
  simp only
  cases hr : Buffer.readUntil (ε := Unit) (· = 0) (out ++ [some 0]) with
  | ok str => exact nofun
  | error fault =>
    intro heq
    exact hread (hr.trans (congrArg Except.error (Except.error.inj heq)))

theorem toOption_readUntil (cells : List Cell) :
    (Buffer.readUntil (ε := Unit) (· = 0) cells).toOption = AesBt.readString cells := by
  induction cells with
  | nil => rfl
  | cons x cells ih =>
    cases x with
    | none => rfl
    | some c =>
      rw [Buffer.readUntil, AesBt.readString, ← ih]
      by_cases hc : c = 0
      · rw [if_pos hc, if_pos (decide_eq_true hc)]
        rfl
      · rw [if_neg hc, if_neg (by simpa using hc)]
        cases Buffer.readUntil (ε := Unit) (· = 0) cells <;> rfl

/-- **The string that is returned** is the one that `AesBt` says is computed. -/
theorem str_decode_eq (token : Bytes) :
    (AES_ecb128_decrypt core token).toOption.map Decrypted.str_decode =
      AesBt.AES_ecb128_decryptFixed core token := by
  rw [AES_ecb128_decrypt_eq, AesBt.AES_ecb128_decryptFixed, AesBt.AES_ecb128_decrypt]
  cases Tools.Base64Decode (token.takeWhile (· ≠ 0)) 0 with
  | none => rfl
  | some p =>
  obtain ⟨bin_in, length⟩ := p
  simp only [orFault, bind, Except.bind, Option.bind]
  cases AesBt.decryptBuffer core (AesBt.loadBlock (AesBt.get_key core AesBt.seed)) bin_in length with
  | none => rfl
  | some out =>
  simp only [← toOption_readUntil]
  cases Buffer.readUntil (ε := Unit) (· = 0) (out ++ [some 0]) <;> rfl

/-! ## Safe tokens -/

/-- Nothing goes wrong, and the decoder and the cipher have written every byte below the length. -/
def Safe (core : AesCore) (token : Bytes) : Prop :=
  ∃ r, AES_ecb128_decrypt core token = .ok r ∧
    (∀ i < r.length, ∃ c, r.bin_in[i]? = some (some c)) ∧
    ∀ i < r.length, ∃ c, r.bin_out[i]? = some (some c)

/-- Four characters of the alphabet for each unit. In the last one, characters for which nothing is
written may be `=`, as many as are counted at the end of the string. -/
def UnitsWellFormed (padding : Nat) : Bytes → Prop
  | c₀ :: c₁ :: c₂ :: c₃ :: src =>
    (c₀ ∈ BASE64_TAB ∧ c₁ ∈ BASE64_TAB ∧
      (c₂ ∈ BASE64_TAB ∧ c₃ ∈ BASE64_TAB ∨ src.length < 4 ∧
        (c₂ ∈ BASE64_TAB ∧ c₃ = base64EndChar ∧ 1 ≤ padding ∨
          c₂ = base64EndChar ∧ c₃ = base64EndChar ∧ padding = 2))) ∧
    UnitsWellFormed padding src
  | _ => True

/-- Tokens without a unit, and those of whole blocks. -/
def WellFormed (t : Bytes) : Prop :=
  t.length < 4 ∨ UnitsWellFormed (padding t) t ∧ (t.length / 4 * 3 - padding t) % 16 = 0

theorem base64ChPos_iff {c : UInt8} (h : c ≠ 0) :
    (∃ code, Tools.Base64ChPos c = some code) ↔ c ∈ BASE64_TAB := by
  rw [← Option.isSome_iff_exists, Tools.Base64ChPos, Option.isSome_map, List.findIdx?_isSome]
  simp [h.symm]

theorem base64EndChar_notMem : base64EndChar ∉ BASE64_TAB := by decide

theorem unit_iff {c₀ c₁ c₂ c₃ : UInt8} (h₀ : c₀ ≠ 0) (h₁ : c₁ ≠ 0) (h₂ : c₂ ≠ 0) (h₃ : c₃ ≠ 0) {k : Nat}
    (hk : k ≤ 2) :
    (∃ unit, Tools.Unit_Decode c₀ c₁ c₂ c₃ = some unit ∧ none ∉ unit.take (3 - k)) ↔
      c₀ ∈ BASE64_TAB ∧ c₁ ∈ BASE64_TAB ∧
        (c₂ ∈ BASE64_TAB ∧ c₃ ∈ BASE64_TAB ∨ c₂ ∈ BASE64_TAB ∧ c₃ = base64EndChar ∧ 1 ≤ k ∨
          c₂ = base64EndChar ∧ c₃ = base64EndChar ∧ k = 2) := by
  rw [← base64ChPos_iff h₀, ← base64ChPos_iff h₁]
  unfold Tools.Unit_Decode
  have hout := base64EndChar_notMem
  by_cases hc₃ : c₃ = base64EndChar
  · subst hc₃
    rw [if_neg (not_not.mpr rfl)]
    by_cases hc₂ : c₂ = base64EndChar
    · subst hc₂
      rw [if_pos rfl]
      simp only [hout, false_and, false_or, true_and]
      cases Tools.Base64ChPos c₀ <;> cases Tools.Base64ChPos c₁ <;> interval_cases k <;> simp
    · rw [if_neg hc₂, ← base64ChPos_iff h₂]
      simp only [hout, hc₂, and_false, false_and, false_or, or_false, true_and]
      cases Tools.Base64ChPos c₀ <;> cases Tools.Base64ChPos c₁ <;> cases Tools.Base64ChPos c₂ <;>
        interval_cases k <;> simp
  · rw [if_pos hc₃, ← base64ChPos_iff h₂, ← base64ChPos_iff h₃]
    simp only [hc₃, and_false, false_and, or_false]
    cases Tools.Base64ChPos c₀ <;> cases Tools.Base64ChPos c₁ <;> cases Tools.Base64ChPos c₂ <;>
      cases Tools.Base64ChPos c₃ <;> interval_cases k <;> simp

theorem unitsWellFormed_short {k : Nat} {t : Bytes} (h : t.length < 4) : UnitsWellFormed k t := by
  rcases t with _ | ⟨c₀, _ | ⟨c₁, _ | ⟨c₂, _ | ⟨c₃, src⟩⟩⟩⟩
  case cons.cons.cons.cons =>
    simp only [List.length_cons] at h
    omega
  all_goals trivial

theorem exists_decodeUnits_cons {c₀ c₁ c₂ c₃ : UInt8} {src : Bytes} {P : List Cell → Prop} :
    (∃ cells, decodeUnits (c₀ :: c₁ :: c₂ :: c₃ :: src) = some cells ∧ P cells) ↔
      ∃ unit, Tools.Unit_Decode c₀ c₁ c₂ c₃ = some unit ∧
        ∃ units, decodeUnits src = some units ∧ P (unit ++ units) := by
  simp only [decodeUnits, Option.bind_eq_bind, Option.bind_eq_some_iff, Option.pure_def, Option.some.injEq]
  constructor
  · rintro ⟨cells, ⟨unit, hunit, units, hunits, rfl⟩, hP⟩
    exact ⟨unit, hunit, units, hunits, hP⟩
  · rintro ⟨unit, hunit, units, hunits, hP⟩
    exact ⟨unit ++ units, ⟨unit, hunit, units, hunits, rfl⟩, hP⟩

/-- **The units**, if `k` of the last bytes are not counted. -/
theorem units_iff {t : Bytes} (h0 : 0 ∉ t) (ht : 4 ≤ t.length) {k : Nat} (hk : k ≤ 2) :
    (∃ cells, decodeUnits t = some cells ∧ none ∉ cells.take (t.length / 4 * 3 - k)) ↔ UnitsWellFormed k t := by
  fun_induction UnitsWellFormed k t with
  | case1 c₀ c₁ c₂ c₃ src ih =>
    simp only [List.mem_cons, not_or] at h0
    obtain ⟨h₀, h₁, h₂, h₃, hsrc⟩ := h0
    have hunit := fun {k : Nat} => @unit_iff c₀ c₁ c₂ c₃ (Ne.symm h₀) (Ne.symm h₁) (Ne.symm h₂) (Ne.symm h₃) k
    have hlength : (c₀ :: c₁ :: c₂ :: c₃ :: src).length / 4 * 3 = 3 + src.length / 4 * 3 := by
      simp only [List.length_cons]
      omega
    rw [exists_decodeUnits_cons, hlength]
    by_cases hlast : src.length < 4
    · -- the last unit: what is not counted is at its end
      rw [and_iff_left (unitsWellFormed_short hlast), show src.length / 4 * 3 = 0 by omega, Nat.add_zero]
      simp only [hlast, true_and, ← hunit hk, decodeUnits_short hlast]
      constructor
      · rintro ⟨unit, hdecode, units, hnil, hwritten⟩
        rw [← Option.some.inj hnil, List.append_nil] at hwritten
        exact ⟨unit, hdecode, hwritten⟩
      · rintro ⟨unit, hdecode, hwritten⟩
        exact ⟨unit, hdecode, [], rfl, by rwa [List.append_nil]⟩
    · -- a unit before it has to be written as a whole
      have hsplit : ∀ unit units : List Cell, unit.length = 3 →
          (none ∉ (unit ++ units).take (3 + src.length / 4 * 3 - k) ↔
            none ∉ unit.take (3 - 0) ∧ none ∉ units.take (src.length / 4 * 3 - k)) := by
        intro unit units hlen
        rw [show 3 + src.length / 4 * 3 - k = unit.length + (src.length / 4 * 3 - k) by omega,
          List.take_length_add_append, List.mem_append, not_or, Nat.sub_zero, ← hlen, List.take_length]
      have hall : (∃ unit, Tools.Unit_Decode c₀ c₁ c₂ c₃ = some unit ∧ none ∉ unit.take (3 - 0)) ↔
          c₀ ∈ BASE64_TAB ∧ c₁ ∈ BASE64_TAB ∧ c₂ ∈ BASE64_TAB ∧ c₃ ∈ BASE64_TAB := by
        rw [hunit (Nat.zero_le 2)]
        simp
      simp only [hlast, false_and, or_false, ← ih hsrc (by omega), ← hall]
      constructor
      · rintro ⟨unit, hdecode, units, hunits, hwritten⟩
        obtain ⟨hu, hus⟩ := (hsplit unit units (length_unit hdecode)).mp hwritten
        exact ⟨⟨unit, hdecode, hu⟩, units, hunits, hus⟩
      · rintro ⟨⟨unit, hdecode, hu⟩, units, hunits, hus⟩
        exact ⟨unit, hdecode, units, hunits, (hsplit unit units (length_unit hdecode)).mpr ⟨hu, hus⟩⟩
  | case2 t hnot =>
    rcases t with _ | ⟨c₀, _ | ⟨c₁, _ | ⟨c₂, _ | ⟨c₃, src⟩⟩⟩⟩
    case cons.cons.cons.cons => exact absurd rfl (hnot c₀ c₁ c₂ c₃ src)
    all_goals simp at ht

theorem padding_le (t : Bytes) : padding t ≤ 2 := by
  unfold padding
  split
  · split_ifs <;> omega
  · omega

theorem written_below_iff {cells : List Cell} {n : Nat} (h : n ≤ cells.length) :
    (∀ i < n, ∃ c, cells[i]? = some (some c)) ↔ none ∉ cells.take n := by
  rw [List.mem_iff_getElem?]
  constructor
  · rintro hw ⟨i, hi⟩
    have hlt : i < n := by
      by_contra hle
      rw [List.getElem?_eq_none (by rw [List.length_take]; omega)] at hi
      cases hi
    obtain ⟨c, hc⟩ := hw i hlt
    rw [List.getElem?_take_of_lt hlt, hc] at hi
    cases hi
  · intro hnone i hi
    have hget : cells[i]? = some cells[i] := List.getElem?_eq_getElem (by omega)
    cases hcell : cells[i] with
    | some c => exact ⟨c, by rw [hget, hcell]⟩
    | none => exact absurd ⟨i, by rw [List.getElem?_take_of_lt hi, hget, hcell]⟩ hnone

theorem exists_written {cells : List Cell} (h : none ∉ cells) : ∃ p, AesBt.written cells = some p := by
  induction cells with
  | nil => exact ⟨[], rfl⟩
  | cons x cells ih =>
    simp only [List.mem_cons, not_or] at h
    obtain ⟨c, rfl⟩ := Option.ne_none_iff_exists'.mp (Ne.symm h.1)
    obtain ⟨p, hp⟩ := ih h.2
    exact ⟨c :: p, by rw [AesBt.written, hp]; rfl⟩

/-- Blocks that have been written are decrypted, into blocks that have been written. -/
theorem exists_decryptRounds {key : Block} {round : Nat} {cells : List Cell}
    (h : none ∉ cells.take (16 * round)) :
    ∃ out, AesBt.decryptRounds core key round cells = some out ∧ none ∉ out := by
  induction round generalizing cells with
  | zero => exact ⟨[], rfl, List.not_mem_nil⟩
  | succ round ih =>
    rw [Nat.mul_succ, Nat.add_comm, List.take_add, List.mem_append, not_or] at h
    obtain ⟨p, hp⟩ := exists_written h.1
    obtain ⟨out, hout, hnone⟩ := ih h.2
    refine ⟨_, by simp only [AesBt.decryptRounds, hp, hout, Option.bind_eq_bind, Option.bind_some]; rfl, ?_⟩
    simp [hnone]

theorem exists_readUntil {out : List Cell} (h : none ∉ out) :
    ∃ s, Buffer.readUntil (ε := Unit) (· = 0) (out ++ [some 0]) = .ok s := by
  induction out with
  | nil => exact ⟨[], rfl⟩
  | cons x out ih =>
    simp only [List.mem_cons, not_or] at h
    obtain ⟨c, rfl⟩ := Option.ne_none_iff_exists'.mp (Ne.symm h.1)
    obtain ⟨s, hs⟩ := ih h.2
    rw [List.cons_append, Buffer.readUntil, hs]
    split
    · exact ⟨[], rfl⟩
    · exact ⟨c :: s, rfl⟩

theorem decryptBuffer_eq_some {key : Block} {cells out : List Cell} {length : Nat} :
    AesBt.decryptBuffer core key cells length = some out ↔
      ∃ blocks, AesBt.decryptRounds core key (length / 16) cells = some blocks ∧
        out = blocks ++ List.replicate (length % 16) none := by
  simp only [AesBt.decryptBuffer, Option.bind_eq_bind, Option.bind_eq_some_iff, Option.pure_def,
    Option.some.injEq]
  exact exists_congr fun _ => and_congr_right fun _ => eq_comm

theorem mod_eq_zero_of_written {key : Block} {cells out : List Cell} {length : Nat}
    (h : AesBt.decryptBuffer core key cells length = some out)
    (hout : ∀ i < length, ∃ c, (out ++ [some 0])[i]? = some (some c)) : length % 16 = 0 := by
  obtain ⟨blocks, hblocks, rfl⟩ := decryptBuffer_eq_some.mp h
  by_contra hmod
  have hlength := length_decryptRounds hblocks
  obtain ⟨k, hk⟩ := Nat.exists_eq_succ_of_ne_zero hmod
  obtain ⟨c, hc⟩ := hout blocks.length (by omega)
  rw [List.append_assoc, List.getElem?_append_right le_rfl, Nat.sub_self, hk, List.replicate_succ] at hc
  cases hc

/-- **What is left after decoding**: every byte that is counted has been written, and there are whole
blocks of them. -/
theorem safe_iff_decoded (token : Bytes) :
    Safe core token ↔ ∃ cells length, Tools.Base64Decode (token.takeWhile (· ≠ 0)) 0 = some (cells, length) ∧
      none ∉ cells.take length ∧ length % 16 = 0 := by
  unfold Safe
  rw [AES_ecb128_decrypt_eq]
  cases hdecode : Tools.Base64Decode (token.takeWhile (· ≠ 0)) 0 with
  | none =>
    refine iff_of_false ?_ (by rintro ⟨cells, length, h, -⟩; cases h)
    rintro ⟨r, hr, -⟩
    cases hr
  | some p =>
  obtain ⟨cells, length⟩ := p
  have hle := length_le_of_Base64Decode hdecode
  constructor
  · rintro ⟨r, hr, hin, hout⟩
    refine ⟨cells, length, rfl, ?_⟩
    simp only [orFault, bind, Except.bind] at hr
    cases hbuffer : AesBt.decryptBuffer core (AesBt.loadBlock (AesBt.get_key core AesBt.seed)) cells length with
    | none => rw [hbuffer] at hr; cases hr
    | some out =>
    rw [hbuffer] at hr
    simp only at hr
    cases hread : Buffer.readUntil (ε := Unit) (· = 0) (out ++ [some 0]) with
    | error fault => rw [hread] at hr; cases hr
    | ok str =>
    rw [hread] at hr
    obtain rfl := Except.ok.inj hr
    exact ⟨(written_below_iff hle).mp hin, mod_eq_zero_of_written hbuffer hout⟩
  · rintro ⟨cells', length', heq, hwritten, hmod⟩
    obtain ⟨rfl, rfl⟩ := Prod.mk.inj (Option.some.inj heq)
    have hwhole : 16 * (length / 16) = length := by omega
    obtain ⟨blocks, hblocks, hnone⟩ : ∃ out, AesBt.decryptRounds core
        (AesBt.loadBlock (AesBt.get_key core AesBt.seed)) (length / 16) cells = some out ∧ none ∉ out :=
      exists_decryptRounds (hwhole.symm ▸ hwritten)
    have hbuffer := decryptBuffer_eq_some.mpr ⟨blocks, hblocks, rfl⟩
    rw [hmod, List.replicate_zero, List.append_nil] at hbuffer
    obtain ⟨str, hstr⟩ := exists_readUntil hnone
    refine ⟨⟨cells, length, blocks ++ [some 0], str⟩, ?_, (written_below_iff hle).mpr hwritten, ?_⟩
    · simp only [orFault, bind, Except.bind, hbuffer, hstr]
      rfl
    · have hlength : length ≤ blocks.length := by rw [length_decryptRounds hblocks, hwhole]
      refine (written_below_iff (hlength.trans (List.length_append ▸ Nat.le_add_right ..))).mpr ?_
      rw [List.take_append_of_le_length hlength]
      exact fun hmem => hnone (List.mem_of_mem_take hmem)

/-- The tokens that the encoder makes are safe. -/
theorem safe_encrypt (s : Bytes) : Safe core (AesBt.AES_ecb128_encryptFixed core s) := by
  set buffer := AesBt.encryptBuffer core (AesBt.loadBlock (AesBt.get_key core AesBt.seed)) s with hbuffer
  have hlength : buffer.length = 16 * ((s.length + 15) / 16) := by
    rw [hbuffer, AesBt.encryptBuffer_eq_rounds, AesBt.length_encryptRounds]
  have htext : (Base64Encode buffer).takeWhile (· ≠ 0) = Base64Encode buffer := by
    rw [List.takeWhile_eq_self_iff]
    exact fun c hc => decide_eq_true (ne_of_mem_of_not_mem hc (zero_notMem_Base64Encode _))
  rw [safe_iff_decoded, AesBt.AES_ecb128_encryptFixed, AesBt.AES_ecb128_encrypt, ← hbuffer, htext]
  refine ⟨_, _, Base64Decode_Base64Encode buffer 0, ?_, by omega⟩
  rw [List.take_left' (List.length_map ..)]
  simp

/-- **The safe tokens** are those that are well formed. -/
theorem safe_iff (core : AesCore) (token : Bytes) :
    Safe core token ↔ WellFormed (token.takeWhile (· ≠ 0)) := by
  have h0 : 0 ∉ token.takeWhile (· ≠ 0) := fun hmem => by simpa using List.mem_takeWhile_imp hmem
  rw [safe_iff_decoded]
  generalize token.takeWhile (· ≠ 0) = t at h0
  unfold Tools.Base64Decode WellFormed
  by_cases hshort : t.length < 4
  · rw [if_pos hshort, ite_self]
    exact iff_of_true ⟨[], 0, rfl, List.not_mem_nil, rfl⟩ (.inl hshort)
  rw [if_neg (by rw [List.isEmpty_iff_length_eq_zero]; omega), if_neg hshort, or_iff_right hshort,
    ← units_iff h0 (by omega) (padding_le t)]
  simp only [Option.map_eq_some_iff, Prod.mk.injEq]
  constructor
  · rintro ⟨cells, length, ⟨cells, hcells, rfl, rfl⟩, hwritten, hmod⟩
    exact ⟨⟨cells, hcells, hwritten⟩, hmod⟩
  · rintro ⟨⟨cells, hcells, hwritten⟩, hmod⟩
    exact ⟨cells, _, ⟨cells, hcells, rfl, rfl⟩, hwritten, hmod⟩

/-- A character outside the alphabet is not found, and of three bytes none is decrypted. -/
theorem not_safe : (∀ core, AES_ecb128_decrypt core (bytes "****") = .error not_found) ∧
    (∀ core, AES_ecb128_decrypt core (bytes "AAAA") = .error .uninitialised) ∧
    ¬ ∀ core token, Safe core token := by
  have hstars : ∀ core, AES_ecb128_decrypt core (bytes "****") = .error not_found := by
    intro core
    rw [AES_ecb128_decrypt_eq, show Tools.Base64Decode ((bytes "****").takeWhile (· ≠ 0)) 0 = none by decide]
    rfl
  refine ⟨hstars, ?_, ?_⟩
  · intro core
    rw [AES_ecb128_decrypt_eq, show Tools.Base64Decode ((bytes "AAAA").takeWhile (· ≠ 0)) 0 =
      some ([some 0, some 0, some 0], 3) by decide]
    rfl
  · intro h
    obtain ⟨r, hr, -⟩ := h ⟨fun _ => [], fun _ => id, fun _ => id⟩ (bytes "****")
    rw [hstars] at hr
    cases hr

end SparkFrame.Tools.TokenBuffers
