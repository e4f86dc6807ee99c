import Mathlib.Data.List.Basic
import Mathlib.Data.Rat.Floor

/-!
# JSON values: `libtools/Json.hpp`, `libtools/JsonParser`

Strings are the bytes a `std::string` holds. The members of an object are kept in the order of their
keys, as `std::map` keeps them.

* `Bytes`, `bytes`, `to_string`, `atoll` : strings and the numbers in them; `to_string_injective`;
* `Json`, `JsonError` : the values and what their accessors throw;
* `Json.assign` : `jv[key] = value`; `Json.member` : `jv[key]` of a constant value;
  `find_assign_self`, `find_assign_of_ne` : what is found afterwards;
* `find_foldl_assign` : members assigned one after another;
* `get_string`, `get_integer` : the conversions `get<T>()` that are used.
-/

namespace SparkFrame.Tools

/-! ## Strings -/

/-- `std::string`. -/
abbrev Bytes := List UInt8

/-- A string literal. -/
def bytes (s : String) : Bytes := s.toList.map fun c => .ofNat c.toNat

/-- `std::to_string`. -/
def to_string (i : Int) : Bytes := bytes (toString i)

def isspace (c : UInt8) : Bool := c = 32 || (9 ≤ c && c ≤ 13)

def isdigit (c : UInt8) : Bool := 48 ≤ c && c ≤ 57

/-- The number that the leading digits stand for. -/
def digitsValue (s : Bytes) : Int :=
  (s.takeWhile isdigit).foldl (fun n c => 10 * n + (c.toNat - 48)) 0

/-- `atoll`, which stops at the ends of its range. -/
def atoll (s : Bytes) : BitVec 64 :=
  match s.dropWhile isspace with
  | 45 :: s => .ofInt 64 (max (-digitsValue s) (-2 ^ 63))
  | 43 :: s => .ofInt 64 (min (digitsValue s) (2 ^ 63 - 1))
  | s => .ofInt 64 (min (digitsValue s) (2 ^ 63 - 1))

/-! ## Numbers in strings -/

theorem bytes_inj {s t : String} (hs : ∀ c ∈ s.toList, c.toNat < 256)
    (ht : ∀ c ∈ t.toList, c.toNat < 256) (h : bytes s = bytes t) : s = t := by
  have hread : ∀ {s : String}, (∀ c ∈ s.toList, c.toNat < 256) →
      (bytes s).map (fun b => Char.ofNat b.toNat) = s.toList := by
    intro s hs
    rw [bytes, List.map_map]
    refine (List.map_congr_left fun c hc => ?_).trans (List.map_id _)
    have hb : (UInt8.ofNat c.toNat).toNat = c.toNat :=
      UInt8.toNat_ofNat_of_lt' (hs c hc)
    simp [hb]
  apply String.toList_inj.mp
  rw [← hread hs, h, hread ht]

theorem isDigit_of_mem_repr {n : ℕ} : ∀ c ∈ n.repr.toList, c.isDigit = true := by
  intro c hc
  rw [Nat.toList_repr] at hc
  exact Nat.isDigit_of_mem_toDigits (by decide) (by decide) hc

theorem repr_injective {m n : ℕ} (h : m.repr = n.repr) : m = n := by
  have hdigits := congrArg String.toList h
  rw [Nat.toList_repr, Nat.toList_repr] at hdigits
  rw [← Nat.ofDigitChars_ten_toDigits (n := m), hdigits, Nat.ofDigitChars_ten_toDigits]

theorem toNat_lt_of_isDigit {c : Char} (h : c.isDigit = true) : c.toNat < 256 := by
  rw [Char.isDigit, Bool.and_eq_true, decide_eq_true_eq, decide_eq_true_eq] at h
  exact lt_of_le_of_lt (UInt32.le_iff_toNat_le.mp h.2) (by decide)

theorem toNat_lt_of_mem_toString {i : Int} : ∀ c ∈ (toString i).toList, c.toNat < 256 := by
  intro c hc
  rw [Int.toString_eq_repr, Int.repr_eq_if] at hc
  split at hc
  · exact toNat_lt_of_isDigit (isDigit_of_mem_repr c hc)
  · rw [String.toList_append, List.mem_append] at hc
    rcases hc with hc | hc
    · obtain rfl : c = '-' := by simpa using hc
      decide
    · exact toNat_lt_of_isDigit (isDigit_of_mem_repr c hc)

theorem to_string_injective : Function.Injective to_string := by
  intro i j h
  have hrepr := bytes_inj toNat_lt_of_mem_toString toNat_lt_of_mem_toString h
  rw [Int.toString_eq_repr, Int.toString_eq_repr, Int.repr_eq_if, Int.repr_eq_if] at hrepr
  have hminus : ∀ m n : ℕ, m.repr ≠ "-" ++ n.repr := by
    intro m n heq
    have hmem : '-' ∈ m.repr.toList := by
      rw [heq]
      simp
    exact absurd (isDigit_of_mem_repr _ hmem) (by decide)
  split at hrepr <;> split at hrepr
  · have := repr_injective hrepr
    omega
  · exact absurd hrepr (hminus _ _)
  · exact absurd hrepr.symm (hminus _ _)
  · have := repr_injective ((String.append_right_inj _).mp hrepr)
    omega

/-! ## Values -/

/-- `nlohmann::json`. A finite `double` is given as the rational number it is. -/
inductive Json where
  | null
  | discarded
  | boolean (b : Bool)
  | number_integer (i : BitVec 64)
  | number_unsigned (u : BitVec 64)
  | number_float (x : Rat)
  | string (s : Bytes)
  | array (elements : List Json)
  | object (members : List (Bytes × Json))

/-- What an accessor throws, or runs into where it checks nothing. -/
inductive JsonError where
  | type_error (id : Nat)
  | missing_member
deriving DecidableEq, Repr

theorem bind_eq_ok {ε α β : Type} {x : Except ε α} {f : α → Except ε β} {b : β} :
    x >>= f = .ok b ↔ ∃ a, x = .ok a ∧ f a = .ok b := by
  cases x <;> simp [bind, Except.bind]

namespace Json

def is_valid : Json → Bool
  | .null => false
  | .discarded => false
  | _ => true

def is_object : Json → Bool
  | .object _ => true
  | _ => false

def is_string : Json → Bool
  | .string _ => true
  | _ => false

def is_number : Json → Bool
  | .number_integer _ => true
  | .number_unsigned _ => true
  | .number_float _ => true
  | _ => false

/-- The member of an object, if there is one. -/
def find (key : Bytes) : Json → Option Json
  | .object members => members.lookup key
  | _ => none

/-- The members of an object, in the order of iteration. -/
def members : Json → List (Bytes × Json)
  | .object members => members
  | _ => []

/-- `jv[key]` of a constant value. The member is not looked for before it is used. -/
def member (key : Bytes) : Json → Except JsonError Json
  | .object members =>
    match members.lookup key with
    | some value => .ok value
    | none => .error .missing_member
  | _ => .error (.type_error 305)

/-- A member is replaced, or put in at its place. -/
def insertMember (key : Bytes) (value : Json) : List (Bytes × Json) → List (Bytes × Json)
  | [] => [(key, value)]
  | (k, v) :: members =>
    if key = k then (key, value) :: members
    else if key < k then (key, value) :: (k, v) :: members
    else (k, v) :: insertMember key value members

/-- `jv[key] = value`, where a null value becomes an object. It is not used on other kinds. -/
def assign (jv : Json) (key : Bytes) (value : Json) : Json :=
  match jv with
  | .null => .object [(key, value)]
  | .object members => .object (insertMember key value members)
  | jv => jv

/-- `get<std::string>()`. -/
def get_string : Json → Except JsonError Bytes
  | .string s => .ok s
  | _ => .error (.type_error 302)

/-- `get<T>()` for an integer type `T` of `w` bits. -/
def get_integer (w : Nat) : Json → Except JsonError (BitVec w)
  | .number_integer i => .ok (i.setWidth w)
  | .number_unsigned u => .ok (u.setWidth w)
  | .number_float x => .ok (.ofInt w (if 0 ≤ x then ⌊x⌋ else ⌈x⌉))
  | .boolean b => .ok (if b then 1 else 0)
  | _ => .error (.type_error 302)

/-! ## Members -/

theorem lookup_cons (k j : Bytes) (value : Json) (members : List (Bytes × Json)) :
    ((j, value) :: members).lookup k = if k = j then some value else members.lookup k := by
  by_cases h : k = j
  · simp [h]
  · have hbeq : (k == j) = false := beq_false_of_ne h
    simp only [List.lookup_cons, hbeq, if_neg h]

theorem lookup_insertMember (key k : Bytes) (value : Json) (members : List (Bytes × Json)) :
    (insertMember key value members).lookup k =
      if k = key then some value else members.lookup k := by
  induction members with
  | nil => exact lookup_cons ..
  | cons m members ih =>
    obtain ⟨j, v⟩ := m
    unfold insertMember
    split
    case isTrue hj =>
      rw [lookup_cons, lookup_cons, hj]
      split <;> rfl
    case isFalse hj =>
      split
      · exact lookup_cons ..
      · rw [lookup_cons, lookup_cons, ih]
        by_cases hkj : k = j
        · rw [if_pos hkj, if_neg fun hk => hj (hk.symm.trans hkj), if_pos hkj]
        · rw [if_neg hkj, if_neg hkj]

theorem find_assign_self (key : Bytes) (value : Json) {jv : Json}
    (h : jv = .null ∨ jv.is_object = true) : (jv.assign key value).find key = some value := by
  rcases h with rfl | h
  · simp [assign, find]
  · cases jv with
    | object members => simp [assign, find, lookup_insertMember]
    | _ => cases h

theorem find_assign_of_ne {key k : Bytes} (hk : k ≠ key) (value : Json) (jv : Json) :
    (jv.assign key value).find k = jv.find k := by
  cases jv with
  | null => simp [assign, find, lookup_cons, hk]
  | object members => simp [assign, find, lookup_insertMember, hk]
  | _ => rfl

theorem member_of_find {key : Bytes} {value jv : Json} (h : jv.find key = some value) :
    jv.member key = .ok value := by
  cases jv with
  | object members =>
    have h : members.lookup key = some value := h
    simp only [Json.member, h]
  | _ => cases h

theorem find_of_member {key : Bytes} {jv value : Json} (h : jv.member key = .ok value) :
    jv.find key = some value := by
  cases jv with
  | object members =>
    simp only [Json.member] at h
    split at h
    · next hlookup =>
      cases h
      exact hlookup
    · cases h
  | _ => cases h

theorem is_object_assign (key : Bytes) (value : Json) {jv : Json}
    (h : jv = .null ∨ jv.is_object = true) : (jv.assign key value).is_object = true := by
  rcases h with rfl | h
  · rfl
  · cases jv with
    | object members => rfl
    | _ => cases h

theorem mem_insertMember {key : Bytes} {value : Json} {members : List (Bytes × Json)}
    {e : Bytes × Json} (h : e ∈ insertMember key value members) : e = (key, value) ∨ e ∈ members := by
  induction members with
  | nil => exact .inl (List.mem_singleton.1 h)
  | cons m members ih =>
    unfold insertMember at h
    split at h
    · exact (List.mem_cons.1 h).imp_right (List.mem_cons_of_mem _)
    · split at h
      · exact List.mem_cons.1 h
      · rcases List.mem_cons.1 h with h | h
        · exact .inr (List.mem_cons.2 (.inl h))
        · exact (ih h).imp_right (List.mem_cons_of_mem _)

theorem mem_members_assign {key : Bytes} {value jv : Json} {e : Bytes × Json}
    (h : e ∈ (jv.assign key value).members) : e = (key, value) ∨ e ∈ jv.members := by
  cases jv with
  | null => exact .inl (List.mem_singleton.1 h)
  | object members => exact mem_insertMember h
  | _ => exact .inr h

theorem mem_of_lookup {key : Bytes} {value : Json} {members : List (Bytes × Json)}
    (h : members.lookup key = some value) : (key, value) ∈ members := by
  induction members with
  | nil => cases h
  | cons m members ih =>
    obtain ⟨j, v⟩ := m
    rw [lookup_cons] at h
    split at h
    · next hj =>
      obtain rfl := Option.some.inj h
      rw [hj]
      exact List.mem_cons_self ..
    · exact List.mem_cons_of_mem _ (ih h)

theorem mem_members_of_find {key : Bytes} {value jv : Json} (h : jv.find key = some value) :
    (key, value) ∈ jv.members := by
  cases jv with
  | object members => exact mem_of_lookup h
  | _ => cases h

/-! ### One object's members assigned to another -/

theorem find_foldl_assign_of_notMem {k : Bytes} (members : List (Bytes × Json)) (jv : Json)
    (h : ∀ e ∈ members, e.1 ≠ k) :
    (members.foldl (fun jv e => jv.assign e.1 e.2) jv).find k = jv.find k := by
  induction members generalizing jv with
  | nil => rfl
  | cons e members ih =>
    rw [List.forall_mem_cons] at h
    rw [List.foldl_cons, ih _ h.2, find_assign_of_ne h.1.symm]

theorem find_foldl_assign {k : Bytes} {value : Json} (members : List (Bytes × Json)) {jv : Json}
    (hjv : jv = .null ∨ jv.is_object = true) (hk : ∀ e ∈ members, e.1 = k → e.2 = value)
    (hmem : (k, value) ∈ members ∨ jv.find k = some value) :
    (members.foldl (fun jv e => jv.assign e.1 e.2) jv).find k = some value := by
  induction members generalizing jv with
  | nil => exact hmem.resolve_left (List.not_mem_nil)
  | cons e members ih =>
    rw [List.forall_mem_cons] at hk
    apply ih (.inr (is_object_assign _ _ hjv)) hk.2
    by_cases he : e.1 = k
    · right
      rw [← he, find_assign_self _ _ hjv, hk.1 he]
    · rw [find_assign_of_ne (Ne.symm he)]
      refine hmem.imp_left fun hmem => ?_
      rcases List.mem_cons.1 hmem with rfl | hmem
      · exact absurd rfl he
      · exact hmem

end Json

end SparkFrame.Tools
