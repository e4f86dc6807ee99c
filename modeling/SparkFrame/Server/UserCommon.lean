import Mathlib.Data.List.Nodup
import SparkFrame.Tools.Json

/-!
# Record classes: `CommonDefine/FiledClass.h`, `CommonDefine/UserCommon.h`

The macros `FIELD_CLASSn` write one class for each list of fields; here the list is data.

* `FieldType` : the field types, with their values, defaults and JSON types;
* `FieldClass`, `Record` : a class and its objects;
* `m_jv_temp`, `to_json`, `from_json` : the members the macro writes; `mem_members_to_json` : the
  members of the JSON; `from_json_to_json` : **an object is restored from its own JSON**;
* `AccountInfo`, `UserInfo` : the two classes of `UserCommon.h`.
-/

namespace SparkFrame.Server

open SparkFrame.Tools

/-! ## Field types -/

inductive FieldType where
  | StringType
  | IntType
  | UIntType
  | Int64Type
  | UInt64Type
deriving DecidableEq, Repr

namespace FieldType

abbrev FieldValue : FieldType → Type
  | .StringType => Bytes
  | .IntType => BitVec 32
  | .UIntType => BitVec 32
  | .Int64Type => BitVec 64
  | .UInt64Type => BitVec 64

/-- The empty value of the JSON type. -/
def JsonType : FieldType → Json
  | .StringType => .string []
  | .IntType => .number_integer 0
  | .UIntType => .number_unsigned 0
  | .Int64Type => .number_integer 0
  | .UInt64Type => .number_unsigned 0

/-- The conversion of a field to JSON. -/
def toJson : (t : FieldType) → t.FieldValue → Json
  | .StringType, s => .string s
  | .IntType, i => .number_integer (i.signExtend 64)
  | .UIntType, u => .number_unsigned (u.setWidth 64)
  | .Int64Type, i => .number_integer i
  | .UInt64Type, u => .number_unsigned u

/-- `get<FieldValue>()`. -/
def get : (t : FieldType) → Json → Except JsonError t.FieldValue
  | .StringType, jv => jv.get_string
  | .IntType, jv => jv.get_integer 32
  | .UIntType, jv => jv.get_integer 32
  | .Int64Type, jv => jv.get_integer 64
  | .UInt64Type, jv => jv.get_integer 64

theorem get_toJson (t : FieldType) (x : t.FieldValue) : t.get (t.toJson x) = .ok x := by
  cases t with
  | StringType => rfl
  | IntType =>
    show Except.ok ((BitVec.signExtend 64 x).setWidth 32) = _
    congr 1
    apply BitVec.eq_of_getLsbD_eq
    intro i hi
    rw [BitVec.getLsbD_setWidth, BitVec.getLsbD_signExtend, if_pos hi]
    simp [hi, show i < 64 by omega]
  | UIntType =>
    show Except.ok ((BitVec.setWidth 64 x).setWidth 32) = _
    rw [BitVec.setWidth_setWidth_of_le _ (by decide), BitVec.setWidth_eq]
  | Int64Type =>
    show Except.ok (BitVec.setWidth 64 x) = _
    rw [BitVec.setWidth_eq]
  | UInt64Type =>
    show Except.ok (BitVec.setWidth 64 x) = _
    rw [BitVec.setWidth_eq]

end FieldType

/-! ## Classes and their objects -/

/-- A field: its name and its type. -/
abbrev Field := Bytes × FieldType

/-- A class with at least one field, no two of one name. -/
structure FieldClass where
  fields : List Field
  nonempty : fields ≠ []
  names : (fields.map Prod.fst).Nodup

/-- One value for each field. -/
def Values : List Field → Type
  | [] => Unit
  | field :: fields => field.2.FieldValue × Values fields

/-- An object of the class. -/
abbrev Record (c : FieldClass) := Values c.fields

/-- The assignments `jv["field"] = m_field`, one after another. -/
def assignFields : (fields : List Field) → Values fields → Json → Json
  | [], _, jv => jv
  | field :: fields, (x, xs), jv => assignFields fields xs (jv.assign field.1 (field.2.toJson x))

/-- The members an object is given, in the order of the fields. -/
def fieldMembers : (fields : List Field) → Values fields → List (Bytes × Json)
  | [], _ => []
  | field :: fields, (x, xs) => (field.1, field.2.toJson x) :: fieldMembers fields xs

/-- The assignments `m_field = jv["field"].get<FieldValue>()`, one after another. -/
def readFields (jv : Json) : (fields : List Field) → Except JsonError (Values fields)
  | [] => .ok ()
  | field :: fields => do
    let x ← field.2.get (← jv.member field.1)
    let xs ← readFields jv fields
    return (x, xs)

namespace FieldClass

variable {c : FieldClass}

/-- The object of the empty values of all fields. -/
def m_jv_temp (c : FieldClass) : Json :=
  c.fields.foldl (fun jv field => jv.assign field.1 field.2.JsonType) .null

def to_json (r : Record c) : Json := assignFields c.fields r .null

def from_json (c : FieldClass) (jv : Json) : Except JsonError (Record c) := readFields jv c.fields

end FieldClass

/-! ## Back from JSON -/

theorem is_object_assignFields (fields : List Field) (xs : Values fields) {jv : Json}
    (h : jv = .null ∧ fields ≠ [] ∨ jv.is_object = true) :
    (assignFields fields xs jv).is_object = true := by
  induction fields generalizing jv with
  | nil =>
    rcases h with ⟨-, hne⟩ | h
    · exact absurd rfl hne
    · exact h
  | cons field fields ih =>
    have hjv : jv = .null ∨ jv.is_object = true := h.imp_left And.left
    exact ih _ (.inr (Json.is_object_assign field.1 _ hjv))

theorem find_assignFields_of_notMem {key : Bytes} (fields : List Field) (xs : Values fields)
    (jv : Json) (h : key ∉ fields.map Prod.fst) :
    (assignFields fields xs jv).find key = jv.find key := by
  induction fields generalizing jv with
  | nil => rfl
  | cons field fields ih =>
    rw [List.map_cons, List.mem_cons, not_or] at h
    exact (ih xs.2 _ h.2).trans (Json.find_assign_of_ne h.1 _ jv)

theorem map_fst_fieldMembers (fields : List Field) (xs : Values fields) :
    (fieldMembers fields xs).map Prod.fst = fields.map Prod.fst := by
  induction fields with
  | nil => rfl
  | cons field fields ih => exact congrArg (field.1 :: ·) (ih xs.2)

theorem find_assignFields {fields : List Field} {xs : Values fields} {jv : Json}
    (hjv : jv = .null ∨ jv.is_object = true) (hnames : (fields.map Prod.fst).Nodup)
    {e : Bytes × Json} (he : e ∈ fieldMembers fields xs) :
    (assignFields fields xs jv).find e.1 = some e.2 := by
  induction fields generalizing jv with
  | nil => cases he
  | cons field fields ih =>
    rw [List.map_cons, List.nodup_cons] at hnames
    rcases List.mem_cons.1 he with rfl | he
    · exact (find_assignFields_of_notMem fields xs.2 _ hnames.1).trans (Json.find_assign_self _ _ hjv)
    · exact ih (.inr (Json.is_object_assign _ _ hjv)) hnames.2 he

theorem mem_members_assignFields {fields : List Field} {xs : Values fields} {jv : Json}
    {e : Bytes × Json} (he : e ∈ (assignFields fields xs jv).members) :
    e ∈ fieldMembers fields xs ∨ e ∈ jv.members := by
  induction fields generalizing jv with
  | nil => exact .inr he
  | cons field fields ih =>
    rcases ih he with he | he
    · exact .inl (List.mem_cons_of_mem _ he)
    · rcases Json.mem_members_assign he with rfl | he
      · exact .inl (List.mem_cons_self ..)
      · exact .inr he

theorem readFields_of_find {jv : Json} (fields : List Field) (xs : Values fields)
    (h : ∀ e ∈ fieldMembers fields xs, jv.find e.1 = some e.2) : readFields jv fields = .ok xs := by
  induction fields with
  | nil => rfl
  | cons field fields ih =>
    obtain ⟨x, xs⟩ := xs
    have hfind : jv.find field.1 = some (field.2.toJson x) := h (_, _) (List.mem_cons_self ..)
    have hrest := ih xs fun e he => h e (List.mem_cons_of_mem _ he)
    simp only [readFields, Json.member_of_find hfind, hrest, FieldType.get_toJson, bind, Except.bind,
      pure, Except.pure]
    rfl

namespace FieldClass

variable {c : FieldClass}

/-- **An object is restored from its own JSON.** -/
theorem from_json_to_json (r : Record c) : c.from_json (to_json r) = .ok r :=
  readFields_of_find c.fields r fun _ he => find_assignFields (.inl rfl) c.names he

theorem is_object_to_json (r : Record c) : (to_json r).is_object = true :=
  is_object_assignFields c.fields r (.inl ⟨rfl, c.nonempty⟩)

theorem mem_members_to_json {r : Record c} {e : Bytes × Json} :
    e ∈ (to_json r).members ↔ e ∈ fieldMembers c.fields r := by
  refine ⟨fun he => (mem_members_assignFields he).resolve_right List.not_mem_nil, fun he => ?_⟩
  exact Json.mem_members_of_find (find_assignFields (.inl rfl) c.names he)

theorem find_to_json {r : Record c} {e : Bytes × Json} (he : e ∈ (to_json r).members) :
    (to_json r).find e.1 = some e.2 :=
  find_assignFields (.inl rfl) c.names (mem_members_to_json.mp he)

theorem snd_eq_of_mem {r : Record c} {e e' : Bytes × Json} (he : e ∈ fieldMembers c.fields r)
    (he' : e' ∈ fieldMembers c.fields r) (h : e.1 = e'.1) : e.2 = e'.2 := by
  have hnames := c.names
  rw [← map_fst_fieldMembers c.fields r] at hnames
  rw [List.inj_on_of_nodup_map hnames he he' h]

end FieldClass

/-! ## The classes of `UserCommon.h` -/

def AccountInfo : FieldClass where
  fields := [(bytes "account", .StringType), (bytes "user_id", .IntType)]
  nonempty := nofun
  names := by decide

def UserInfo : FieldClass where
  fields := [(bytes "account", .StringType), (bytes "device_code", .StringType),
    (bytes "device_name", .StringType), (bytes "app_type", .IntType), (bytes "user_id", .IntType),
    (bytes "user_sex", .IntType), (bytes "user_name", .StringType),
    (bytes "header_url", .StringType), (bytes "user_level", .IntType),
    (bytes "user_cur_exp", .IntType), (bytes "need_exp", .IntType),
    (bytes "last_login_time", .IntType), (bytes "last_offline_time", .IntType),
    (bytes "is_robot", .IntType)]
  nonempty := nofun
  names := by decide

end SparkFrame.Server
