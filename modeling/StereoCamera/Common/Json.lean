import Mathlib.Data.Int.Notation
import StereoCamera.Common.Types
import StereoCamera.Lib.Utf8

/-! The part of `nlohmann::json` that the servers use, with the exceptions it documents. A
`std::string` that can hold any bytes is a list of bytes. -/

namespace StereoCamera

abbrev Bytes := List UInt8

def bytes (s : String) : Bytes := Utf8.encode s

inductive Json
  | null
  | bool (b : Bool)
  | integer (n : ℤ)
  | float (f : Float)
  | string (s : Bytes)
  | array (elements : List Json)
  | object (members : List (String × Json))

/-- The text of a parse error quotes what was read last. -/
inductive JsonException
  | parseError (text : Bytes)
  | typeError (id : ℕ) (text : String)
  deriving DecidableEq

def JsonException.what : JsonException → Bytes
  | .parseError text => text
  | .typeError id text => bytes ("[json.exception.type_error." ++ toString id ++ "] " ++ text)

namespace Json

def typeName : Json → String
  | .null => "null"
  | .bool _ => "boolean"
  | .integer _ | .float _ => "number"
  | .string _ => "string"
  | .array _ => "array"
  | .object _ => "object"

def contains (j : Json) (key : String) : Bool :=
  match j with
  | .object members => (members.lookup key).isSome
  | _ => false

def item (j : Json) (key : String) : Json :=
  match j with
  | .object members => (members.lookup key).getD .null
  | _ => .null

def getString : Json → Except JsonException Bytes
  | .string s => .ok s
  | j => .error (.typeError 302 ("type must be string, but is " ++ j.typeName))

def getInt : Json → Except JsonException Int32
  | .integer n => .ok (Int32.ofInt n)
  | .float f => .ok f.toInt32
  | .bool b => .ok (if b then 1 else 0)
  | j => .error (.typeError 302 ("type must be number, but is " ++ j.typeName))

/-- Unlike an `int`, the types that the library keeps numbers in are not made of a boolean. -/
def getInt64 : Json → Except JsonException Int64
  | .integer n => .ok (Int64.ofInt n)
  | .float f => .ok f.toInt64
  | j => .error (.typeError 302 ("type must be number, but is " ++ j.typeName))

def getSize : Json → Except JsonException UInt64
  | .integer n => .ok (UInt64.ofInt n)
  | .float f => .ok f.toUInt64
  | j => .error (.typeError 302 ("type must be number, but is " ++ j.typeName))

def getBool : Json → Except JsonException Bool
  | .bool b => .ok b
  | j => .error (.typeError 302 ("type must be boolean, but is " ++ j.typeName))

def Denotes (j : Json) (z : ℤ) : Prop :=
  match j with
  | .integer n => n = z
  | .float f => (f == Float.ofInt z) = true
  | _ => False

/-- `j[key]` for a `j` that is not `const`: a null becomes an object. -/
def indexKey (j : Json) (key : String) : Except JsonException Json :=
  match j with
  | .object members => .ok ((members.lookup key).getD .null)
  | .null => .ok .null
  | j =>
    .error (.typeError 305 ("cannot use operator[] with a string argument with " ++ j.typeName))

/-- What `j[key]` makes of `j`, as far as other keys are concerned. -/
def asObject : Json → Json
  | .null => .object []
  | j => j

def size : Json → ℕ
  | .null => 0
  | .array elements => elements.length
  | .object members => members.length
  | _ => 1

/-- `j[i]`, for an index that is in range. -/
def index (j : Json) (i : ℕ) : Except JsonException Json :=
  match j with
  | .array elements => .ok (elements.getD i .null)
  | j =>
    .error (.typeError 305 ("cannot use operator[] with a numeric argument with " ++ j.typeName))

/-- `j.value(key, def)`, where `get` turns what is found into the type of the default. -/
def valueWith {α : Type} (get : Json → Except JsonException α) (j : Json) (key : String)
    (dflt : α) : Except JsonException α :=
  match j with
  | .object members =>
    match members.lookup key with
    | none => .ok dflt
    | some v => get v
  | j => .error (.typeError 306 ("cannot use value() with " ++ j.typeName))

def value (j : Json) (key : String) (dflt : Bytes) : Except JsonException Bytes :=
  j.valueWith getString key dflt

/-- What a range-based `for` goes through. -/
def elements : Json → List Json
  | .null => []
  | .array elements => elements
  | .object members => members.map Prod.snd
  | j => [j]

/-- `get<DataType>`: the type with that name, or else the first one. -/
def getDataType (j : Json) : DataType :=
  match j with
  | .string s =>
    ([.stereoImage, .depthMap, .pointCloud, .imu, .disparityMap, .confidenceMap, .temperature,
      .magnetometer, .barometer].find? fun t => bytes (dataTypeToChannel t) = s).getD .stereoImage
  | _ => .stereoImage

theorem getDataType_channel (t : DataType) :
    getDataType (.string (bytes (dataTypeToChannel t))) = t := by
  cases t <;> decide

theorem getString_eq_ok_iff {j : Json} {s : Bytes} : j.getString = .ok s ↔ j = .string s := by
  cases j <;> simp [getString]

mutual

def ValidUtf8 : Json → Prop
  | .string s => Utf8.Valid s
  | .array elements => AllValidUtf8 elements
  | .object members => MembersValidUtf8 members
  | _ => True

def AllValidUtf8 : List Json → Prop
  | [] => True
  | j :: js => j.ValidUtf8 ∧ AllValidUtf8 js

def MembersValidUtf8 : List (String × Json) → Prop
  | [] => True
  | (_, j) :: members => j.ValidUtf8 ∧ MembersValidUtf8 members

end

mutual

def decValidUtf8 : (j : Json) → Decidable j.ValidUtf8
  | .string s => inferInstanceAs (Decidable (Utf8.Valid s))
  | .array elements => decAllValidUtf8 elements
  | .object members => decMembersValidUtf8 members
  | .null | .bool _ | .integer _ | .float _ => .isTrue trivial

def decAllValidUtf8 : (js : List Json) → Decidable (AllValidUtf8 js)
  | [] => .isTrue trivial
  | j :: js => @instDecidableAnd _ _ j.decValidUtf8 (decAllValidUtf8 js)

def decMembersValidUtf8 : (members : List (String × Json)) → Decidable (MembersValidUtf8 members)
  | [] => .isTrue trivial
  | (_, j) :: members => @instDecidableAnd _ _ j.decValidUtf8 (decMembersValidUtf8 members)

end

instance (j : Json) : Decidable j.ValidUtf8 := j.decValidUtf8

/-- `j.dump()`; `print` is the text of a value that has one. -/
def dump (print : Json → Bytes) (j : Json) : Except JsonException Bytes :=
  if j.ValidUtf8 then .ok (print j) else .error (.typeError 316 "invalid UTF-8 byte")

theorem dump_ok_iff {print : Json → Bytes} {j : Json} :
    (∃ text, j.dump print = .ok text) ↔ j.ValidUtf8 := by
  unfold dump
  split_ifs with h
  · exact ⟨fun _ => h, fun _ => ⟨_, rfl⟩⟩
  · refine ⟨?_, fun h' => absurd h' h⟩
    rintro ⟨text, htext⟩
    cases htext

theorem allValidUtf8_iff {js : List Json} : AllValidUtf8 js ↔ ∀ j ∈ js, j.ValidUtf8 := by
  induction js with
  | nil => simp [AllValidUtf8]
  | cons j js ih => rw [AllValidUtf8, ih, List.forall_mem_cons]

theorem membersValidUtf8_iff {members : List (String × Json)} :
    MembersValidUtf8 members ↔ ∀ kv ∈ members, kv.2.ValidUtf8 := by
  induction members with
  | nil => simp [MembersValidUtf8]
  | cons kv members ih => rw [MembersValidUtf8, ih, List.forall_mem_cons]

theorem ValidUtf8.lookup {members : List (String × Json)} (h : (object members).ValidUtf8)
    {key : String} {v : Json} (hv : members.lookup key = some v) : v.ValidUtf8 := by
  rw [ValidUtf8, membersValidUtf8_iff] at h
  obtain ⟨l₁, l₂, rfl, -⟩ := List.lookup_eq_some_iff.mp hv
  exact h (key, v) (by simp)

end Json

/-- A parser that takes every text for broken. -/
def parseNothing (text : Bytes) : Except JsonException Json := .error (.parseError text)

end StereoCamera
