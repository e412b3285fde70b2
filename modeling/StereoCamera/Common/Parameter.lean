import Mathlib.Logic.Relation
import StereoCamera.Common.Json
import StereoCamera.Lib.Assoc

/-! Camera parameters and the map that keeps them (`common/Parameter.cpp`). -/

namespace StereoCamera

inductive MemberException
  | outOfRange (key : String)
  | json (e : JsonException)
  deriving DecidableEq

def Json.at (j : Json) (key : String) : Except MemberException Json :=
  match j with
  | .object members =>
    match members.lookup key with
    | none => .error (.outOfRange key)
    | some v => .ok v
  | j => .error (.json (.typeError 304 ("cannot use at() with " ++ j.typeName)))

/-- `j.at(key).get<T>()`, where `get` makes a `T` of what is found. -/
def Json.getAt {α : Type} (get : Json → Except JsonException α) (j : Json) (key : String) :
    Except MemberException α := do
  let v ← j.at key
  (get v).mapError .json

/-- Unlike the other numbers, a double is not made of a boolean. -/
def Json.getDouble : Json → Except JsonException Float
  | .integer n => .ok (Float.ofInt n)
  | .float f => .ok f
  | j => .error (.typeError 302 ("type must be number, but is " ++ j.typeName))

structure Parameter where
  name : Bytes
  type : ParameterType
  value : ParameterValue
  isReadonly : Bool
  isAvailable : Bool

namespace Parameter

def valueJson (p : Parameter) : Json :=
  match p.type with
  | .integer => .integer p.value.intVal.toInt
  | .float => .float p.value.floatVal
  | .enum => .string p.value.enumVal

def typeText : ParameterType → String
  | .integer => "integer"
  | .float => "float"
  | .enum => "enum"

def toJson (p : Parameter) : Json :=
  .object [("is_available", .bool p.isAvailable), ("is_readonly", .bool p.isReadonly),
    ("name", .string p.name), ("type", .string (bytes (typeText p.type))),
    ("value", p.valueJson)]

/-- A type that is none of the three leaves `p.type` what it was without an initializer,
`garbage`. -/
def fromJson (garbage : ParameterType) (j : Json) : Except MemberException Parameter := do
  let name ← j.getAt Json.getString "name"
  let isReadonly ← j.getAt Json.getBool "is_readonly"
  let isAvailable ← j.getAt Json.getBool "is_available"
  let t ← j.getAt Json.getString "type"
  if t = bytes "integer" then
    let v ← j.getAt Json.getInt "value"
    return ⟨name, .integer, { intVal := v, type := .integer }, isReadonly, isAvailable⟩
  else if t = bytes "float" then
    let v ← j.getAt Json.getDouble "value"
    return ⟨name, .float, { floatVal := v, type := .float }, isReadonly, isAvailable⟩
  else if t = bytes "enum" then
    let v ← j.getAt Json.getString "value"
    return ⟨name, .enum, { enumVal := v, type := .enum }, isReadonly, isAvailable⟩
  else
    return ⟨name, garbage, {}, isReadonly, isAvailable⟩

end Parameter

/-- The order of the entries is the one that the map is gone through in. -/
structure ParameterManager where
  params : AList fun _ : Bytes => Parameter

namespace ParameterManager

def empty : ParameterManager := ⟨∅⟩

def define (m : ParameterManager) (param : Parameter) : ParameterManager :=
  ⟨m.params.insert param.name param⟩

/-- `none` is the answer false. -/
def set (m : ParameterManager) (name : Bytes) (value : ParameterValue) :
    Option ParameterManager :=
  match m.params.lookup name with
  | none => none
  | some p =>
    if p.isReadonly then none
    else if ¬p.isAvailable then none
    else some ⟨m.params.replace name { p with value := value }⟩

def list (m : ParameterManager) : List Parameter := m.params.entries.map (·.2)

def toJson (m : ParameterManager) : Json := .array (m.list.map Parameter.toJson)

/-- What an exception leaves behind is part of the result. -/
def readItems (garbage : ParameterType) (m : ParameterManager) :
    List Json → Except MemberException Unit × ParameterManager
  | [] => (.ok (), m)
  | item :: items =>
    match Parameter.fromJson garbage item with
    | .error e => (.error e, m)
    | .ok p => readItems garbage (m.define p) items

def fromJson (garbage : ParameterType) (m : ParameterManager) (j : Json) :
    Except MemberException Unit × ParameterManager :=
  m.readItems garbage j.elements

end ParameterManager

/-! ### What is read back -/

namespace Parameter

def SameValue (t : ParameterType) (v w : ParameterValue) : Prop :=
  match t with
  | .integer => v.intVal = w.intVal
  | .float => v.floatVal = w.floatVal
  | .enum => v.enumVal = w.enumVal

/-- The two cannot be told apart by what a parameter of their type shows. -/
structure Agrees (p q : Parameter) : Prop where
  name : p.name = q.name
  type : p.type = q.type
  isReadonly : p.isReadonly = q.isReadonly
  isAvailable : p.isAvailable = q.isAvailable
  value : SameValue p.type p.value q.value

theorem fromJson_toJson (garbage : ParameterType) (p : Parameter) :
    ∃ q, fromJson garbage p.toJson = .ok q ∧ p.Agrees q := by
  obtain ⟨name, type, value, isReadonly, isAvailable⟩ := p
  cases type with
  | integer =>
    refine ⟨⟨name, .integer, { intVal := Int32.ofInt value.intVal.toInt }, _, _⟩, rfl, ?_⟩
    exact ⟨rfl, rfl, rfl, rfl, (Int32.ofInt_toInt _).symm⟩
  | float =>
    exact ⟨⟨name, .float, { floatVal := value.floatVal, type := .float }, _, _⟩, rfl,
      ⟨rfl, rfl, rfl, rfl, rfl⟩⟩
  | enum =>
    exact ⟨⟨name, .enum, { enumVal := value.enumVal, type := .enum }, _, _⟩, rfl,
      ⟨rfl, rfl, rfl, rfl, rfl⟩⟩

def ValidUtf8 (p : Parameter) : Prop :=
  Utf8.Valid p.name ∧ (p.type = .enum → Utf8.Valid p.value.enumVal)

theorem ValidUtf8.toJson {p : Parameter} (h : p.ValidUtf8) : p.toJson.ValidUtf8 := by
  have hvalue : p.valueJson.ValidUtf8 := by
    unfold valueJson
    split
    · trivial
    · trivial
    · rename_i htype
      exact h.2 htype
  exact ⟨trivial, trivial, h.1, Utf8.valid_encode _, hvalue, trivial⟩

/-- The entry of a parameter file names one of the three types. -/
def NamesType (j : Json) : Prop := ∃ t, j.getAt Json.getString "type" = .ok (bytes (typeText t))

end Parameter

namespace ParameterManager

variable {m m' : ParameterManager}

/-- What may happen to a manager. An exception in the middle of `from_json` leaves the entries
before it in the map, and an insertion may change the order that the map is gone through in. -/
inductive Step : ParameterManager → ParameterManager → Prop
  | define (m : ParameterManager) (param : Parameter) : Step m (m.define param)
  | set {m m' : ParameterManager} {name : Bytes} {value : ParameterValue}
      (h : m.set name value = some m') : Step m m'
  | fromJson (garbage : ParameterType) (m : ParameterManager) {items : List Json}
      (h : ∀ item ∈ items, Parameter.NamesType item) : Step m (m.fromJson garbage (.array items)).2
  | rehash {m m' : ParameterManager} (h : m.params.entries.Perm m'.params.entries) : Step m m'

def Reachable (m : ParameterManager) : Prop := Relation.ReflTransGen Step empty m

def Named (m : ParameterManager) : Prop :=
  ∀ name p, m.params.lookup name = some p → p.name = name

theorem Named.define (h : m.Named) (param : Parameter) : (m.define param).Named := by
  intro name p hp
  by_cases hname : name = param.name
  · subst hname
    rw [ParameterManager.define, AList.lookup_insert] at hp
    cases hp
    rfl
  · rw [ParameterManager.define, AList.lookup_insert_ne hname] at hp
    exact h name p hp

theorem Named.set (h : m.Named) {name : Bytes} {value : ParameterValue}
    (hset : m.set name value = some m') : m'.Named := by
  unfold ParameterManager.set at hset
  split at hset
  · cases hset
  · rename_i p hp
    split_ifs at hset
    cases hset
    intro name' q hq
    by_cases hname : name' = name
    · subst hname
      have hmem : name' ∈ m.params := AList.lookup_isSome.mp (Option.isSome_of_eq_some hp)
      rw [AList.lookup_replace_self _ hmem] at hq
      cases hq
      exact h name' p hp
    · rw [AList.lookup_replace_ne _ hname] at hq
      exact h name' q hq

theorem Named.readItems (h : m.Named) (garbage : ParameterType) (items : List Json) :
    (m.readItems garbage items).2.Named := by
  induction items generalizing m with
  | nil => exact h
  | cons item items ih =>
    unfold ParameterManager.readItems
    split
    · exact h
    · rename_i p _
      exact ih (h.define p)

theorem Step.named (hstep : Step m m') (h : m.Named) : m'.Named := by
  cases hstep with
  | define _ param => exact h.define param
  | set hset => exact h.set hset
  | fromJson garbage _ _ => exact h.readItems garbage _
  | rehash hperm =>
    intro name p hp
    rw [← AList.perm_lookup hperm] at hp
    exact h name p hp

theorem Reachable.named (h : m.Reachable) : m.Named := by
  induction h with
  | refl =>
    intro name p hp
    rw [empty, AList.lookup_empty] at hp
    cases hp
  | tail _ hstep ih => exact hstep.named ih

theorem mem_list_iff (h : m.Named) {p : Parameter} :
    p ∈ m.list ↔ m.params.lookup p.name = some p := by
  unfold list
  rw [List.mem_map]
  constructor
  · rintro ⟨⟨name, q⟩, hmem, rfl⟩
    have hlookup := AList.mem_lookup_iff.mpr hmem
    rw [h name q hlookup]
    exact hlookup
  · intro hlookup
    exact ⟨⟨p.name, p⟩, AList.mem_lookup_iff.mp hlookup, rfl⟩

theorem nodup_names (h : m.Named) : (m.list.map Parameter.name).Nodup := by
  have hkeys : m.list.map Parameter.name = m.params.keys := by
    unfold list AList.keys List.keys
    rw [List.map_map]
    apply List.map_congr_left
    rintro ⟨name, p⟩ hmem
    exact h name p (AList.mem_lookup_iff.mpr hmem)
  rw [hkeys]
  exact m.params.nodupKeys

theorem readItems_toJson (garbage : ParameterType) {ps : List Parameter}
    (hnodup : (ps.map Parameter.name).Nodup) (m : ParameterManager) :
    ∃ m', m.readItems garbage (ps.map Parameter.toJson) = (.ok (), m') ∧
      (∀ p ∈ ps, ∃ q, m'.params.lookup p.name = some q ∧ p.Agrees q) ∧
      ∀ name ∉ ps.map Parameter.name, m'.params.lookup name = m.params.lookup name := by
  induction ps generalizing m with
  | nil => exact ⟨m, rfl, nofun, fun _ _ => rfl⟩
  | cons p ps ih =>
    obtain ⟨hnew, hnodup⟩ := List.nodup_cons.mp hnodup
    obtain ⟨q, hq, hagrees⟩ := Parameter.fromJson_toJson garbage p
    obtain ⟨m', hrun, hread, hkept⟩ := ih hnodup (m.define q)
    refine ⟨m', ?_, ?_, ?_⟩
    · rw [List.map_cons, readItems, hq]
      exact hrun
    · intro p' hp'
      rcases List.mem_cons.mp hp' with rfl | hp'
      · refine ⟨q, ?_, hagrees⟩
        rw [hkept _ hnew, hagrees.name]
        exact AList.lookup_insert _
      · exact hread p' hp'
    · intro name hname
      rw [List.map_cons, List.mem_cons, not_or] at hname
      rw [hkept name hname.2]
      exact AList.lookup_insert_ne (hagrees.name ▸ hname.1)

theorem fromJson_toJson (h : m.Named) (garbage : ParameterType) :
    ∃ m', empty.fromJson garbage m.toJson = (.ok (), m') ∧
      ∀ name, Option.Rel Parameter.Agrees (m.params.lookup name) (m'.params.lookup name) := by
  obtain ⟨m', hrun, hread, hkept⟩ := readItems_toJson garbage (nodup_names h) empty
  refine ⟨m', hrun, fun name => ?_⟩
  rcases hp : m.params.lookup name with _ | p
  · have hfresh : name ∉ m.list.map Parameter.name := by
      intro hmem
      obtain ⟨p, hpmem, rfl⟩ := List.mem_map.mp hmem
      rw [(mem_list_iff h).mp hpmem] at hp
      cases hp
    rw [hkept name hfresh]
    exact .none
  · obtain rfl := h name p hp
    obtain ⟨q, hq, hagrees⟩ := hread p ((mem_list_iff h).mpr hp)
    rw [hq]
    exact .some hagrees

def ValidUtf8 (m : ParameterManager) : Prop := ∀ p ∈ m.list, p.ValidUtf8

def FiniteFloats (m : ParameterManager) : Prop :=
  ∀ p ∈ m.list, p.type = .float → p.value.floatVal.isFinite

theorem ValidUtf8.toJson (h : m.ValidUtf8) : m.toJson.ValidUtf8 := by
  refine Json.allValidUtf8_iff.mpr fun j hj => ?_
  obtain ⟨p, hp, rfl⟩ := List.mem_map.mp hj
  exact (h p hp).toJson

end ParameterManager

end StereoCamera
