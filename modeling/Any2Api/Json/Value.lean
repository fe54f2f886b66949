import Any2Api.Library.OrderedMap
import Mathlib.Data.String.Basic

/-! JSON values as the gateway holds them: numbers in one of three machine
representations, objects as entries in key order. -/
namespace Any2Api.Json

/-- A float is kept by its bit pattern; the bridge only passes it on. -/
inductive Number where
  | posInt (value : UInt64)
  | negInt (value : Int64)
  | float (bits : UInt64)
  deriving DecidableEq

inductive Value where
  | null
  | bool (value : Bool)
  | number (value : Number)
  | string (value : String)
  | array (items : List Value)
  | object (fields : List (String × Value))

/-- The entries of a JSON object in key order. -/
abbrev Object := List (String × Value)

mutual

def Value.decEq : (first second : Value) → Decidable (first = second)
  | .null, .null => isTrue rfl
  | .bool a, .bool b => decidable_of_iff (a = b) (by simp)
  | .number a, .number b => decidable_of_iff (a = b) (by simp)
  | .string a, .string b => decidable_of_iff (a = b) (by simp)
  | .array a, .array b =>
    match decEqItems a b with
    | isTrue h => isTrue (by rw [h])
    | isFalse h => isFalse (by simpa using h)
  | .object a, .object b =>
    match decEqFields a b with
    | isTrue h => isTrue (by rw [h])
    | isFalse h => isFalse (by simpa using h)
  | .null, .bool _ | .null, .number _ | .null, .string _ | .null, .array _ | .null, .object _
  | .bool _, .null | .bool _, .number _ | .bool _, .string _ | .bool _, .array _
  | .bool _, .object _ | .number _, .null | .number _, .bool _ | .number _, .string _
  | .number _, .array _ | .number _, .object _ | .string _, .null | .string _, .bool _
  | .string _, .number _ | .string _, .array _ | .string _, .object _ | .array _, .null
  | .array _, .bool _ | .array _, .number _ | .array _, .string _ | .array _, .object _
  | .object _, .null | .object _, .bool _ | .object _, .number _ | .object _, .string _
  | .object _, .array _ => isFalse (by simp)

def decEqItems : (first second : List Value) → Decidable (first = second)
  | [], [] => isTrue rfl
  | [], _ :: _ => isFalse (by simp)
  | _ :: _, [] => isFalse (by simp)
  | a :: as, b :: bs =>
    match Value.decEq a b, decEqItems as bs with
    | isTrue h, isTrue h' => isTrue (by rw [h, h'])
    | isFalse h, _ => isFalse (by simp [h])
    | _, isFalse h => isFalse (by simp [h])

def decEqFields : (first second : List (String × Value)) → Decidable (first = second)
  | [], [] => isTrue rfl
  | [], _ :: _ => isFalse (by simp)
  | _ :: _, [] => isFalse (by simp)
  | (key, a) :: as, (other, b) :: bs =>
    match decEq key other, Value.decEq a b, decEqFields as bs with
    | isTrue h, isTrue h', isTrue h'' => isTrue (by rw [h, h', h''])
    | isFalse h, _, _ => isFalse (by simp [h])
    | _, isFalse h, _ => isFalse (by simp [h])
    | _, _, isFalse h => isFalse (by simp [h])

end

instance : DecidableEq Value := Value.decEq

namespace Object

def get? (object : Object) (key : String) : Option Value := SortedEntries.get? key object

def insert (object : Object) (key : String) (value : Value) : Object :=
  SortedEntries.insert key value object

def containsKey (object : Object) (key : String) : Bool := (object.get? key).isSome

def keys (object : Object) : List String := object.map Prod.fst

/-- The object of a literal. -/
def ofFields : List (String × Value) → Object
  | [] => []
  | (key, value) :: rest => insert (ofFields rest) key value

@[simp] theorem get?_nil (key : String) : get? [] key = none := rfl

@[simp] theorem get?_insert (object : Object) (key other : String) (value : Value) :
    (object.insert key value).get? other = if other = key then some value else object.get? other :=
  SortedEntries.get?_insert key other value object

@[simp] theorem ofFields_nil : ofFields [] = [] := rfl

@[simp] theorem ofFields_cons (key : String) (value : Value) (rest : List (String × Value)) :
    ofFields ((key, value) :: rest) = (ofFields rest).insert key value := rfl

end Object

namespace Value

/-- An object literal. -/
def obj (fields : List (String × Value)) : Value := .object (Object.ofFields fields)

def nat (value : UInt64) : Value := .number (.posInt value)

def asObject : Value → Option Object
  | .object fields => some fields
  | _ => none

def asArray : Value → Option (List Value)
  | .array items => some items
  | _ => none

def asStr : Value → Option String
  | .string text => some text
  | _ => none

def asU64 : Value → Option UInt64
  | .number (.posInt value) => some value
  | _ => none

def isNull : Value → Bool
  | .null => true
  | _ => false

def isObject (value : Value) : Bool := value.asObject.isSome

def isString (value : Value) : Bool := value.asStr.isSome

/-- A member of an object; nothing else has members. -/
def get? (value : Value) (key : String) : Option Value := value.asObject.bind (·.get? key)

/-- Assign a member of an object. -/
def set (value : Value) (key : String) (member : Value) : Value :=
  match value with
  | .object fields => .object (Object.insert fields key member)
  | other => other

variable {value : Value} {member : Option Value}

theorem asStr_eq_some {text : String} : value.asStr = some text ↔ value = .string text := by
  cases value <;> simp [asStr]

theorem asArray_eq_some {items : List Value} :
    value.asArray = some items ↔ value = .array items := by
  cases value <;> simp [asArray]

/-- A member that is read as a text is that text. -/
theorem bind_asStr_eq_some {text : String} :
    member.bind asStr = some text ↔ member = some (.string text) := by
  cases member <;> simp [asStr_eq_some]

@[simp] theorem get?_object (fields : Object) (key : String) :
    (Value.object fields).get? key = fields.get? key := rfl

@[simp] theorem get?_obj_nil (key : String) : (obj []).get? key = none := rfl

@[simp] theorem get?_obj_cons (key other : String) (value : Value) (rest : List (String × Value)) :
    (obj ((other, value) :: rest)).get? key =
      if key = other then some value else (obj rest).get? key := by
  simp [obj]

/-- Assigning to a literal puts the member in front. -/
theorem set_obj (fields : List (String × Value)) (key : String) (member : Value) :
    (obj fields).set key member = obj ((key, member) :: fields) := rfl

theorem get?_set_of_ne (value : Value) {key other : String} (member : Value) (h : other ≠ key) :
    (value.set key member).get? other = value.get? other := by
  cases value with
  | object fields => simp [set, h]
  | _ => rfl

theorem get?_set_self (key : String) (member : Value)
    (h : value.isObject = true) : (value.set key member).get? key = some member := by
  cases value with
  | object fields => simp [set]
  | _ => cases h

end Value

end Any2Api.Json
