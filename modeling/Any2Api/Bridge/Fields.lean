import Any2Api.Json.Value
import Any2Api.Library.Result
import Any2Api.Protocol.Error

/-! How the bridge reads the members of JSON objects, and the third-party
functions it relies on. -/
namespace Any2Api.Bridge

open Any2Api.Json

/-- The JSON codec and the hash function, which are not part of the gateway.
Encoding a value never fails; `sha256` is the digest of the UTF-8 text. -/
structure Platform where
  toJson : Value → String
  fromJson : String → Option Value
  sha256 : String → Bytes

/-- A codec and a hash that suffice for plain names, for sample runs. -/
def plainPlatform : Platform := ⟨fun _ => "{}", fun _ => none, fun _ => []⟩

def invalid (message : String) : ProtocolError := .invalidPayload message

/-- The members of a request or response that must be strings are read with
the two functions below; the error text is the name of the member. -/
def requiredStringAllowEmpty (value : Option Value) (field : String) :
    Except ProtocolError String :=
  match value.bind Value.asStr with
  | some text => .ok text
  | none => .error (invalid field)

def requiredString (value : Option Value) (field : String) : Except ProtocolError String :=
  match value.bind Value.asStr with
  | some text => if text = "" then .error (invalid field) else .ok text
  | none => .error (invalid field)

/-- The first member that is not allowed is an error. -/
def rejectFields (object : Object) (scope : String) (allowed : List String) :
    Except ProtocolError Unit :=
  match object.keys.find? (· ∉ allowed) with
  | some field => .error (.unsupportedField (some scope) field)
  | none => .ok ()

theorem requiredString_eq_ok {value : Option Value} {field text : String} :
    requiredString value field = .ok text ↔ value = some (.string text) ∧ text ≠ "" := by
  unfold requiredString
  cases value with
  | none => simp
  | some value =>
    cases value with
    | string found =>
      by_cases hEmpty : found = ""
      · simp [Value.asStr, hEmpty, eq_comm]
      · simp only [Option.bind_some, Value.asStr, hEmpty, if_false, Except.ok.injEq,
          Option.some.injEq, Value.string.injEq]
        exact ⟨fun h => ⟨h, h ▸ hEmpty⟩, fun h => h.1⟩
    | _ => simp [Value.asStr]

end Any2Api.Bridge
