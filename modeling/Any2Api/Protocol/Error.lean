import Mathlib.Data.List.Basic

/-! Wire bytes and the error type shared by every protocol adapter and bridge. -/
namespace Any2Api

abbrev Bytes := List UInt8

/-- The errors a modelled protocol function can return. Registration errors of
the adapter registry are outside this development. -/
inductive ProtocolError where
  | unsupported (operation : String)
  | sessionBindingLost
  | continuationTooLarge (bytes maxBytes : Nat)
  | internal (message : String)
  | invalidPayload (message : String)
  deriving DecidableEq

namespace ProtocolError

/-- The display text of an error. -/
def text : ProtocolError → String
  | .unsupported operation => "unsupported protocol operation: " ++ operation
  | .sessionBindingLost => "protocol bridge session binding was lost"
  | .continuationTooLarge bytes maxBytes =>
    "protocol bridge continuation state is too large: " ++ toString bytes ++ " > " ++
      toString maxBytes ++ " bytes"
  | .internal message => "protocol processing failed: " ++ message
  | .invalidPayload message => "invalid protocol payload: " ++ message

/-- A request token is echoed in a diagnostic only when it is short ASCII. -/
def diagnosticToken (value : String) : Option String :=
  if value ≠ "" ∧ value.utf8ByteSize ≤ 64 ∧
      value.toList.all (fun c => c.isAlphanum || c == '_' || c == '-') then
    some value
  else none

def unsupportedField (scope : Option String) (field : String) : ProtocolError :=
  .invalidPayload <| match scope, diagnosticToken field with
    | some scope, some field => "unsupported field `" ++ scope ++ "." ++ field ++ "`"
    | some scope, none => "unsupported field under `" ++ scope ++ "`"
    | none, some field => "unsupported field `" ++ field ++ "`"
    | none, none => "request contains an unsupported field"

def unsupportedValue (label value : String) : ProtocolError :=
  .invalidPayload <| match diagnosticToken value with
    | none => label ++ " is unsupported"
    | some value => label ++ " `" ++ value ++ "` is unsupported"

end ProtocolError

end Any2Api
