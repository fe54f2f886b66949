import Any2Api.Bridge.Fields

/-! The optional settings of a request: what is only validated, and what is
translated for the target. -/
namespace Any2Api.Bridge

open Any2Api.Json

structure ConvertedTextConfig where
  responseFormat : Option Value
  verbosity : Option Value

def validateInclude (value : Option Value) : Except ProtocolError Unit :=
  match value with
  | none => .ok ()
  | some value =>
    match value.asArray with
    | none => .error (invalid "include must be an array")
    | some items =>
      if items.any (·.asStr ≠ some "reasoning.encrypted_content") then
        .error (invalid "only reasoning.encrypted_content can be included by this bridge")
      else .ok ()

def validateClientMetadata (value : Option Value) : Except ProtocolError Unit :=
  match value with
  | none => .ok ()
  | some value =>
    match value.asObject with
    | none => .error (invalid "client_metadata must be an object")
    | some metadata =>
      if (metadata.map Prod.snd).any (!·.isString) then
        .error (invalid "client_metadata values must be strings")
      else .ok ()

def validateReasoningSummary (summary : Option Value) : Except ProtocolError Unit :=
  match summary with
  | none => .ok ()
  | some summary =>
    if summary.asStr ∈ [some "auto", some "concise", some "detailed"] then .ok ()
    else .error (invalid "reasoning.summary must be auto, concise, or detailed")

/-- The effort of a reasoning object; a summary alone asks for nothing. -/
def convertReasoning (value : Value) : Except ProtocolError (Option Value) :=
  match value.asObject with
  | none => .error (invalid "reasoning must be an object")
  | some reasoning => do
      rejectFields reasoning "reasoning" ["effort", "summary"]
      validateReasoningSummary (reasoning.get? "summary")
      match reasoning.get? "effort" with
      | some effort =>
        if effort.isString then pure (some effort)
        else throw (invalid "reasoning.effort must be a string")
      | none =>
        if reasoning.containsKey "summary" then pure none
        else throw (invalid "reasoning must contain effort or summary for this bridge")

/-- Copy a member of a schema format if it is there. -/
def copyMember (source target : Object) (field : String) : Object :=
  match source.get? field with
  | none => target
  | some value => target.insert field value

def convertJsonSchema (format : Object) : Except ProtocolError Value := do
  rejectFields format "text.format" ["type", "name", "description", "schema", "strict"]
  let name ← requiredString (format.get? "name") "text.format.name"
  match (format.get? "schema").filter Value.isObject with
  | none => throw (invalid "text.format.schema must be an object")
  | some schema =>
    let converted := ["description", "strict"].foldl (copyMember format)
      (.ofFields [("name", .string name), ("schema", schema)])
    pure (.obj [("type", .string "json_schema"), ("json_schema", .object converted)])

def convertTextFormat (value : Value) : Except ProtocolError Value :=
  match value.asObject with
  | none => .error (invalid "text.format must be an object")
  | some format => do
      let kind ← requiredString (format.get? "type") "text.format.type"
      if kind = "text" ∨ kind = "json_object" then pure (.obj [("type", .string kind)])
      else if kind = "json_schema" then convertJsonSchema format
      else throw (invalid "text.format type is not supported by this bridge")

def convertVerbosity (value : Value) : Except ProtocolError Value :=
  if value.asStr ∈ [some "low", some "medium", some "high"] then .ok value
  else .error (invalid "text.verbosity must be low, medium, or high")

def convertTextConfig (value : Value) : Except ProtocolError ConvertedTextConfig :=
  match value.asObject with
  | none => .error (invalid "text must be an object")
  | some text => do
      rejectFields text "text" ["format", "verbosity"]
      if text = [] then
        throw (invalid "text must contain format or verbosity for this bridge")
      else
        let responseFormat ← (text.get? "format").mapM convertTextFormat
        let verbosity ← (text.get? "verbosity").mapM convertVerbosity
        pure ⟨responseFormat, verbosity⟩

end Any2Api.Bridge
