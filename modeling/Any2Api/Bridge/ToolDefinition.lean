import Any2Api.Bridge.ToolIdentity

/-! The tools a Responses request declares, and the definitions a Chat
Completions target gets for them. -/
namespace Any2Api.Bridge

open Any2Api.Json OpenAiChat

inductive ParsedTool where
  | function (identity : ToolIdentity) (description : Option String) (parameters : Value)
      (strict deferred : Bool)
  | custom (identity : ToolIdentity) (description : Option String) (format : Option Value)
      (deferred : Bool)
  | toolSearch (description : String) (parameters : Value)
  deriving DecidableEq

namespace ParsedTool

def isDeferred : ParsedTool → Bool
  | .function _ _ _ _ deferred | .custom _ _ _ deferred => deferred
  | .toolSearch _ _ => false

def isToolSearch : ParsedTool → Bool
  | .toolSearch _ _ => true
  | _ => false

def identity : ParsedTool → ToolIdentity
  | .function identity _ _ _ _ | .custom identity _ _ _ => identity
  | .toolSearch _ _ => .toolSearch

/-- The description of a namespace stands before the one of its tool. -/
def prependDescription (space : Option String) (tool : ParsedTool) : ParsedTool :=
  match space with
  | none => tool
  | some text =>
    if text = "" then tool
    else
      let extend (description : Option String) : Option String :=
        some (match description with
          | none => text
          | some child => text ++ "\n\n" ++ child)
      match tool with
      | .function identity description parameters strict deferred =>
        .function identity (extend description) parameters strict deferred
      | .custom identity description format deferred =>
        .custom identity (extend description) format deferred
      | .toolSearch description parameters => .toolSearch description parameters

end ParsedTool

/-- A member that may be missing but otherwise must have the right type. -/
def optionalMember {α : Type} (read : Value → Option α) (value : Option Value) (field : String) :
    Except ProtocolError (Option α) :=
  match value with
  | none => .ok none
  | some value =>
    match read value with
    | some found => .ok (some found)
    | none => .error (invalid field)

def optionalString (value : Option Value) (field : String) :
    Except ProtocolError (Option String) := optionalMember Value.asStr value field

def optionalBool (value : Option Value) (field : String) : Except ProtocolError (Option Bool) :=
  optionalMember (fun | .bool flag => some flag | _ => none) value field

variable (object : Object)

/-- The tool must be callable by the model, unless it is loaded later. -/
def validateLoadingFields : Except ProtocolError Bool := do
  let deferred := (← optionalBool (object.get? "defer_loading") "tool.defer_loading").getD false
  match object.get? "allowed_callers" with
  | none => pure deferred
  | some callers =>
    match callers.asArray with
    | none => throw (invalid "tool.allowed_callers must be an array")
    | some callers =>
      if callers.any (!·.isString) then
        throw (invalid "tool.allowed_callers values must be strings")
      else if !deferred && !callers.any (·.asStr = some "direct") then
        throw (invalid "tool.allowed_callers excludes direct model calls")
      else pure deferred

/-- A member that must be an object if it is there. -/
def optionalObject (value : Option Value) (field : String) : Except ProtocolError (Option Value) :=
  optionalMember (fun value => if value.isObject then some value else none) value field

def parseFunction (space : Option String) : Except ProtocolError ParsedTool := do
  rejectFields object "tools[]" ["type", "name", "description", "parameters", "strict",
    "defer_loading", "output_schema", "allowed_callers"]
  let deferred ← validateLoadingFields object
  if (object.get? "output_schema").any (!·.isNull) then
    throw (invalid "function output_schema has no Chat Completions equivalent")
  let name ← requiredString (object.get? "name") "function tool.name"
  let identity := match space with
    | none => ToolIdentity.function name
    | some space => ToolIdentity.namespaceFunction space name
  let description ← optionalString (object.get? "description") "function tool.description"
  let parameters := (← optionalObject (object.get? "parameters")
    "function tool.parameters must be an object").getD
      (.obj [("type", .string "object"), ("properties", .obj [])])
  let strict := (← optionalBool (object.get? "strict") "function tool.strict").getD false
  pure (.function identity description parameters strict deferred)

def parseCustom (space : Option String) : Except ProtocolError ParsedTool := do
  rejectFields object "tools[]" ["type", "name", "description", "format", "defer_loading"]
  let deferred ← validateLoadingFields object
  let name ← requiredString (object.get? "name") "custom tool.name"
  let identity := match space with
    | none => ToolIdentity.custom name
    | some space => ToolIdentity.namespaceCustom space name
  let description ← optionalString (object.get? "description") "custom tool.description"
  let format ← optionalObject (object.get? "format") "custom tool.format must be an object"
  pure (.custom identity description format deferred)

def parseToolSearch : Except ProtocolError ParsedTool := do
  rejectFields object "tools[]" ["type", "execution", "description", "parameters"]
  let execution ← requiredString (object.get? "execution") "tool_search.execution"
  if execution ≠ "client" then
    throw (invalid "only client-executed tool_search is supported")
  let description ← requiredString (object.get? "description") "tool_search.description"
  match (object.get? "parameters").filter Value.isObject with
  | some parameters => pure (.toolSearch description parameters)
  | none => throw (invalid "tool_search.parameters must be an object")

def parseNamespaceTool (space : String) (description : Option String) (tool : Value) :
    Except ProtocolError ParsedTool :=
  match tool.asObject with
  | none => .error (invalid "namespace tool must be an object")
  | some child => do
      let kind ← requiredString (child.get? "type") "namespace tool.type"
      let parsed ←
        if kind = "function" then parseFunction child (some space)
        else if kind = "custom" then parseCustom child (some space)
        else throw (.unsupportedValue "namespace tool type" kind)
      pure (parsed.prependDescription description)

def parseNamespace : Except ProtocolError (List ParsedTool) := do
  rejectFields object "tools[]" ["type", "name", "description", "tools"]
  let space ← requiredString (object.get? "name") "namespace.name"
  let description ← optionalString (object.get? "description") "namespace.description"
  match (object.get? "tools").bind Value.asArray with
  | none => throw (invalid "namespace.tools must be an array")
  | some [] => throw (invalid "namespace.tools must not be empty")
  | some tools => tools.mapM (parseNamespaceTool space description)

/-- One entry of a `tools` array; a namespace stands for several tools. -/
def parseTopLevel (value : Value) : Except ProtocolError (List ParsedTool) :=
  match value.asObject with
  | none => .error (invalid "tool must be an object")
  | some object => do
      let kind ← requiredString (object.get? "type") "tool.type"
      if kind = "function" then pure [← parseFunction object none]
      else if kind = "custom" then pure [← parseCustom object none]
      else if kind = "namespace" then parseNamespace object
      else if kind = "tool_search" then pure [← parseToolSearch object]
      else throw (.unsupportedValue "tool type" kind)

def parseTools (tools : List Value) : Except ProtocolError (List ParsedTool) := do
  return (← tools.mapM parseTopLevel).flatten

def validateEnvelopeFormat (format : Option Value) : Except ProtocolError Unit :=
  match format with
  | none => .ok ()
  | some format =>
    match format.asObject with
    | none => .error (invalid "custom tool.format must be an object")
    | some object =>
      if object.length = 1 ∧ (object.get? "type").bind Value.asStr = some "text" then .ok ()
      else .error (invalid "custom tool grammar requires native Chat custom tool support")

/-- The optional description of a definition. -/
def describe (description : Option String) (object : Object) : Object :=
  match description with
  | none => object
  | some text => object.insert "description" (.string text)

/-- The definition sent to the target. Custom tools without native support
become functions with one string argument. -/
def ParsedTool.intoChatDefinition (customTools : CustomToolMode) (chatName : String) :
    ParsedTool → Except ProtocolError Value
  | .function _ description parameters strict _ =>
    .ok (.obj [("type", .string "function"), ("function", .object (describe description
      (.ofFields [("name", .string chatName), ("parameters", parameters),
        ("strict", .bool strict)])))])
  | .custom _ description format _ =>
    if customTools = .native then
      let custom := describe description (.ofFields [("name", .string chatName)])
      .ok (.obj [("type", .string "custom"), ("custom", .object (match format with
        | none => custom
        | some format => custom.insert "format" format))])
    else do
      validateEnvelopeFormat format
      pure (.obj [("type", .string "function"), ("function", .object (describe description
        (.ofFields [("name", .string chatName),
          ("parameters", .obj [("type", .string "object"),
            ("properties", .obj [("input", .obj [("type", .string "string")])]),
            ("required", .array [.string "input"]), ("additionalProperties", .bool false)]),
          ("strict", .bool true)])))])
  | .toolSearch description parameters =>
    .ok (.obj [("type", .string "function"), ("function", .obj [("name", .string chatName),
      ("description", .string description), ("parameters", parameters),
      ("strict", .bool false)])])

end Any2Api.Bridge
