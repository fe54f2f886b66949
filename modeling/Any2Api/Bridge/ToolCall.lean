import Any2Api.Bridge.ToolProjection

/-! Calls on their way through the projection: a call of the client's history
becomes a Chat call, and a call the target made is restored for the client. -/
namespace Any2Api.Bridge

open Any2Api.Json OpenAiChat

inductive RestoredToolCall where
  | function (name : String) (space : Option String) (arguments : String)
  | custom (name : String) (space : Option String) (input : String)
  | toolSearch (arguments : Value)
  deriving DecidableEq

/-- A namespace may be missing or null, but not empty. -/
def callNamespace (value : Option Value) : Except ProtocolError (Option String) :=
  match value with
  | none | some .null => .ok none
  | some (.string space) =>
    if space = "" then .error (invalid "tool call namespace") else .ok (some space)
  | some _ => .error (invalid "tool call namespace")

def sourceIdentity (object : Object) (kind : SourceCallKind) : Except ProtocolError ToolIdentity :=
  match kind with
  | .toolSearch => .ok .toolSearch
  | .function => do
      let name ← requiredString (object.get? "name") "function_call.name"
      let space ← callNamespace (object.get? "namespace")
      pure (match space with
        | none => .function name
        | some space => .namespaceFunction space name)
  | .custom => do
      let name ← requiredString (object.get? "name") "custom_tool_call.name"
      let space ← callNamespace (object.get? "namespace")
      pure (match space with
        | none => .custom name
        | some space => .namespaceCustom space name)

theorem sourceIdentity_kind {object : Object} {kind : SourceCallKind} {identity : ToolIdentity}
    (h : sourceIdentity object kind = .ok identity) : identity.sourceCallKind = kind := by
  cases kind with
  | toolSearch =>
    cases h
    rfl
  | _ =>
    obtain ⟨name, -, h⟩ := Except.of_bind h
    obtain ⟨space, -, h⟩ := Except.of_bind h
    cases h
    cases space <;> rfl

def functionCall (name arguments : String) : Value :=
  .obj [("type", .string "function"),
    ("function", .obj [("name", .string name), ("arguments", .string arguments)])]

def customCall (name input : String) : Value :=
  .obj [("type", .string "custom"),
    ("custom", .obj [("name", .string name), ("input", .string input)])]

variable (platform : Platform)

/-- The Chat form of a call of the history, still without its id. -/
def chatCall (profile : CompletionsProfile) (object : Object)
    (kind : SourceCallKind) (identity : ToolIdentity) (chatName : String) :
    Except ProtocolError Value :=
  match kind with
  | .function => do
      let arguments ← requiredString (object.get? "arguments") "function_call.arguments"
      pure (functionCall chatName arguments)
  | .custom => do
      let input ← requiredStringAllowEmpty (object.get? "input") "custom_tool_call.input"
      pure (if identity.chatKind profile = .custom then customCall chatName input
        else functionCall chatName (platform.toJson (.obj [("input", .string input)])))
  | .toolSearch => do
      let execution ← requiredString (object.get? "execution") "tool_search_call.execution"
      if execution ≠ "client" then
        throw (invalid "only client-executed tool_search_call is supported")
      else
        match object.get? "arguments" with
        | none => throw (invalid "tool_search_call.arguments is required")
        | some arguments => pure (functionCall chatName (platform.toJson arguments))

structure ProjectedSourceCall where
  chatCall : Value
  identity : ToolIdentity
  projection : ToolProjection

variable (projection : ToolProjection)

def projectSourceCall (object : Object)
    (kind : SourceCallKind) : Except ProtocolError ProjectedSourceCall := do
  let identity ← sourceIdentity object kind
  if kind = .toolSearch ∧ !projection.hasRegisteredIdentity identity then
    throw (invalid "tool_search_call requires a registered client tool_search")
  else do
    let (chatName, projection) ← projection.ensureIdentity platform identity
    let call ← chatCall platform projection.profile object kind identity chatName
    pure ⟨call, identity, projection⟩

/-- The input of a custom call, which a target without native support wraps
into an object with one member. -/
def customInput (payload : String) : Except ProtocolError String :=
  if projection.profile.customTools = .native then .ok payload
  else
    match platform.fromJson payload with
    | none => .error (invalid "Chat custom tool envelope must be valid JSON")
    | some envelope =>
      match envelope.asObject with
      | none => .error (invalid "Chat custom tool envelope must be an object")
      | some object =>
        if object.length ≠ 1 then
          .error (invalid "Chat custom tool envelope contains unexpected fields")
        else requiredStringAllowEmpty (object.get? "input") "custom tool envelope input"

/-- The call of a known tool as the client sees it. -/
def restoreIdentity
    (identity : ToolIdentity) (payload : String) : Except ProtocolError RestoredToolCall :=
  match identity with
  | .function name => .ok (.function name none payload)
  | .namespaceFunction space name => .ok (.function name (some space) payload)
  | .custom name => do return .custom name none (← customInput platform projection payload)
  | .namespaceCustom space name => do
      return .custom name (some space) (← customInput platform projection payload)
  | .toolSearch =>
    match platform.fromJson payload with
    | some arguments => .ok (.toolSearch arguments)
    | none =>
      .error (invalid "Chat tool_search arguments must contain one complete JSON value")

/-- `restore_function_call` and `restore_custom_call` are this at their kind. -/
def restoreCall (kind : ChatToolKind)
    (name payload : String) : Except ProtocolError RestoredToolCall := do
  let identity ← projection.activeIdentity kind name
  restoreIdentity platform projection identity payload

end Any2Api.Bridge
