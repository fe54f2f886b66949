import Any2Api.Bridge.Response
import Any2Api.Bridge.StreamEvents

/-! One streamed tool call: what is known about it so far, and the events of
its item. -/
namespace Any2Api.Bridge

open Any2Api.Json

def maxBridgeContinuationStateBytes : Nat := 16 * 1024 * 1024

def reserveContinuationBytes (bytes additional : Nat) : Except ProtocolError Nat :=
  if bytes + additional > maxBridgeContinuationStateBytes then
    .error (.continuationTooLarge (bytes + additional) maxBridgeContinuationStateBytes)
  else .ok (bytes + additional)

def serializedJsonBytes (platform : Platform) (value : Value) : Nat :=
  (platform.toJson value).utf8ByteSize

/-- The size of a text inside its quotes. -/
def serializedTextBytes (platform : Platform) (text : String) : Nat :=
  serializedJsonBytes platform (.string text) - 2

/-- `emittedPayload` counts the characters of the payload that were sent. -/
structure ToolState where
  outputIndex : Option Nat
  itemId : String
  kind : Option ChatToolKind
  callId : Option String
  name : Option String
  payload : String
  emittedPayload : Nat
  identity : Option ToolIdentity
  done : Bool

namespace ToolState

def default : ToolState := ⟨none, "", none, none, none, "", 0, none, false⟩

variable (state : ToolState)

/-- The call as it is kept for the next turn. -/
def assistantCall : Option Value := do
  let kind ← state.kind
  let callId ← state.callId
  let name ← state.name
  pure (match kind with
    | .function => .obj [("id", .string callId), ("type", .string "function"),
        ("function", .obj [("name", .string name), ("arguments", .string state.payload)])]
    | .custom => .obj [("id", .string callId), ("type", .string "custom"),
        ("custom", .obj [("name", .string name), ("input", .string state.payload)])])

/-- The kind a fragment declares. -/
def explicitKind (object : Object) : Except ProtocolError (Option ChatToolKind) :=
  match object.get? "type" with
  | none | some .null => .ok none
  | some (.string kind) =>
    if kind = "function" then .ok (some .function)
    else if kind = "custom" then .ok (some .custom)
    else .error (.unsupportedValue "streamed tool call type" kind)
  | some _ => .error (invalid "streamed tool call type must be a string")

/-- The kind that follows from the payload a fragment has. -/
def inferredKind (object : Object) : Except ProtocolError (Option ChatToolKind) :=
  match (object.get? "function").any (!·.isNull), (object.get? "custom").any (!·.isNull) with
  | true, false => .ok (some .function)
  | false, true => .ok (some .custom)
  | true, true => .error (invalid "streamed tool call has two payload types")
  | false, false => .ok none

def emptyCall : ChatToolKind → Value
  | .function => .obj [("id", .string ""), ("type", .string "function"),
      ("function", .obj [("name", .string ""), ("arguments", .string "")])]
  | .custom => .obj [("id", .string ""), ("type", .string "custom"),
      ("custom", .obj [("name", .string ""), ("input", .string "")])]

variable (platform : Platform)

def observeKind (object : Object) (state : ToolState) (bytes : Nat) :
    Except ProtocolError (ToolState × Nat) := do
  let explicit ← explicitKind object
  let inferred ← inferredKind object
  if explicit.isSome ∧ inferred.isSome ∧ explicit ≠ inferred then
    throw (invalid "streamed tool call type conflicts with its payload")
  else
    match explicit.or inferred, state.kind with
    | none, _ => pure (state, bytes)
    | some observed, none => do
        let bytes ← reserveContinuationBytes bytes
          (serializedJsonBytes platform (emptyCall observed) + 1)
        pure ({ state with kind := some observed }, bytes)
    | some observed, some existing =>
      if existing = observed then pure (state, bytes)
      else throw (invalid "streamed tool call type changed")

def payloadObject (kind : Option ChatToolKind) (object : Object) :
    Except ProtocolError (Option Object) :=
  match kind with
  | none => .ok none
  | some kind =>
    match object.get? (match kind with | .function => "function" | .custom => "custom") with
    | none | some .null => .ok none
    | some (.object fields) => .ok (some fields)
    | some _ => .error (invalid "streamed tool call payload must be an object")

/-- Ids and names come once, or again unchanged. -/
def setOnce (target : Option String) (value : Option Value)
    (field : String) (bytes : Nat) : Except ProtocolError (Option String × Nat) :=
  match value with
  | none => .ok (target, bytes)
  | some value =>
    match value.asStr with
    | none => .error (invalid field)
    | some text =>
      match target with
      | none => do
          let bytes ← reserveContinuationBytes bytes (serializedTextBytes platform text)
          pure (some text, bytes)
      | some existing =>
        if existing = text then .ok (target, bytes)
        else .error (invalid (field ++ " changed"))

def payloadField : ChatToolKind → String
  | .function => "arguments"
  | .custom => "input"

def appendPayload (payload : Object) (state : ToolState) (bytes : Nat) :
    Except ProtocolError (ToolState × Nat) :=
  match state.kind with
  | none => .ok (state, bytes)
  | some kind =>
    match payload.get? (payloadField kind) with
    | none => .ok (state, bytes)
    | some value =>
      match value.asStr with
      | none => .error (invalid "streamed tool call payload fragment must be a string")
      | some text => do
          let bytes ← reserveContinuationBytes bytes (serializedTextBytes platform text)
          pure ({ state with payload := state.payload ++ text }, bytes)

/-- The name and the payload of a fragment, if it has a payload object. -/
def observePayload (object : Object) (state : ToolState) (bytes : Nat) :
    Except ProtocolError (ToolState × Nat) := do
  match ← payloadObject state.kind object with
  | none => pure (state, bytes)
  | some payload => do
      let (name, bytes) ← setOnce platform state.name (payload.get? "name")
        "streamed tool call name" bytes
      appendPayload platform payload { state with name } bytes

/-- The identity is looked up as soon as kind and name are known. -/
def resolveIdentity (projection : ToolProjection) (state : ToolState) :
    Except ProtocolError ToolState :=
  match state.identity, state.kind, state.name with
  | none, some kind, some name => do
      return { state with identity := some (← projection.activeIdentity kind name) }
  | _, _, _ => .ok state

/-- Take over what a fragment says about the call. -/
def observe (projection : ToolProjection) (object : Object)
    (state : ToolState) (bytes : Nat) : Except ProtocolError (ToolState × Nat) := do
  let (state, bytes) ← observeKind platform object state bytes
  let (callId, bytes) ← setOnce platform state.callId (object.get? "id") "streamed tool call id"
    bytes
  let (state, bytes) ← observePayload platform object { state with callId } bytes
  let state ← resolveIdentity projection state
  pure (state, bytes)

/-- The content channel of a call whose payload can be passed on as it comes.
Other calls are only restored when they are complete. -/
def channel : Option Channel :=
  match state.identity with
  | some (.function _) | some (.namespaceFunction _ _) => some .function
  | some (.custom _) | some (.namespaceCustom _ _) =>
    if state.kind = some .custom then some .custom else none
  | some .toolSearch | none => none

def streamable : Bool :=
  state.callId.any (· ≠ "") && state.channel.isSome

def itemIdOf (responseId : String) (key : Nat) : Option ToolIdentity →
    Except ProtocolError String
  | none => .error (invalid "streamed tool projection is incomplete")
  | some (.function _) | some (.namespaceFunction _ _) =>
    .ok (functionCallItemId responseId (toString key))
  | some (.custom _) | some (.namespaceCustom _ _) =>
    .ok (customCallItemId responseId (toString key))
  | some .toolSearch => .ok (toolSearchCallItemId responseId (toString key))

def initialCall : ToolIdentity → RestoredToolCall
  | .function name => .function name none ""
  | .namespaceFunction space name => .function name (some space) ""
  | .custom name => .custom name none ""
  | .namespaceCustom space name => .custom name (some space) ""
  | .toolSearch => .toolSearch (.obj [])

def addedItem : Except ProtocolError Value :=
  match state.identity with
  | none => .error (invalid "streamed tool projection is incomplete")
  | some identity =>
    match state.callId with
    | none => .error (invalid "streamed tool call id is incomplete")
    | some callId =>
      .ok ((restoredCallItem "placeholder" "0" callId (initialCall identity)
        "in_progress").set "id" (.string state.itemId))

/-- Give the call the next output index and announce its item. -/
def allocate (responseId : String) (key next : Nat) (state : ToolState) :
    Except ProtocolError (List (Nat × ItemEvent) × ToolState) := do
  let itemId ← itemIdOf responseId key state.identity
  let state := { state with outputIndex := some next, itemId }
  let item ← state.addedItem
  pure ([(next, .added item)], state)

/-- Send the part of the payload that has not been sent yet. -/
def emitPayloadDelta : List (Nat × ItemEvent) × ToolState :=
  match state.outputIndex with
  | none => ([], state)
  | some index =>
    if state.payload.length ≤ state.emittedPayload then ([], state)
    else
      let delta := String.ofList (state.payload.toList.drop state.emittedPayload)
      let after := { state with emittedPayload := state.payload.length }
      match state.channel with
      | some channel => ([(index, .delta channel state.itemId delta)], after)
      | none => ([], after)

end ToolState

end Any2Api.Bridge
