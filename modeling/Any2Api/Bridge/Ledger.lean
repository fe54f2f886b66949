import Any2Api.Bridge.ToolCall

/-! The ledger of the tool calls of a conversation: every call id seen so far,
and the calls that still lack their output. -/
namespace Any2Api.Bridge

open Any2Api.Json

structure ConversationLedger where
  seenCalls : Finset String
  outstanding : OrderedMap String ToolIdentity
  outstanding_seen : outstanding.domain ⊆ seenCalls

namespace ConversationLedger

def empty : ConversationLedger := ⟨∅, .empty, by simp⟩

variable (projection : ToolProjection) (ledger : ConversationLedger)

def isSettled : Bool := ledger.outstanding.isEmpty

/-- The ledger with a new call. -/
def record (callId : String) (identity : ToolIdentity) : ConversationLedger :=
  ⟨insert callId ledger.seenCalls, ledger.outstanding.insert callId identity, by
    rw [OrderedMap.domain_insert]
    exact Finset.insert_subset_insert _ ledger.outstanding_seen⟩

/-- The ledger without a call that has its output. -/
def complete (callId : String) : ConversationLedger :=
  ⟨ledger.seenCalls, ledger.outstanding.erase callId, by
    rw [OrderedMap.domain_erase]
    exact (Finset.erase_subset _ _).trans ledger.outstanding_seen⟩

def addCall (callId : String) (identity : ToolIdentity) : Except ProtocolError ConversationLedger :=
  if callId ∈ ledger.seenCalls then
    .error (invalid "tool call.call_id must be unique across the conversation")
  else .ok (ledger.record callId identity)

/-- An output of the current input settles its call if it has the right type. -/
def settle (callId : String) (outputKind : SourceCallKind) :
    Except ProtocolError (ToolIdentity × ConversationLedger) :=
  match ledger.outstanding.get? callId with
  | none =>
    .error (invalid (if callId ∈ ledger.seenCalls then
      "tool call output settles an already completed call"
    else "tool call output references an unknown call_id"))
  | some identity =>
    if identity.sourceCallKind ≠ outputKind then
      .error (invalid "tool call output type does not match its call")
    else .ok (identity, ledger.complete callId)

/-- The kind and name of a call of a stored assistant message. -/
def assistantCall (object : Object) : Except ProtocolError (ChatToolKind × Option Value) :=
  match (object.get? "type").bind Value.asStr with
  | some "function" => .ok (.function, object.get? "function")
  | some "custom" => .ok (.custom, object.get? "custom")
  | _ => .error (invalid "assistant tool call type is unsupported")

/-- The id and the tool of a call of a stored assistant message. -/
def readCall (call : Value) : Except ProtocolError (String × ToolIdentity) :=
  match call.asObject with
  | none => .error (invalid "assistant tool call must be an object")
  | some object => do
      let callId ← requiredString (object.get? "id") "assistant tool call id"
      let (kind, payload) ← assistantCall object
      let name ← requiredString (payload.bind (·.get? "name")) "assistant tool call name"
      let identity ← projection.knownIdentity kind name
      pure (callId, identity)

def scanCall (call : Value) : Except ProtocolError ConversationLedger := do
  let (callId, identity) ← readCall projection call
  ledger.addCall callId identity

def scanAssistantCalls (value : Value) : Except ProtocolError ConversationLedger :=
  match value.asArray with
  | none => .error (invalid "assistant tool_calls must be an array")
  | some calls => calls.foldlM (scanCall projection) ledger

def scanToolOutput (message : Object) : Except ProtocolError ConversationLedger := do
  let callId ← requiredString (message.get? "tool_call_id") "tool message tool_call_id"
  match ledger.outstanding.get? callId with
  | none => throw (invalid "conversation tool output references an unknown call_id")
  | some _ => pure (ledger.complete callId)

def scanMessage (message : Value) : Except ProtocolError ConversationLedger :=
  match message.asObject with
  | none => .error (invalid "conversation message must be an object")
  | some object =>
    match (object.get? "role").bind Value.asStr with
    | some "assistant" =>
      if !ledger.isSettled then
        .error (invalid "assistant message appears before outstanding tool calls are settled")
      else
        match object.get? "tool_calls" with
        | none => .ok ledger
        | some calls => ledger.scanAssistantCalls projection calls
    | some "tool" => ledger.scanToolOutput object
    | some _ =>
      if ledger.isSettled then .ok ledger
      else
        .error (invalid "regular message appears before outstanding tool calls are settled")
    | none => .error (invalid "conversation message role is required")

def fromMessages (messages : List Value) : Except ProtocolError ConversationLedger :=
  messages.foldlM (scanMessage projection) empty

end ConversationLedger

end Any2Api.Bridge
