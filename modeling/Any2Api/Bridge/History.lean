import Any2Api.Bridge.Content
import Any2Api.Bridge.Ledger

/-! Input items become conversation messages. Calls are buffered and merged
into one assistant message, and regular messages wait until every call has its
output. -/
namespace Any2Api.Bridge

open Any2Api.Json OpenAiChat

structure InputAssembler where
  messages : List Value
  projection : ToolProjection
  pendingCalls : List Value
  callMessageIndex : Option Nat
  pendingReasoning : String
  outputCallIds : OrderedMap String SourceCallKind
  ledger : ConversationLedger
  deferredMessages : List Value

/-- The call items and the output items of the input, by type. -/
def callKind : Option String → Option SourceCallKind
  | some "function_call" => some .function
  | some "custom_tool_call" => some .custom
  | some "tool_search_call" => some .toolSearch
  | _ => none

def outputKind : Option String → Option SourceCallKind
  | some "function_call_output" => some .function
  | some "custom_tool_call_output" => some .custom
  | some "tool_search_output" => some .toolSearch
  | _ => none

def itemType (object : Object) : Option String := (object.get? "type").bind Value.asStr

def collectOutputCallId (ids : OrderedMap String SourceCallKind) (item : Value) :
    Except ProtocolError (OrderedMap String SourceCallKind) :=
  match item.asObject with
  | none => .ok ids
  | some object =>
    match outputKind (itemType object) with
    | none => .ok ids
    | some kind => do
        let callId ← requiredString (object.get? "call_id") "tool call output.call_id"
        if (ids.get? callId).isSome then
          throw (invalid "tool call output.call_id must be unique in the current input")
        else pure (ids.insert callId kind)

def collectOutputCallIds (items : List Value) :
    Except ProtocolError (OrderedMap String SourceCallKind) :=
  items.foldlM collectOutputCallId .empty

/-- A `name` on an output is checked against its call. -/
def validateIdentity (object : Object) (identity : ToolIdentity) : Except ProtocolError Unit :=
  match object.get? "name" with
  | none => .ok ()
  | some name =>
    match identity with
    | .custom expected | .namespaceCustom _ expected =>
      if name.asStr = some expected then .ok ()
      else .error (invalid "custom_tool_call_output.name does not match its call")
    | _ => .error (invalid "name is only valid on custom_tool_call_output")

def toolSearchTools (object : Object) : Except ProtocolError (List Value) :=
  match (object.get? "tools").bind Value.asArray with
  | some tools => .ok tools
  | none => .error (invalid "tool_search_output.tools must be an array")

def toolSearchOutput (platform : Platform) (object : Object) (tools : List Value) :
    Except ProtocolError String := do
  let status ← requiredString (object.get? "status") "tool_search_output.status"
  let execution ← requiredString (object.get? "execution") "tool_search_output.execution"
  if execution ≠ "client" then
    throw (invalid "only client-executed tool_search_output is supported")
  else
    pure (platform.toJson (.obj [("status", .string status), ("execution", .string "client"),
      ("tools", .array tools)]))

/-- A plain message of the conversation. -/
def plainMessage (role : String) (content : Value) : Value :=
  .obj [("role", .string role), ("content", content)]

def toolMessage (callId content : String) : Value :=
  .obj [("role", .string "tool"), ("tool_call_id", .string callId), ("content", .string content)]

/-- An assistant message that only carries calls. -/
def callMessage (calls : List Value) : Value :=
  .obj [("role", .string "assistant"), ("content", .null), ("tool_calls", .array calls)]

def isAssistant (message : Value) : Bool := message.get? "role" = some (.string "assistant")

/-- Position of the last element with a property. -/
def lastIndex? {α : Type} (test : α → Bool) (items : List α) : Option Nat :=
  (items.reverse.findIdx? test).map (items.length - 1 - ·)

theorem lastIndex?_append {α : Type} {test : α → Bool} {front rest : List α} {item : α}
    (hItem : test item) (hRest : ∀ other ∈ rest, test other = false) :
    lastIndex? test (front ++ item :: rest) = some front.length := by
  have hNone : rest.reverse.findIdx? test = none := by
    rw [List.findIdx?_eq_none_iff]
    exact fun other hOther => hRest other (List.mem_reverse.mp hOther)
  simp [lastIndex?, List.findIdx?_append, hNone, List.findIdx?_cons, hItem]

/-- Add calls to a message that has an array of them. -/
def appendCalls (message : Value) (calls : List Value) : Value :=
  match message.get? "tool_calls" with
  | some (.array existing) => message.set "tool_calls" (.array (existing ++ calls))
  | _ => message

namespace InputAssembler

/-- While calls of the stored conversation are open, new ones join their
message. -/
def new (messages : List Value) (outputCallIds : OrderedMap String SourceCallKind)
    (ledger : ConversationLedger) (projection : ToolProjection) : InputAssembler where
  messages := messages
  projection := projection
  pendingCalls := []
  callMessageIndex := if ledger.isSettled then none else lastIndex? isAssistant messages
  pendingReasoning := ""
  outputCallIds := outputCallIds
  ledger := ledger
  deferredMessages := []

variable (platform : Platform) (profile : CompletionsProfile) {assembler : InputAssembler}

def appendRegular (message : Value) (assembler : InputAssembler) : InputAssembler :=
  if assembler.ledger.isSettled then
    { assembler with messages := assembler.messages ++ [message] }
  else { assembler with deferredMessages := assembler.deferredMessages ++ [message] }

def flushDeferred (assembler : InputAssembler) : InputAssembler :=
  { assembler with
    messages := assembler.messages ++ assembler.deferredMessages
    deferredMessages := [] }

/-- Reasoning that was collected goes into the message, if there is any. -/
def attachReasoning (reasoning : String) (message : Value) : Except ProtocolError Value :=
  if reasoning = "" then .ok message else insertReasoning profile message reasoning

/-- Move the buffered calls into the open call message, or into a new one. -/
def flushCalls (assembler : InputAssembler) : Except ProtocolError InputAssembler :=
  if assembler.pendingCalls = [] then .ok assembler
  else
    let (index, messages) := match assembler.callMessageIndex with
      | some index => (index, assembler.messages)
      | none => (assembler.messages.length, assembler.messages ++ [callMessage []])
    do
      let message ← attachReasoning profile assembler.pendingReasoning
        (appendCalls (messages.getD index .null) assembler.pendingCalls)
      pure { assembler with
        messages := messages.set index message
        callMessageIndex := some index
        pendingCalls := []
        pendingReasoning := "" }

/-- Reasoning with no call to go with becomes a message of its own. -/
def flushReasoning (assembler : InputAssembler) : Except ProtocolError InputAssembler :=
  if assembler.pendingReasoning = "" then .ok assembler
  else do
    let message ← insertReasoning profile (plainMessage "assistant" .null)
      assembler.pendingReasoning
    pure (appendRegular message { assembler with pendingReasoning := "" })

variable (object : Object)

def messageRole : Except ProtocolError String :=
  match (object.get? "role").bind Value.asStr with
  | none => .error (invalid "message role is required")
  | some role =>
    if role = "developer" ∨ role = "system" then .ok profile.instructionRole.asStr
    else if role = "user" ∨ role = "assistant" then .ok role
    else .error (.unsupportedValue "message role" role)

def messageContent (role : String) : Except ProtocolError Value :=
  match object.get? "content" with
  | none => .error (invalid "message content is required")
  | some content => convertContent profile content role

/-- An assistant message takes the collected reasoning along; before any other
message the reasoning is flushed. -/
def appendMessage (assembler : InputAssembler) : Except ProtocolError InputAssembler := do
  let role ← messageRole profile object
  if role = "assistant" then do
    let content ← messageContent profile object role
    let message ← attachReasoning profile assembler.pendingReasoning (plainMessage role content)
    pure (appendRegular message { assembler with pendingReasoning := "" })
  else do
    let assembler ← flushReasoning profile assembler
    let content ← messageContent profile object role
    pure (appendRegular (plainMessage role content) assembler)

def appendInputText (assembler : InputAssembler) : Except ProtocolError InputAssembler := do
  let assembler ← flushReasoning profile assembler
  let text ← requiredString (object.get? "text") "input_text.text"
  pure (appendRegular (plainMessage "user" (.string text)) assembler)

def missingOutput : SourceCallKind → String
  | .function => "current function_call has no unique matching function_call_output"
  | .custom => "current custom_tool_call has no unique matching custom_tool_call_output"
  | .toolSearch => "current tool_search_call has no unique matching tool_search_output"

def appendCall (kind : SourceCallKind) (assembler : InputAssembler) :
    Except ProtocolError InputAssembler := do
  let callId ← requiredString (object.get? "call_id") "tool call.call_id"
  if assembler.outputCallIds.get? callId ≠ some kind then throw (invalid (missingOutput kind))
  else do
    let projected ← projectSourceCall platform assembler.projection object kind
    let ledger ← assembler.ledger.addCall callId projected.identity
    pure { assembler with
      projection := projected.projection
      ledger
      pendingCalls := assembler.pendingCalls ++ [projected.chatCall.set "id" (.string callId)] }

/-- The content of an output, and the projection after it loaded tools. -/
def outputContent (kind : SourceCallKind) (projection : ToolProjection) :
    Except ProtocolError (String × ToolProjection) :=
  match kind with
  | .function | .custom =>
    match object.get? "output" with
    | none => .error (invalid "tool call output.output is required")
    | some output => do return (← textValue platform output, projection)
  | .toolSearch => do
      let tools ← toolSearchTools object
      let projection ← projection.activateLoadedTools platform tools
      let content ← toolSearchOutput platform object tools
      pure (content, projection)

/-- The last output of a batch closes it and releases what was deferred. -/
def appendOutput (kind : SourceCallKind) (assembler : InputAssembler) :
    Except ProtocolError InputAssembler := do
  let callId ← requiredString (object.get? "call_id") "tool call output.call_id"
  let (identity, ledger) ← assembler.ledger.settle callId kind
  validateIdentity object identity
  let (content, projection) ← outputContent platform object kind assembler.projection
  let assembler := { assembler with
    ledger, projection, messages := assembler.messages ++ [toolMessage callId content] }
  pure (if ledger.isSettled then flushDeferred { assembler with callMessageIndex := none }
    else assembler)

/-- Items that are not calls, after the buffered calls are flushed. -/
def appendOther (item : Value) (object : Object) (assembler : InputAssembler) :
    Except ProtocolError InputAssembler :=
  match itemType object, outputKind (itemType object) with
  | _, some kind => appendOutput platform object kind assembler
  | kind, none =>
    if (kind = some "message" ∨ kind = none) ∧ object.containsKey "role" then
      appendMessage profile object assembler
    else
      match kind with
      | some "input_text" => appendInputText profile object assembler
      | some "reasoning" =>
        .ok { assembler with
          pendingReasoning := assembler.pendingReasoning ++ reasoningText item }
      | some kind => .error (.unsupportedValue "input item type" kind)
      | none => .error (invalid "Responses input item type is required")

def append (assembler : InputAssembler) (item : Value) : Except ProtocolError InputAssembler :=
  match item.asObject with
  | none => .error (invalid "input items must be objects")
  | some object =>
    match callKind (itemType object) with
    | some kind => appendCall platform object kind assembler
    | none => do
        let assembler ← flushCalls profile assembler
        appendOther platform profile item object assembler

def finish (assembler : InputAssembler) : Except ProtocolError InputAssembler := do
  let assembler ← flushCalls profile assembler
  let assembler ← flushReasoning profile assembler
  if !assembler.ledger.isSettled then
    throw (invalid "tool call has no matching output before the next model turn")
  else pure (flushDeferred assembler)

theorem flushCalls_of_nil (h : assembler.pendingCalls = []) :
    flushCalls profile assembler = .ok assembler := by
  simp [flushCalls, h]

theorem flushReasoning_of_empty
    (h : assembler.pendingReasoning = "") : flushReasoning profile assembler = .ok assembler := by
  simp [flushReasoning, h]

/-- With nothing collected, only open calls stop the end of the input. -/
theorem finish_of_empty (hCalls : assembler.pendingCalls = [])
    (hReasoning : assembler.pendingReasoning = "") :
    finish profile assembler =
      if assembler.ledger.isSettled then .ok (flushDeferred assembler)
      else .error (invalid "tool call has no matching output before the next model turn") := by
  simp only [finish, flushCalls_of_nil profile hCalls, flushReasoning_of_empty profile hReasoning,
    Except.ok_bind]
  cases assembler.ledger.isSettled <;> rfl

/-- A message item of the user with its converted content. -/
structure IsUserMessage (item content : Value) : Prop where
  fields : ∃ object, item.asObject = some object ∧
    (itemType object = none ∨ itemType object = some "message") ∧
    object.get? "role" = some (.string "user") ∧
    messageContent profile object "user" = .ok content

/-- With nothing collected, a message of the user is added as it is. -/
theorem append_userMessage {item content : Value}
    (h : IsUserMessage profile item content) (hCalls : assembler.pendingCalls = [])
    (hReasoning : assembler.pendingReasoning = "") :
    append platform profile assembler item =
      .ok (appendRegular (plainMessage "user" content) assembler) := by
  obtain ⟨object, hObject, hType, hRole, hContent⟩ := h.fields
  have hCall : callKind (itemType object) = none := by rcases hType with h | h <;> rw [h] <;> rfl
  have hOutput : outputKind (itemType object) = none := by
    rcases hType with h | h <;> rw [h] <;> rfl
  have hMessage : (itemType object = some "message" ∨ itemType object = none) ∧
      object.containsKey "role" := ⟨hType.symm, by simp [Object.containsKey, hRole]⟩
  have hUser : messageRole profile object = .ok "user" := by
    simp [messageRole, hRole, Value.asStr]
  simp only [append, hObject, hCall, flushCalls_of_nil profile hCalls, Except.ok_bind, appendOther,
    hOutput, if_pos hMessage, appendMessage, hUser]
  simp [flushReasoning_of_empty profile hReasoning, hContent]

end InputAssembler

/-- The conversation and the projection after the input items. -/
def appendItems (platform : Platform) (profile : CompletionsProfile) (items messages : List Value)
    (projection : ToolProjection) : Except ProtocolError (List Value × ToolProjection) := do
  let outputs ← collectOutputCallIds items
  let ledger ← ConversationLedger.fromMessages projection messages
  let assembler ← items.foldlM (InputAssembler.append platform profile)
    (.new messages outputs ledger projection)
  let assembler ← assembler.finish profile
  pure (assembler.messages, assembler.projection)

end Any2Api.Bridge
