import Any2Api.Bridge.ToolStream

/-! Translation of a Chat Completions stream into a Responses stream. -/
namespace Any2Api.Bridge

open Any2Api.Json Any2Api.Stream Any2Api.Sse OpenAiChat

structure TextState where
  outputIndex : Option Nat
  itemId : String
  text : String
  done : Bool

def TextState.default : TextState := ⟨none, "", "", false⟩

structure ChatToResponsesStream where
  response : ResponseProjection
  profile : CompletionsProfile
  projection : ToolProjection
  model : String
  createdAt : UInt64
  observedModel : Option String
  observedCreatedAt : Option UInt64
  observedRole : Bool
  started : Bool
  completed : Bool
  finishReason : Option String
  usage : TokenUsage
  usageJson : Option Value
  nextSequenceNumber : Nat
  nextOutputIndex : Nat
  reasoning : TextState
  message : TextState
  tools : OrderedMap Nat ToolState
  completedItems : List (Nat × Value)
  continuationBytes : Nat

/-- The events of one step, and the assistant message once it is complete. -/
structure StreamUpdate where
  events : List (Nat × StreamEvent)
  assistantMessage : Option Value

/-- A step that emits item events. -/
abbrev ItemStep := Except ProtocolError (List (Nat × ItemEvent) × ChatToResponsesStream)

namespace ChatToResponsesStream

def new (response : ResponseProjection) (profile : CompletionsProfile)
    (projection : ToolProjection) (continuationBytes : Nat) : ChatToResponsesStream where
  response
  profile
  projection
  model := response.upstreamModel
  createdAt := response.createdAt
  observedModel := none
  observedCreatedAt := none
  observedRole := false
  started := false
  completed := false
  finishReason := none
  usage := TokenUsage.empty
  usageJson := none
  nextSequenceNumber := 0
  nextOutputIndex := 0
  reasoning := .default
  message := .default
  tools := .empty
  completedItems := []
  continuationBytes :=
    continuationBytes + ",\x7b\"role\":\"assistant\",\"content\":null\x7d".utf8ByteSize

/-! Texts. -/

/-- Add a text to its item, which is announced with the first text. -/
def addText (channel : TextChannel) (responseId delta : String) (next : Nat) (state : TextState) :
    List (Nat × ItemEvent) × TextState :=
  match state.outputIndex with
  | some index =>
    ([(index, .delta (.text channel) state.itemId delta)],
      { state with text := state.text ++ delta })
  | none =>
    let itemId := channel.itemId responseId
    ([(next, .added (channel.openItem responseId)), (next, .partAdded channel itemId),
        (next, .delta (.text channel) itemId delta)],
      { state with outputIndex := some next, itemId, text := state.text ++ delta })

/-- The index after a text was added. -/
def nextAfterText (state : TextState) (next : Nat) : Nat :=
  if state.outputIndex.isSome then next else next + 1

def pushText (platform : Platform) (delta : String) (stream : ChatToResponsesStream) : ItemStep :=
  if delta = "" then .ok ([], stream)
  else do
    let bytes ← reserveContinuationBytes stream.continuationBytes
      (serializedTextBytes platform delta)
    let (events, message) := addText .message stream.response.responseId delta
      stream.nextOutputIndex stream.message
    pure (events, { stream with
      message
      nextOutputIndex := nextAfterText stream.message stream.nextOutputIndex
      continuationBytes := bytes })

/-- The size of the field that will hold the reasoning. -/
def reasoningFieldBytes (profile : CompletionsProfile) : Nat :=
  match profile.reasoningResponse with
  | .reasoning => ",\"reasoning\":\"\"".utf8ByteSize
  | _ => ",\"reasoning_content\":\"\"".utf8ByteSize

/-- Reasoning also needs room for its field, the first time. -/
def reserveReasoning (platform : Platform) (delta : String) (stream : ChatToResponsesStream) :
    Except ProtocolError Nat := do
  let bytes ← reserveContinuationBytes stream.continuationBytes (serializedTextBytes platform delta)
  if stream.reasoning.outputIndex.isSome then pure bytes
  else reserveContinuationBytes bytes (reasoningFieldBytes stream.profile)

def pushReasoning (platform : Platform) (delta : String) (stream : ChatToResponsesStream) :
    ItemStep :=
  if delta = "" then .ok ([], stream)
  else do
    let bytes ← reserveReasoning platform delta stream
    let (events, reasoning) := addText .reasoning stream.response.responseId delta
      stream.nextOutputIndex stream.reasoning
    pure (events, { stream with
      reasoning
      nextOutputIndex := nextAfterText stream.reasoning stream.nextOutputIndex
      continuationBytes := bytes })

/-- The closing events of a text and its completed item. -/
def closeText (channel : TextChannel) (responseId : String) (state : TextState) :
    List (Nat × ItemEvent) × List (Nat × Value) × TextState :=
  match state.outputIndex with
  | none => ([], [], state)
  | some index =>
    if state.done then ([], [], state)
    else
      let item := channel.item responseId state.text
      ([(index, .contentDone (.text channel) state.itemId state.text),
          (index, .partDone channel state.itemId (channel.part state.text)),
          (index, .done item)],
        [(index, item)], { state with done := true })

variable (value : Value) (platform : Platform) (stream : ChatToResponsesStream)

def finishMessage : List (Nat × ItemEvent) × ChatToResponsesStream :=
  let (events, items, message) := closeText .message stream.response.responseId stream.message
  (events, { stream with message, completedItems := stream.completedItems ++ items })

def finishReasoning : List (Nat × ItemEvent) × ChatToResponsesStream :=
  let (events, items, reasoning) :=
    closeText .reasoning stream.response.responseId stream.reasoning
  (events, { stream with reasoning, completedItems := stream.completedItems ++ items })

/-! Tool calls. -/

/-- Announce the item of a call that is ready for it and has none yet. -/
def announce (ready : Bool) (key : Nat) (state : ToolState) (stream : ChatToResponsesStream) :
    Except ProtocolError (List (Nat × ItemEvent) × ToolState × Nat) :=
  if ready && state.outputIndex.isNone then do
    let (events, state) ← state.allocate stream.response.responseId key stream.nextOutputIndex
    pure (events, state, stream.nextOutputIndex + 1)
  else .ok ([], state, stream.nextOutputIndex)

/-- The first call makes room for the array of calls. -/
def reserveCalls : Except ProtocolError Nat :=
  if stream.tools.isEmpty then
    reserveContinuationBytes stream.continuationBytes ",\"tool_calls\":[]".utf8ByteSize
  else .ok stream.continuationBytes

def pushTool (call : Value) (stream : ChatToResponsesStream) : ItemStep :=
  match call.asObject with
  | none => .error (invalid "streamed tool call must be an object")
  | some object =>
    match (object.get? "index").bind Value.asU64 with
    | none => .error (invalid "streamed tool call index must be a non-negative integer")
    | some index => do
        let key := index.toNat
        let bytes ← reserveCalls stream
        let state := (stream.tools.get? key).getD .default
        let (state, bytes) ← state.observe platform stream.projection object bytes
        let (added, state, next) ← announce state.streamable key state stream
        let (deltas, state) := state.emitPayloadDelta
        pure (added ++ deltas, { stream with
          tools := stream.tools.insert key state
          nextOutputIndex := next
          continuationBytes := bytes })

/-- What `restore_function_call` or `restore_custom_call` make of a call. -/
def restore (projection : ToolProjection) (kind : ChatToolKind)
    (name payload : String) : Except ProtocolError RestoredToolCall :=
  match kind with
  | .function => restoreFunctionCall platform projection name payload
  | .custom => restoreCustomCall platform projection name payload

/-- Every call is complete, and its id is none of those in `seen`. -/
def validateTools (platform : Platform) (projection : ToolProjection) :
    (seen : List String) → List ToolState → Except ProtocolError Unit
  | _, [] => .ok ()
  | seen, state :: states =>
    match state.kind with
    | none => .error (invalid "streamed tool call identity is incomplete: type is missing")
    | some kind =>
      match state.callId.filter (· ≠ "") with
      | none => .error (invalid "streamed tool call identity is incomplete: id is missing")
      | some callId =>
        match state.name.filter (· ≠ "") with
        | none =>
          .error (invalid "streamed tool call identity is incomplete: name is missing")
        | some name =>
          if callId ∈ seen then
            .error (invalid "streamed tool call ids must be unique")
          else do
            let _ ← restore platform projection kind name state.payload
            validateTools platform projection (callId :: seen) states

def validateToolIdentities :
    Except ProtocolError Unit := validateTools platform stream.projection [] stream.tools.values

/-- The input of a custom call that came in an envelope is sent at once. -/
def envelopeDelta (kind : ChatToolKind) (index : Nat) (itemId : String) :
    RestoredToolCall → List (Nat × ItemEvent)
  | .custom _ _ input =>
    if kind = .function ∧ input ≠ "" then [(index, .delta .custom itemId input)] else []
  | _ => []

def contentDone (index : Nat) (itemId : String) : RestoredToolCall → List (Nat × ItemEvent)
  | .function _ _ arguments => [(index, .contentDone .function itemId arguments)]
  | .custom _ _ input => [(index, .contentDone .custom itemId input)]
  | .toolSearch _ => []

def finishTool (key : Nat) (state : ToolState) (stream : ChatToResponsesStream) : ItemStep :=
  if state.done then .ok ([], stream)
  else
    match state.kind, state.callId, state.name with
    | none, _, _ => .error (invalid "streamed tool call type is incomplete")
    | some _, none, _ => .error (invalid "streamed tool call id is incomplete")
    | some _, some _, none => .error (invalid "streamed tool call name is incomplete")
    | some kind, some callId, some name => do
        let restored ← restore platform stream.projection kind name state.payload
        -- A call that could not be streamed gets its item only now.
        let (added, state, next) ← announce true key state stream
        let (deltas, state) := state.emitPayloadDelta
        match state.outputIndex with
        | none => throw (invalid "streamed tool output index is missing")
        | some index =>
          let item := restoredCallItem stream.response.responseId (toString key) callId restored
            "completed"
          pure (added ++ deltas ++ envelopeDelta kind index state.itemId restored ++
              contentDone index state.itemId restored ++ [(index, .done item)],
            { stream with
              tools := stream.tools.insert key { state with done := true }
              nextOutputIndex := next
              completedItems := stream.completedItems ++ [(index, item)] })

/-- Finish the calls in the order of their keys. -/
def finishTools (platform : Platform) : List Nat → ChatToResponsesStream → ItemStep
  | [], stream => .ok ([], stream)
  | key :: keys, stream =>
    match stream.tools.get? key with
    | none => .error (invalid "streamed tool state disappeared")
    | some state => do
        let (events, stream) ← finishTool platform key state stream
        let (later, stream) ← finishTools platform keys stream
        pure (events ++ later, stream)

/-- The assistant message that is kept for the next turn. -/
def assistantMessage : Value :=
  let message := Value.obj [("role", .string "assistant"),
    ("content", if stream.message.text = "" then .null else .string stream.message.text)]
  let message :=
    if stream.reasoning.text = "" then message
    else message.set
      (match stream.profile.reasoningResponse with
        | .reasoning => "reasoning"
        | _ => "reasoning_content") (.string stream.reasoning.text)
  match stream.tools.values.filterMap ToolState.assistantCall with
  | [] => message
  | calls => message.set "tool_calls" (.array calls)

/-! Chunks. -/

def observeObject : Except ProtocolError Unit :=
  match value.get? "object" with
  | none => .ok ()
  | some object =>
    if object.asStr = some "chat.completion.chunk" then .ok ()
    else .error (invalid "Chat Completions stream object must be chat.completion.chunk")

def observeCreated : Except ProtocolError ChatToResponsesStream :=
  match value.get? "created" with
  | none => .ok stream
  | some created =>
    match created.asU64 with
    | none => .error (invalid "Chat Completions stream created must be a non-negative integer")
    | some created =>
      if stream.observedCreatedAt.any (· ≠ created) then
        .error (invalid "Chat Completions stream created value changed")
      else .ok { stream with observedCreatedAt := some created, createdAt := created }

def observeModel : Except ProtocolError ChatToResponsesStream :=
  match value.get? "model" with
  | none => .ok stream
  | some model =>
    match model.asStr.filter (· ≠ "") with
    | none => .error (invalid "Chat Completions stream model must be a non-empty string")
    | some model =>
      if stream.observedModel.any (· ≠ model) then
        .error (invalid "Chat Completions stream model changed")
      else .ok { stream with observedModel := some model, model }

def observeMetadata : Except ProtocolError ChatToResponsesStream := do
  observeObject value
  let stream ← observeCreated value stream
  observeModel value stream

def validateRole (value : Option Value) (stream : ChatToResponsesStream) :
    Except ProtocolError ChatToResponsesStream :=
  match value with
  | none => .ok stream
  | some role =>
    if role.asStr = some "assistant" then .ok { stream with observedRole := true }
    else .error (invalid "Chat Completions stream delta role must be assistant")

def reasoningDelta (profile : CompletionsProfile) (delta : Object) :
    Except ProtocolError (Option String) := do
  let content ← optionalReasoning "streamed reasoning content must be a string"
    (delta.get? "reasoning_content")
  let reasoning ← optionalReasoning "streamed reasoning content must be a string"
    (delta.get? "reasoning")
  chooseReasoning profile "Chat target returned conflicting reasoning deltas" content reasoning

def applyReasoning (platform : Platform) (delta : Object) (stream : ChatToResponsesStream) :
    ItemStep := do
  match ← reasoningDelta stream.profile delta with
  | none => pure ([], stream)
  | some text => pushReasoning platform text stream

def applyContent (platform : Platform) (delta : Object) (stream : ChatToResponsesStream) :
    ItemStep :=
  match delta.get? "content" with
  | none | some .null => .ok ([], stream)
  | some (.string text) => pushText platform text stream
  | some _ => .error (invalid "streamed assistant content must be a string or null")

def pushTools (platform : Platform) : List Value → ChatToResponsesStream → ItemStep
  | [], stream => .ok ([], stream)
  | call :: calls, stream => do
      let (events, stream) ← pushTool platform call stream
      let (later, stream) ← pushTools platform calls stream
      pure (events ++ later, stream)

def applyToolCalls (delta : Object) (stream : ChatToResponsesStream) : ItemStep :=
  match delta.get? "tool_calls" with
  | none | some .null => .ok ([], stream)
  | some (.array calls) => pushTools platform calls stream
  | some _ => .error (invalid "streamed tool_calls must be an array")

def applyFinishReason (value : Option Value) (stream : ChatToResponsesStream) :
    Except ProtocolError ChatToResponsesStream :=
  match value with
  | none | some .null => .ok stream
  | some (.string reason) => do
      validateFinishReason reason
      pure { stream with finishReason := some reason }
  | some _ => .error (invalid "streamed finish_reason must be a string or null")

def applyDelta (platform : Platform) (delta : Object) (stream : ChatToResponsesStream) :
    ItemStep := do
  let stream ← validateRole (delta.get? "role") stream
  if hasUnsupportedOutput delta then
    throw (invalid "Chat Completions stream contains an unsupported output")
  else
    let (reasoning, stream) ← applyReasoning platform delta stream
    let (content, stream) ← applyContent platform delta stream
    let (calls, stream) ← applyToolCalls platform delta stream
    pure (reasoning ++ content ++ calls, stream)

def choiceDelta (choice : Object) : Except ProtocolError Object :=
  if (choice.get? "index").bind Value.asU64 ≠ some 0 then
    .error (invalid "Chat Completions stream choice index must be 0")
  else
    match (choice.get? "delta").bind Value.asObject with
    | none => .error (invalid "Chat Completions stream choice delta must be an object")
    | some delta => .ok delta

def applyChoices (platform : Platform) (choices : List Value) (stream : ChatToResponsesStream) :
    ItemStep :=
  match choices with
  | [] => .ok ([], stream)
  | [choice] =>
    if stream.finishReason.isSome then
      .error (invalid "Chat Completions stream emitted a choice after finish_reason")
    else
      match choice.asObject with
      | none => .error (invalid "Chat Completions stream choice must be an object")
      | some choice => do
          let delta ← choiceDelta choice
          let (events, stream) ← applyDelta platform delta stream
          let stream ← applyFinishReason (choice.get? "finish_reason") stream
          pure (events, stream)
  | _ => .error (invalid "Chat Completions stream event must contain at most one choice")

/-! Failures reported by the target. -/

/-- A text of an error object, which may be missing or null but not empty. -/
def failureText (source : Object) (field : String) : Except ProtocolError (Option String) :=
  match source.get? field with
  | none | some .null => .ok none
  | some (.string text) =>
    if text = "" then
      .error (invalid "Chat Completions stream error fields must be non-empty strings or null")
    else .ok (some text)
  | some _ =>
    .error (invalid "Chat Completions stream error fields must be non-empty strings or null")

def failureParam (source : Object) : Except ProtocolError Value :=
  match source.get? "param" with
  | none | some .null => .ok .null
  | some (.string text) => .ok (.string text)
  | some _ => .error (invalid "Chat Completions stream error param must be a string or null")

def convertFailure (failure : Option ProtocolUpstreamFailureEvidence) :
    Except ProtocolError StreamEvent :=
  match ((value.get? "error").bind Value.asObject).or value.asObject with
  | none => .error (invalid "Chat Completions stream error must be an object")
  | some source => do
      match ← failureText source "message" with
      | none =>
        throw (invalid "Chat Completions stream error message must be a non-empty string")
      | some message =>
        let code ← failureText source "code"
        let kind ← failureText source "type"
        let param ← failureParam source
        pure (.failed ((code.or (kind.filter (· ≠ "error"))).getD "upstream_error") message
          param failure)

/-! Steps of the stream. -/

def streamResponse (status : String) (output : List Value) (usage : Value) : Value :=
  stream.response.baseResponse status output stream.createdAt stream.model usage

/-- The two opening events come before anything else. -/
def ensureStarted : List StreamEvent × ChatToResponsesStream :=
  if stream.started then ([], stream)
  else
    let response := stream.streamResponse "in_progress" [] .null
    ([.created response, .inProgress response], { stream with started := true })

/-- Number the events of a step. -/
def update (events : List StreamEvent) (message : Option Value) (stream : ChatToResponsesStream) :
    Except ProtocolError (StreamUpdate × ChatToResponsesStream) := do
  let (numbered, next) ← sequenceEvents stream.nextSequenceNumber events
  pure (⟨numbered, message⟩, { stream with nextSequenceNumber := next })

def itemEvents (events : List (Nat × ItemEvent)) : List StreamEvent :=
  events.map fun (index, event) => .item index event

def observeUsage : Except ProtocolError ChatToResponsesStream :=
  match (value.get? "usage").filter (!·.isNull) with
  | none => .ok stream
  | some usage => do
      let _ ← responsesUsage stream.profile (some usage)
      let tokens ← tokenUsage stream.profile usage
      pure { stream with usageJson := some usage, usage := mergeUsage stream.usage tokens }

def checkFinished : Except ProtocolError Unit :=
  if stream.finishReason.isSome then stream.validateToolIdentities platform else .ok ()

def pushChunk (platform : Platform) (value : Value) (stream : ChatToResponsesStream) :
    Except ProtocolError (StreamUpdate × ChatToResponsesStream) := do
  let stream ← observeMetadata value stream
  let (started, stream) := stream.ensureStarted
  match value.get? "choices" with
  | some (.array choices) => do
      let (events, stream) ← applyChoices platform choices stream
      checkFinished platform stream
      update (started ++ itemEvents events) none stream
  | none =>
    if (value.get? "usage").any Value.isObject then update started none stream
    else throw (invalid "Chat Completions stream event has no choices array")
  | some _ => throw (invalid "Chat Completions stream event has no choices array")

/-- A failure of the target ends the stream with an error event. -/
def pushFailure (failure : Option ProtocolUpstreamFailureEvidence)
    (stream : ChatToResponsesStream) :
    Except ProtocolError (StreamUpdate × ChatToResponsesStream) := do
  let event ← convertFailure value failure
  let (step, stream) ← update [event] none stream
  pure (step, { stream with completed := true })

def checkEnd : Except ProtocolError String :=
  match stream.finishReason with
  | none => .error (invalid "Chat Completions stream ended without finish_reason")
  | some reason =>
    if !stream.observedRole then
      .error (invalid "Chat Completions stream never identified the assistant role")
    else if reason = "tool_calls" ∧ stream.tools.isEmpty then
      .error (invalid "finish_reason tool_calls requires at least one tool call")
    else if reason ≠ "tool_calls" ∧ !stream.tools.isEmpty then
      .error (invalid "streamed tool calls require finish_reason tool_calls")
    else .ok reason

/-- The completed items in the order of their indexes. -/
def sortedOutput : List Value :=
  (stream.completedItems.insertionSort (·.1 ≤ ·.1)).map Prod.snd

/-- Close all items. -/
def finishItems : ItemStep := do
  let (reasoning, stream) := stream.finishReasoning
  let (message, stream) := stream.finishMessage
  let (tools, stream) ← finishTools platform stream.tools.keys stream
  pure (reasoning ++ message ++ tools, stream)

def terminalEvent (reason : String) (usage : Value) (stream : ChatToResponsesStream) :
    StreamEvent :=
  .finished (incompleteReason reason).isSome
    (withIncompleteDetails reason
      (stream.streamResponse (responseStatus reason) stream.sortedOutput usage)) stream.usage

def finish : Except ProtocolError (StreamUpdate × ChatToResponsesStream) :=
  if stream.completed then .ok (⟨[], none⟩, stream)
  else do
    stream.validateToolIdentities platform
    let reason ← stream.checkEnd
    let (started, stream) := stream.ensureStarted
    let (items, stream) ← finishItems platform stream
    let usage ← responsesUsage stream.profile stream.usageJson
    let (step, stream) ← update (started ++ itemEvents items ++
      [stream.terminalEvent reason usage]) (some stream.assistantMessage) stream
    pure (step, { stream with completed := true })

/-- The JSON value of the data of an event. -/
def eventValue (data : Bytes) : Option Value :=
  (String.fromUTF8? ⟨data.toArray⟩).bind platform.fromJson

def push (platform : Platform) (event : AdapterEvent) (stream : ChatToResponsesStream) :
    Except ProtocolError (StreamUpdate × ChatToResponsesStream) :=
  if stream.completed then
    .error (invalid "Chat Completions stream continued after termination")
  else
    let stream := { stream with usage := mergeUsage stream.usage event.telemetry.tokenUsage }
    match event.payload with
    | .empty => .ok (⟨[], none⟩, stream)
    | .done => finish platform stream
    | .nonJson => .error (invalid "Chat Completions stream data is not valid JSON")
    | .json data =>
      match eventValue platform data.data with
      | none => .error (invalid "Chat Completions stream data is not valid JSON")
      | some value => do
          let stream ← observeUsage value stream
          if event.termination = .failed then pushFailure value event.upstreamFailure stream
          else pushChunk platform value stream

end ChatToResponsesStream

end Any2Api.Bridge
