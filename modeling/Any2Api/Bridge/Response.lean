import Any2Api.Bridge.ResponseItems

/-! The parts of the conversion of a response that a buffered and a streamed answer share. -/
namespace Any2Api.Bridge

open Any2Api.Json OpenAiChat

def incompleteReason (finishReason : String) : Option String :=
  if finishReason = "length" then some "max_output_tokens"
  else if finishReason = "content_filter" then some "content_filter"
  else none

def validateFinishReason (value : String) : Except ProtocolError Unit :=
  if value ∈ ["stop", "length", "tool_calls", "content_filter"] then .ok ()
  else .error (.unsupportedValue "finish_reason" value)

/-- Outputs the bridge has no item for. -/
def unsupportedOutputs : List String := ["function_call", "refusal", "audio"]

def hasUnsupportedOutput (message : Object) : Bool :=
  unsupportedOutputs.any fun field => (message.get? field).any (!·.isNull)

variable (platform : Platform) (projection : ToolProjection)

def restoreFunctionCall (name arguments : String) : Except ProtocolError RestoredToolCall :=
  restoreCall platform projection .function name arguments

def restoreCustomCall (name input : String) :
    Except ProtocolError RestoredToolCall := restoreCall platform projection .custom name input

/-- A reasoning field may be missing or null; anything else must be a text. -/
def optionalReasoning (error : String) (value : Option Value) :
    Except ProtocolError (Option String) :=
  match value with
  | none | some .null => .ok none
  | some (.string text) => .ok (some text)
  | some _ => .error (invalid error)

/-- Which of the two reasoning fields counts. The buffered and the streamed
form differ in the text of the conflict error only. -/
def chooseReasoning (profile : CompletionsProfile) (conflict : String)
    (content reasoning : Option String) : Except ProtocolError (Option String) :=
  match profile.reasoningResponse with
  | .unsupported =>
    if content.isSome || reasoning.isSome then
      .error (invalid "Chat target returned unsupported reasoning content")
    else .ok none
  | .reasoningContent =>
    if reasoning.isSome then
      .error (invalid "Chat target returned an undeclared reasoning field")
    else .ok content
  | .reasoning =>
    if content.isSome then .error (invalid "Chat target returned an undeclared reasoning field")
    else .ok reasoning
  | .reasoningContentOrReasoning =>
    match content, reasoning with
    | some left, some right => if left ≠ right then .error (invalid conflict) else .ok (some left)
    | some text, none | none, some text => .ok (some text)
    | none, none => .ok none

def responseStatus (finishReason : String) : String :=
  if (incompleteReason finishReason).isSome then "incomplete" else "completed"

/-- The reason of an incomplete response is added to its details. -/
def withIncompleteDetails (finishReason : String) (response : Value) : Value :=
  match incompleteReason finishReason with
  | none => response
  | some reason => response.set "incomplete_details" (.obj [("reason", .string reason)])

end Any2Api.Bridge
