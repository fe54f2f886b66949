import Any2Api.Bridge.History
import Any2Api.Bridge.Target

/-! Conversion of a Responses request into a Chat Completions request. -/
namespace Any2Api.Bridge

open Any2Api.Json OpenAiChat

/-- A converted request. Its messages are the instructions, if there are any,
followed by the conversation. -/
structure ConvertedRequest where
  body : Value
  conversationStart : Nat
  projection : ToolProjection
  messages : List Value
  body_messages : body.get? "messages" = some (.array messages)
  start_le : conversationStart ≤ messages.length

/-- The conversation, without the instructions. -/
def ConvertedRequest.conversation (request : ConvertedRequest) : List Value :=
  request.messages.drop request.conversationStart

def validateTopLevelFields (source : Object) : Except ProtocolError Unit :=
  match source.keys.find? (· ∉ requestFields.map Prod.fst) with
  | some field => .error (.unsupportedField none field)
  | none => .ok ()

def rejectMultipleChoices (source : Object) : Except ProtocolError Unit :=
  match source.get? "n" with
  | none => .ok ()
  | some value =>
    if value.asU64 = some 1 then .ok ()
    else .error (invalid "Responses bridge supports exactly one choice")

def validatePromptCacheKey (value : Option Value) : Except ProtocolError Unit :=
  match value with
  | none | some (.string _) => .ok ()
  | some _ => .error (invalid "prompt_cache_key must be a string")

/-- Empty instructions are left out. -/
def appendInstructions (platform : Platform) (profile : CompletionsProfile)
    (instructions : Option Value) : Except ProtocolError (List Value) :=
  match instructions with
  | none => .ok []
  | some instructions => do
      let text ← textValue platform instructions
      pure (if text = "" then [] else [plainMessage profile.instructionRole.asStr (.string text)])

/-- A text is pushed as it is; items go through the assembler. -/
def appendInput (platform : Platform) (profile : CompletionsProfile) (input : Option Value)
    (messages : List Value) (projection : ToolProjection) :
    Except ProtocolError (List Value × ToolProjection) :=
  match input with
  | none => .error (invalid "input is required")
  | some (.string text) => .ok (messages ++ [plainMessage "user" (.string text)], projection)
  | some (.array items) => appendItems platform profile items messages projection
  | some _ => .error (invalid "input must be a string or array")

/-- Everything that is checked before the input is read. -/
def validateSource (source : Object) : Except ProtocolError Unit := do
  validateTopLevelFields source
  rejectMultipleChoices source
  validatePromptCacheKey (source.get? "prompt_cache_key")
  validateInclude (source.get? "include")
  validateClientMetadata (source.get? "client_metadata")

/-- The request around a conversation. -/
def assemble (platform : Platform) (profile : CompletionsProfile) (source : Object)
    (upstreamModel : String) (conversation : List Value) (projection : ToolProjection) :
    Except ProtocolError ConvertedRequest := do
  let instructions ← appendInstructions platform profile (source.get? "instructions")
  match h : build source upstreamModel profile (instructions ++ conversation) projection with
  | .error error => throw error
  | .ok body =>
    pure ⟨body, instructions.length, projection, instructions ++ conversation,
      build_messages h, by simp⟩

def convert (platform : Platform) (body : Value) (upstreamModel : String)
    (profile : CompletionsProfile) (previous : List Value)
    (previousProjection : Option ToolProjection) : Except ProtocolError ConvertedRequest :=
  match body.asObject with
  | none => .error (invalid "request must be an object")
  | some source => do
      validateSource source
      let projection ← (ToolProjection.new profile previousProjection).configure platform
        (source.get? "tools")
      let (conversation, projection) ← appendInput platform profile (source.get? "input")
        previous projection
      assemble platform profile source upstreamModel conversation projection

theorem assemble_eq_ok {platform : Platform} {profile : CompletionsProfile} {source : Object}
    {upstreamModel : String} {conversation : List Value} {projection : ToolProjection}
    {request : ConvertedRequest}
    (h : assemble platform profile source upstreamModel conversation projection = .ok request) :
    request.conversation = conversation := by
  obtain ⟨instructions, -, h⟩ := Except.of_bind h
  split at h
  · cases h
  · cases h
    simp [ConvertedRequest.conversation]

/-- Whether a request can be assembled does not depend on its conversation. -/
theorem assemble_ok_iff {platform : Platform} {profile : CompletionsProfile} {source : Object}
    {upstreamModel : String} {conversation : List Value} {projection : ToolProjection} :
    (∃ request, assemble platform profile source upstreamModel conversation projection =
        .ok request) ↔
      (∀ value, source.get? "instructions" = some value →
        ∃ text, textValue platform value = .ok text) ∧
        Translatable source profile projection := by
  have hInstructions : (∃ messages, appendInstructions platform profile
      (source.get? "instructions") = .ok messages) ↔
        ∀ value, source.get? "instructions" = some value →
          ∃ text, textValue platform value = .ok text := by
    unfold appendInstructions
    cases source.get? "instructions" with
    | none => simp
    | some value => cases hText : textValue platform value <;> simp [hText]
  rw [← hInstructions]
  refine Except.exists_bind_eq_ok_iff fun instructions => ?_
  have hBuildable : (∃ body, build source upstreamModel profile (instructions ++ conversation)
      projection = .ok body) ↔ Translatable source profile projection := build_ok_iff
  rw [← hBuildable]
  split
  · next error hBuild => simp [hBuild]
  · next body hBuild => simp [hBuild]

end Any2Api.Bridge
