import Any2Api.Bridge.ToolCall
import Any2Api.Stream.Environment

/-! The parts of a Responses response: output items, usage and the frame that
echoes fields of the request. -/
namespace Any2Api.Bridge

open Any2Api.Json OpenAiChat Any2Api.Stream

def messageItemId (responseId : String) : String := "msg_" ++ responseId

def reasoningItemId (responseId : String) : String := "rs_" ++ responseId

def functionCallItemId (responseId index : String) : String := "fc_" ++ responseId ++ "_" ++ index

def customCallItemId (responseId index : String) : String := "ctc_" ++ responseId ++ "_" ++ index

def toolSearchCallItemId (responseId index : String) : String :=
  "tsc_" ++ responseId ++ "_" ++ index

/-- The content part of a message item. -/
def textPart (text : String) : Value :=
  .obj [("type", .string "output_text"), ("text", .string text), ("annotations", .array [])]

/-- The summary part of a reasoning item. -/
def summaryPart (text : String) : Value :=
  .obj [("type", .string "summary_text"), ("text", .string text)]

def messageItem (responseId text : String) : Value :=
  .obj [("id", .string (messageItemId responseId)), ("type", .string "message"),
    ("status", .string "completed"), ("role", .string "assistant"),
    ("content", .array [textPart text])]

def reasoningItem (responseId text : String) : Value :=
  .obj [("id", .string (reasoningItemId responseId)), ("type", .string "reasoning"),
    ("status", .string "completed"), ("summary", .array [summaryPart text])]

/-- The namespace of a call item, if it has one. -/
def withNamespace (space : Option String) (item : Value) : Value :=
  match space with
  | none => item
  | some space => item.set "namespace" (.string space)

def restoredCallItem (responseId index callId : String) (call : RestoredToolCall)
    (status : String) : Value :=
  match call with
  | .function name space arguments =>
    withNamespace space (.obj [("id", .string (functionCallItemId responseId index)),
      ("type", .string "function_call"), ("status", .string status),
      ("call_id", .string callId), ("name", .string name), ("arguments", .string arguments)])
  | .custom name space input =>
    withNamespace space (.obj [("id", .string (customCallItemId responseId index)),
      ("type", .string "custom_tool_call"), ("status", .string status),
      ("call_id", .string callId), ("name", .string name), ("input", .string input)])
  | .toolSearch arguments =>
    .obj [("id", .string (toolSearchCallItemId responseId index)),
      ("type", .string "tool_search_call"), ("status", .string status),
      ("call_id", .string callId), ("execution", .string "client"), ("arguments", arguments)]

/-! Usage. -/

def requiredToken (value : Option Value) (field : String) : Except ProtocolError UInt64 :=
  match value.bind Value.asU64 with
  | some count => .ok count
  | none => .error (invalid (field ++ " must be an integer"))

/-- A member at a path of objects. -/
def memberAt (value : Value) (path : List String) : Option Value :=
  path.foldl (fun current part => current.bind (·.get? part)) (some value)

def optionalToken (value : Value) (path : List String) : Except ProtocolError (Option UInt64) :=
  match memberAt value path with
  | none | some .null => .ok none
  | some member =>
    match member.asU64 with
    | some count => .ok (some count)
    | none => .error (invalid "Chat Completions usage token counts must be integers")

def cachedTokens (profile : CompletionsProfile) (value : Value) :
    Except ProtocolError (Option UInt64) :=
  match profile.cachedTokensField with
  | .promptTokensDetails => optionalToken value ["prompt_tokens_details", "cached_tokens"]
  | .topLevel => optionalToken value ["cached_tokens"]
  | .promptTokensDetailsOrTopLevel => do
      let nested ← optionalToken value ["prompt_tokens_details", "cached_tokens"]
      let topLevel ← optionalToken value ["cached_tokens"]
      match nested, topLevel with
      | some left, some right =>
        if left ≠ right then
          throw (invalid "Chat Completions usage contains conflicting cached token counts")
        else pure (some left)
      | some count, none | none, some count => pure (some count)
      | none, none => pure none

def saturatingAdd (left right : UInt64) : UInt64 :=
  if left.toNat + right.toNat < UInt64.size then left + right else UInt64.ofNat (UInt64.size - 1)

def responsesUsage (profile : CompletionsProfile) (value : Option Value) :
    Except ProtocolError Value :=
  match value with
  | none | some .null => .ok .null
  | some value =>
    match value.asObject with
    | none => .error (invalid "Chat Completions usage must be an object or null")
    | some usage => do
        let prompt ← requiredToken (usage.get? "prompt_tokens") "usage.prompt_tokens"
        let completion ← requiredToken (usage.get? "completion_tokens") "usage.completion_tokens"
        let cached := (← cachedTokens profile value).getD 0
        let reasoning := (← optionalToken value
          ["completion_tokens_details", "reasoning_tokens"]).getD 0
        pure (.obj [("input_tokens", .nat prompt), ("output_tokens", .nat completion),
          ("total_tokens", .nat (saturatingAdd prompt completion)),
          ("input_tokens_details", .obj [("cached_tokens", .nat cached)]),
          ("output_tokens_details", .obj [("reasoning_tokens", .nat reasoning)])])

def maxTokenCount : Nat := 2 ^ 53 - 1

/-- Counts that telemetry cannot hold are dropped. -/
def validCount (count : Option UInt64) : Option Nat :=
  (count.map UInt64.toNat).filter (· ≤ maxTokenCount)

def tokenUsage (profile : CompletionsProfile) (value : Value) :
    Except ProtocolError TokenUsage := do
  let cached ← cachedTokens profile value
  pure ⟨validCount ((value.get? "prompt_tokens").bind Value.asU64),
    validCount ((value.get? "completion_tokens").bind Value.asU64), validCount cached, none⟩

/-! The frame of a response. -/

def echoFields : List String :=
  ["instructions", "max_output_tokens", "parallel_tool_calls", "previous_response_id",
    "reasoning", "text", "tool_choice", "tools", "temperature", "top_p", "service_tier", "store",
    "metadata"]

/-- What a response takes from its request. Only echo fields are kept. -/
structure ResponseProjection where
  responseId : String
  createdAt : UInt64
  upstreamModel : String
  requestFields : Object
  fields_echo : ∀ entry ∈ requestFields, entry.1 ∈ echoFields

/-- Insert a member unless there is one. -/
def insertDefault (object : Object) (key : String) (value : Value) : Object :=
  if object.containsKey key then object else object.insert key value

/-- The fields of a request that a response echoes. -/
def echoedFields (request : Value) : Object :=
  let source := request.asObject.getD []
  let echoed := echoFields.foldl (fun fields field =>
    match Object.get? source field with
    | none => fields
    | some value => Object.insert fields field value) []
  insertDefault (insertDefault echoed "parallel_tool_calls" (.bool true)) "tools" (.array [])

variable {key : String}

theorem mem_insertDefault {object : Object} {value : Value}
    {entry : String × Value} (h : entry ∈ insertDefault object key value) :
    entry.1 = key ∨ entry ∈ object := by
  unfold insertDefault at h
  split_ifs at h
  · exact .inr h
  · exact (SortedEntries.mem_insert h).imp_left (congrArg Prod.fst)

theorem echoedFields_echo (request : Value) :
    ∀ entry ∈ echoedFields request, entry.1 ∈ echoFields := by
  have hEchoed : ∀ (fields : List String) (start : Object), (∀ field ∈ fields, field ∈ echoFields) →
      (∀ entry ∈ start, entry.1 ∈ echoFields) →
      ∀ entry ∈ fields.foldl (fun fields field =>
        match Object.get? (request.asObject.getD []) field with
        | none => fields
        | some value => .insert fields field value) start, entry.1 ∈ echoFields := by
    intro fields
    induction fields with
    | nil => exact fun start _ hStart => hStart
    | cons field fields ih =>
      intro start hFields hStart
      obtain ⟨hField, hFields⟩ := List.forall_mem_cons.mp hFields
      rw [List.foldl_cons]
      refine ih _ hFields fun entry hEntry => ?_
      split at hEntry
      · exact hStart entry hEntry
      · rcases SortedEntries.mem_insert hEntry with rfl | hOld
        · exact hField
        · exact hStart entry hOld
  intro entry hEntry
  rcases mem_insertDefault hEntry with hTools | hEntry
  · rw [hTools]
    decide
  · rcases mem_insertDefault hEntry with hParallel | hEntry
    · rw [hParallel]
      decide
    · exact hEchoed echoFields [] (fun _ h => h) (by simp) entry hEntry

namespace ResponseProjection

/-- The clock and the id generator are outside the bridge. -/
def new (responseId : String) (createdAt : UInt64) (upstreamModel : String) (request : Value) :
    ResponseProjection :=
  ⟨responseId, createdAt, upstreamModel, echoedFields request, echoedFields_echo request⟩

/-- A response before the echoed fields are added. -/
def plainResponse (projection : ResponseProjection) (status : String) (output : List Value)
    (createdAt : UInt64) (model : String) (usage : Value) : Object :=
  .ofFields [("id", .string projection.responseId), ("object", .string "response"),
    ("created_at", .nat createdAt), ("status", .string status), ("model", .string model),
    ("output", .array output), ("error", .null), ("incomplete_details", .null), ("usage", usage)]

def baseResponse (projection : ResponseProjection) (status : String) (output : List Value)
    (createdAt : UInt64) (model : String) (usage : Value) : Value :=
  .object (projection.requestFields.foldl
    (fun object entry => Object.insert object entry.1 entry.2)
    (projection.plainResponse status output createdAt model usage))

theorem get?_extend {fields : List (String × Value)}
    (h : ∀ entry ∈ fields, entry.1 ≠ key) (object : Object) :
    (fields.foldl (fun object entry => Object.insert object entry.1 entry.2) object).get? key =
      object.get? key := by
  induction fields generalizing object with
  | nil => rfl
  | cons entry fields ih =>
    obtain ⟨hEntry, hFields⟩ := List.forall_mem_cons.mp h
    rw [List.foldl_cons, ih hFields, Object.get?_insert, if_neg hEntry.symm]

/-- Echoed fields replace nothing of the response itself. -/
theorem baseResponse_get? (projection : ResponseProjection) {status : String}
    {output : List Value} {createdAt : UInt64} {model : String} {usage : Value}
    (hKey : key ∉ echoFields) :
    (projection.baseResponse status output createdAt model usage).get? key =
      (projection.plainResponse status output createdAt model usage).get? key := by
  refine get?_extend (fun entry hEntry hSame => hKey ?_) _
  rw [← hSame]
  exact projection.fields_echo entry hEntry

end ResponseProjection

end Any2Api.Bridge
