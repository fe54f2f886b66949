import Any2Api.Bridge.ResponseItems

/-! The events of a Responses stream. An event about an output item carries
the index of the item. Its JSON on the wire is left out: it is a function of
the event and its sequence number. -/
namespace Any2Api.Bridge

open Any2Api.Json Any2Api.Stream Any2Api.Sse

/-- The items whose content is streamed in parts. -/
inductive TextChannel where
  | message
  | reasoning
  deriving DecidableEq

/-- The contents that are streamed as deltas. -/
inductive Channel where
  | text (channel : TextChannel)
  | function
  | custom
  deriving DecidableEq

inductive ItemEvent where
  | added (item : Value)
  | partAdded (channel : TextChannel) (itemId : String)
  | delta (channel : Channel) (itemId text : String)
  | contentDone (channel : Channel) (itemId text : String)
  | partDone (channel : TextChannel) (itemId : String) (part : Value)
  | done (item : Value)
  deriving DecidableEq

inductive StreamEvent where
  | created (response : Value)
  | inProgress (response : Value)
  | item (index : Nat) (event : ItemEvent)
  | finished (incomplete : Bool) (response : Value) (usage : TokenUsage)
  | failed (code message : String) (param : Value)
      (failure : Option ProtocolUpstreamFailureEvidence)
  deriving DecidableEq

namespace TextChannel

variable (channel : TextChannel)

def itemId (responseId : String) : String :=
  match channel with
  | .message => messageItemId responseId
  | .reasoning => reasoningItemId responseId

def part (text : String) : Value :=
  match channel with
  | .message => textPart text
  | .reasoning => summaryPart text

/-- The completed item of a text. -/
def item (responseId text : String) : Value :=
  match channel with
  | .message => messageItem responseId text
  | .reasoning => reasoningItem responseId text

/-- The item as it is announced. -/
def openItem (responseId : String) : Value :=
  match channel with
  | .message => .obj [("id", .string (messageItemId responseId)), ("type", .string "message"),
      ("status", .string "in_progress"), ("role", .string "assistant"), ("content", .array [])]
  | .reasoning => .obj [("id", .string (reasoningItemId responseId)),
      ("type", .string "reasoning"), ("status", .string "in_progress"), ("summary", .array [])]

end TextChannel

namespace Channel

/-- The member of a done event that holds the content. -/
def contentField : Channel → String
  | .text _ => "text"
  | .function => "arguments"
  | .custom => "input"

end Channel

def TokenUsage.empty : TokenUsage := ⟨none, none, none, none⟩

/-- An update replaces the counts it has. -/
def mergeUsage (usage update : TokenUsage) : TokenUsage :=
  ⟨update.inputTokens.or usage.inputTokens, update.outputTokens.or usage.outputTokens,
    update.cacheReadTokens.or usage.cacheReadTokens,
    update.cacheCreationTokens.or usage.cacheCreationTokens⟩

def defaultTelemetry : ProtocolEventTelemetry := ⟨TokenUsage.empty, none, false, false⟩

def textBytes (text : String) : Bytes := text.toUTF8.toList

/-- Number the events from `next` on; a number must have a successor. -/
def sequenceEvents (next : Nat) : List StreamEvent →
    Except ProtocolError (List (Nat × StreamEvent) × Nat)
  | [] => .ok ([], next)
  | event :: events =>
    if next + 1 < UInt64.size then do
      let (numbered, last) ← sequenceEvents (next + 1) events
      pure ((next, event) :: numbered, last)
    else .error (invalid "bridged Responses sequence number overflowed")

end Any2Api.Bridge
