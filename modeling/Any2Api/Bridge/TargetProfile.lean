import Mathlib.Data.UInt

/-! What an upstream Chat Completions target declares about itself. -/
namespace Any2Api.Bridge

namespace OpenAiChat

inductive TokenLimitField where
  | maxTokens
  | maxCompletionTokens
  deriving DecidableEq

def TokenLimitField.asStr : TokenLimitField → String
  | .maxTokens => "max_tokens"
  | .maxCompletionTokens => "max_completion_tokens"

inductive InstructionRole where
  | system
  | developer
  deriving DecidableEq

def InstructionRole.asStr : InstructionRole → String
  | .system => "system"
  | .developer => "developer"

inductive ReasoningRequest where
  | unsupported
  | reasoningEffort
  deriving DecidableEq

inductive ReasoningResponse where
  | unsupported
  | reasoningContent
  | reasoning
  | reasoningContentOrReasoning
  deriving DecidableEq

inductive CachedTokensField where
  | promptTokensDetails
  | topLevel
  | promptTokensDetailsOrTopLevel
  deriving DecidableEq

inductive CustomToolMode where
  | native
  | functionEnvelope
  deriving DecidableEq

/-- The optional request fields a target may support, in declaration order. -/
inductive RequestField where
  | frequencyPenalty
  | logitBias
  | logprobs
  | metadata
  | parallelToolCalls
  | presencePenalty
  | promptCacheKey
  | responseFormat
  | seed
  | serviceTier
  | stop
  | store
  | temperature
  | topLogprobs
  | topP
  | user
  | verbosity
  deriving DecidableEq

/-- The supported fields as a bit set. -/
structure RequestFields where
  bits : UInt32
  deriving DecidableEq

namespace RequestFields

def all : RequestFields := ⟨((1 : UInt32) <<< 17) - 1⟩

def contains (fields : RequestFields) (field : RequestField) : Bool :=
  fields.bits &&& (1 <<< UInt32.ofNat field.ctorIdx) ≠ 0

end RequestFields

structure CompletionsProfile where
  tokenLimitField : TokenLimitField
  instructionRole : InstructionRole
  reasoningRequest : ReasoningRequest
  reasoningResponse : ReasoningResponse
  cachedTokensField : CachedTokensField
  customTools : CustomToolMode
  toolNameMaxChars : UInt16
  requestFields : RequestFields
  supportsImageUrl : Bool
  supportsImageDetail : Bool
  supportsInputAudio : Bool
  supportsFile : Bool
  deriving DecidableEq

namespace CompletionsProfile

def currentOpenAi : CompletionsProfile where
  tokenLimitField := .maxCompletionTokens
  instructionRole := .developer
  reasoningRequest := .reasoningEffort
  reasoningResponse := .reasoningContentOrReasoning
  cachedTokensField := .promptTokensDetails
  customTools := .native
  toolNameMaxChars := 128
  requestFields := .all
  supportsImageUrl := true
  supportsImageDetail := true
  supportsInputAudio := true
  supportsFile := true

def supportsRequestField (profile : CompletionsProfile) (field : RequestField) : Bool :=
  profile.requestFields.contains field

end CompletionsProfile

end OpenAiChat

end Any2Api.Bridge
