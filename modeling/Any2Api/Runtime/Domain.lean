import Mathlib

/-! Identities and limits that the parts of the runtime share. -/
namespace Any2Api.Runtime

/-- Instants of the monotonic clock and durations, in nanoseconds. -/
abbrev Instant := Nat

abbrev Duration := Nat

def seconds (count : Nat) : Duration := count * 1000000000

def millis (count : Nat) : Duration := count * 1000000

/-- One more than the largest `u64` or `usize`. -/
def wordSize : Nat := 2 ^ 64

inductive ProtocolDialect where
  | openAiResponses
  | openAiChatCompletions
  | openAiImages
  | anthropicMessages
  deriving DecidableEq

inductive ProtocolOperation where
  | responses
  | responsesCompact
  | alphaSearch
  | chatCompletions
  | imagesGenerations
  | imagesEdits
  | messages
  | messagesCountTokens
  deriving DecidableEq

/-- The source is part of the identity of a credential. -/
inductive RoutingCredentialId where
  | providerCredential (id : Nat)
  | oauthAccount (id : Nat)
  deriving DecidableEq

def maxRequestsPerMinute : Nat := 100000

structure RequestsPerMinute where
  get : Nat
  positive : 1 ≤ get
  bounded : get ≤ maxRequestsPerMinute
  deriving DecidableEq

/-- A small limit, for sample runs. -/
def twoPerMinute : RequestsPerMinute := ⟨2, by decide, by decide⟩

end Any2Api.Runtime
