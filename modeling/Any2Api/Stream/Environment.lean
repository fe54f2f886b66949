import Any2Api.Sse.Event

/-! The data that flows through a streaming response body, and the services
it calls. Clock, affinity registry, protocol exchange and provider driver are
parameters: every theorem about the body holds for all of them. -/
namespace Any2Api.Stream

open Any2Api.Sse

inductive RetrySafety where
  | definitelyNotSent
  | rejectedBeforeExecution
  | idempotent
  | ambiguous
  deriving DecidableEq

inductive ErrorClass where
  | invalidRequest
  | authentication
  | permissionDenied
  | quotaExhausted
  | rateLimited
  | modelUnavailable
  | operationUnavailable
  | proxy
  | network
  | upstream
  | cancelled
  | internal
  deriving DecidableEq

inductive UpstreamErrorKind where
  | invalidRequest
  | authentication
  | permissionDenied
  | quotaExhausted
  | rateLimited
  | modelUnavailable
  | operationUnavailable
  | transient
  | unknown
  deriving DecidableEq

def UpstreamErrorKind.errorClass : UpstreamErrorKind → ErrorClass
  | .invalidRequest => .invalidRequest
  | .authentication => .authentication
  | .permissionDenied => .permissionDenied
  | .quotaExhausted => .quotaExhausted
  | .rateLimited => .rateLimited
  | .modelUnavailable => .modelUnavailable
  | .operationUnavailable => .operationUnavailable
  | .transient | .unknown => .upstream

/-- The part of an upstream error classification that the stream body reads. -/
structure UpstreamError where
  kind : UpstreamErrorKind
  retrySafety : RetrySafety
  deriving DecidableEq

def UpstreamError.withRetrySafety (error : UpstreamError) (safety : RetrySafety) :
    UpstreamError := { error with retrySafety := safety }

inductive TransportFailureScope where
  | endpoint
  | proxy
  | egressPath
  | unattributed
  deriving DecidableEq

inductive TransportErrorStage where
  | dns
  | tcp
  | proxyHandshake
  | tls
  | writeRequest
  | awaitHeaders
  | readBody
  deriving DecidableEq

structure TransportError where
  stage : TransportErrorStage
  failureScope : TransportFailureScope
  retrySafety : RetrySafety
  deriving DecidableEq

def transportErrorDiagnostic (error : TransportError) : String :=
  match error.stage with
  | .dns => "upstream DNS resolution failed"
  | .tcp => "upstream TCP connection failed"
  | .proxyHandshake => "upstream proxy handshake failed"
  | .tls => "upstream TLS handshake failed"
  | .writeRequest => "upstream request write failed"
  | .awaitHeaders => "upstream response headers failed"
  | .readBody => "upstream response body failed"

def transportErrorClass : TransportFailureScope → ErrorClass
  | .proxy => .proxy
  | .endpoint | .egressPath | .unattributed => .network

inductive PendingStreamErrorKind where
  | transport (retrySafety : RetrySafety) (failureScope : TransportFailureScope)
  | invalidResponse
  | budgetExceeded
  | timeout
  | local
  deriving DecidableEq

def PendingStreamErrorKind.errorClass : PendingStreamErrorKind → ErrorClass
  | .transport _ scope => transportErrorClass scope
  | .invalidResponse | .budgetExceeded => .upstream
  | .timeout => .network
  | .local => .internal

def upstreamTimeoutMessage : String := "any2api timed out waiting for an upstream response"

/-- A stream error with its classification. -/
structure PendingStreamError where
  message : String
  kind : PendingStreamErrorKind
  deriving DecidableEq

namespace PendingStreamError

def transport (error : TransportError) : PendingStreamError :=
  ⟨transportErrorDiagnostic error, .transport error.retrySafety error.failureScope⟩

def timeout : PendingStreamError := ⟨upstreamTimeoutMessage, .timeout⟩

def postcommitIdleTimeout : PendingStreamError :=
  ⟨"upstream stream was idle after commit", .transport .ambiguous .unattributed⟩

def invalidResponse (message : String) : PendingStreamError := ⟨message, .invalidResponse⟩

def localError (message : String) : PendingStreamError := ⟨message, .local⟩

def budgetExceeded : PendingStreamError :=
  ⟨"upstream stream exceeded the precommit byte budget", .budgetExceeded⟩

end PendingStreamError

inductive PublicErrorCode where
  | upstreamError
  | gatewayTimeout
  | internalError
  deriving DecidableEq

structure PublicError where
  code : PublicErrorCode
  message : String
  deriving DecidableEq

inductive StreamTermination where
  | none
  | completed
  | failed
  deriving DecidableEq

def StreamTermination.isTerminal : StreamTermination → Bool
  | .none => false
  | .completed | .failed => true

inductive StreamCompletionPolicy where
  | eofAllowed
  | terminalEventRequired
  deriving DecidableEq

inductive RequestSpeedTier where
  | standard
  | fast
  deriving DecidableEq

structure TokenUsage where
  inputTokens : Option Nat
  outputTokens : Option Nat
  cacheReadTokens : Option Nat
  cacheCreationTokens : Option Nat
  deriving DecidableEq

structure ProtocolEventTelemetry where
  tokenUsage : TokenUsage
  effectiveSpeedTier : Option RequestSpeedTier
  hasContentDelta : Bool
  retryTransparent : Bool
  deriving DecidableEq

inductive ProtocolRetryDelayBasis where
  | candidateAttempts
  | requestAttempts
  deriving DecidableEq

structure ProtocolUpstreamFailureEvidence where
  rawJson : Bytes
  retrySafetyOverride : Option RetrySafety
  retryDelayBasis : ProtocolRetryDelayBasis
  deriving DecidableEq

/-- A decoded event on its way from the upstream dialect to the client. -/
structure AdapterEvent where
  bytes : Bytes
  payload : SseEventPayload
  telemetry : ProtocolEventTelemetry
  termination : StreamTermination
  upstreamFailure : Option ProtocolUpstreamFailureEvidence
  deriving DecidableEq

inductive BridgeContinuationState (κ : Type) where
  | stateless
  | pending
  | ready (state : κ)
  deriving DecidableEq

inductive AffinityError where
  | deadlineExceeded
  | capacity
  | continuationCapacity
  | continuationTooLarge
  | identityConflict
  | leaseLost
  deriving DecidableEq

def bindingError : AffinityError → PendingStreamError
  | .deadlineExceeded => .timeout
  | .capacity | .continuationCapacity => .localError "protocol continuation capacity is full"
  | .continuationTooLarge => .localError "protocol continuation state is too large"
  | .identityConflict | .leaseLost => .localError "upstream SSE identity could not be bound"

/-- A pending continuation binding of the affinity registry. -/
structure ContinuationLease where
  version : Nat
  deriving DecidableEq

/-- The services a body calls. `ω` is the state of the clock and the affinity
registry, which other requests share; `σ` is the exchange with its bridge
session; `κ` is a protocol continuation state. -/
structure Environment (ω σ κ : Type) where
  publicModel : String
  statusCode : Nat
  now : ω → Nat × ω
  beginPending : String → Option Nat → ω → Except AffinityError ContinuationLease × ω
  leaseReady : ContinuationLease → Option κ → Option Nat → ω → Except AffinityError Unit × ω
  leaseDrop : ContinuationLease → ω → ω
  bindReady : String → Option κ → Option Nat → ω → Except AffinityError Unit × ω
  decodeUpstreamEvent : Bytes → σ → Except ProtocolError (List AdapterEvent) × σ
  finishUpstreamEvents : σ → Except ProtocolError (List AdapterEvent) × σ
  encodeEgressEvent : σ → AdapterEvent → String → Except ProtocolError Bytes
  continuationIdFromEvent : σ → AdapterEvent → Except ProtocolError (Option String)
  bridgeContinuationState : σ → BridgeContinuationState κ
  streamCompletionPolicy : σ → StreamCompletionPolicy
  classifyError : Bytes → UpstreamError
  responseSpeedTier : Option RequestSpeedTier → Option RequestSpeedTier

def maxUpstreamErrorBodyBytes : Nat := 64 * 1024

/-- Only the first bytes of the evidence are classified. A retry-safety
override counts only before anything was committed. -/
def Environment.classifyUpstreamFailure {ω σ κ : Type} (env : Environment ω σ κ)
    (evidence : ProtocolUpstreamFailureEvidence) (allowRetrySafetyOverride : Bool) :
    UpstreamError :=
  let classified := env.classifyError (evidence.rawJson.take maxUpstreamErrorBodyBytes)
  match allowRetrySafetyOverride, evidence.retrySafetyOverride with
  | true, some safety => classified.withRetrySafety safety
  | _, _ => classified

end Any2Api.Stream
