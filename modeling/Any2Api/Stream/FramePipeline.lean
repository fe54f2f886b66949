import Any2Api.Library.Loop
import Any2Api.Library.StateRules
import Any2Api.Sse.Decoder
import Any2Api.Stream.Guards

/-! The frame pipeline of a streaming body: upstream bytes are cut into frames,
frames are decoded into events, and events are encoded and queued for the
client. Before the first semantic output the queue is held back, continuation
identities are only staged, and a byte and time budget applies. -/
namespace Any2Api.Stream

open Any2Api.Sse

structure PrecommitBudget where
  maxBytes : Nat
  maxDuration : Nat
  usedBytes : Nat
  committed : Bool
  deriving DecidableEq

namespace PrecommitBudget

def new (maxBytes maxDuration : Nat) : PrecommitBudget := ⟨maxBytes, maxDuration, 0, false⟩

/-- Committed streams are no longer charged. -/
def observeFrame (budget : PrecommitBudget) (bytes : Nat) : Option PrecommitBudget :=
  if budget.committed then some budget
  else if budget.maxBytes < budget.usedBytes + bytes then none
  else some { budget with usedBytes := budget.usedBytes + bytes }

def commit (budget : PrecommitBudget) : PrecommitBudget := { budget with committed := true }

end PrecommitBudget

structure PendingFrame (κ : Type) where
  bytes : Bytes
  hasContentDelta : Bool
  termination : StreamTermination
  tokenUsage : TokenUsage
  effectiveSpeedTier : Option RequestSpeedTier
  continuationId : Option String
  continuationState : BridgeContinuationState κ
  upstreamError : Option UpstreamError
  deriving DecidableEq

structure PrecommitUpstreamFailure where
  error : UpstreamError
  frame : Bytes
  retryDelayBasis : ProtocolRetryDelayBasis
  deriving DecidableEq

inductive PrecommitContinuation (κ : Type) where
  | pending
  | ready (state : Option κ)
  deriving DecidableEq

/-- What the recorders are shown while the stream runs. -/
inductive Observation where
  | tokenUsage (usage : TokenUsage)
  | effectiveSpeedTier (tier : Option RequestSpeedTier)
  | firstToken
  | firstUpstreamFrame
  | streamCommit
  | firstDownstreamByte
  | streamCancel
  deriving DecidableEq

/-- The fields of the body that frame processing reads and writes. -/
structure FramePipeline (ω σ κ : Type) where
  world : ω
  decoder : SseDecoder
  session : σ
  bufferedChunk : Option Bytes
  pending : List (PendingFrame κ)
  pendingError : Option PendingStreamError
  precommitUpstreamFailure : Option PrecommitUpstreamFailure
  precommitCommitReady : Bool
  guards : Guards
  precommitContinuation : Option (PrecommitContinuation κ)
  continuationId : Option String
  upstreamDone : Bool
  decoderFinished : Bool
  terminalSeen : Bool
  precommitBudget : PrecommitBudget
  observations : List Observation

/-- Pipeline steps that cannot fail. -/
abbrev PipelineM (ω σ κ : Type) := StateM (FramePipeline ω σ κ)

/-- Pipeline steps that may stop with a stream error. -/
abbrev FallibleM (ω σ κ : Type) := ExceptT PendingStreamError (StateM (FramePipeline ω σ κ))

section Pipeline

variable {ω σ κ : Type} (env : Environment ω σ κ)

def observe (observation : Observation) : PipelineM ω σ κ Unit :=
  modify fun body => { body with observations := body.observations ++ [observation] }

/-- An observation that goes through the attempt recorder while there is one. -/
def observeAttempt (observation : Observation) : PipelineM ω σ κ Unit :=
  modify fun body => if body.guards.attemptRecorder.isSome then
    { body with observations := body.observations ++ [observation] } else body

/-- The first error wins. -/
def setPendingError (error : PendingStreamError) : PipelineM ω σ κ Unit :=
  modify fun body => { body with pendingError := body.pendingError.or (some error) }

/-- Keep the value of a result or stop with `error`. -/
def orFail {α : Type} (result : Except ProtocolError α) (error : PendingStreamError) :
    FallibleM ω σ κ α :=
  match result with
  | .ok value => pure value
  | .error _ => throw error

def failIf (condition : Bool) (error : PendingStreamError) : FallibleM ω σ κ Unit :=
  if condition then throw error else pure ()

def readClock : PipelineM ω σ κ Nat := modifyGet fun body =>
  ((env.now body.world).1, { body with world := (env.now body.world).2 })

/-- The clock is read only when there is a deadline to check. -/
def checkDeadline (check : Bool) (deadline : Option Nat) : FallibleM ω σ κ Unit :=
  match check, deadline with
  | true, some deadline => do
      let now ← readClock env
      failIf (decide (deadline ≤ now)) .timeout
  | _, _ => pure ()

def BridgeContinuationState.isPending : BridgeContinuationState κ → Bool
  | .pending => true
  | _ => false

/-- `Some(existing)` that differs from `id`. -/
def conflicts (existing : Option String) (id : String) : Bool :=
  existing.any (· ≠ id)

def conflictingIdentities : PendingStreamError :=
  .localError "upstream SSE emitted conflicting response identities"

def missingIdentity : PendingStreamError :=
  .localError "upstream SSE continuation identity was missing"

/-- Begin a pending binding and store its lease, unless one is held. -/
def beginLease (id : String) (deadline : Option Nat) : FallibleM ω σ κ Unit := do
  let body ← get
  match h : body.guards.continuationLease with
  | some _ => pure ()
  | none =>
    match env.beginPending id deadline body.world with
    | (.error error, world) => do
        modify fun body => { body with world }
        throw (bindingError error)
    | (.ok lease, world) =>
      set { body with world, guards := body.guards.begin lease h, continuationId := some id }

/-- Mark the held lease ready and take it. -/
def readyLease (lease : ContinuationLease) (state : Option κ) (deadline : Option Nat)
    (taker : Taker) : FallibleM ω σ κ Unit := do
  let body ← get
  match env.leaseReady lease state deadline body.world with
  | (.error error, world) => do
      modify fun body => { body with world }
      throw (bindingError error)
  | (.ok (), world) =>
    modify fun body =>
      { body with world, guards := body.guards.take .continuationLease taker }

def bindReady (id : String) (state : Option κ) (deadline : Option Nat) : FallibleM ω σ κ Unit := do
  let body ← get
  match env.bindReady id state deadline body.world with
  | (.error error, world) => do
      modify fun body => { body with world }
      throw (bindingError error)
  | (.ok (), world) => modify fun body => { body with world }

def setContinuationId (id : String) : FallibleM ω σ κ Unit :=
  modify fun body => { body with continuationId := some id }

variable (continuationId : Option String)

/-- An identity seen before the commit must agree with every queued one. -/
def validateDeferredContinuationId : FallibleM ω σ κ Unit :=
  match continuationId with
  | none => pure ()
  | some id => do
      let body ← get
      failIf (conflicts body.continuationId id ||
        body.pending.any fun frame => conflicts frame.continuationId id) conflictingIdentities

/-- After the commit a continuation is bound as its events pass by. -/
def commitContinuationState (state : BridgeContinuationState κ)
    (deadline : Option Nat) : FallibleM ω σ κ Unit := do
  let body ← get
  failIf (continuationId.any (conflicts body.continuationId)) conflictingIdentities
  match state, continuationId with
  | .stateless, none => pure ()
  | .stateless, some id => do
      bindReady env id none deadline
      setContinuationId id
  | .pending, none => pure ()
  | .pending, some id => beginLease env id deadline
  | .ready continuation, continuationId =>
    match body.guards.continuationLease, continuationId with
    | some lease, _ => readyLease env lease (some continuation) deadline .commitContinuationState
    | none, some id => do
        bindReady env id (some continuation) deadline
        setContinuationId id
    | none, none => failIf body.continuationId.isNone missingIdentity

/-- Stage `next` under the lease of the response identity. -/
def stageContinuation (next : PrecommitContinuation κ)
    (deadline : Option Nat) : FallibleM ω σ κ Unit := do
  continuationId.forM (beginLease env · deadline)
  let body ← get
  failIf body.guards.continuationLease.isNone missingIdentity
  modify fun body => { body with precommitContinuation := some next }

/-- Before the commit only the newest continuation state is staged; its lease
is begun but nothing becomes visible as ready. -/
def stagePrecommitContinuationState
    (state : BridgeContinuationState κ) (deadline : Option Nat) : FallibleM ω σ κ Unit := do
  let body ← get
  failIf (continuationId.any (conflicts body.continuationId)) conflictingIdentities
  match body.precommitContinuation, continuationId, state with
  | none, none, .stateless => pure ()
  | none, none, .pending => pure ()
  | none, none, .ready _ => throw missingIdentity
  | staged, continuationId, state =>
    let next : PrecommitContinuation κ := match state with
      | .stateless => .ready none
      | .pending => .pending
      | .ready state => .ready (some state)
    match staged, next with
    | some (.ready none), .ready none => pure ()
    | some (.ready (some _)), .ready (some _) => pure ()
    | none, next => stageContinuation env continuationId next deadline
    | some .pending, .pending => stageContinuation env continuationId .pending deadline
    | some .pending, .ready (some state) =>
      stageContinuation env continuationId (.ready (some state)) deadline
    | _, _ => throw (.localError "upstream SSE emitted conflicting continuation states")

variable (deadline : Option Nat)

/-- Publish the staged continuation: a pending one keeps its lease. -/
def finalizePrecommitContinuation : FallibleM ω σ κ Unit := do
  let body ← get
  modify fun body => { body with precommitContinuation := none }
  match body.precommitContinuation with
  | none => pure ()
  | some .pending => pure ()
  | some (.ready state) =>
    match body.guards.continuationLease with
    | none => throw (.localError "upstream SSE continuation lease was missing")
    | some lease => readyLease env lease state deadline .finalizePrecommitContinuation

def chargeBudget (bytes : Nat) : FallibleM ω σ κ Unit := do
  let body ← get
  match body.precommitBudget.observeFrame bytes with
  | none => throw .budgetExceeded
  | some precommitBudget => modify fun body => { body with precommitBudget }

/-- Continuation handling and telemetry of one event: deferred before the
commit, done at once after it. -/
def observeEvent (check : Bool) (continuationId : Option String)
    (continuationState : BridgeContinuationState κ) (usage : TokenUsage)
    (speedTier : Option RequestSpeedTier) : FallibleM ω σ κ Unit :=
  if check then validateDeferredContinuationId continuationId
  else do
    commitContinuationState env continuationId continuationState none
    (observe (.tokenUsage usage) : PipelineM ω σ κ Unit)
    (observe (.effectiveSpeedTier speedTier) : PipelineM ω σ κ Unit)

/-- Queue an encoded event. A failure event before any semantic output is kept
aside as the attempt's failure; any other semantic or terminal event makes the
stream ready to commit. -/
def queueFrame (check : Bool) (event : AdapterEvent)
    (upstreamFailure : Option (UpstreamError × ProtocolRetryDelayBasis))
    (frame : PendingFrame κ) (body : FramePipeline ω σ κ) : FramePipeline ω σ κ :=
  let failure := match upstreamFailure with
    | some (error, retryDelayBasis) =>
      if check && event.termination = .failed && !body.precommitCommitReady then
        some ⟨error, frame.bytes, retryDelayBasis⟩
      else body.precommitUpstreamFailure
    | none => body.precommitUpstreamFailure
  { body with
    precommitUpstreamFailure := failure
    pending := body.pending ++ [frame]
    terminalSeen := body.terminalSeen || event.termination.isTerminal
    precommitCommitReady := body.precommitCommitReady ||
      (check && failure.isNone && (event.telemetry.hasContentDelta ||
        !event.telemetry.retryTransparent || event.termination.isTerminal)) }

def pushEvent (event : AdapterEvent) (deadline : Option Nat) : FallibleM ω σ κ Unit := do
  let body ← get
  let check := !body.precommitBudget.committed
  checkDeadline env check deadline
  let speedTier := env.responseSpeedTier event.telemetry.effectiveSpeedTier
  let upstreamFailure := event.upstreamFailure.map fun evidence =>
    (env.classifyUpstreamFailure evidence (check && !body.precommitCommitReady),
      evidence.retryDelayBasis)
  let continuationId ← orFail (env.continuationIdFromEvent body.session event)
    (.invalidResponse "upstream SSE identity was invalid")
  let continuationState := env.bridgeContinuationState body.session
  failIf (event.termination = .completed && continuationState.isPending)
    (.invalidResponse "upstream SSE continuation was incomplete")
  let frame ← orFail (env.encodeEgressEvent body.session event env.publicModel)
    (.localError "upstream SSE event could not be encoded")
  checkDeadline env check deadline
  chargeBudget frame.length
  observeEvent env check continuationId continuationState event.telemetry.tokenUsage speedTier
  modify (queueFrame check event upstreamFailure
    ⟨frame, event.telemetry.hasContentDelta, event.termination, event.telemetry.tokenUsage,
      speedTier, continuationId, continuationState, upstreamFailure.map Prod.fst⟩)

/-- Push events until one of them is terminal. -/
def pushEvents (deadline : Option Nat) : List AdapterEvent → FallibleM ω σ κ Unit
  | [] => pure ()
  | event :: events => do
      pushEvent env event deadline
      let body ← get
      if body.terminalSeen then pure () else pushEvents deadline events

/-- Decoding changes the session whether or not it succeeds. -/
def decodeFrame (frame : Bytes) : FallibleM ω σ κ (List AdapterEvent) := do
  let body ← get
  modify fun body =>
    { body with session := (env.decodeUpstreamEvent frame body.session).2 }
  orFail (env.decodeUpstreamEvent frame body.session).1
    (.invalidResponse "upstream SSE event was invalid")

def pushFrame (frame : Bytes) (deadline : Option Nat) : FallibleM ω σ κ Unit := do
  let body ← get
  checkDeadline env (!body.precommitBudget.committed) deadline
  let events ← decodeFrame env frame
  pushEvents env deadline events

/-- Run a fallible step and keep its error as the pending one. -/
def recordFailure (action : FallibleM ω σ κ Unit) : PipelineM ω σ κ Unit := do
  match ← action.run with
  | .ok () => pure ()
  | .error error => setPendingError error

def invalidFrame (error : ProtocolError) : PendingStreamError :=
  .invalidResponse ("upstream SSE frame was invalid: " ++ error.text)

/-- One turn of the frame loop: handle a ready frame and stop, or push the next
part of the buffered chunk. The flag tells whether a frame or an error was
handled. -/
def bufferedTurn (body : FramePipeline ω σ κ) :
    FramePipeline ω σ κ ⊕ (Bool × FramePipeline ω σ κ) :=
  match body.decoder.nextFrame with
  | .error error => .inr (true, ((setPendingError (invalidFrame error)).run body).2)
  | .ok (some frame, decoder) =>
    let handle : PipelineM ω σ κ Unit := do
      observeAttempt .firstUpstreamFrame
      recordFailure (pushFrame env frame deadline)
    .inr (true, (handle.run { body with decoder }).2)
  | .ok (none, decoder) =>
    match body.bufferedChunk with
    | none => .inr (false, { body with decoder })
    | some chunk =>
      match decoder.push (chunk.take (min decoder.nextInputLimit chunk.length)) with
      | .error error =>
        .inr (true, ((setPendingError (invalidFrame error)).run
          { body with decoder, bufferedChunk := none }).2)
      | .ok (consumed, decoder) =>
        let rest := chunk.drop consumed
        .inl { body with decoder, bufferedChunk := if rest = [] then none else some rest }

/-- Every turn shrinks the buffered chunk or makes a frame ready, so this much
fuel is never used up. -/
def bufferedFuel (body : FramePipeline ω σ κ) : Nat :=
  (body.bufferedChunk.map List.length).getD 0 + 3

def processBufferedFrame : PipelineM ω σ κ Bool := fun body =>
  (Loop.run (bufferedTurn env deadline) (bufferedFuel body) body).getD (false, body)

def processChunk (chunk : Bytes) (deadline : Option Nat) : PipelineM ω σ κ Unit := do
  modify fun body => if chunk = [] then body else { body with bufferedChunk := some chunk }
  discard (processBufferedFrame env deadline)

/-- The frame that the end of the input leaves in the decoder. -/
def finishLastFrame : PipelineM ω σ κ Unit := do
  let body ← get
  match body.decoder.finish with
  | .error error => setPendingError (invalidFrame error)
  | .ok (frame, decoder) => do
      modify fun body => { body with decoder }
      match frame with
      | none => pure ()
      | some frame => recordFailure (pushFrame env frame deadline)

/-- The events a bridge still has to deliver at the end of the input. -/
def finishEvents : PipelineM ω σ κ Unit := do
  let body ← get
  modify fun body => { body with session := (env.finishUpstreamEvents body.session).2 }
  match (env.finishUpstreamEvents body.session).1 with
  | .ok events => recordFailure (pushEvents env deadline events)
  | .error _ =>
    setPendingError (.invalidResponse "upstream SSE bridge could not be finalized")

/-- Run a step only while no error is pending. -/
def unlessFailed (action : PipelineM ω σ κ Unit) : PipelineM ω σ κ Unit := do
  let body ← get
  if body.pendingError.isNone then action else pure ()

def requireTerminalEvent : PipelineM ω σ κ Unit := do
  let body ← get
  if env.streamCompletionPolicy body.session = .terminalEventRequired ∧ !body.terminalSeen then
    setPendingError (.invalidResponse "upstream SSE ended before a required terminal event")
  else pure ()

def finishDecoder : PipelineM ω σ κ Unit := do
  let body ← get
  if body.decoderFinished then pure ()
  else do
    modify fun body => { body with decoderFinished := true }
    finishLastFrame env deadline
    unlessFailed (finishEvents env deadline)
    unlessFailed (requireTerminalEvent env)

def processEof : PipelineM ω σ κ Unit := do
  modify fun body => { body with upstreamDone := true }
  let handled ← processBufferedFrame env deadline
  if handled then pure () else finishDecoder env deadline

/-- Stage the continuation of one held-back frame and put it back. -/
def commitFrame (frame : PendingFrame κ) : FallibleM ω σ κ Unit := do
  stagePrecommitContinuationState env frame.continuationId frame.continuationState deadline
  (observe (.tokenUsage frame.tokenUsage) : PipelineM ω σ κ Unit)
  (observe (.effectiveSpeedTier frame.effectiveSpeedTier) : PipelineM ω σ κ Unit)
  modify fun body => { body with pending := body.pending ++
    [{ frame with continuationId := none, continuationState := .stateless }] }

def commitPrecommitFrames : FallibleM ω σ κ Unit := do
  let body ← get
  modify fun body => { body with pending := [] }
  body.pending.forM (commitFrame env deadline)
  modify fun body => { body with precommitBudget := body.precommitBudget.commit }
  (observeAttempt .streamCommit : PipelineM ω σ κ Unit)

end Pipeline

end Any2Api.Stream
