import Any2Api.Stream.FramePipeline

/-! The streaming body around the frame pipeline: how it settles its
resources, how it is primed before the response is committed, and how it is
polled afterwards. -/
namespace Any2Api.Stream

open Any2Api.Sse

inductive CommitState where
  | pending
  | transportCommitted
  | finished
  deriving DecidableEq

inductive StreamOutcome where
  | success
  | upstreamFailure (error : UpstreamError)
  | error (errorClass : ErrorClass) (message : String)
  | cancelled
  deriving DecidableEq

inductive StreamPrimeFailure where
  | upstream (failure : PrecommitUpstreamFailure)
  | publicError (error : PublicError)
  deriving DecidableEq

/-- How the request recorder was finished. -/
structure RequestFinish where
  statusCode : Nat
  errorClass : Option ErrorClass
  message : Option String
  deriving DecidableEq

/-- What one read of the upstream byte stream can give. -/
inductive UpstreamItem where
  | chunk (bytes : Bytes)
  | failed (error : TransportError)
  | ended
  deriving DecidableEq

structure GuardedBody (ω σ κ : Type) where
  pipeline : FramePipeline ω σ κ
  upstreamLive : Bool
  cancelled : Bool
  state : CommitState
  pendingTermination : StreamTermination
  pendingUpstreamError : Option UpstreamError
  ownsRequestCompletion : Bool
  requestFinishes : List RequestFinish
  precommitDeadline : Option Nat
  idleTimer : Bool

namespace GuardedBody

section Body

variable {ω σ κ : Type} (env : Environment ω σ κ)

def new (world : ω) (session : σ) (guards : Guards) (budget : PrecommitBudget) :
    GuardedBody ω σ κ where
  pipeline :=
    { world, session, guards
      decoder := SseDecoder.new budget.maxBytes
      bufferedChunk := none
      pending := []
      pendingError := none
      precommitUpstreamFailure := none
      precommitCommitReady := false
      precommitContinuation := none
      continuationId := none
      upstreamDone := false
      decoderFinished := false
      terminalSeen := false
      precommitBudget := budget
      observations := [] }
  upstreamLive := true
  cancelled := false
  state := .pending
  pendingTermination := .none
  pendingUpstreamError := none
  ownsRequestCompletion := false
  requestFinishes := []
  precommitDeadline := none
  idleTimer := false

variable (body : GuardedBody ω σ κ)

def guards : Guards := body.pipeline.guards

/-- Apply a change to the guards only. -/
def withGuards (update : Guards → Guards) : GuardedBody ω σ κ :=
  { body with pipeline := { body.pipeline with guards := update body.pipeline.guards } }

/-- Run a pipeline step on the pipeline of the body. -/
def runPipeline {α : Type} (action : PipelineM ω σ κ α) (body : GuardedBody ω σ κ) :
    α × GuardedBody ω σ κ :=
  ((action.run body.pipeline).1, { body with pipeline := (action.run body.pipeline).2 })

def advance (action : PipelineM ω σ κ Unit) (body : GuardedBody ω σ κ) : GuardedBody ω σ κ :=
  (runPipeline action body).2

/-- A lease that is taken without having become ready is dropped, which
removes its pending binding. -/
def dropLease (taker : Taker) (body : GuardedBody ω σ κ) : GuardedBody ω σ κ :=
  match body.pipeline.guards.continuationLease with
  | none => body
  | some lease =>
    { body with pipeline :=
      { body.pipeline with
        world := env.leaseDrop lease body.pipeline.world
        guards := body.pipeline.guards.take .continuationLease taker } }

def dropStagedContinuation : GuardedBody ω σ κ :=
  { body with pipeline := { body.pipeline with precommitContinuation := none } }

/-- The upstream is replaced by an empty stream and the body is over. -/
def close : GuardedBody ω σ κ :=
  { body with state := .finished, cancelled := true, upstreamLive := false }

def observeCancel (outcome : StreamOutcome) (body : GuardedBody ω σ κ) : GuardedBody ω σ κ :=
  if body.ownsRequestCompletion ∧ outcome = .cancelled then
    advance (observeAttempt .streamCancel) body
  else body

def outcomeHealth : StreamOutcome → HealthOutcome
  | .success => .success
  | .upstreamFailure error => .upstreamFailure error
  | .error _ _ | .cancelled => .released

def outcomeAttempt (timedOut : Bool) : StreamOutcome → AttemptRecord
  | .success => .success env.statusCode
  | .upstreamFailure error =>
    .upstreamError env.statusCode error.retrySafety error.kind.errorClass
  | .error errorClass message => .streamError errorClass env.statusCode message
  | .cancelled => .cancelled timedOut (some env.statusCode)

def outcomeRequest : StreamOutcome → RequestFinish
  | .success => ⟨env.statusCode, none, none⟩
  | .upstreamFailure error =>
    ⟨env.statusCode, some error.kind.errorClass,
      some "upstream response stream reported a failure event"⟩
  | .error errorClass message => ⟨env.statusCode, some errorClass, some message⟩
  | .cancelled => ⟨env.statusCode, some .cancelled, some "request cancelled"⟩

def timedOut : Bool :=
  body.guards.attemptRecorder.any AttemptRecorder.timedOut

def finishRequest (outcome : StreamOutcome) (body : GuardedBody ω σ κ) : GuardedBody ω σ κ :=
  if body.ownsRequestCompletion then
    { body with requestFinishes := body.requestFinishes ++ [outcomeRequest env outcome] }
  else body

/-- Settle everything at the end of the stream. Only the first call counts. -/
def finish (outcome : StreamOutcome) (body : GuardedBody ω σ κ) : GuardedBody ω σ κ :=
  if body.state = .finished then body
  else
    let body := observeCancel outcome (dropStagedContinuation (dropLease env .finish body.close))
    let body := body.withGuards fun guards =>
      (guards.settleHealth .finish (outcomeHealth outcome)).settleAttempt .finish
        (outcomeAttempt env body.timedOut outcome)
    (finishRequest env outcome body).withGuards fun guards =>
      (guards.take .permit .finish).take .quotaActivity .finish

/-- Release what a body that is not handed off still holds. The attempt
recorder is settled by the caller. -/
def releaseGuards : GuardedBody ω σ κ :=
  (dropStagedContinuation (dropLease env .releaseGuards body.close)).withGuards fun guards =>
    ((guards.settleHealth .releaseGuards .released).take .permit .releaseGuards).take
      .quotaActivity .releaseGuards

def failBeforeHandoff (errorClass : ErrorClass) (message : String) (body : GuardedBody ω σ κ) :
    GuardedBody ω σ κ :=
  releaseGuards env <| body.withGuards fun guards =>
    guards.settleAttempt .failBeforeHandoff (.localError (some env.statusCode) errorClass message)

/-- Health and attempt outcome of a failure before the commit. -/
def precommitOutcome (kind : PendingStreamErrorKind) (diagnostic : String) :
    HealthOutcome × AttemptRecord :=
  match kind with
  | .transport safety scope =>
    (.transportFailure scope,
      .transportError safety (transportErrorClass scope) diagnostic)
  | .invalidResponse =>
    (.transportFailure .endpoint, .invalidResponse (some env.statusCode) diagnostic)
  | .budgetExceeded => (.success, .invalidResponse (some env.statusCode) diagnostic)
  | .timeout => (.released, .localError (some env.statusCode) .network diagnostic)
  | .local => (.success, .localError (some env.statusCode) .internal diagnostic)

def precommitPublicError (kind : PendingStreamErrorKind) (hadError : Bool) : PublicError :=
  match kind with
  | .timeout => ⟨.gatewayTimeout, upstreamTimeoutMessage⟩
  | .local => ⟨.internalError, "internal stream processing failed"⟩
  | .transport _ _ | .invalidResponse | .budgetExceeded =>
    ⟨.upstreamError, if hadError then "upstream stream failed before the first event"
      else "upstream stream ended before the first event"⟩

def finishPrecommitFailure : PublicError × GuardedBody ω σ κ :=
  let pending := body.pipeline.pendingError
  let kind := (pending.map PendingStreamError.kind).getD .invalidResponse
  let diagnostic := (pending.map PendingStreamError.message).getD
    "upstream stream ended before the first event"
  let (healthOutcome, record) := precommitOutcome env kind diagnostic
  let body := { body with pipeline := { body.pipeline with pendingError := none } }
  let body := body.withGuards fun guards =>
    (guards.settleHealth .finishPrecommitFailure healthOutcome).settleAttempt
      .finishPrecommitFailure record
  (precommitPublicError kind pending.isSome, releaseGuards env body)

def finishPrecommitUpstreamFailure (error : UpstreamError) (body : GuardedBody ω σ κ) :
    GuardedBody ω σ κ :=
  releaseGuards env <| body.withGuards fun guards =>
    (guards.settleHealth .finishPrecommitUpstreamFailure (.upstreamFailure error)).settleAttempt
      .finishPrecommitUpstreamFailure
      (.upstreamError env.statusCode error.retrySafety error.kind.errorClass)

def commitPrecommitContinuation (deadline : Option Nat) (body : GuardedBody ω σ κ) :
    Except PublicError Unit × GuardedBody ω σ κ :=
  match runPipeline (finalizePrecommitContinuation env deadline).run body with
  | (.ok (), body) => (.ok (), body)
  | (.error error, body) =>
    let (publicError, body) := finishPrecommitFailure env (advance (setPendingError error) body)
    (.error publicError, body)

/-- What a turn of the priming loop decides. -/
inductive PrimeTurn where
  | again
  | stop
  | await
  deriving DecidableEq

/-- The deadline is fixed when priming starts. -/
def startPrime : GuardedBody ω σ κ :=
  let (now, body) := runPipeline (readClock env) body
  { body with precommitDeadline := some (now + body.pipeline.precommitBudget.maxDuration) }

def primeDecided : Bool :=
  body.pipeline.precommitCommitReady || body.pipeline.precommitUpstreamFailure.isSome ||
    body.pipeline.pendingError.isSome

/-- A turn of the priming loop up to the point where it reads the upstream. -/
def primeTurn : PrimeTurn × GuardedBody ω σ κ :=
  if body.primeDecided then (.stop, body)
  else
    let (handled, body) := runPipeline (processBufferedFrame env body.precommitDeadline) body
    if handled then (.again, body)
    else if body.pipeline.upstreamDone then
      let body := advance (finishDecoder env body.precommitDeadline) body
      (if body.primeDecided then .again else .stop, body)
    else
      let (now, body) := runPipeline (readClock env) body
      if body.precommitDeadline.getD 0 ≤ now then
        (.stop, advance (setPendingError .timeout) body)
      else (.await, body)

/-- The awaited read: an item, or `none` when the deadline came first. -/
def primeInput (item : Option UpstreamItem) (body : GuardedBody ω σ κ) : GuardedBody ω σ κ :=
  match item with
  | some (.chunk bytes) => advance (processChunk env bytes body.precommitDeadline) body
  | some (.failed error) => advance (setPendingError (.transport error)) body
  | some .ended => advance (processEof env body.precommitDeadline) body
  | none => advance (setPendingError .timeout) body

/-- The end of priming: fail with everything released, or commit the held-back
frames. -/
def primeEnd : Except StreamPrimeFailure Unit × GuardedBody ω σ κ :=
  match body.pipeline.precommitUpstreamFailure with
  | some failure =>
    let body := { body with pipeline :=
      { body.pipeline with precommitUpstreamFailure := none } }
    (.error (.upstream failure), finishPrecommitUpstreamFailure env failure.error body)
  | none =>
    if (body.pipeline.pendingError.isSome && !body.pipeline.precommitCommitReady) ||
        body.pipeline.pending.isEmpty then
      let (error, body) := finishPrecommitFailure env body
      (.error (.publicError error), body)
    else
      match runPipeline (commitPrecommitFrames env body.precommitDeadline).run body with
      | (.ok (), body) => (.ok (), body)
      | (.error error, body) =>
        let (publicError, body) :=
          finishPrecommitFailure env (advance (setPendingError error) body)
        (.error (.publicError publicError), body)

def intoStream : GuardedBody ω σ κ :=
  { body with ownsRequestCompletion := true }

/-- An item of the response stream. A frame carries the termination of its
event, which the consumer does not see. -/
inductive StreamItem where
  | frame (bytes : Bytes) (termination : StreamTermination)
  | error (error : PendingStreamError)
  deriving DecidableEq

/-- What a turn of the polling loop decides: a result for the caller, another
turn, or a read of the upstream. -/
inductive PollTurn where
  | ready (item : Option StreamItem)
  | pending
  | again
  | readUpstream
  deriving DecidableEq

def finishPendingTermination : GuardedBody ω σ κ :=
  let termination := body.pendingTermination
  let body := { body with pendingTermination := .none }
  match termination, body.pendingUpstreamError with
  | .failed, some error =>
    finish env (.upstreamFailure error) { body with pendingUpstreamError := none }
  | .failed, none =>
    finish env (.error .upstream "upstream response stream reported a failure event") body
  | _, _ => finish env .success body

/-- The client receives the frame at the head of the queue. -/
def yieldFrame (frame : PendingFrame κ) (rest : List (PendingFrame κ))
    (body : GuardedBody ω σ κ) : GuardedBody ω σ κ :=
  let body := { body with
    state := .transportCommitted
    pipeline := { body.pipeline with pending := rest } }
  let body := if frame.bytes = [] then body else advance (observeAttempt .firstDownstreamByte) body
  let body := if frame.hasContentDelta then advance (observe .firstToken) body else body
  if frame.termination.isTerminal then
    finishPendingTermination env { body with
      upstreamLive := false
      pendingTermination := frame.termination
      pendingUpstreamError := frame.upstreamError
      idleTimer := false }
  else { body with idleTimer := true }

/-- A turn of the polling loop up to the point where it reads the upstream. -/
def pollTurn : PollTurn × GuardedBody ω σ κ :=
  if body.state = .finished then (.ready none, body)
  else if body.pendingTermination.isTerminal then
    (.ready none, finishPendingTermination env body)
  else
    match body.pipeline.pending, body.pipeline.pendingError with
    | frame :: rest, _ =>
      (.ready (some (.frame frame.bytes frame.termination)), yieldFrame env frame rest body)
    | [], some error =>
      let body := { body with pipeline := { body.pipeline with pendingError := none } }
      (.ready (some (.error error)), finish env (.error error.kind.errorClass error.message) body)
    | [], none =>
      let (handled, body) := runPipeline (processBufferedFrame env none) body
      if handled then (.again, body)
      else
        let body := if body.pipeline.upstreamDone then advance (finishDecoder env none) body
          else body
        if body.pipeline.upstreamDone && (!body.pipeline.decoderFinished ||
            !body.pipeline.pending.isEmpty || body.pipeline.pendingError.isSome) then
          (.again, body)
        else if body.pipeline.upstreamDone || body.cancelled then
          (.ready none, finish env .success body)
        else (.readUpstream, body)

/-- The read of the upstream inside a poll: an item, or `none` when nothing is
there yet. A closed upstream has ended. `idleElapsed` tells whether the idle
timer has run out. -/
def pollInput (item : Option UpstreamItem) (idleElapsed : Bool) (body : GuardedBody ω σ κ) :
    PollTurn × GuardedBody ω σ κ :=
  match if body.upstreamLive then item else some .ended with
  | some (.chunk bytes) =>
    (.again, advance (processChunk env bytes none) { body with idleTimer := true })
  | some (.failed error) => (.again, advance (setPendingError (.transport error)) body)
  | some .ended => (.again, advance (processEof env none) body)
  | none =>
    if body.idleTimer && idleElapsed then
      (.again, advance (setPendingError .postcommitIdleTimeout) body)
    else (.pending, body)

end Body

end GuardedBody

end Any2Api.Stream
