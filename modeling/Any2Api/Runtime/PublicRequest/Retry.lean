import Any2Api.Runtime.Health.Attempt

/-! The retry loop of a public request. An attempt is registered with the budget of the
request before it is sent; what its failure is decides whether the loop goes on. -/
namespace Any2Api.Runtime.PublicRequest

open Runs
open Health (UpstreamErrorKind UpstreamFailureAttribution TransportFailureScope)

/-! Failures. -/

inductive RetrySafety where
  | definitelyNotSent
  | rejectedBeforeExecution
  | idempotent
  | ambiguous
  deriving DecidableEq

def RetrySafety.allowsAutomaticRetry : RetrySafety → Bool
  | .ambiguous => false
  | _ => true

/-- Instants of the wall clock are in nanoseconds since its epoch. -/
abbrev SystemTime := Nat

inductive RetryAfterHint where
  | delay (span : Duration)
  | instant (instant : SystemTime)
  deriving DecidableEq

def RetryAfterHint.delayFrom (hint : RetryAfterHint) (now : SystemTime) : Duration :=
  let wait := match hint with
    | .delay span => span
    | .instant later => later - now
  min wait Health.maxHealthDelay

structure EgressPathIdentity where
  endpointId : Nat
  endpointConfigVersion : Nat
  proxyId : Nat
  proxyConfigVersion : Nat
  deriving DecidableEq

structure CredentialGenerationIdentity where
  credentialId : RoutingCredentialId
  routingGeneration : Nat
  deriving DecidableEq

structure CandidateIdentity extends EgressPathIdentity, CredentialGenerationIdentity where
  targetId : Nat
  operation : ProtocolOperation
  deriving DecidableEq

structure RouteCandidate extends CandidateIdentity where
  upstreamModel : String
  authenticationVersion : Nat
  deriving DecidableEq

namespace RouteCandidate

def identity (candidate : RouteCandidate) : CandidateIdentity := candidate.toCandidateIdentity

def egressPathIdentity (candidate : RouteCandidate) : EgressPathIdentity :=
  candidate.toEgressPathIdentity

def credentialGenerationIdentity (candidate : RouteCandidate) : CredentialGenerationIdentity :=
  candidate.toCredentialGenerationIdentity

end RouteCandidate

structure TransportError where
  failureScope : TransportFailureScope
  retrySafety : RetrySafety
  deriving DecidableEq

structure UpstreamErrorClassification where
  kind : UpstreamErrorKind
  retrySafety : RetrySafety
  retryAfter : Option RetryAfterHint
  attribution : UpstreamFailureAttribution
  deriving DecidableEq

inductive ProtocolRetryDelayBasis where
  | candidateAttempts
  | requestAttempts
  deriving DecidableEq

inductive UpstreamFailureOrigin where
  | httpStatus (errorBodyComplete : Bool)
  | bufferedEnvelope
  | preSemanticStreamEnvelope (basis : ProtocolRetryDelayBasis)
  deriving DecidableEq

def UpstreamFailureOrigin.retryDelayBasis : UpstreamFailureOrigin → ProtocolRetryDelayBasis
  | .preSemanticStreamEnvelope basis => basis
  | .httpStatus _ | .bufferedEnvelope => .candidateAttempts

inductive PublicErrorCode where
  | unauthorized
  | noAvailableCredential
  | localRateLimit
  | sessionBindingLost
  | upstreamError
  | gatewayTimeout
  | internalError
  deriving DecidableEq

inductive AttemptFailure where
  | transport (error : TransportError) (candidate : RouteCandidate) (bound : Bool)
  | upstream (origin : UpstreamFailureOrigin) (error : UpstreamErrorClassification)
      (candidate : RouteCandidate) (bound : Bool)
  | publicError (error : PublicErrorCode)
  deriving DecidableEq

/-- What a request ends with if it does not succeed: an error of the gateway, or the
response to a failed attempt. -/
inductive FinalFailure where
  | localError (error : PublicErrorCode)
  | attempt (failure : AttemptFailure)
  deriving DecidableEq

namespace AttemptFailure

def finalFailure : AttemptFailure → FinalFailure
  | .transport .. => .localError .upstreamError
  | failure@(.upstream ..) => .attempt failure
  | .publicError error => .localError error

def retrySafety : AttemptFailure → RetrySafety
  | .transport error .. => error.retrySafety
  | .upstream _ error .. => error.retrySafety
  | .publicError _ => .ambiguous

def retryAfter : AttemptFailure → Option RetryAfterHint
  | .upstream _ error .. => error.retryAfter
  | .transport .. | .publicError _ => none

def candidate : AttemptFailure → Option RouteCandidate
  | .transport _ candidate _ | .upstream _ _ candidate _ => some candidate
  | .publicError _ => none

def bound : AttemptFailure → Bool
  | .transport _ _ bound | .upstream _ _ _ bound => bound
  | .publicError _ => true

def upstreamOrigin : AttemptFailure → Option UpstreamFailureOrigin
  | .upstream origin .. => some origin
  | .transport .. | .publicError _ => none

end AttemptFailure

def allowsOauthRefresh (classification : UpstreamErrorClassification) : Bool :=
  decide (classification.kind = .authentication) &&
    classification.retrySafety.allowsAutomaticRetry

/-- The account and token version whose token an upstream has refused. -/
def AttemptFailure.oauthAuthenticationTarget : AttemptFailure → Option (Nat × Nat)
  | .upstream _ error candidate _ =>
    match candidate.credentialId with
    | .oauthAccount id =>
      if allowsOauthRefresh error then some (id, candidate.authenticationVersion) else none
    | .providerCredential _ => none
  | .transport .. | .publicError _ => none

/-! The budget. -/

/-- The part of the reliability policy that is about retries. -/
structure RetryPolicy where
  maxTotalAttempts : Nat
  maxCredentialSwitches : Nat
  maxSameCredentialRetries : Nat
  baseDelay : Duration
  maxDelay : Duration
  jitterRatio : Nat
  deriving DecidableEq

structure RetryBudget where
  policy : RetryPolicy
  deadline : Instant
  attempts : Nat
  switches : Nat
  lastCredential : Option RoutingCredentialId
  attemptsByCredential : RoutingCredentialId → Option Nat
  attemptsByCandidate : CandidateIdentity → Option Nat

/-- The readings of the wall clock for a delay. -/
structure WallClock where
  jitter : SystemTime
  hint : SystemTime
  deriving DecidableEq

/-- The fraction of a second stands in for a random number. -/
def jitter (delay : Duration) (ratio : Nat) (now : SystemTime) : Duration :=
  if ratio = 0 ∨ delay = 0 then delay
  else
    let width := ratio * 2 + 1
    let percent := 100 + now % 1000000000 % width - ratio
    delay * percent / 100

namespace RetryBudget

def new (policy : RetryPolicy) (deadline : Instant) : RetryBudget where
  policy
  deadline
  attempts := 0
  switches := 0
  lastCredential := none
  attemptsByCredential := fun _ => none
  attemptsByCandidate := fun _ => none

variable (budget : RetryBudget)

def remaining (now : Instant) : Duration := budget.deadline - now

/-- The attempt would use another credential than the last one. -/
def changesCredential (credentialId : RoutingCredentialId) : Bool :=
  budget.lastCredential.any (· ≠ credentialId)

def canRegisterAttempt (now : Instant) (credentialId : RoutingCredentialId) : Bool :=
  if budget.policy.maxTotalAttempts ≤ budget.attempts ∨ budget.remaining now = 0 then
    false
  else if budget.changesCredential credentialId ∧
      budget.policy.maxCredentialSwitches ≤ budget.switches then
    false
  else
    decide ((budget.attemptsByCredential credentialId).getD 0 ≤
      budget.policy.maxSameCredentialRetries)

def registerAttempt (now : Instant) (candidate : RouteCandidate) : Option Nat × RetryBudget :=
  let credentialId := candidate.credentialId
  if !budget.canRegisterAttempt now credentialId then
    (none, budget)
  else
    let prior := (budget.attemptsByCredential credentialId).getD 0
    let candidateAttempts := (budget.attemptsByCandidate candidate.identity).getD 0
    let attempts := budget.attempts + 1
    (some attempts, { budget with
      attempts
      switches := budget.switches + if budget.changesCredential credentialId then 1 else 0
      lastCredential := some credentialId
      attemptsByCredential :=
        Function.update budget.attemptsByCredential credentialId (some (prior + 1))
      attemptsByCandidate :=
        Function.update budget.attemptsByCandidate candidate.identity
          (some (candidateAttempts + 1)) })

def canRetry (now : Instant) : Bool :=
  decide (budget.attempts < budget.policy.maxTotalAttempts) && decide (budget.remaining now ≠ 0)

def canWait (now : Instant) (delay : Duration) : Bool :=
  decide (delay < budget.remaining now)

def delayForAttemptCount (wall : WallClock) (attemptCount : Nat)
    (retryAfter : Option RetryAfterHint) : Duration :=
  let exponent := min (attemptCount - 1) 31
  let base := min (budget.policy.baseDelay * 2 ^ exponent) budget.policy.maxDelay
  let fallback := jitter base budget.policy.jitterRatio wall.jitter
  max fallback ((retryAfter.map (·.delayFrom wall.hint)).getD 0)

/-- There is no delay for a candidate that has had no attempt. -/
def nextDelay (wall : WallClock) (candidate : RouteCandidate)
    (retryAfter : Option RetryAfterHint) : Option Duration :=
  (budget.attemptsByCandidate candidate.identity).map fun attempts =>
    budget.delayForAttemptCount wall attempts retryAfter

def nextRequestDelay (wall : WallClock) (retryAfter : Option RetryAfterHint) : Duration :=
  budget.delayForAttemptCount wall budget.attempts retryAfter

end RetryBudget

/-! The decision after a failure. -/

inductive CandidateFailureScope where
  | exactCandidate
  | credential
  | credentialModel
  | routeOperation
  | egressPath
  | proxy
  | endpoint
  deriving DecidableEq

inductive RetryDecision where
  | terminal
  | oauthRefresh (accountId tokenVersion : Nat)
  | retrySamePath (delay : Duration)
  | preferAlternate (scope : CandidateFailureScope) (retryDelay : Duration)
  | reselect (scope : CandidateFailureScope)
  deriving DecidableEq

def RetryDecision.requiredWait : RetryDecision → Option Duration
  | .retrySamePath delay => some delay
  | _ => none

def isHardReselectionKind : UpstreamErrorKind → Bool
  | .authentication | .permissionDenied | .quotaExhausted | .modelUnavailable
  | .operationUnavailable => true
  | _ => false

def isNonrecoveringBoundKind (kind : UpstreamErrorKind) : Bool := isHardReselectionKind kind

def failureScope : AttemptFailure → CandidateFailureScope
  | .transport error .. =>
    match error.failureScope with
    | .endpoint => .endpoint
    | .proxy => .proxy
    | .egressPath => .egressPath
    | .unattributed => .exactCandidate
  | .upstream _ error .. =>
    match error.attribution with
    | .authentication | .credential => .credential
    | .credentialModel => .credentialModel
    | .routeOperation => .routeOperation
    | .endpoint => .endpoint
    | .egressPath => .egressPath
    | .unattributed => .exactCandidate
  | .publicError _ => .exactCandidate

def retryDelay (budget : RetryBudget) (wall : WallClock) (failure : AttemptFailure) :
    Option Duration :=
  match (failure.upstreamOrigin.map (·.retryDelayBasis)).getD .candidateAttempts with
  | .candidateAttempts => do budget.nextDelay wall (← failure.candidate) failure.retryAfter
  | .requestAttempts => some (budget.nextRequestDelay wall failure.retryAfter)

/-- There is no decision where the source would not find the attempt of the failure. -/
def retryDecision (budget : RetryBudget) (now : Instant) (wall : WallClock)
    (failure : AttemptFailure) (canRefreshOauth : Bool) : Option RetryDecision :=
  if !budget.canRetry now then
    some .terminal
  else
    match failure with
    | .publicError _ => some .terminal
    | .transport error candidate bound =>
      if !error.retrySafety.allowsAutomaticRetry then
        some .terminal
      else do
        let delay ← budget.nextDelay wall candidate failure.retryAfter
        if bound then some (.retrySamePath delay) else some (.reselect (failureScope failure))
    | .upstream origin error _ bound =>
      if origin = .httpStatus false ∨ error.kind = .invalidRequest ∨
          !error.retrySafety.allowsAutomaticRetry then
        some .terminal
      else
        match (if canRefreshOauth then failure.oauthAuthenticationTarget else none) with
        | some (accountId, tokenVersion) => some (.oauthRefresh accountId tokenVersion)
        | none =>
          if bound then
            if isNonrecoveringBoundKind error.kind then
              some .terminal
            else
              (retryDelay budget wall failure).map .retrySamePath
          else if isHardReselectionKind error.kind then
            some (.reselect (failureScope failure))
          else
            (retryDelay budget wall failure).map (.preferAlternate (failureScope failure))

/-! Which candidates a request still chooses from. -/

/-- What a failure is counted against. -/
inductive SelectionKey where
  | candidate (identity : CandidateIdentity)
  | credential (id : RoutingCredentialId)
  | credentialGeneration (identity : CredentialGenerationIdentity)
  | credentialModel (identity : CredentialGenerationIdentity) (model : String)
  | routeOperation (targetId : Nat) (operation : ProtocolOperation)
  | egressPath (identity : EgressPathIdentity)
  | proxy (id : Nat)
  | endpoint (id : Nat)
  deriving DecidableEq

structure CandidateSelectionState where
  excluded : List SelectionKey
  attempted : List SelectionKey
  notBefore : SelectionKey → Option Instant

namespace CandidateSelectionState

def default : CandidateSelectionState where
  excluded := []
  attempted := []
  notBefore := fun _ => none

def exclusionKey (candidate : RouteCandidate) : CandidateFailureScope → SelectionKey
  | .exactCandidate => .candidate candidate.identity
  | .credential => .credential candidate.credentialId
  | .credentialModel =>
    .credentialModel candidate.credentialGenerationIdentity candidate.upstreamModel
  | .routeOperation => .routeOperation candidate.targetId candidate.operation
  | .egressPath => .egressPath candidate.egressPathIdentity
  | .proxy => .proxy candidate.proxyId
  | .endpoint => .endpoint candidate.endpointId

/-- A deferral of a credential ends with its generation. -/
def deferralKey (candidate : RouteCandidate) : CandidateFailureScope → SelectionKey
  | .credential => .credentialGeneration candidate.credentialGenerationIdentity
  | scope => exclusionKey candidate scope

def noteFailed (state : CandidateSelectionState) (candidate : RouteCandidate) :
    CandidateSelectionState :=
  { state with attempted := [.candidate candidate.identity,
      .credentialGeneration candidate.credentialGenerationIdentity,
      .egressPath candidate.egressPathIdentity] ++ state.attempted }

def exclude (state : CandidateSelectionState) (candidate : RouteCandidate)
    (scope : CandidateFailureScope) : CandidateSelectionState :=
  { state with excluded := exclusionKey candidate scope :: state.excluded }

def defer (state : CandidateSelectionState) (candidate : RouteCandidate)
    (scope : CandidateFailureScope) (notBefore : Instant) : CandidateSelectionState :=
  let key := deferralKey candidate scope
  let deadline := max ((state.notBefore key).getD notBefore) notBefore
  { state with notBefore := Function.update state.notBefore key (some deadline) }

end CandidateSelectionState

def applyCandidateRecovery (state : CandidateSelectionState) (failure : AttemptFailure)
    (decision : RetryDecision) (now : Instant) : CandidateSelectionState :=
  match failure.candidate, decision with
  | some candidate, .preferAlternate scope delay =>
    (state.noteFailed candidate).defer candidate scope (now + delay)
  | some candidate, .reselect scope => (state.noteFailed candidate).exclude candidate scope
  | _, _ => state

/-! The loop. -/

/-- How an attempt that was registered has ended. -/
inductive AttemptEnd where
  /-- Its response was handed downstream. -/
  | responded
  | failed (failure : AttemptFailure)
  | timedOut
  deriving DecidableEq

structure AttemptRecord where
  candidate : RouteCandidate
  ended : Option AttemptEnd
  deriving DecidableEq

inductive Phase where
  | starting
  /-- At the head of the loop of `select_attempt`. -/
  | selecting
  /-- `select_attempt` waits for a candidate, a revision or the deadline. -/
  | awaiting
  | selected (candidate : RouteCandidate) (bound : Bool)
  | running (candidate : RouteCandidate) (bound : Bool)
  | failed (failure : AttemptFailure)
  | refreshing (failure : AttemptFailure) (accountId tokenVersion : Nat)
  | waiting (failure : AttemptFailure) (wakeAt : Instant)
  | finished (result : Except FinalFailure Unit)
  deriving DecidableEq

structure RetryExecution where
  /-- Whether there is a service that refreshes tokens. -/
  hasRefresher : Bool
  budget : RetryBudget
  selectionState : CandidateSelectionState
  previousError : Option FinalFailure
  oauthRefreshAttempted : Bool
  refreshedOauthTarget : Option (Nat × Nat)
  credentialBoundHeaderOwner : Option RoutingCredentialId
  phase : Phase
  clock : Instant
  /-- The attempts that were registered, in order. -/
  attempts : List AttemptRecord

/-- What `rebase_to` says of a new snapshot. -/
inductive Rebase where
  | accepted
  | refused (error : PublicErrorCode)
  deriving DecidableEq

inductive SelectionWake where
  | selected (candidate : RouteCandidate) (bound : Bool)
  | failed (error : PublicErrorCode)
  /-- The revision feed is gone. -/
  | feedLost
  | timedOut
  | revision (rebase : Option Rebase)
  deriving DecidableEq

/-- What becomes of a selected candidate before it is registered. -/
inductive Start where
  /-- There is a newer snapshot. -/
  | stale (rebase : Rebase)
  /-- The admission of the candidate has been revoked. -/
  | revoked
  | started
  deriving DecidableEq

inductive Refresh where
  /-- The token version of the account in the new snapshot, and what `rebase_to` says of it. -/
  | refreshed (tokenVersion : Option Nat) (rebase : Rebase)
  | notRefreshed
  deriving DecidableEq

inductive RetryLabel where
  | tick (now : Instant)
  /-- The first look at the snapshots: there is a newer one or not. -/
  | start (rebase : Option Rebase)
  | beginSelection
  | wake (wake : SelectionWake)
  | execute (start : Start)
  | complete (outcome : AttemptEnd)
  | handleFailure (wall : WallClock)
  | refreshed (refresh : Refresh) (wall : WallClock)
  | delayElapsed
  deriving DecidableEq

namespace RetryExecution

def initial (hasRefresher : Bool) (policy : RetryPolicy) (deadline : Instant) : RetryExecution where
  hasRefresher
  budget := .new policy deadline
  selectionState := .default
  previousError := none
  oauthRefreshAttempted := false
  refreshedOauthTarget := none
  credentialBoundHeaderOwner := none
  phase := .starting
  clock := 0
  attempts := []

variable (execution : RetryExecution)

def fail (failure : FinalFailure) : RetryExecution :=
  { execution with phase := .finished (.error failure) }

/-- The failure of an earlier attempt wins over one of the gateway. -/
def failWithPreviousOr (fallback : FinalFailure) : RetryExecution :=
  { execution with
    phase := .finished (.error (execution.previousError.getD fallback))
    previousError := none }

/-- A new snapshot after which the loop goes on, or which ends it. -/
def rebaseTo : Rebase → RetryExecution
  | .accepted => { execution with phase := .selecting }
  | .refused error =>
    if error = .unauthorized then execution.fail (.localError error)
    else execution.failWithPreviousOr (.localError error)

def start : Option Rebase → RetryExecution
  | some (.refused error) => execution.fail (.localError error)
  | _ => { execution with phase := .selecting }

def beginSelection : RetryExecution :=
  if execution.budget.remaining execution.clock = 0 then
    execution.failWithPreviousOr (.localError .gatewayTimeout)
  else
    { execution with phase := .awaiting }

def wake : SelectionWake → RetryExecution
  | .selected candidate bound => { execution with phase := .selected candidate bound }
  | .failed error => execution.failWithPreviousOr (.localError error)
  | .feedLost => execution.failWithPreviousOr (.localError .internalError)
  | .timedOut => execution.failWithPreviousOr (.localError .gatewayTimeout)
  | .revision none => { execution with phase := .selecting }
  | .revision (some rebase) => execution.rebaseTo rebase

/-- `execute_attempt` up to the registration of the attempt. -/
def execute (candidate : RouteCandidate) (bound : Bool) : Start → RetryExecution
  | .stale rebase => execution.rebaseTo rebase
  | .revoked =>
    if bound then execution.fail (.localError .sessionBindingLost)
    else { execution with phase := .selecting }
  | .started =>
    match execution.budget.registerAttempt execution.clock candidate with
    | (none, budget) => { execution with budget }.failWithPreviousOr (.localError .gatewayTimeout)
    | (some _, budget) =>
      { execution with
        budget
        credentialBoundHeaderOwner :=
          some (execution.credentialBoundHeaderOwner.getD candidate.credentialId)
        phase := .running candidate bound
        attempts := execution.attempts ++ [⟨candidate, none⟩] }

/-- The last attempt has ended. -/
def endAttempt (ended : AttemptEnd) : RetryExecution :=
  { execution with attempts := execution.attempts.modifyLast fun record =>
      { record with ended := some ended } }

def complete : AttemptEnd → RetryExecution
  | .responded => { execution.endAttempt .responded with phase := .finished (.ok ()) }
  | .failed failure => { execution.endAttempt (.failed failure) with phase := .failed failure }
  | .timedOut => (execution.endAttempt .timedOut).failWithPreviousOr (.localError .gatewayTimeout)

variable (failure : AttemptFailure)

/-- The attempt is over and the next one may be selected. -/
def goOn : RetryExecution :=
  { execution with phase := .selecting, previousError := some failure.finalFailure }

def applyRetryDecision (decision : RetryDecision) : RetryExecution :=
  match decision with
  | .terminal => execution.fail failure.finalFailure
  | .retrySamePath delay =>
    if execution.budget.canWait execution.clock delay then
      { execution with phase := .waiting failure (execution.clock + delay) }
    else
      execution.fail failure.finalFailure
  | .preferAlternate .. | .reselect _ =>
    { execution with
      selectionState := applyCandidateRecovery execution.selectionState failure decision
        execution.clock }.goOn failure
  | .oauthRefresh .. => execution.goOn failure

/-- A rejected token that was refreshed for this request is not refreshed again. -/
def noteRejectedRefreshedToken : RetryExecution :=
  if execution.hasRefresher ∧ execution.refreshedOauthTarget.isSome ∧
      failure.oauthAuthenticationTarget = execution.refreshedOauthTarget then
    { execution with refreshedOauthTarget := none }
  else
    execution

/-- `handle_failure` up to the refresh of a token. -/
def handleFailure (wall : WallClock) : Option RetryExecution := do
  let execution := execution.noteRejectedRefreshedToken failure
  let canRefreshOauth := !execution.oauthRefreshAttempted && execution.hasRefresher &&
    failure.candidate.any fun candidate =>
      execution.budget.canRegisterAttempt execution.clock candidate.credentialId
  let decision ← retryDecision execution.budget execution.clock wall failure canRefreshOauth
  let decision :=
    if decision.requiredWait.any (!execution.budget.canWait execution.clock ·) then .terminal
    else decision
  match decision with
  | .oauthRefresh accountId tokenVersion =>
    some { execution with
      oauthRefreshAttempted := true
      phase := .refreshing failure accountId tokenVersion }
  | decision => some (execution.applyRetryDecision failure decision)

/-- `handle_failure` after the refresh of a token. -/
def refreshed (accountId tokenVersion : Nat) (wall : WallClock) : Refresh → Option RetryExecution
  | .refreshed _ (.refused error) => some (execution.fail (.localError error))
  | .refreshed refreshedVersion .accepted =>
    some ({ execution with
      refreshedOauthTarget := refreshedVersion.map (accountId, ·) }.applyRetryDecision failure
        (.oauthRefresh accountId tokenVersion))
  | .notRefreshed => do
      let decision ← retryDecision execution.budget execution.clock wall failure false
      some (execution.applyRetryDecision failure decision)

def step : RetryLabel → Option RetryExecution
  | .tick now => if execution.clock ≤ now then some { execution with clock := now } else none
  | .start rebase => if execution.phase = .starting then some (execution.start rebase) else none
  | .beginSelection =>
    if execution.phase = .selecting then some execution.beginSelection else none
  | .wake reason => if execution.phase = .awaiting then some (execution.wake reason) else none
  | .execute start =>
    match execution.phase with
    | .selected candidate bound => some (execution.execute candidate bound start)
    | _ => none
  | .complete outcome =>
    match execution.phase with
    | .running candidate bound =>
      -- A failure names the candidate of its attempt.
      match outcome with
      | .failed failure =>
        if failure.candidate.all (· = candidate) ∧
            (failure.candidate.isSome → failure.bound = bound) then
          some (execution.complete outcome)
        else
          none
      | outcome => some (execution.complete outcome)
    | _ => none
  | .handleFailure wall =>
    match execution.phase with
    | .failed failure => execution.handleFailure failure wall
    | _ => none
  | .refreshed refresh wall =>
    match execution.phase with
    | .refreshing failure accountId tokenVersion =>
      execution.refreshed failure accountId tokenVersion wall refresh
    | _ => none
  | .delayElapsed =>
    match execution.phase with
    | .waiting failure wakeAt =>
      if wakeAt ≤ execution.clock then some (execution.goOn failure) else none
    | _ => none

end RetryExecution

end Any2Api.Runtime.PublicRequest
