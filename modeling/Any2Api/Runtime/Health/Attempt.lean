import Any2Api.Library.Runs
import Any2Api.Runtime.Health.Circuit
import Mathlib.Algebra.BigOperators.Fin
import Mathlib.Data.Fintype.Defs

/-! The health of attempts. A candidate has up to four circuits that it may share with
others. An attempt takes a permit of each of them, one after the other, and resolves
them by what it has learnt; between any two of these steps other attempts go on. -/
namespace Any2Api.Runtime.Health

open Runs

structure ReliabilityPolicy where
  transientEndpoint : Duration
  endpoint : Breaker
  proxy : Breaker
  halfOpenMaxProbes : Nat
  deriving DecidableEq

def reliabilityPolicy : ReliabilityPolicy where
  transientEndpoint := seconds 15
  endpoint := ⟨3, seconds 30, seconds 15⟩
  proxy := ⟨3, seconds 30, seconds 30⟩
  halfOpenMaxProbes := 1

/-- `MAX_RETRY_AFTER_SECONDS`. -/
def maxHealthDelay : Duration := seconds 2592000

/-- Endpoints and paths have a runtime of one kind, proxies one of another. -/
inductive CircuitRef where
  | endpoint (runtime : Nat)
  | proxy (runtime : Nat)
  deriving DecidableEq

def ReliabilityPolicy.breaker (policy : ReliabilityPolicy) : CircuitRef → Breaker
  | .endpoint _ => policy.endpoint
  | .proxy _ => policy.proxy

inductive Layer where
  | endpoint
  | proxy
  | egressPath
  | candidatePath
  deriving DecidableEq

instance : Fintype Layer where
  elems := {.endpoint, .proxy, .egressPath, .candidatePath}
  complete := fun layer => by cases layer <;> decide

/-- The runtimes of a candidate. -/
structure RouteCandidate where
  endpointHealth : Option Nat
  proxyHealth : Option Nat
  egressPathHealth : Nat
  candidatePathHealth : Nat
  deriving DecidableEq

def RouteCandidate.circuit (candidate : RouteCandidate) : Layer → Option CircuitRef
  | .endpoint => candidate.endpointHealth.map .endpoint
  | .proxy => candidate.proxyHealth.map .proxy
  | .egressPath => some (.endpoint candidate.egressPathHealth)
  | .candidatePath => some (.endpoint candidate.candidatePathHealth)

/-- What an attempt has still to do, in the order in which it does it. -/
inductive Task where
  | checkTransient (layer : Layer)
  | acquire (layer : Layer)
  | markTransient (layer : Layer)
  | fail (layer : Layer)
  | succeed (layer : Layer)
  | clearTransient (layer : Layer)
  | release (layer : Layer)
  deriving DecidableEq

inductive UpstreamErrorKind where
  | invalidRequest
  | authentication
  | permissionDenied
  | quotaExhausted
  | rateLimited
  | modelUnavailable
  | operationUnavailable
  | transient
  | unknown
  deriving DecidableEq

inductive UpstreamFailureAttribution where
  | unattributed
  | authentication
  | credential
  | credentialModel
  | routeOperation
  | egressPath
  | endpoint
  deriving DecidableEq

inductive TransportFailureScope where
  | endpoint
  | proxy
  | egressPath
  | unattributed
  deriving DecidableEq

/-- How an attempt ends. -/
inductive Completion where
  | success
  | upstreamFailure (attribution : UpstreamFailureAttribution) (kind : UpstreamErrorKind)
  | transportFailure (scope : TransportFailureScope)
  | dropped
  deriving DecidableEq

/-- `try_acquire` of an endpoint or path. -/
def acquireEndpoint (layer : Layer) : List Task := [.checkTransient layer, .acquire layer]

/-- `success` of an endpoint or path. -/
def succeedEndpoint (layer : Layer) : List Task := [.succeed layer, .clearTransient layer]

/-- `failure` of an endpoint or path. -/
def failEndpoint (layer : Layer) : List Task := [.markTransient layer, .fail layer]

/-- `acquire_health`, after the credential was found available. -/
def acquireHealth : List Task :=
  acquireEndpoint .endpoint ++ [.acquire .proxy] ++ acquireEndpoint .egressPath ++
    acquireEndpoint .candidatePath

/-- The permits that `acquire_health` drops when a circuit refuses. -/
def abandon : List Task := [.release .endpoint, .release .proxy, .release .egressPath]

def upstreamTasks (kind : UpstreamErrorKind) : UpstreamFailureAttribution → List Task
  | .endpoint => [.release .egressPath, .release .candidatePath] ++ failEndpoint .endpoint
  | .egressPath => [.release .endpoint, .release .candidatePath] ++ failEndpoint .egressPath
  | .authentication | .credential | .credentialModel =>
    [.release .endpoint] ++ succeedEndpoint .egressPath ++ succeedEndpoint .candidatePath
  | .routeOperation =>
    [.release .endpoint] ++ succeedEndpoint .egressPath ++ failEndpoint .candidatePath
  | .unattributed =>
    [.release .endpoint, .release .egressPath] ++
      if kind = .invalidRequest then [.release .candidatePath] else failEndpoint .candidatePath

def transportTasks : TransportFailureScope → List Task
  | .endpoint =>
    [.release .egressPath, .release .candidatePath, .release .proxy] ++ failEndpoint .endpoint
  | .proxy =>
    [.release .endpoint, .release .egressPath, .release .candidatePath, .fail .proxy]
  | .egressPath =>
    [.release .endpoint, .release .proxy] ++ failEndpoint .egressPath ++
      failEndpoint .candidatePath
  | .unattributed =>
    [.release .endpoint, .release .proxy, .release .egressPath] ++ failEndpoint .candidatePath

def completionTasks : Completion → List Task
  | .success =>
    succeedEndpoint .endpoint ++ succeedEndpoint .egressPath ++
      succeedEndpoint .candidatePath ++ [.succeed .proxy]
  | .upstreamFailure attribution kind => upstreamTasks kind attribution ++ [.succeed .proxy]
  | .transportFailure scope => transportTasks scope
  | .dropped =>
    [.release .endpoint, .release .egressPath, .release .candidatePath, .release .proxy]

/-- `holding` is an `AttemptHealth` that is in use. -/
inductive Stage where
  | acquiring
  | holding (startedAt : Instant)
  | finishing (startedAt : Option Instant)
  deriving DecidableEq

structure Attempt where
  candidate : RouteCandidate
  held : Layer → Option CircuitPermit
  tasks : List Task
  stage : Stage

/-- The circuit beside what has happened to it. -/
structure CircuitHistory where
  state : CircuitState
  /-- The failures since the circuit last opened or a success last closed it. -/
  recorded : List Instant
  /-- How often the circuit has opened. -/
  openings : Nat
  /-- A decrement has found no probe in flight. -/
  saturated : Bool
  deriving DecidableEq

namespace CircuitHistory

def new : CircuitHistory where
  state := .new
  recorded := []
  openings := 0
  saturated := false

variable (history : CircuitHistory) (permit : CircuitPermit)

/-- The circuit has no unit for this permit. -/
def lacks : Bool :=
  permit.halfOpen && decide (history.state.halfOpenInFlight = 0)

def success : CircuitHistory :=
  { history with
    state := history.state.success permit
    recorded := if history.state.staleFor permit.startedAt then history.recorded else []
    saturated := history.saturated || history.lacks permit }

def failure (now : Instant) (breaker : Breaker) : CircuitHistory :=
  let answer := history.state.failure permit now breaker
  { state := answer.2
    recorded := if answer.1.isSome then [] else history.recorded ++ [now]
    openings := history.openings + if answer.1.isSome then 1 else 0
    saturated := history.saturated || history.lacks permit }

/-- Dropping a permit without a result. -/
def release : CircuitHistory :=
  { history with
    state := history.state.returnProbe permit.halfOpen
    saturated := history.saturated || history.lacks permit }

end CircuitHistory

structure HealthState where
  circuits : CircuitRef → CircuitHistory
  transientUntil : Nat → Option Instant
  attempts : List Attempt
  clock : Instant

inductive HealthLabel where
  | tick (now : Instant)
  | acquireHealth (candidate : RouteCandidate)
  | advance (attempt : Nat)
  | establish (attempt : Nat)
  | complete (attempt : Nat) (completion : Completion)
  deriving DecidableEq

namespace HealthState

def initial : HealthState where
  circuits := fun _ => .new
  transientUntil := fun _ => none
  attempts := []
  clock := 0

def setCircuit (health : HealthState) (ref : CircuitRef) (history : CircuitHistory) : HealthState :=
  { health with circuits := Function.update health.circuits ref history }

def setTransient (health : HealthState) (runtime : Nat) (blocked : Option Instant) : HealthState :=
  { health with transientUntil := Function.update health.transientUntil runtime blocked }

/-- The runtime whose transient failure a layer has. -/
def transientRuntime (candidate : RouteCandidate) (layer : Layer) : Option Nat :=
  match candidate.circuit layer with
  | some (.endpoint runtime) => some runtime
  | _ => none

def giveUp (attempt : Attempt) : Attempt :=
  { attempt with tasks := abandon, stage := .finishing none }

def hold (attempt : Attempt) (layer : Layer) (permit : Option CircuitPermit) : Attempt :=
  { attempt with held := Function.update attempt.held layer permit }

def acquire (policy : ReliabilityPolicy) (health : HealthState) (attempt : Attempt)
    (layer : Layer) : HealthState × Attempt :=
  match attempt.candidate.circuit layer with
  | none => (health, attempt)
  | some ref =>
    let history := health.circuits ref
    match history.state.tryAcquire health.clock policy.halfOpenMaxProbes with
    | (.error _, _) => (health, giveUp attempt)
    | (.ok permit, state) =>
      (health.setCircuit ref { history with state }, hold attempt layer (some permit))

/-- Take the permit of a layer, if there is one, and resolve it. -/
def resolve (health : HealthState) (attempt : Attempt) (layer : Layer)
    (resolution : CircuitRef → CircuitHistory → CircuitPermit → CircuitHistory) :
    HealthState × Attempt :=
  match attempt.candidate.circuit layer, attempt.held layer with
  | some ref, some permit =>
    (health.setCircuit ref (resolution ref (health.circuits ref) permit),
      hold attempt layer none)
  | _, _ => (health, attempt)

def perform (policy : ReliabilityPolicy) (health : HealthState) (attempt : Attempt) :
    Task → HealthState × Attempt
  | .checkTransient layer =>
    match (transientRuntime attempt.candidate layer).bind health.transientUntil with
    | some blocked =>
      if health.clock < blocked then (health, giveUp attempt) else (health, attempt)
    | none => (health, attempt)
  | .acquire layer => acquire policy health attempt layer
  | .markTransient layer =>
    match transientRuntime attempt.candidate layer, attempt.held layer with
    | some runtime, some _ =>
      let deadline := health.clock + min policy.transientEndpoint maxHealthDelay
      let blocked := max ((health.transientUntil runtime).getD 0) deadline
      (health.setTransient runtime (some blocked), attempt)
    | _, _ => (health, attempt)
  | .fail layer => resolve health attempt layer fun ref history permit =>
    history.failure permit health.clock (policy.breaker ref)
  | .succeed layer => resolve health attempt layer fun _ history permit => history.success permit
  | .clearTransient layer =>
    match transientRuntime attempt.candidate layer, attempt.stage with
    | some runtime, .finishing (some startedAt) =>
      if (health.transientUntil runtime).any (· ≤ startedAt) then
        (health.setTransient runtime none, attempt)
      else
        (health, attempt)
    | _, _ => (health, attempt)
  | .release layer => resolve health attempt layer fun _ history permit => history.release permit

def setAttempt (health : HealthState) (index : Nat) (attempt : Attempt) : HealthState :=
  { health with attempts := health.attempts.set index attempt }

def step (policy : ReliabilityPolicy) (health : HealthState) : HealthLabel → Option HealthState
  | .tick now => if health.clock ≤ now then some { health with clock := now } else none
  | .acquireHealth candidate =>
    some { health with
      attempts := health.attempts ++ [⟨candidate, fun _ => none, acquireHealth, .acquiring⟩] }
  | .advance index => do
      let attempt ← health.attempts[index]?
      match attempt.tasks with
      | [] => none
      | task :: rest =>
        let (health, attempt) := perform policy health { attempt with tasks := rest } task
        some (health.setAttempt index attempt)
  | .establish index => do
      let attempt ← health.attempts[index]?
      if attempt.stage = .acquiring ∧ attempt.tasks = [] then
        some (health.setAttempt index { attempt with stage := .holding health.clock })
      else
        none
  | .complete index completion => do
      let attempt ← health.attempts[index]?
      match attempt.stage with
      | .holding startedAt =>
        some (health.setAttempt index { attempt with
          tasks := completionTasks completion
          stage := .finishing (some startedAt) })
      | _ => none

end HealthState

end Any2Api.Runtime.Health
