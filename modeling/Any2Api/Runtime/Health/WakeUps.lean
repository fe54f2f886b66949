import Any2Api.Library.TimedBlocks
import Any2Api.Runtime.Health.Attempt
import Any2Api.Runtime.Routing.WakeSchedule

/-! The temporary blocks of the health runtimes, their wake slots, and the wake worker, which
advances the epoch of the scheduler when a slot is due. -/
namespace Any2Api.Runtime.Health

open Routing Runs

/-- Every runtime has slots of its own. A model cooldown gets one when it is created, and its
serial tells it from the earlier cooldowns of the model. -/
inductive WakeSlot where
  | circuit (runtime : CircuitRef)
  | transient (endpoint : Nat)
  | credentialCooldown (credential : Nat)
  | quotaExhaustion (credential : Nat)
  | modelCooldown (credential : Nat) (model : String) (serial : Nat)
  deriving DecidableEq

inductive TemporaryUnavailabilityCause where
  | outage
  | rateLimitCooldown
  deriving DecidableEq

structure ModelCooldown where
  blockedUntil : Instant
  cause : TemporaryUnavailabilityCause
  serial : Nat
  deriving DecidableEq

def deadline (now : Instant) (delay : Duration) : Instant := now + min delay maxHealthDelay

def maxDeadline (current : Option Instant) (next : Instant) : Instant :=
  match current with
  | some current => max current next
  | none => next

structure RoutingCredentialHealth where
  credentialCooldownUntil : Option Instant
  modelCooldowns : OrderedMap String ModelCooldown
  quotaExhaustion : Option Instant
  deriving DecidableEq

namespace RoutingCredentialHealth

def new : RoutingCredentialHealth := ⟨none, .empty, none⟩

variable (health : RoutingCredentialHealth)

/-- The model cooldowns that have ended, and the state without them. -/
def pruneExpiredModelCooldowns (now : Instant) :
    List (String × ModelCooldown) × RoutingCredentialHealth :=
  (health.modelCooldowns.entries.filter (·.2.blockedUntil ≤ now),
    { health with modelCooldowns := health.modelCooldowns.retain (now < ·.blockedUntil) })

/-- A later deadline replaces that of the cooldown; a new cooldown takes a serial. -/
def recordModelCooldown (model : String)
    (blockedUntil : Instant) (cause : TemporaryUnavailabilityCause) (nextSerial : Nat) :
    ModelCooldown × Nat :=
  match health.modelCooldowns.get? model with
  | none => (⟨blockedUntil, cause, nextSerial⟩, nextSerial + 1)
  | some cooldown =>
    if cooldown.blockedUntil ≤ blockedUntil then
      ({ cooldown with blockedUntil, cause }, nextSerial)
    else
      (cooldown, nextSerial)

def hasTemporaryCooldown : Bool :=
  health.credentialCooldownUntil.isSome || !health.modelCooldowns.isEmpty ||
    health.quotaExhaustion.isSome

end RoutingCredentialHealth

def modelSlots (credential : Nat) (cooldowns : List (String × ModelCooldown)) : List WakeSlot :=
  cooldowns.map fun (model, cooldown) => .modelCooldown credential model cooldown.serial

/-- The second section of a call of `EndpointHealthRuntime`: `transient` goes on to fail the
circuit, and `success`, which begins with the circuit, to clear the transient block. -/
inductive EndpointSection where
  | circuitFailure (endpoint : Nat) (permit : CircuitPermit) (breaker : Breaker)
  | clearTransient (endpoint : Nat) (startedAt : Instant)
  deriving DecidableEq

/-- What is left of a call after its critical section: slots to drop, then an advance, then
another section. -/
structure WakeTask where
  drops : List WakeSlot
  advances : Bool
  rest : Option EndpointSection
  deriving DecidableEq

structure WakeState where
  clock : Instant
  circuits : CircuitRef → CircuitState
  transients : Nat → Option Instant
  credentials : Nat → RoutingCredentialHealth
  nextSerial : Nat
  schedule : WakeSchedule WakeSlot
  tasks : List WakeTask
  /-- The blocks that have ended since the last advance. -/
  unannounced : WakeSlot → Bool

inductive WakeLabel where
  | tick (now : Instant)
  | tryAcquire (circuit : CircuitRef) (now : Instant) (halfOpenMaxProbes : Nat)
  | releaseProbe (circuit : CircuitRef)
  | proxySuccess (proxy : Nat) (permit : CircuitPermit)
  | proxyFailure (proxy : Nat) (permit : CircuitPermit) (now : Instant) (breaker : Breaker)
  /-- The first section of `EndpointHealthRuntime::transient`. -/
  | endpointFailure (endpoint : Nat) (permit : CircuitPermit) (now : Instant) (delay : Duration)
      (breaker : Breaker)
  /-- The first section of `EndpointHealthRuntime::success`. -/
  | endpointSuccess (endpoint : Nat) (permit : CircuitPermit) (startedAt : Instant)
  /-- The first section of `record`, or that of `availability`. -/
  | pruneExpiredModelCooldowns (credential : Nat) (now : Instant)
  | recordCredentialCooldown (credential : Nat) (now : Instant) (delay : Duration)
  | recordModelCooldown (credential : Nat) (model : String) (now : Instant) (delay : Duration)
      (cause : TemporaryUnavailabilityCause)
  | recordQuotaExhaustion (credential : Nat) (now : Instant) (delay : Duration)
  | clearQuotaExhaustion (credential : Nat)
  | clearTemporaryCooldowns (credential : Nat)
  /-- The wake worker. -/
  | removeDue
  | drop (task : Nat)
  | advance (task : Nat)
  /-- The second section of a call of an endpoint. -/
  | resume (task : Nat) (now : Instant)
  deriving DecidableEq

namespace WakeState

def initial : WakeState where
  clock := 0
  circuits := fun _ => .new
  transients := fun _ => none
  credentials := fun _ => .new
  nextSerial := 0
  schedule := .empty
  tasks := []
  unannounced := fun _ => false

variable (state : WakeState)

def setCircuit (circuit : CircuitRef) (value : CircuitState) : WakeState :=
  { state with circuits := Function.update state.circuits circuit value }

def setTransient (endpoint : Nat) (value : Option Instant) : WakeState :=
  { state with transients := Function.update state.transients endpoint value }

variable (credential : Nat)

def setCredential (value : RoutingCredentialHealth) : WakeState :=
  { state with credentials := Function.update state.credentials credential value }

def prepareSchedule (slot : WakeSlot) (wakeAt : Instant) : WakeState :=
  { state with schedule := (state.schedule.schedule slot wakeAt).2 }

def prepareCancellation (slot : WakeSlot) : WakeState :=
  { state with schedule := (state.schedule.cancel slot).2 }

/-- The call goes on outside of its lock. -/
def leave (task : WakeTask) : WakeState :=
  { state with tasks := state.tasks ++ [task] }

def setTask (index : Nat) (task : WakeTask) : WakeState :=
  { state with tasks := state.tasks.set index task }

/-- A success that changes nothing, and a stale one, does not advance. -/
def circuitSuccess (circuit : CircuitRef) (permit : CircuitPermit)
    (rest : Option EndpointSection) : WakeState :=
  let before := state.circuits circuit
  if before.staleFor permit.startedAt then
    (state.setCircuit circuit (before.success permit)).leave ⟨[], false, rest⟩
  else
    let changed := !before.failureTimes.isEmpty || before.openUntil.isSome
    ((state.setCircuit circuit (before.success permit)).prepareCancellation
      (.circuit circuit)).leave ⟨[], changed, rest⟩

def circuitFailure (circuit : CircuitRef) (permit : CircuitPermit) (now : Instant)
    (breaker : Breaker) : WakeState :=
  let (openUntil, after) := (state.circuits circuit).failure permit now breaker
  match openUntil with
  | some openUntil => (state.setCircuit circuit after).prepareSchedule (.circuit circuit) openUntil
  | none => state.setCircuit circuit after

def transient (endpoint : Nat) (now : Instant) (delay : Duration) : WakeState :=
  let blockedUntil := maxDeadline (state.transients endpoint) (deadline now delay)
  (state.setTransient endpoint (some blockedUntil)).prepareSchedule (.transient endpoint)
    blockedUntil

/-- The transient block ended before the attempt started. -/
def endsBefore (endpoint : Nat) (startedAt : Instant) : Bool :=
  (state.transients endpoint).any (· ≤ startedAt)

def clearTransient (endpoint : Nat) (startedAt : Instant) : WakeState :=
  if state.endsBefore endpoint startedAt then
    (state.setTransient endpoint none).prepareCancellation (.transient endpoint)
  else
    state

def pruneExpiredModelCooldowns (now : Instant) : WakeState :=
  let (expired, health) := (state.credentials credential).pruneExpiredModelCooldowns now
  (state.setCredential credential health).leave ⟨modelSlots credential expired, false, none⟩

def recordCredentialCooldown (now : Instant) (delay : Duration) : WakeState :=
  let health := state.credentials credential
  let blockedUntil := maxDeadline health.credentialCooldownUntil (deadline now delay)
  (state.setCredential credential
    { health with credentialCooldownUntil := some blockedUntil }).prepareSchedule
      (.credentialCooldown credential) blockedUntil

def recordModelCooldown (model : String) (now : Instant)
    (delay : Duration) (cause : TemporaryUnavailabilityCause) : WakeState :=
  let health := state.credentials credential
  let (cooldown, nextSerial) :=
    health.recordModelCooldown model (deadline now delay) cause state.nextSerial
  let state := state.setCredential credential
    { health with modelCooldowns := health.modelCooldowns.insert model cooldown }
  { state with nextSerial }.prepareSchedule (.modelCooldown credential model cooldown.serial)
    cooldown.blockedUntil

def recordQuotaExhaustion (now : Instant) (delay : Duration) : WakeState :=
  let retryAt := deadline now delay
  ((state.setCredential credential
    { state.credentials credential with quotaExhaustion := some retryAt }).prepareSchedule
      (.quotaExhaustion credential) retryAt).leave ⟨[], true, none⟩

def clearQuotaExhaustion : WakeState :=
  if (state.credentials credential).quotaExhaustion.isSome then
    ((state.setCredential credential
      { state.credentials credential with quotaExhaustion := none }).prepareCancellation
        (.quotaExhaustion credential)).leave ⟨[], true, none⟩
  else
    state

def clearTemporaryCooldowns : WakeState :=
  let health := state.credentials credential
  (((state.setCredential credential .new).prepareCancellation
    (.credentialCooldown credential)).prepareCancellation (.quotaExhaustion credential)).leave
      ⟨modelSlots credential health.modelCooldowns.entries, health.hasTemporaryCooldown, none⟩

def removeDue : WakeState :=
  let (removed, schedule) := state.schedule.removeDue state.clock
  { state with schedule }.leave ⟨[], removed, none⟩

/-- A step of a call. A call that takes its time before it enters its section has read an
earlier clock. -/
def perform : WakeLabel → Option WakeState
  | .tick now => if state.clock ≤ now then some { state with clock := now } else none
  | .tryAcquire circuit now halfOpenMaxProbes =>
    if now ≤ state.clock then
      some (state.setCircuit circuit ((state.circuits circuit).tryAcquire now halfOpenMaxProbes).2)
    else
      none
  | .releaseProbe circuit =>
    some ((state.setCircuit circuit (state.circuits circuit).releaseProbe).leave ⟨[], true, none⟩)
  | .proxySuccess proxy permit => some (state.circuitSuccess (.proxy proxy) permit none)
  | .proxyFailure proxy permit now breaker =>
    if now ≤ state.clock then
      some (state.circuitFailure (.proxy proxy) permit now breaker)
    else
      none
  | .endpointFailure endpoint permit now delay breaker =>
    if now ≤ state.clock then
      some ((state.transient endpoint now delay).leave
        ⟨[], false, some (.circuitFailure endpoint permit breaker)⟩)
    else
      none
  | .endpointSuccess endpoint permit startedAt =>
    if startedAt ≤ state.clock then
      some (state.circuitSuccess (.endpoint endpoint) permit
        (some (.clearTransient endpoint startedAt)))
    else
      none
  | .pruneExpiredModelCooldowns credential now =>
    if now ≤ state.clock then some (state.pruneExpiredModelCooldowns credential now) else none
  | .recordCredentialCooldown credential now delay =>
    if now ≤ state.clock then
      some (state.recordCredentialCooldown credential now delay)
    else
      none
  | .recordModelCooldown credential model now delay cause =>
    if now ≤ state.clock then
      some (state.recordModelCooldown credential model now delay cause)
    else
      none
  | .recordQuotaExhaustion credential now delay =>
    if now ≤ state.clock then some (state.recordQuotaExhaustion credential now delay) else none
  | .clearQuotaExhaustion credential => some (state.clearQuotaExhaustion credential)
  | .clearTemporaryCooldowns credential => some (state.clearTemporaryCooldowns credential)
  | .removeDue => some state.removeDue
  | .drop task =>
    match state.tasks[task]? with
    | some ⟨slot :: drops, advances, rest⟩ =>
      some ((state.prepareCancellation slot).setTask task ⟨drops, advances, rest⟩)
    | _ => none
  | .advance task =>
    match state.tasks[task]? with
    | some ⟨[], true, rest⟩ => some (state.setTask task ⟨[], false, rest⟩)
    | _ => none
  | .resume task now =>
    let resumed := state.setTask task ⟨[], false, none⟩
    match state.tasks[task]? with
    | some ⟨[], false, some (.circuitFailure endpoint permit breaker)⟩ =>
      if now ≤ state.clock then
        some (resumed.circuitFailure (.endpoint endpoint) permit now breaker)
      else
        none
    | some ⟨[], false, some (.clearTransient endpoint startedAt)⟩ =>
      if startedAt ≤ state.clock then some (resumed.clearTransient endpoint startedAt) else none
    | _ => none

/-- The deadline that is recorded for a slot. -/
def recordedAt : WakeSlot → Option Instant
  | .circuit circuit => (state.circuits circuit).openUntil
  | .transient endpoint => state.transients endpoint
  | .credentialCooldown credential => (state.credentials credential).credentialCooldownUntil
  | .quotaExhaustion credential => (state.credentials credential).quotaExhaustion
  | .modelCooldown credential model serial =>
    (((state.credentials credential).modelCooldowns.get? model).filter (·.serial = serial)).map
      (·.blockedUntil)

def blocking (slot : WakeSlot) : Bool :=
  (state.recordedAt slot).any (state.clock < ·)

def isAdvance : WakeLabel → Bool
  | .advance _ => true
  | _ => false

/-- Note which blocks have ended. An advance announces all that have ended before it. -/
def note (before : WakeState) (label : WakeLabel) (after : WakeState) : WakeState :=
  { after with
    unannounced := fun slot =>
      before.blocking slot && !after.blocking slot || before.unannounced slot && !isAdvance label }

def step (label : WakeLabel) : Option WakeState :=
  (state.perform label).map (state.note label)

end WakeState

end Any2Api.Runtime.Health
