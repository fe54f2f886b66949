import Any2Api.Stream.Environment

/-! The resources a streaming body owns until it settles: request permit,
attempt health handle, quota-activity guard, attempt recorder and the current
continuation lease. Every `take` of the source is logged with the function
that performs it, and the structure carries the balance between what was
given, what is held and what was taken. -/
namespace Any2Api.Stream

inductive RequestAttemptOutcome where
  | success
  | transportError
  | upstreamError
  | invalidResponse
  | localError
  | streamError
  | cancelled
  deriving DecidableEq

/-- The outcome fields of a recorded attempt. -/
structure AttemptRecord where
  outcome : RequestAttemptOutcome
  retrySafety : Option RetrySafety
  errorClass : Option ErrorClass
  errorMessage : Option String
  statusCode : Option Nat
  deriving DecidableEq

namespace AttemptRecord

def success (statusCode : Nat) : AttemptRecord :=
  ⟨.success, none, none, none, some statusCode⟩

def transportError (safety : RetrySafety) (errorClass : ErrorClass) (message : String) :
    AttemptRecord :=
  ⟨.transportError, some safety, some errorClass, some message, none⟩

def upstreamError (statusCode : Nat) (safety : RetrySafety) (errorClass : ErrorClass) :
    AttemptRecord :=
  ⟨.upstreamError, some safety, some errorClass, none, some statusCode⟩

def invalidResponse (statusCode : Option Nat) (message : String) : AttemptRecord :=
  ⟨.invalidResponse, some .ambiguous, some .upstream, some message, statusCode⟩

def localError (statusCode : Option Nat) (errorClass : ErrorClass) (message : String) :
    AttemptRecord :=
  ⟨.localError, some .ambiguous, some errorClass, some message, statusCode⟩

def streamError (errorClass : ErrorClass) (statusCode : Nat) (message : String) : AttemptRecord :=
  ⟨.streamError, some .ambiguous, some errorClass, some message, some statusCode⟩

/-- A cancellation after the attempt timed out is reported as the timeout. -/
def cancelled (timedOut : Bool) (statusCode : Option Nat) : AttemptRecord :=
  if timedOut then
    ⟨.localError, some .ambiguous, some .network, some upstreamTimeoutMessage, none⟩
  else ⟨.cancelled, some .ambiguous, some .cancelled, some "request cancelled", statusCode⟩

end AttemptRecord

/-- An attempt recorder keeps only its first outcome. A disabled one starts
out finished. -/
structure AttemptRecorder where
  timedOut : Bool
  finished : Bool
  deriving DecidableEq

namespace AttemptRecorder

def complete (recorder : AttemptRecorder) (record : AttemptRecord) :
    List AttemptRecord × AttemptRecorder :=
  if recorder.finished then ([], recorder) else ([record], { recorder with finished := true })

/-- A taken recorder gets its outcome and is then dropped, which tries to
record a cancellation. -/
def settle (recorder : AttemptRecorder) (record : AttemptRecord) : List AttemptRecord :=
  let (recorded, recorder) := recorder.complete record
  recorded ++ (recorder.complete (.cancelled recorder.timedOut none)).1

theorem settle_length (recorder : AttemptRecorder) (record : AttemptRecord) :
    (recorder.settle record).length = if recorder.finished then 0 else 1 := by
  cases h : recorder.finished <;> simp [settle, complete, h]

end AttemptRecorder

/-- What the health handle is told when it is taken. `released` is a plain
drop. -/
inductive HealthOutcome where
  | success
  | upstreamFailure (error : UpstreamError)
  | transportFailure (scope : TransportFailureScope)
  | released
  deriving DecidableEq

/-- The function that takes a resource out of its field. -/
inductive Taker where
  | finish
  | releaseGuards
  | finishPrecommitFailure
  | finishPrecommitUpstreamFailure
  | failBeforeHandoff
  | finalizePrecommitContinuation
  | commitContinuationState
  deriving DecidableEq

/-- Leases are numbered in the order in which the body began them. -/
inductive Resource where
  | permit
  | health
  | quotaActivity
  | attemptRecorder
  | lease (number : Nat)
  deriving DecidableEq

/-- The optional fields of the body that are released by taking them. The
attempt recorder is not among them: it is never taken without an outcome. -/
inductive Slot where
  | permit
  | health
  | quotaActivity
  | continuationLease
  deriving DecidableEq

/-- What a body is given beside its permit and its attempt recorder.
`recording` tells whether that recorder is enabled. -/
structure Gift where
  health : Bool
  quotaActivity : Bool
  recording : Bool
  deriving DecidableEq

/-- The fields, and the history of what was taken from them. -/
structure GuardFields where
  permit : Bool
  health : Bool
  quotaActivity : Bool
  attemptRecorder : Option AttemptRecorder
  continuationLease : Option ContinuationLease
  given : Gift
  leasesBegun : Nat
  taken : List (Resource × Taker)
  attempts : List AttemptRecord
  healthOutcomes : List HealthOutcome
  deriving DecidableEq

namespace GuardFields

def holds (fields : GuardFields) : Slot → Bool
  | .permit => fields.permit
  | .health => fields.health
  | .quotaActivity => fields.quotaActivity
  | .continuationLease => fields.continuationLease.isSome

/-- The resource a filled slot holds: the lease begun last is the only one
that can still be held. -/
def resource (fields : GuardFields) : Slot → Resource
  | .permit => .permit
  | .health => .health
  | .quotaActivity => .quotaActivity
  | .continuationLease => .lease (fields.leasesBegun - 1)

def clear (fields : GuardFields) : Slot → GuardFields
  | .permit => { fields with permit := false }
  | .health => { fields with health := false }
  | .quotaActivity => { fields with quotaActivity := false }
  | .continuationLease => { fields with continuationLease := none }

/-- How many of a resource the body was given or began. -/
def owned (fields : GuardFields) : Resource → Nat
  | .permit => 1
  | .health => fields.given.health.toNat
  | .quotaActivity => fields.given.quotaActivity.toNat
  | .attemptRecorder => 1
  | .lease number => if number < fields.leasesBegun then 1 else 0

def held (fields : GuardFields) : Resource → Nat
  | .permit => fields.permit.toNat
  | .health => fields.health.toNat
  | .quotaActivity => fields.quotaActivity.toNat
  | .attemptRecorder => fields.attemptRecorder.isSome.toNat
  | .lease number =>
    if fields.continuationLease.isSome ∧ number + 1 = fields.leasesBegun then 1 else 0

/-- How often a resource was taken. -/
def takes (fields : GuardFields) (resource : Resource) : Nat :=
  fields.taken.countP (·.1 = resource)

/-- Nothing is lost and nothing is taken twice; the attempt is recorded once
when its recorder is taken, unless recording is off. -/
structure Balanced (fields : GuardFields) : Prop where
  resources : ∀ resource, fields.takes resource + fields.held resource = fields.owned resource
  leaseBegun : fields.continuationLease.isSome → 0 < fields.leasesBegun
  recorder : ∀ recorder, fields.attemptRecorder = some recorder →
    recorder.finished = !fields.given.recording
  attempts : fields.attempts.length =
    if fields.given.recording then fields.takes .attemptRecorder else 0

/-- `Option::take` on a slot. -/
def take (fields : GuardFields) (slot : Slot) (taker : Taker) : GuardFields :=
  if fields.holds slot then
    { fields.clear slot with taken := fields.taken ++ [(fields.resource slot, taker)] }
  else fields

/-- A new lease is stored only in an empty slot. -/
def begin (fields : GuardFields) (lease : ContinuationLease) : GuardFields :=
  { fields with continuationLease := some lease, leasesBegun := fields.leasesBegun + 1 }

theorem take_taken (fields : GuardFields) (slot : Slot) (taker : Taker) (resource : Resource) :
    (fields.take slot taker).takes resource = fields.takes resource +
      if fields.holds slot ∧ fields.resource slot = resource then 1 else 0 := by
  unfold take takes
  cases hHolds : fields.holds slot with
  | false => simp
  | true =>
    simp

theorem take_held (fields : GuardFields) (slot : Slot) (taker : Taker) (resource : Resource)
    (hLease : fields.continuationLease.isSome → 0 < fields.leasesBegun) :
    (fields.take slot taker).held resource +
      (if fields.holds slot ∧ fields.resource slot = resource then 1 else 0) =
        fields.held resource := by
  unfold take
  cases hHolds : fields.holds slot with
  | false => simp
  | true =>
    cases slot <;> cases resource <;>
      simp_all [holds, held, clear, GuardFields.resource]
    grind

@[simp] theorem take_owned (fields : GuardFields) (slot : Slot) (taker : Taker) :
    (fields.take slot taker).owned = fields.owned := by
  funext resource
  unfold take
  split
  · cases slot <;> cases resource <;> rfl
  · rfl

/-- The taken recorder gets its outcome. -/
def settleAttempt (fields : GuardFields) (taker : Taker) (record : AttemptRecord) : GuardFields :=
  match fields.attemptRecorder with
  | none => fields
  | some recorder =>
    { fields with
      attemptRecorder := none
      taken := fields.taken ++ [(.attemptRecorder, taker)]
      attempts := fields.attempts ++ recorder.settle record }

/-- The taken health handle is told its outcome. -/
def settleHealth (fields : GuardFields) (taker : Taker) (outcome : HealthOutcome) : GuardFields :=
  if fields.health then
    { fields.take .health taker with healthOutcomes := fields.healthOutcomes ++ [outcome] }
  else fields

variable {fields : GuardFields}

theorem Balanced.take (h : fields.Balanced) (slot : Slot) (taker : Taker) :
    (fields.take slot taker).Balanced := by
  have hSame : (fields.take slot taker).attemptRecorder = fields.attemptRecorder ∧
      (fields.take slot taker).given = fields.given ∧
      (fields.take slot taker).attempts = fields.attempts ∧
      ((fields.take slot taker).continuationLease.isSome → fields.continuationLease.isSome) ∧
      (fields.take slot taker).leasesBegun = fields.leasesBegun := by
    unfold GuardFields.take
    split
    · cases slot <;> simp [clear]
    · simp
  obtain ⟨hRecorder, hGiven, hAttempts, hLease, hBegun⟩ := hSame
  have hTakes : (fields.take slot taker).takes .attemptRecorder =
      fields.takes .attemptRecorder := by
    rw [take_taken]
    cases slot <;> simp [resource]
  refine ⟨?_, ?_, ?_, ?_⟩
  · intro resource
    have hHeld := take_held fields slot taker resource h.leaseBegun
    have hBalance := h.resources resource
    rw [take_taken, take_owned]
    omega
  · rw [hBegun]
    exact fun hSome => h.leaseBegun (hLease hSome)
  · rw [hRecorder, hGiven]
    exact h.recorder
  · rw [hAttempts, hGiven, hTakes]
    exact h.attempts

theorem Balanced.settleAttempt (h : fields.Balanced) (taker : Taker)
    (record : AttemptRecord) : (fields.settleAttempt taker record).Balanced := by
  unfold GuardFields.settleAttempt
  cases hRecorder : fields.attemptRecorder with
  | none => exact h
  | some recorder =>
    refine ⟨?_, h.leaseBegun, by simp, ?_⟩
    · intro resource
      have hBalance := h.resources resource
      cases resource <;> simpa [takes, held, owned, hRecorder] using hBalance
    · have hAttempts := h.attempts
      have hFinished := h.recorder recorder hRecorder
      cases hRecording : fields.given.recording <;>
        simp_all [takes, AttemptRecorder.settle_length]

theorem Balanced.settleHealth (h : fields.Balanced) (taker : Taker)
    (outcome : HealthOutcome) : (fields.settleHealth taker outcome).Balanced := by
  unfold GuardFields.settleHealth
  split
  · exact ⟨(h.take .health taker).resources, (h.take .health taker).leaseBegun,
      (h.take .health taker).recorder, (h.take .health taker).attempts⟩
  · exact h

theorem Balanced.begin (h : fields.Balanced) (lease : ContinuationLease)
    (hNone : fields.continuationLease = none) : (fields.begin lease).Balanced := by
  refine ⟨?_, fun _ => Nat.succ_pos _, h.recorder, h.attempts⟩
  intro resource
  have hBalance := h.resources resource
  cases resource with
  | lease number =>
    simp only [GuardFields.begin, takes, held, owned, hNone] at hBalance ⊢
    simp at hBalance ⊢
    grind
  | permit | health | quotaActivity | attemptRecorder => exact hBalance

end GuardFields

/-- Guard fields in balance. -/
structure Guards extends GuardFields where
  balanced : toGuardFields.Balanced

namespace Guards

/-- The guards a body is created with. -/
def new (health quotaActivity : Bool) (recorder : AttemptRecorder) : Guards where
  permit := true
  health := health
  quotaActivity := quotaActivity
  attemptRecorder := some recorder
  continuationLease := none
  given := ⟨health, quotaActivity, !recorder.finished⟩
  leasesBegun := 0
  taken := []
  attempts := []
  healthOutcomes := []
  balanced := by
    refine ⟨fun resource => ?_, by simp, by simp, by simp [GuardFields.takes]⟩
    cases resource <;> simp [GuardFields.takes, GuardFields.held, GuardFields.owned]

def take (guards : Guards) (slot : Slot) (taker : Taker) : Guards :=
  ⟨guards.toGuardFields.take slot taker, guards.balanced.take slot taker⟩

def settleAttempt (guards : Guards) (taker : Taker) (record : AttemptRecord) : Guards :=
  ⟨guards.toGuardFields.settleAttempt taker record, guards.balanced.settleAttempt taker record⟩

def settleHealth (guards : Guards) (taker : Taker) (outcome : HealthOutcome) : Guards :=
  ⟨guards.toGuardFields.settleHealth taker outcome, guards.balanced.settleHealth taker outcome⟩

/-- Store a new lease; the caller has checked that the slot is empty. -/
def begin (guards : Guards) (lease : ContinuationLease)
    (h : guards.continuationLease = none) : Guards :=
  ⟨guards.toGuardFields.begin lease, guards.balanced.begin lease h⟩

/-- The attempt's deadline elapsed; the recorder learns it through a marker
that it shares with the executor. -/
def markTimedOut (guards : Guards) : Guards :=
  ⟨{ guards.toGuardFields with
      attemptRecorder := guards.attemptRecorder.map fun recorder =>
        { recorder with timedOut := true } },
    ⟨by
      intro resource
      have := guards.balanced.resources resource
      cases resource <;> simpa [GuardFields.held, GuardFields.owned, GuardFields.takes] using this,
    guards.balanced.leaseBegun, by
      intro recorder h
      obtain ⟨before, hBefore, rfl⟩ := Option.map_eq_some_iff.mp h
      exact guards.balanced.recorder before hBefore,
    guards.balanced.attempts⟩⟩

/-- Everything was released and the attempt recorder has its outcome. -/
def Settled (guards : Guards) : Prop :=
  guards.permit = false ∧ guards.health = false ∧ guards.quotaActivity = false ∧
    guards.attemptRecorder = none ∧ guards.continuationLease = none

/-- What each operation leaves in the fields. -/
@[simp] theorem take_fields (guards : Guards) (slot : Slot) (taker : Taker) :
    (guards.take slot taker).given = guards.given ∧
    (guards.take slot taker).permit = (guards.permit && slot ≠ .permit) ∧
    (guards.take slot taker).health = (guards.health && slot ≠ .health) ∧
    (guards.take slot taker).quotaActivity = (guards.quotaActivity && slot ≠ .quotaActivity) ∧
    (guards.take slot taker).attemptRecorder = guards.attemptRecorder ∧
    (guards.take slot taker).continuationLease =
      if slot = .continuationLease then none else guards.continuationLease := by
  simp only [take, GuardFields.take]
  cases slot <;> split <;> simp_all [GuardFields.clear, GuardFields.holds]

@[simp] theorem settleHealth_fields (guards : Guards) (taker : Taker) (outcome : HealthOutcome) :
    (guards.settleHealth taker outcome).given = guards.given ∧
    (guards.settleHealth taker outcome).permit = guards.permit ∧
    (guards.settleHealth taker outcome).health = false ∧
    (guards.settleHealth taker outcome).quotaActivity = guards.quotaActivity ∧
    (guards.settleHealth taker outcome).attemptRecorder = guards.attemptRecorder ∧
    (guards.settleHealth taker outcome).continuationLease = guards.continuationLease := by
  simp only [settleHealth, GuardFields.settleHealth, GuardFields.take, GuardFields.holds]
  split <;> simp_all [GuardFields.clear]

@[simp] theorem settleAttempt_fields (guards : Guards) (taker : Taker) (record : AttemptRecord) :
    (guards.settleAttempt taker record).given = guards.given ∧
    (guards.settleAttempt taker record).permit = guards.permit ∧
    (guards.settleAttempt taker record).health = guards.health ∧
    (guards.settleAttempt taker record).quotaActivity = guards.quotaActivity ∧
    (guards.settleAttempt taker record).attemptRecorder = none ∧
    (guards.settleAttempt taker record).continuationLease = guards.continuationLease := by
  simp only [settleAttempt, GuardFields.settleAttempt]
  split <;> simp_all

variable {guards : Guards} {taker : Taker} {entry : Resource × Taker}

/-- Settled guards took each owned resource exactly once. -/
theorem Settled.takes (h : guards.Settled) (resource : Resource) :
    guards.takes resource = guards.owned resource := by
  obtain ⟨hPermit, hHealth, hQuota, hRecorder, hLease⟩ := h
  have hHeld : guards.held resource = 0 := by
    cases resource <;> simp [GuardFields.held, hPermit, hHealth, hQuota, hRecorder, hLease]
  have := guards.balanced.resources resource
  omega

/-- Nothing is taken more often than it was owned. -/
theorem takes_le_owned (guards : Guards) (resource : Resource) :
    guards.takes resource ≤ guards.owned resource := by
  have := guards.balanced.resources resource
  omega

theorem mem_take {slot : Slot} (h : entry ∈ (guards.take slot taker).taken) :
    entry ∈ guards.taken ∨ entry = (guards.resource slot, taker) := by
  simp only [take, GuardFields.take] at h
  split at h
  · simpa using h
  · exact .inl h

theorem mem_settleHealth {outcome : HealthOutcome}
    (h : entry ∈ (guards.settleHealth taker outcome).taken) :
    entry ∈ guards.taken ∨ entry = (.health, taker) := by
  simp only [settleHealth, GuardFields.settleHealth] at h
  split at h
  · exact mem_take h
  · exact .inl h

theorem mem_settleAttempt {record : AttemptRecord}
    (h : entry ∈ (guards.settleAttempt taker record).taken) :
    entry ∈ guards.taken ∨ entry = (.attemptRecorder, taker) := by
  simp only [settleAttempt, GuardFields.settleAttempt] at h
  split at h
  · exact .inl h
  · simpa using h

end Guards

end Any2Api.Stream
