import Any2Api.Library.ExpiringQueue
import Any2Api.Runtime.Domain
import Mathlib.Algebra.Order.Group.Nat

/-! The state of a circuit breaker and the operations on it, each under the lock of
the circuit. -/
namespace Any2Api.Runtime.Health

open ExpiringQueue

/-- What a policy says about one kind of circuit. -/
structure Breaker where
  threshold : Nat
  window : Duration
  openDuration : Duration
  deriving DecidableEq

structure CircuitState where
  failureTimes : List Instant
  openUntil : Option Instant
  halfOpenInFlight : Nat
  lastFailureAt : Option Instant
  deriving DecidableEq

structure CircuitPermit where
  halfOpen : Bool
  startedAt : Instant
  deriving DecidableEq

namespace CircuitState

def new : CircuitState where
  failureTimes := []
  openUntil := none
  halfOpenInFlight := 0
  lastFailureAt := none

def tryAcquire (state : CircuitState) (now : Instant) (halfOpenMaxProbes : Nat) :
    Except Instant CircuitPermit × CircuitState :=
  match state.openUntil with
  | some openUntil =>
    if now < openUntil then
      (.error openUntil, state)
    else if halfOpenMaxProbes ≤ state.halfOpenInFlight then
      (.error (now + millis 10), state)
    else
      (.ok ⟨true, now⟩, { state with halfOpenInFlight := state.halfOpenInFlight + 1 })
  | none => (.ok ⟨false, now⟩, state)

/-- The decrement saturates at zero. -/
def releaseProbe (state : CircuitState) : CircuitState :=
  { state with halfOpenInFlight := state.halfOpenInFlight - 1 }

def returnProbe (state : CircuitState) (halfOpen : Bool) : CircuitState :=
  if halfOpen then state.releaseProbe else state

/-- A failure after the start of the attempt makes its success stale. -/
def staleFor (state : CircuitState) (startedAt : Instant) : Bool :=
  state.lastFailureAt.any (startedAt < ·)

def success (state : CircuitState) (permit : CircuitPermit) : CircuitState :=
  let state := state.returnProbe permit.halfOpen
  if state.staleFor permit.startedAt then
    state
  else
    { state with failureTimes := [], openUntil := none, lastFailureAt := none }

def failure (state : CircuitState) (permit : CircuitPermit) (now : Instant) (breaker : Breaker) :
    Option Instant × CircuitState :=
  let state := state.returnProbe permit.halfOpen
  let recent := state.failureTimes.dropWhile fun failedAt => breaker.window ≤ now - failedAt
  let failureTimes := recent ++ [now]
  if permit.halfOpen || decide (breaker.threshold ≤ failureTimes.length) then
    (some (now + breaker.openDuration),
      { state with
        failureTimes := []
        openUntil := some (now + breaker.openDuration)
        lastFailureAt := some now })
  else
    (none, { state with failureTimes, lastFailureAt := some now })

variable {state : CircuitState} {permit : CircuitPermit} {now : Instant} {breaker : Breaker}

/-- A permit of a circuit is a probe when the circuit was open, and takes a unit then. -/
theorem tryAcquire_cases {halfOpenMaxProbes : Nat} {result : Except Instant CircuitPermit}
    {after : CircuitState} (h : state.tryAcquire now halfOpenMaxProbes = (result, after)) :
    (∃ retryAt, result = .error retryAt ∧ after = state) ∨
    (result = .ok ⟨false, now⟩ ∧ after = state) ∨
    (result = .ok ⟨true, now⟩ ∧ state.halfOpenInFlight < halfOpenMaxProbes ∧
      after = { state with halfOpenInFlight := state.halfOpenInFlight + 1 }) := by
  unfold tryAcquire at h
  split at h
  next openUntil _ =>
    split at h
    next =>
      obtain ⟨rfl, rfl⟩ := Prod.mk.inj h
      exact .inl ⟨openUntil, rfl, rfl⟩
    next =>
      split at h
      next =>
        obtain ⟨rfl, rfl⟩ := Prod.mk.inj h
        exact .inl ⟨_, rfl, rfl⟩
      next hFree =>
        obtain ⟨rfl, rfl⟩ := Prod.mk.inj h
        exact .inr (.inr ⟨rfl, by omega, rfl⟩)
  next =>
    obtain ⟨rfl, rfl⟩ := Prod.mk.inj h
    exact .inr (.inl ⟨rfl, rfl⟩)

@[simp] theorem returnProbe_failureTimes (halfOpen : Bool) :
    (state.returnProbe halfOpen).failureTimes = state.failureTimes := by
  unfold returnProbe
  split <;> rfl

@[simp] theorem returnProbe_openUntil (halfOpen : Bool) :
    (state.returnProbe halfOpen).openUntil = state.openUntil := by
  unfold returnProbe
  split <;> rfl

@[simp] theorem returnProbe_lastFailureAt (halfOpen : Bool) :
    (state.returnProbe halfOpen).lastFailureAt = state.lastFailureAt := by
  unfold returnProbe
  split <;> rfl

@[simp] theorem returnProbe_halfOpenInFlight (halfOpen : Bool) :
    (state.returnProbe halfOpen).halfOpenInFlight =
      state.halfOpenInFlight - if halfOpen then 1 else 0 := by
  unfold returnProbe
  split <;> rfl

/-- A stale success gives back its probe; any other one closes the circuit. -/
theorem success_cases (state : CircuitState) (permit : CircuitPermit) :
    (state.staleFor permit.startedAt = true ∧
      state.success permit = state.returnProbe permit.halfOpen) ∨
    (state.staleFor permit.startedAt = false ∧
      state.success permit = { state.returnProbe permit.halfOpen with
        failureTimes := [], openUntil := none, lastFailureAt := none }) := by
  have hStale : (state.returnProbe permit.halfOpen).staleFor permit.startedAt =
      state.staleFor permit.startedAt := by
    unfold staleFor
    rw [returnProbe_lastFailureAt]
  unfold success
  dsimp only
  rw [hStale]
  cases state.staleFor permit.startedAt with
  | true => exact .inl ⟨rfl, rfl⟩
  | false => exact .inr ⟨rfl, rfl⟩

/-- The failures that a new one finds in the queue. -/
def remaining (state : CircuitState) (now : Instant) (window : Duration) : List Instant :=
  state.failureTimes.dropWhile fun failedAt => window ≤ now - failedAt

/-- A failure is recorded, and opens the circuit if its permit is a probe or if it
reaches the threshold. -/
theorem failure_cases (state : CircuitState) (permit : CircuitPermit) (now : Instant)
    (breaker : Breaker) :
    ((permit.halfOpen = true ∨
        breaker.threshold ≤ (state.remaining now breaker.window).length + 1) ∧
      state.failure permit now breaker = (some (now + breaker.openDuration),
        { state.returnProbe permit.halfOpen with
          failureTimes := []
          openUntil := some (now + breaker.openDuration)
          lastFailureAt := some now })) ∨
    (¬(permit.halfOpen = true ∨
        breaker.threshold ≤ (state.remaining now breaker.window).length + 1) ∧
      state.failure permit now breaker = (none,
        { state.returnProbe permit.halfOpen with
          failureTimes := state.remaining now breaker.window ++ [now]
          lastFailureAt := some now })) := by
  unfold failure remaining
  simp only [returnProbe_failureTimes, List.length_append, List.length_singleton]
  split
  next hOpens =>
    rw [Bool.or_eq_true, decide_eq_true_eq] at hOpens
    exact .inl ⟨hOpens, rfl⟩
  next hStays =>
    rw [Bool.or_eq_true, decide_eq_true_eq] at hStays
    exact .inr ⟨hStays, rfl⟩

theorem success_halfOpenInFlight :
    (state.success permit).halfOpenInFlight =
      state.halfOpenInFlight - if permit.halfOpen then 1 else 0 := by
  rw [← returnProbe_halfOpenInFlight]
  rcases state.success_cases permit with ⟨-, h⟩ | ⟨-, h⟩ <;> rw [h]

theorem failure_halfOpenInFlight :
    (state.failure permit now breaker).2.halfOpenInFlight =
      state.halfOpenInFlight - if permit.halfOpen then 1 else 0 := by
  rw [← returnProbe_halfOpenInFlight]
  rcases state.failure_cases permit now breaker with ⟨-, h⟩ | ⟨-, h⟩ <;> rw [h]

end CircuitState

end Any2Api.Runtime.Health
