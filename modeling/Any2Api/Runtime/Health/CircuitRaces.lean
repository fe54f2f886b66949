import Any2Api.Library.Runs
import Any2Api.Runtime.Health.Circuit

/-! Concurrent attempts on one circuit. `try_acquire` and `failure` read the clock before
they take the lock of the circuit, so that other attempts may go on between the two, and
failures are not always applied in the order of their readings. -/
namespace Any2Api.Runtime.Health

open Runs

inductive AttemptPhase where
  /-- `try_acquire` has read the clock. -/
  | acquiring (now : Instant)
  | running (permit : CircuitPermit)
  /-- `failure` has read the clock. -/
  | failing (permit : CircuitPermit) (now : Instant)
  | finished
  deriving DecidableEq

structure CircuitRuntime where
  state : CircuitState
  clock : Instant
  attempts : List AttemptPhase
  /-- The clock readings of the failures applied since the circuit last closed. -/
  applied : List Instant
  deriving DecidableEq

inductive CircuitLabel where
  | tick (now : Instant)
  | readAcquire
  | acquire (attempt : Nat)
  | readFailure (attempt : Nat)
  | failure (attempt : Nat)
  | success (attempt : Nat)
  | drop (attempt : Nat)
  deriving DecidableEq

namespace CircuitRuntime

def initial : CircuitRuntime where
  state := .new
  clock := 0
  attempts := []
  applied := []

variable (runtime : CircuitRuntime)

def acquiring (index : Nat) : Option Instant :=
  match runtime.attempts[index]? with
  | some (.acquiring now) => some now
  | _ => none

def running (index : Nat) : Option CircuitPermit :=
  match runtime.attempts[index]? with
  | some (.running permit) => some permit
  | _ => none

def failing (index : Nat) : Option (CircuitPermit × Instant) :=
  match runtime.attempts[index]? with
  | some (.failing permit now) => some (permit, now)
  | _ => none

def proceed (index : Nat) (phase : AttemptPhase) : CircuitRuntime :=
  { runtime with attempts := runtime.attempts.set index phase }

def step (breaker : Breaker) (halfOpenMaxProbes : Nat) (runtime : CircuitRuntime) :
    CircuitLabel → Option CircuitRuntime
  | .tick now => if runtime.clock ≤ now then some { runtime with clock := now } else none
  | .readAcquire =>
    some { runtime with attempts := runtime.attempts ++ [.acquiring runtime.clock] }
  | .acquire index => do
      let now ← runtime.acquiring index
      let (result, state) := runtime.state.tryAcquire now halfOpenMaxProbes
      let phase := match result with
        | .ok permit => .running permit
        | .error _ => .finished
      some ({ runtime with state }.proceed index phase)
  | .readFailure index => do
      let permit ← runtime.running index
      some (runtime.proceed index (.failing permit runtime.clock))
  | .failure index => do
      let (permit, now) ← runtime.failing index
      let (_, state) := runtime.state.failure permit now breaker
      some ({ runtime with state, applied := runtime.applied ++ [now] }.proceed index .finished)
  | .success index => do
      let permit ← runtime.running index
      let applied := if runtime.state.staleFor permit.startedAt then runtime.applied else []
      some ({ runtime with state := runtime.state.success permit, applied }.proceed index .finished)
  | .drop index => do
      let permit ← runtime.running index
      some ({ runtime with state := runtime.state.returnProbe permit.halfOpen }.proceed index
        .finished)

/-- The failure that a step applies. -/
def applying : CircuitLabel → Option (CircuitPermit × Instant)
  | .failure index => runtime.failing index
  | _ => none

/-- The permit whose success a step applies. -/
def succeeding : CircuitLabel → Option CircuitPermit
  | .success index => runtime.running index
  | _ => none

/-- A success that is not stale closes the circuit. -/
def closes (label : CircuitLabel) : Bool :=
  (runtime.succeeding label).any fun permit => !runtime.state.staleFor permit.startedAt

/-- An instant that is known stays known and does not move back. -/
def NotEarlier (before after : Option Instant) : Prop :=
  ∀ old ∈ before, ∃ new ∈ after, old ≤ new

instance (before after : Option Instant) : Decidable (NotEarlier before after) := by
  unfold NotEarlier
  infer_instance

variable (breaker : Breaker) (halfOpenMaxProbes : Nat)

/-- Only a success that closes the circuit takes back what failures have left, and a success
does not close it when its attempt started before a failure applied since the last close. -/
def Guarded (runtime : CircuitRuntime) (label : CircuitLabel) : Prop :=
  (∀ after ∈ runtime.step breaker halfOpenMaxProbes label, runtime.closes label = false →
    NotEarlier runtime.state.openUntil after.state.openUntil ∧
    NotEarlier runtime.state.lastFailureAt after.state.lastFailureAt) ∧
  ∀ permit ∈ runtime.succeeding label,
    (∃ failedAt ∈ runtime.applied, permit.startedAt < failedAt) → runtime.closes label = false

instance (runtime : CircuitRuntime) (label : CircuitLabel) :
    Decidable (Guarded breaker halfOpenMaxProbes runtime label) := by
  unfold Guarded
  infer_instance

/-- A failure is applied after those with earlier readings. -/
def InOrder (label : CircuitLabel) : Prop :=
  ∀ call ∈ runtime.applying label, ∀ failedAt ∈ runtime.applied, failedAt ≤ call.2

variable {breaker halfOpenMaxProbes} {runtime after : CircuitRuntime} {label : CircuitLabel}
  {before : Option Instant}

theorem NotEarlier.refl : NotEarlier before before := fun old hOld => ⟨old, hOld, le_rfl⟩

/-- What a step leaves of earlier failures: all of it, or one more failure, or nothing
after a success that closes the circuit. -/
theorem step_cases (h : runtime.step breaker halfOpenMaxProbes label = some after) :
    (runtime.applying label = none ∧ runtime.closes label = false ∧
      after.state.openUntil = runtime.state.openUntil ∧
      after.state.lastFailureAt = runtime.state.lastFailureAt ∧
      after.applied = runtime.applied) ∨
    (∃ permit now, runtime.applying label = some (permit, now) ∧
      after.state = (runtime.state.failure permit now breaker).2 ∧
      after.applied = runtime.applied ++ [now]) ∨
    (runtime.applying label = none ∧ runtime.closes label = true ∧
      after.state.openUntil = none ∧ after.state.lastFailureAt = none ∧ after.applied = []) := by
  cases label with
  | tick now =>
    obtain ⟨-, hAfter⟩ := Option.ite_none_right_eq_some.mp h
    rw [← Option.some.inj hAfter]
    exact .inl ⟨rfl, rfl, rfl, rfl, rfl⟩
  | readAcquire =>
    rw [← Option.some.inj h]
    exact .inl ⟨rfl, rfl, rfl, rfl, rfl⟩
  | acquire index =>
    obtain ⟨now, -, hAfter⟩ := Option.bind_eq_some_iff.mp h
    generalize hCall : runtime.state.tryAcquire now halfOpenMaxProbes = answer at hAfter
    obtain ⟨result, state⟩ := answer
    rw [← Option.some.inj hAfter]
    obtain ⟨_, -, rfl⟩ | ⟨-, rfl⟩ | ⟨-, -, rfl⟩ := CircuitState.tryAcquire_cases hCall
    all_goals exact .inl ⟨rfl, rfl, rfl, rfl, rfl⟩
  | readFailure index =>
    obtain ⟨permit, -, hAfter⟩ := Option.bind_eq_some_iff.mp h
    rw [← Option.some.inj hAfter]
    exact .inl ⟨rfl, rfl, rfl, rfl, rfl⟩
  | failure index =>
    obtain ⟨⟨permit, now⟩, hFailing, hAfter⟩ := Option.bind_eq_some_iff.mp h
    rw [← Option.some.inj hAfter]
    exact .inr (.inl ⟨permit, now, hFailing, rfl, rfl⟩)
  | success index =>
    obtain ⟨permit, hRunning, hAfter⟩ := Option.bind_eq_some_iff.mp h
    have hCloses : runtime.closes (.success index) = !runtime.state.staleFor permit.startedAt := by
      rw [closes, succeeding, hRunning, Option.any_some]
    rw [← Option.some.inj hAfter, hCloses]
    rcases runtime.state.success_cases permit with ⟨hStale, hState⟩ | ⟨hFresh, hState⟩
    · left
      rw [hStale, hState]
      exact ⟨rfl, rfl, CircuitState.returnProbe_openUntil _,
        CircuitState.returnProbe_lastFailureAt _, rfl⟩
    · right; right
      rw [hFresh, hState]
      exact ⟨rfl, rfl, rfl, rfl, rfl⟩
  | drop index =>
    obtain ⟨permit, -, hAfter⟩ := Option.bind_eq_some_iff.mp h
    rw [← Option.some.inj hAfter]
    exact .inl ⟨rfl, rfl, CircuitState.returnProbe_openUntil _,
      CircuitState.returnProbe_lastFailureAt _, rfl⟩

/-- What holds while failures are applied in order: the last of them is the latest. -/
structure Kept (breaker : Breaker) (runtime : CircuitRuntime) : Prop where
  latest : ∀ failedAt ∈ runtime.applied, ∃ last ∈ runtime.state.lastFailureAt, failedAt ≤ last
  applied : ∀ last ∈ runtime.state.lastFailureAt, last ∈ runtime.applied
  opened : ∀ deadline ∈ runtime.state.openUntil,
    ∃ failedAt ∈ runtime.applied, deadline = failedAt + breaker.openDuration

theorem Kept.initial : Kept breaker initial where
  latest := by simp [CircuitRuntime.initial]
  applied := by simp [CircuitRuntime.initial, CircuitState.new]
  opened := by simp [CircuitRuntime.initial, CircuitState.new]

theorem failure_lastFailureAt (state : CircuitState) (permit : CircuitPermit) (now : Instant)
    (breaker : Breaker) : (state.failure permit now breaker).2.lastFailureAt = some now := by
  rcases state.failure_cases permit now breaker with ⟨-, h⟩ | ⟨-, h⟩ <;> rw [h]

theorem failure_openUntil (state : CircuitState) (permit : CircuitPermit) (now : Instant)
    (breaker : Breaker) :
    (state.failure permit now breaker).2.openUntil = some (now + breaker.openDuration) ∨
    (state.failure permit now breaker).2.openUntil = state.openUntil := by
  rcases state.failure_cases permit now breaker with ⟨-, h⟩ | ⟨-, h⟩
  · exact .inl (by rw [h])
  · exact .inr (by rw [h]; exact CircuitState.returnProbe_openUntil _)

/-- Applying a failure is always possible, and makes its reading the last one. -/
theorem applying_step {permit : CircuitPermit} {now : Instant}
    (hCall : runtime.applying label = some (permit, now)) :
    ∃ after, runtime.step breaker halfOpenMaxProbes label = some after ∧
      runtime.closes label = false ∧ after.state.lastFailureAt = some now := by
  cases label with
  | failure index =>
    exact ⟨_, Option.bind_eq_some_iff.mpr ⟨_, hCall, rfl⟩, rfl,
      failure_lastFailureAt runtime.state permit now breaker⟩
  | _ => cases hCall

theorem Kept.step (h : Kept breaker runtime) (hOrder : runtime.InOrder label)
    (hStep : runtime.step breaker halfOpenMaxProbes label = some after) :
    Kept breaker after := by
  obtain ⟨-, -, hOpen, hLast, hApplied⟩ | ⟨permit, now, hCall, hState, hApplied⟩ |
    ⟨-, -, hOpen, hLast, hApplied⟩ := step_cases hStep
  · constructor
    · rw [hApplied, hLast]; exact h.latest
    · rw [hApplied, hLast]; exact h.applied
    · rw [hApplied, hOpen]; exact h.opened
  · have hNow : now ∈ runtime.applied ++ [now] := by simp
    constructor
    · rw [hApplied, hState, failure_lastFailureAt]
      refine fun failedAt hMem => ⟨now, rfl, ?_⟩
      rcases List.mem_append.mp hMem with hOld | hNew
      · exact hOrder _ hCall failedAt hOld
      · exact (List.mem_singleton.mp hNew).le
    · rw [hApplied, hState, failure_lastFailureAt]
      rintro last hMem
      cases hMem
      exact hNow
    · rw [hApplied, hState]
      rcases failure_openUntil runtime.state permit now breaker with hOpen | hOpen <;> rw [hOpen]
      · rintro deadline hMem
        cases hMem
        exact ⟨now, hNow, rfl⟩
      · intro deadline hMem
        obtain ⟨failedAt, hFailed, hDeadline⟩ := h.opened deadline hMem
        exact ⟨failedAt, List.mem_append_left _ hFailed, hDeadline⟩
  · constructor
    · simp [hApplied]
    · simp [hLast]
    · simp [hOpen]

/-- While failures have been applied in order, a step is guarded exactly when it
applies a failure in order or none. -/
theorem Kept.guarded_iff (h : Kept breaker runtime) :
    Guarded breaker halfOpenMaxProbes runtime label ↔ runtime.InOrder label := by
  constructor
  · rintro ⟨hKeeps, -⟩ ⟨permit, now⟩ hCall failedAt hFailed
    obtain ⟨after, hStep, hOpen, hState⟩ := applying_step hCall
    obtain ⟨last, hLast, hLe⟩ := h.latest failedAt hFailed
    obtain ⟨new, hNew, hBack⟩ := (hKeeps after hStep hOpen).2 last hLast
    rw [hState] at hNew
    cases hNew
    exact hLe.trans hBack
  · intro hOrder
    refine ⟨fun after hStep hOpen => ?_, fun permit hPermit hStarted => ?_⟩
    · obtain ⟨-, -, hUntil, hLast, -⟩ | ⟨permit, now, hCall, hState, -⟩ | ⟨-, hCloses, -⟩ :=
        step_cases hStep
      · rw [hUntil, hLast]
        exact ⟨.refl, .refl⟩
      · rw [hState]
        constructor
        · rcases failure_openUntil runtime.state permit now breaker with hUntil | hUntil <;>
            rw [hUntil]
          · intro deadline hDeadline
            obtain ⟨failedAt, hFailed, rfl⟩ := h.opened deadline hDeadline
            exact ⟨_, rfl, Nat.add_le_add_right (hOrder _ hCall failedAt hFailed) _⟩
          · exact .refl
        · rw [failure_lastFailureAt]
          exact fun last hLast => ⟨now, rfl, hOrder _ hCall last (h.applied last hLast)⟩
      · rw [hCloses] at hOpen
        cases hOpen
    · obtain ⟨failedAt, hFailed, hAfter⟩ := hStarted
      obtain ⟨last, hLast, hLe⟩ := h.latest failedAt hFailed
      have hPermit : runtime.succeeding label = some permit := hPermit
      have hLast : runtime.state.lastFailureAt = some last := hLast
      rw [closes, hPermit, Option.any_some, CircuitState.staleFor, hLast, Option.any_some,
        decide_eq_true (hAfter.trans_le hLe), Bool.not_true]

/-- The deadline and the last failure of a circuit move back only when a success closes it,
and no success closes it that started before a failure applied since the last close, exactly
in the runs in which failures are applied in the order of their clock readings. -/
theorem along_guarded_iff_inOrder (breaker : Breaker) (halfOpenMaxProbes : Nat)
    (labels : List CircuitLabel) :
    Along (step breaker halfOpenMaxProbes) (Guarded breaker halfOpenMaxProbes) labels initial ↔
      Along (step breaker halfOpenMaxProbes) InOrder labels initial :=
  along_iff_along (fun _ _ h => h.guarded_iff) (fun _ _ _ h => h.step) Kept.initial

/-- Two failures read the clock at 10 and at 20 and are applied in the other order: the last
failure moves back, and a success that started at 15 closes the circuit. -/
theorem failures_applied_out_of_order :
    let breaker : Breaker := ⟨3, seconds 30, seconds 15⟩
    let labels : List CircuitLabel :=
      [.readAcquire, .acquire 0, .readAcquire, .acquire 1, .tick 10, .readFailure 0, .tick 15,
        .readAcquire, .acquire 2, .tick 20, .readFailure 1, .failure 1, .failure 0, .success 2]
    ¬Along (step breaker 1) (Guarded breaker 1) labels initial ∧
    (run (step breaker 1) (labels.take 12) initial).map (·.state.lastFailureAt) = some (some 20) ∧
    (run (step breaker 1) (labels.take 13) initial).map (fun runtime =>
        (runtime.state.lastFailureAt, runtime.applied, runtime.running 2)) =
      some (some 10, [20, 10], some ⟨false, 15⟩) ∧
    (run (step breaker 1) labels initial).map (·.state) = some .new := by
  decide +kernel

end CircuitRuntime

end Any2Api.Runtime.Health
