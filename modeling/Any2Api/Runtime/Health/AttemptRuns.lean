import Any2Api.Library.Entries
import Any2Api.Library.Ledger
import Any2Api.Library.Threads
import Any2Api.Runtime.Health.Attempt
import Mathlib.Algebra.Order.BigOperators.Group.Finset

/-! What holds of circuits in every run of attempts: a probe in flight is a permit that
some attempt holds, and a circuit opens by a failed probe or by enough recent failures. -/
namespace Any2Api.Runtime.Health

open ExpiringQueue Runs Function

/-- The failures that are still counted are the newest of those since the circuit last
opened or closed; the others are out of the window. -/
structure CircuitHistory.Recent (history : CircuitHistory) (window : Duration) (clock : Instant) :
    Prop where
  split : ∃ expired, history.recorded = expired ++ history.state.failureTimes ∧
    ∀ failedAt ∈ expired, window ≤ clock - failedAt
  ordered : history.recorded.Pairwise (· ≤ ·)
  past : ∀ failedAt ∈ history.recorded, failedAt ≤ clock

namespace CircuitHistory

variable {history : CircuitHistory} {window : Duration} {clock later : Instant}
  {permit : CircuitPermit} {breaker : Breaker} {after : CircuitHistory}

theorem Recent.new : CircuitHistory.new.Recent window clock where
  split := ⟨[], rfl, by simp⟩
  ordered := .nil
  past := by simp [CircuitHistory.new]

theorem Recent.mono (h : history.Recent window clock) (hLater : clock ≤ later) :
    history.Recent window later := by
  obtain ⟨expired, hSplit, hOld⟩ := h.split
  refine ⟨⟨expired, hSplit, fun failedAt hMem => ?_⟩, h.ordered,
    fun failedAt hMem => (h.past failedAt hMem).trans hLater⟩
  exact (hOld failedAt hMem).trans (Nat.sub_le_sub_right hLater failedAt)

/-- Nothing is recorded and nothing counts. -/
theorem Recent.cleared (hRecorded : history.recorded = [])
    (hTimes : history.state.failureTimes = []) : history.Recent window clock where
  split := ⟨[], by rw [hRecorded, hTimes, List.append_nil], by simp⟩
  ordered := by rw [hRecorded]; exact .nil
  past := by simp [hRecorded]

theorem Recent.of_same (h : history.Recent window clock)
    (hRecorded : after.recorded = history.recorded)
    (hTimes : after.state.failureTimes = history.state.failureTimes) :
    after.Recent window clock where
  split := by rw [hRecorded, hTimes]; exact h.split
  ordered := by rw [hRecorded]; exact h.ordered
  past := by rw [hRecorded]; exact h.past

theorem Recent.release (h : history.Recent window clock) :
    (history.release permit).Recent window clock :=
  h.of_same rfl (CircuitState.returnProbe_failureTimes _)

theorem Recent.success (h : history.Recent window clock) :
    (history.success permit).Recent window clock := by
  rcases history.state.success_cases permit with ⟨hStale, hState⟩ | ⟨hFresh, hState⟩
  · refine h.of_same (if_pos hStale) ?_
    rw [CircuitHistory.success, hState, CircuitState.returnProbe_failureTimes]
  · refine .cleared (by simp [CircuitHistory.success, hFresh]) ?_
    rw [CircuitHistory.success, hState]

/-- The failures that a new failure finds within its window. -/
def recent (history : CircuitHistory) (window : Duration) (now : Instant) : Nat :=
  history.recorded.countP fun failedAt => now - failedAt < window

theorem Recent.remaining_eq (h : history.Recent window clock) :
    history.state.remaining clock window =
      history.state.failureTimes.filter fun failedAt => clock - failedAt < window := by
  obtain ⟨expired, hSplit, -⟩ := h.split
  have hTimes : history.state.failureTimes.Pairwise (· ≤ ·) :=
    h.ordered.sublist (hSplit ▸ List.sublist_append_right ..)
  rw [CircuitState.remaining, dropWhile_eq_filter]
  · refine List.filter_congr fun failedAt _ => ?_
    rw [← decide_not, decide_eq_decide, not_le]
  · refine hTimes.imp fun {first second} hLe hOld => ?_
    simp only [decide_eq_true_eq] at hOld ⊢
    exact hOld.trans (Nat.sub_le_sub_left hLe clock)

/-- What is left in the queue are the recorded failures within the window. -/
theorem Recent.length_remaining (h : history.Recent window clock) :
    (history.state.remaining clock window).length = history.recent window clock := by
  obtain ⟨expired, hSplit, hOld⟩ := h.split
  have hNone : expired.countP (fun failedAt => clock - failedAt < window) = 0 := by
    refine List.countP_eq_zero.mpr fun failedAt hMem => ?_
    simpa using hOld failedAt hMem
  rw [h.remaining_eq, recent, hSplit, List.countP_append, hNone, Nat.zero_add,
    List.countP_eq_length_filter]

theorem Recent.failure (h : history.Recent breaker.window clock) :
    (history.failure permit clock breaker).Recent breaker.window clock := by
  rcases history.state.failure_cases permit clock breaker with ⟨-, hState⟩ | ⟨-, hState⟩
  · refine .cleared ?_ ?_
    · rw [CircuitHistory.failure, hState]
      rfl
    · rw [CircuitHistory.failure, hState]
  · have hRecorded : (history.failure permit clock breaker).recorded =
        history.recorded ++ [clock] := by
      rw [CircuitHistory.failure, hState]
      rfl
    have hTimes : (history.failure permit clock breaker).state.failureTimes =
        history.state.remaining clock breaker.window ++ [clock] := by
      rw [CircuitHistory.failure, hState]
    obtain ⟨expired, hSplit, hOld⟩ := h.split
    constructor
    · refine ⟨expired ++ history.state.failureTimes.takeWhile fun failedAt =>
        breaker.window ≤ clock - failedAt, ?_, fun failedAt hMem => ?_⟩
      · rw [hRecorded, hTimes, CircuitState.remaining, List.append_assoc,
          ← List.append_assoc (List.takeWhile ..), List.takeWhile_append_dropWhile, hSplit,
          List.append_assoc]
      · rcases List.mem_append.mp hMem with hExpired | hDropped
        · exact hOld failedAt hExpired
        · simpa using List.mem_takeWhile_imp hDropped
    · rw [hRecorded]
      exact Entries.pairwise_concat h.ordered h.past
    · rw [hRecorded]
      intro failedAt hMem
      rcases List.mem_append.mp hMem with hOld | hNew
      · exact h.past failedAt hOld
      · rw [List.mem_singleton.mp hNew]

/-- The circuit opens until this deadline. -/
def Opens (history after : CircuitHistory) (deadline : Instant) : Prop :=
  after.openings = history.openings + 1 ∧ after.state.openUntil = some deadline

/-- The circuit does not open: it is as it was, or closes. -/
def Unopened (history after : CircuitHistory) : Prop :=
  after.openings = history.openings ∧
    (after.state.openUntil = history.state.openUntil ∨ after.state.openUntil = none)

theorem Unopened.not_opens {deadline : Instant}
    (h : history.Unopened after) : ¬history.Opens after deadline := by
  intro hOpens
  have hSame := h.1
  have hMore := hOpens.1
  omega

theorem unopened_self : history.Unopened history := ⟨rfl, .inl rfl⟩

theorem unopened_success : history.Unopened (history.success permit) := by
  refine ⟨rfl, ?_⟩
  rcases history.state.success_cases permit with ⟨-, hState⟩ | ⟨-, hState⟩
  · left
    rw [CircuitHistory.success, hState, CircuitState.returnProbe_openUntil]
  · right
    rw [CircuitHistory.success, hState]

theorem unopened_release : history.Unopened (history.release permit) :=
  ⟨rfl, .inl (CircuitState.returnProbe_openUntil _)⟩

/-- A failure opens the circuit for a failed probe and for enough recent failures, and
for nothing else. -/
theorem Recent.failure_opens (h : history.Recent breaker.window clock) (permit : CircuitPermit) :
    ((permit.halfOpen = true ∨ breaker.threshold ≤ history.recent breaker.window clock + 1) ∧
      history.Opens (history.failure permit clock breaker) (clock + breaker.openDuration)) ∨
    (¬(permit.halfOpen = true ∨ breaker.threshold ≤ history.recent breaker.window clock + 1) ∧
      history.Unopened (history.failure permit clock breaker)) := by
  rw [← h.length_remaining]
  rcases history.state.failure_cases permit clock breaker with ⟨hOpens, hState⟩ | ⟨hStays, hState⟩
  · refine .inl ⟨hOpens, ?_, ?_⟩ <;> rw [CircuitHistory.failure, hState]
    rfl
  · refine .inr ⟨hStays, ?_, .inl ?_⟩ <;> rw [CircuitHistory.failure, hState]
    · rfl
    · exact CircuitState.returnProbe_openUntil _

end CircuitHistory

/-- The probe that an attempt holds of a circuit in one of its layers. -/
def Attempt.probe (attempt : Attempt) (ref : CircuitRef) (layer : Layer) : Nat :=
  if attempt.candidate.circuit layer = some ref ∧
    (attempt.held layer).any (·.halfOpen) then 1 else 0

def Attempt.probes (attempt : Attempt) (ref : CircuitRef) : Nat := ∑ layer, attempt.probe ref layer

def Task.acquires : Task → Option Layer
  | .acquire layer => some layer
  | _ => none

/-- An attempt acquires a layer once, and has no permit of it before. -/
structure Attempt.Prepared (attempt : Attempt) : Prop where
  once : (attempt.tasks.filterMap Task.acquires).Nodup
  free : ∀ layer ∈ attempt.tasks.filterMap Task.acquires, attempt.held layer = none

namespace HealthState

/-- The half-open permits of a circuit that attempts hold. -/
def outstanding (health : HealthState) (ref : CircuitRef) : Nat :=
  (health.attempts.map (·.probes ref)).sum

variable {policy : ReliabilityPolicy} {health after : HealthState} {attempt : Attempt}
  {layer : Layer} {ref : CircuitRef} {permit : CircuitPermit} {index : Nat}
  {held : Option CircuitPermit} {history : CircuitHistory}
  {resolution : CircuitRef → CircuitHistory → CircuitPermit → CircuitHistory} {label : HealthLabel}

theorem probe_hold_of_ne {other : Layer} (h : other ≠ layer) :
    (hold attempt layer held).probe ref other = attempt.probe ref other := by
  simp [hold, Attempt.probe, h]

/-- The probes of an attempt when the permit of one layer changes. -/
theorem probes_hold (attempt : Attempt) (layer : Layer) (held : Option CircuitPermit)
    (ref : CircuitRef) :
    (hold attempt layer held).probes ref + attempt.probe ref layer =
      attempt.probes ref + (hold attempt layer held).probe ref layer := by
  unfold Attempt.probes
  have hUpdate : (fun other => (hold attempt layer held).probe ref other) =
      update (fun other => attempt.probe ref other) layer
        ((hold attempt layer held).probe ref layer) := by
    funext other
    by_cases h : other = layer
    · rw [h, update_self]
    · rw [update_of_ne h, probe_hold_of_ne h]
  rw [hUpdate]
  exact Fintype.sum_update_add (fun other => attempt.probe ref other) id layer _

/-- No circuit has too many probes in flight or has counted wrong, and each counts its recent
failures. -/
structure InOrder (policy : ReliabilityPolicy) (health : HealthState) : Prop where
  bounded : ∀ ref, (health.circuits ref).state.halfOpenInFlight ≤ policy.halfOpenMaxProbes
  exact : ∀ ref, (health.circuits ref).saturated = false
  recent : ∀ ref, (health.circuits ref).Recent (policy.breaker ref).window health.clock

/-- What a task does: the circuits stay in order, and their probes in flight change with
the probes that the attempt holds. -/
structure Performed (policy : ReliabilityPolicy) (health : HealthState) (attempt : Attempt)
    (outcome : HealthState × Attempt) : Prop where
  attempts : outcome.1.attempts = health.attempts
  clock : outcome.1.clock = health.clock
  balance : ∀ ref, (outcome.1.circuits ref).state.halfOpenInFlight + attempt.probes ref =
    (health.circuits ref).state.halfOpenInFlight + outcome.2.probes ref
  order : InOrder policy outcome.1
  prepared : outcome.2.Prepared

/-- The circuits are in order and have the probes of an attempt. -/
structure Ready (policy : ReliabilityPolicy) (health : HealthState) (attempt : Attempt) :
    Prop extends InOrder policy health where
  enough : ∀ ref, attempt.probes ref ≤ (health.circuits ref).state.halfOpenInFlight

/-- A task that leaves the circuits and the permits alone. -/
theorem Ready.idle (h : Ready policy health attempt) {outcome : HealthState × Attempt}
    (hAttempts : outcome.1.attempts = health.attempts) (hClock : outcome.1.clock = health.clock)
    (hCircuits : outcome.1.circuits = health.circuits)
    (hProbes : ∀ ref, outcome.2.probes ref = attempt.probes ref) (hPrepared : outcome.2.Prepared) :
    Performed policy health attempt outcome where
  attempts := hAttempts
  clock := hClock
  balance := fun ref => by rw [hCircuits, hProbes]
  order := ⟨by rw [hCircuits]; exact h.bounded, by rw [hCircuits]; exact h.exact,
    by rw [hCircuits, hClock]; exact h.recent⟩
  prepared := hPrepared

theorem prepared_giveUp (attempt : Attempt) : (giveUp attempt).Prepared :=
  ⟨.nil, by simp [giveUp, abandon, Task.acquires]⟩

/-- A property of all circuits when one of them changes. -/
theorem each_circuit (property : CircuitRef → CircuitHistory → Prop)
    (hOwn : property ref history) (hElse : ∀ other, property other (health.circuits other))
    (other : CircuitRef) : property other ((health.setCircuit ref history).circuits other) := by
  change property other (update health.circuits ref history other)
  by_cases hOther : other = ref
  · rwa [hOther, update_self]
  · rw [update_of_ne hOther]
    exact hElse other

/-- A circuit changes together with the permit of a layer. -/
theorem Ready.setCircuit (h : Ready policy health attempt)
    (hRef : attempt.candidate.circuit layer = some ref)
    (hBalance : history.state.halfOpenInFlight + attempt.probe ref layer =
      (health.circuits ref).state.halfOpenInFlight + (hold attempt layer held).probe ref layer)
    (hBounded : history.state.halfOpenInFlight ≤ policy.halfOpenMaxProbes)
    (hExact : history.saturated = false)
    (hRecent : history.Recent (policy.breaker ref).window health.clock)
    (hPrepared : (hold attempt layer held).Prepared) :
    Performed policy health attempt (health.setCircuit ref history, hold attempt layer held) := by
  refine ⟨rfl, rfl, fun other => ?_,
    ⟨each_circuit (fun _ found => found.state.halfOpenInFlight ≤ _) hBounded h.bounded,
      each_circuit (fun _ found => found.saturated = false) hExact h.exact,
      each_circuit (fun other found => found.Recent (policy.breaker other).window health.clock)
        hRecent h.recent⟩, hPrepared⟩
  have hHold := probes_hold attempt layer held other
  by_cases hOther : other = ref
  · subst hOther
    simp only [HealthState.setCircuit, update_self]
    omega
  · -- The layer belongs to the circuit that changes.
    have hNot : attempt.candidate.circuit layer ≠ some other := by
      rw [hRef]
      exact fun hSame => hOther (Option.some.inj hSame).symm
    have hBefore : attempt.probe other layer = 0 := if_neg fun hBoth => hNot hBoth.1
    have hAfter : (hold attempt layer held).probe other layer = 0 :=
      if_neg fun hBoth => hNot hBoth.1
    simp only [HealthState.setCircuit, update_of_ne hOther]
    omega

theorem probe_eq (hRef : attempt.candidate.circuit layer = some ref) :
    attempt.probe ref layer = if (attempt.held layer).any (·.halfOpen) then 1 else 0 := by
  simp [Attempt.probe, hRef]

theorem probe_hold_eq (hRef : attempt.candidate.circuit layer = some ref)
    (held : Option CircuitPermit) :
    (hold attempt layer held).probe ref layer = if held.any (·.halfOpen) then 1 else 0 := by
  simp [Attempt.probe, hold, hRef]

theorem Ready.acquire (h : Ready policy health attempt) (hFree : attempt.held layer = none)
    (hPrepared : attempt.Prepared) (hOnce : layer ∉ attempt.tasks.filterMap Task.acquires) :
    Performed policy health attempt (acquire policy health attempt layer) := by
  unfold HealthState.acquire
  cases hRef : attempt.candidate.circuit layer with
  | none => exact h.idle rfl rfl rfl (fun _ => rfl) hPrepared
  | some ref =>
    have hHeld : ∀ permit, (hold attempt layer permit).Prepared := by
      refine fun permit => ⟨hPrepared.once, fun other hOther => ?_⟩
      have hNe : other ≠ layer := fun hSame => hOnce (hSame ▸ hOther)
      exact (update_of_ne hNe _ _).trans (hPrepared.free other hOther)
    dsimp only
    generalize hCall : (health.circuits ref).state.tryAcquire health.clock
      policy.halfOpenMaxProbes = answer
    obtain ⟨result, state⟩ := answer
    obtain ⟨retryAt, rfl, rfl⟩ | ⟨rfl, rfl⟩ | ⟨rfl, hFewer, rfl⟩ :=
      CircuitState.tryAcquire_cases hCall
    · exact h.idle rfl rfl rfl (fun _ => rfl) (prepared_giveUp attempt)
    · refine h.setCircuit hRef ?_ (h.bounded ref) (h.exact ref) (h.recent ref) (hHeld _)
      rw [probe_eq hRef, probe_hold_eq hRef, hFree]
      rfl
    · refine h.setCircuit hRef ?_ hFewer (h.exact ref) ((h.recent ref).of_same rfl rfl) (hHeld _)
      rw [probe_eq hRef, probe_hold_eq hRef, hFree]
      rfl

/-- A resolution gives back the unit of a probe and counts its failures. -/
structure Resolves (policy : ReliabilityPolicy) (clock : Instant)
    (resolution : CircuitRef → CircuitHistory → CircuitPermit → CircuitHistory) : Prop where
  returns : ∀ ref history permit, (resolution ref history permit).state.halfOpenInFlight =
    history.state.halfOpenInFlight - if permit.halfOpen then 1 else 0
  saturates : ∀ ref history permit, (resolution ref history permit).saturated =
    (history.saturated || history.lacks permit)
  recent : ∀ ref history permit, history.Recent (policy.breaker ref).window clock →
    (resolution ref history permit).Recent (policy.breaker ref).window clock

theorem Ready.resolve (h : Ready policy health attempt) (hPrepared : attempt.Prepared)
    (hResolves : Resolves policy health.clock resolution) :
    Performed policy health attempt (resolve health attempt layer resolution) := by
  unfold HealthState.resolve
  split
  next ref permit hRef hHeld =>
    have hFreed : (hold attempt layer none).Prepared := by
      refine ⟨hPrepared.once, fun other hOther => ?_⟩
      by_cases hNe : other = layer
      · rw [hNe]
        exact update_self ..
      · exact (update_of_ne hNe _ _).trans (hPrepared.free other hOther)
    have hProbe : attempt.probe ref layer = if permit.halfOpen then 1 else 0 := by
      rw [probe_eq hRef, hHeld]
      rfl
    -- The probe that is given back is one of those in flight.
    have hEnough : attempt.probe ref layer ≤ (health.circuits ref).state.halfOpenInFlight :=
      (Finset.single_le_sum (fun _ _ => Nat.zero_le _) (Finset.mem_univ layer)).trans (h.enough ref)
    refine h.setCircuit hRef ?_ ?_ ?_ (hResolves.recent ref _ permit (h.recent ref)) hFreed
    · rw [hResolves.returns, probe_hold_eq hRef]
      simp only [Option.any_none, Bool.false_eq_true, if_false]
      omega
    · rw [hResolves.returns]
      exact (Nat.sub_le _ _).trans (h.bounded ref)
    · rw [hResolves.saturates, h.exact, Bool.false_or, CircuitHistory.lacks]
      cases hHalf : permit.halfOpen with
      | false => rfl
      | true =>
        rw [hHalf, if_pos rfl] at hProbe
        rw [Bool.true_and, decide_eq_false_iff_not]
        omega
  next => exact h.idle rfl rfl rfl (fun _ => rfl) hPrepared

theorem resolves_failure : Resolves policy health.clock fun ref history permit =>
    history.failure permit health.clock (policy.breaker ref) where
  returns := fun _ _ _ => CircuitState.failure_halfOpenInFlight
  saturates := fun _ _ _ => rfl
  recent := fun _ _ _ h => h.failure

theorem resolves_success :
    Resolves policy health.clock fun _ history permit => history.success permit where
  returns := fun _ _ _ => CircuitState.success_halfOpenInFlight
  saturates := fun _ _ _ => rfl
  recent := fun _ _ _ h => h.success

theorem resolves_release :
    Resolves policy health.clock fun _ history permit => history.release permit where
  returns := fun _ _ _ => CircuitState.returnProbe_halfOpenInFlight _
  saturates := fun _ _ _ => rfl
  recent := fun _ _ _ h => h.release

theorem Ready.perform (h : Ready policy health attempt) (hPrepared : attempt.Prepared) (task : Task)
    (hTask : ∀ layer, task = .acquire layer →
      attempt.held layer = none ∧ layer ∉ attempt.tasks.filterMap Task.acquires) :
    Performed policy health attempt (perform policy health attempt task) := by
  have hIdle : Performed policy health attempt (health, attempt) :=
    h.idle rfl rfl rfl (fun _ => rfl) hPrepared
  cases task
  case acquire layer => exact h.acquire (hTask layer rfl).1 hPrepared (hTask layer rfl).2
  case fail layer => exact h.resolve hPrepared resolves_failure
  case succeed layer => exact h.resolve hPrepared resolves_success
  case release layer => exact h.resolve hPrepared resolves_release
  case checkTransient layer =>
    simp only [HealthState.perform]
    split
    · split
      · exact h.idle rfl rfl rfl (fun _ => rfl) (prepared_giveUp attempt)
      · exact hIdle
    · exact hIdle
  case markTransient layer | clearTransient layer =>
    simp only [HealthState.perform]
    repeat' split
    all_goals exact h.idle rfl rfl rfl (fun _ => rfl) hPrepared

/-- The invariant of runs. -/
structure Kept (policy : ReliabilityPolicy) (health : HealthState) : Prop
    extends InOrder policy health where
  counts : ∀ ref, (health.circuits ref).state.halfOpenInFlight = health.outstanding ref
  prepared : ∀ attempt ∈ health.attempts, attempt.Prepared

theorem Kept.initial : Kept policy initial where
  counts := fun _ => rfl
  bounded := fun _ => Nat.zero_le _
  exact := fun _ => rfl
  recent := fun _ => .new
  prepared := by simp [HealthState.initial]

theorem outstanding_set (hAttempt : health.attempts[index]? = some attempt) (changed : Attempt)
    (ref : CircuitRef) :
    (health.setAttempt index changed).outstanding ref + attempt.probes ref =
      health.outstanding ref + changed.probes ref := by
  exact Ledger.sum_map_set (·.probes ref) hAttempt

/-- An attempt goes on and holds the same probes. -/
theorem Kept.setAttempt (h : Kept policy health)
    (hAttempt : health.attempts[index]? = some attempt) {changed : Attempt}
    (hProbes : ∀ ref, changed.probes ref = attempt.probes ref) (hPrepared : changed.Prepared) :
    Kept policy (health.setAttempt index changed) := by
  refine { h with
    counts := fun ref => ?_
    prepared := Entries.forall_mem_set h.prepared hPrepared }
  have hSum := outstanding_set hAttempt changed ref
  have hCount := h.counts ref
  rw [hProbes] at hSum
  change (health.circuits ref).state.halfOpenInFlight = _
  omega

theorem Kept.ready (h : Kept policy health) (hAttempt : health.attempts[index]? = some attempt) :
    Ready policy health attempt := by
  refine { h.toInOrder with enough := fun ref => ?_ }
  · have hSum := outstanding_set hAttempt { attempt with held := fun _ => none } ref
    have hNone : Attempt.probes { attempt with held := fun _ => none } ref = 0 := by
      simp [Attempt.probes, Attempt.probe]
    have hCount := h.counts ref
    omega

theorem Kept.advance (h : Kept policy health) (hAttempt : health.attempts[index]? = some attempt)
    {task : Task} {rest : List Task} (hTasks : attempt.tasks = task :: rest) :
    Kept policy ((perform policy health { attempt with tasks := rest } task).1.setAttempt index
      (perform policy health { attempt with tasks := rest } task).2) := by
  obtain ⟨hOnce, hFree⟩ := h.prepared attempt (List.mem_of_getElem? hAttempt)
  rw [hTasks] at hOnce hFree
  have hRest : (rest.filterMap Task.acquires).Sublist ((task :: rest).filterMap Task.acquires) :=
    (List.sublist_cons_self task rest).filterMap _
  have hDone := ({ h.ready hAttempt with } :
    Ready policy health { attempt with tasks := rest }).perform
      ⟨hOnce.sublist hRest, fun layer hLayer => hFree layer (hRest.subset hLayer)⟩ task (by
        rintro layer rfl
        change (layer :: rest.filterMap Task.acquires).Nodup at hOnce
        rw [List.nodup_cons] at hOnce
        exact ⟨hFree layer (by simp [Task.acquires]), hOnce.1⟩)
  generalize perform policy health { attempt with tasks := rest } task = outcome at hDone
  obtain ⟨next, changed⟩ := outcome
  obtain ⟨hAttempts, hClock, hBalance, hOrder, hPrepared⟩ := hDone
  dsimp only at hAttempts hClock hBalance hOrder hPrepared ⊢
  refine ⟨{ hOrder with }, fun ref => ?_, ?_⟩
  · have hSum := outstanding_set hAttempt changed ref
    have hSame : (next.setAttempt index changed).outstanding ref =
        (health.setAttempt index changed).outstanding ref := by
      simp only [outstanding, HealthState.setAttempt, hAttempts]
    have hCount := h.counts ref
    have hBoth := hBalance ref
    change (next.circuits ref).state.halfOpenInFlight = _
    rw [hSame]
    change _ + attempt.probes ref = _ at hBoth
    omega
  · rw [HealthState.setAttempt, hAttempts]
    exact Entries.forall_mem_set h.prepared hPrepared

theorem prepared_acquireHealth (candidate : RouteCandidate) :
    Attempt.Prepared ⟨candidate, fun _ => none, acquireHealth, .acquiring⟩ :=
  ⟨show (acquireHealth.filterMap Task.acquires).Nodup by decide, fun _ _ => rfl⟩

theorem acquires_completionTasks (completion : Completion) :
    (completionTasks completion).filterMap Task.acquires = [] := by
  cases completion with
  | success => rfl
  | upstreamFailure attribution kind => cases attribution <;> cases kind <;> rfl
  | transportFailure scope => cases scope <;> rfl
  | dropped => rfl

theorem prepared_completion (attempt : Attempt) (completion : Completion) (stage : Stage) :
    Attempt.Prepared { attempt with tasks := completionTasks completion, stage } := by
  constructor
  · simp [acquires_completionTasks]
  · simp [acquires_completionTasks]

variable (policy) (health) in
/-- What a step does. -/
inductive Steps : HealthLabel → HealthState → Prop where
  | tick {now : Instant} : health.clock ≤ now → Steps (.tick now) { health with clock := now }
  | acquireHealth (candidate : RouteCandidate) : Steps (.acquireHealth candidate) { health with
      attempts := health.attempts ++ [⟨candidate, fun _ => none, acquireHealth, .acquiring⟩] }
  | advance {index : Nat} {attempt : Attempt} {task : Task} {rest : List Task} :
      health.attempts[index]? = some attempt → attempt.tasks = task :: rest →
      Steps (.advance index)
        ((perform policy health { attempt with tasks := rest } task).1.setAttempt index
          (perform policy health { attempt with tasks := rest } task).2)
  | establish {index : Nat} {attempt : Attempt} : health.attempts[index]? = some attempt →
      attempt.tasks = [] → Steps (.establish index)
        (health.setAttempt index { attempt with stage := .holding health.clock })
  | complete {index : Nat} {attempt : Attempt} {startedAt : Instant} (completion : Completion) :
      health.attempts[index]? = some attempt → attempt.stage = .holding startedAt →
      Steps (.complete index completion) (health.setAttempt index { attempt with
        tasks := completionTasks completion
        stage := .finishing (some startedAt) })

theorem steps_of_step (hStep : health.step policy label = some after) :
    Steps policy health label after := by
  cases label <;> simp only [HealthState.step, Option.bind_eq_bind, Option.bind_eq_some_iff,
    Option.ite_none_right_eq_some, Option.some.injEq] at hStep
  case tick now =>
    obtain ⟨hNow, rfl⟩ := hStep
    exact .tick hNow
  case acquireHealth candidate => exact hStep ▸ .acquireHealth candidate
  case advance index =>
    obtain ⟨attempt, hAttempt, hStep⟩ := hStep
    cases hTasks : attempt.tasks <;> rw [hTasks] at hStep <;> cases hStep
    exact .advance hAttempt hTasks
  case establish index =>
    obtain ⟨attempt, hAttempt, ⟨-, hTasks⟩, rfl⟩ := hStep
    exact .establish hAttempt hTasks
  case complete index completion =>
    obtain ⟨attempt, hAttempt, hStep⟩ := hStep
    cases hStage : attempt.stage <;> rw [hStage] at hStep <;> cases hStep
    exact .complete completion hAttempt hStage

theorem Kept.step (h : Kept policy health)
    (hStep : health.step policy label = some after) : Kept policy after := by
  cases steps_of_step hStep
  case tick now hNow => exact { h with recent := fun ref => (h.recent ref).mono hNow }
  case acquireHealth candidate =>
    refine { h with
      counts := fun ref => ?_
      prepared := Entries.forall_mem_concat h.prepared (prepared_acquireHealth candidate) }
    have hNone : Attempt.probes ⟨candidate, fun _ => none, acquireHealth, .acquiring⟩ ref = 0 := by
      simp [Attempt.probes, Attempt.probe]
    simp only [outstanding, List.map_append, List.map_cons, List.map_nil, List.sum_append,
      List.sum_cons, List.sum_nil, hNone]
    exact h.counts ref
  case advance hAttempt hTasks => exact h.advance hAttempt hTasks
  case establish index attempt hAttempt _ =>
    exact h.setAttempt hAttempt (fun _ => rfl)
      { h.prepared attempt (List.mem_of_getElem? hAttempt) with }
  case complete index attempt startedAt completion hAttempt _ =>
    exact h.setAttempt hAttempt (fun _ => rfl) (prepared_completion attempt completion _)

/-- An attempt has a permit of this circuit, of which its next task reports a failure. -/
def FailsNext (attempt : Attempt) (task : Task) (ref : CircuitRef) (permit : CircuitPermit) :
    Prop :=
  ∃ layer, task = .fail layer ∧ attempt.candidate.circuit layer = some ref ∧
    attempt.held layer = some permit

/-- A task resolves the permit of at most one circuit. -/
theorem resolve_circuit (resolution : CircuitRef → CircuitHistory → CircuitPermit → CircuitHistory)
    (ref : CircuitRef) :
    (∃ permit, attempt.candidate.circuit layer = some ref ∧ attempt.held layer = some permit ∧
      (resolve health attempt layer resolution).1.circuits ref =
        resolution ref (health.circuits ref) permit) ∨
    ((∀ permit, attempt.candidate.circuit layer = some ref → attempt.held layer ≠ some permit) ∧
      (resolve health attempt layer resolution).1.circuits ref = health.circuits ref) := by
  unfold HealthState.resolve
  split
  next changed permit hRef hHeld =>
    by_cases hSame : ref = changed
    · subst hSame
      exact .inl ⟨permit, hRef, hHeld, update_self ..⟩
    · refine .inr ⟨fun _ hOther => ?_, update_of_ne hSame ..⟩
      exact absurd (Option.some.inj (hOther.symm.trans hRef)) hSame
  next hNot => exact .inr ⟨fun permit hRef hHeld => hNot ref permit hRef hHeld, rfl⟩

/-- A relation of circuits that holds of whatever does not report a failure. -/
structure Unfailed (related : CircuitHistory → CircuitHistory → Prop) : Prop where
  refl : ∀ history, related history history
  success : ∀ history permit, related history (history.success permit)
  release : ∀ history permit, related history (history.release permit)
  acquire : ∀ history halfOpenInFlight,
    related history { history with state := { history.state with halfOpenInFlight } }

theorem unfailed_unopened : Unfailed CircuitHistory.Unopened where
  refl := fun _ => CircuitHistory.unopened_self
  success := fun _ _ => CircuitHistory.unopened_success
  release := fun _ _ => CircuitHistory.unopened_release
  acquire := fun _ _ => ⟨rfl, .inl rfl⟩

section

variable {related : CircuitHistory → CircuitHistory → Prop} (h : Unfailed related)
include h

theorem Unfailed.resolve
    (hAll : ∀ permit, related (health.circuits ref) (resolution ref (health.circuits ref) permit)) :
    related (health.circuits ref) ((resolve health attempt layer resolution).1.circuits ref) := by
  rcases resolve_circuit resolution ref with ⟨permit, -, -, hAfter⟩ | ⟨-, hAfter⟩
  · exact hAfter ▸ hAll permit
  · exact hAfter ▸ h.refl _

theorem Unfailed.acquireHealth (ref : CircuitRef) :
    related (health.circuits ref)
      ((HealthState.acquire policy health attempt layer).1.circuits ref) := by
  unfold HealthState.acquire
  split
  next => exact h.refl _
  next changed _ =>
    dsimp only
    generalize hCall : (health.circuits changed).state.tryAcquire health.clock
      policy.halfOpenMaxProbes = answer
    obtain ⟨result, state⟩ := answer
    have hOther : ∀ other, related (health.circuits other) (health.circuits other) :=
      fun _ => h.refl _
    obtain ⟨retryAt, rfl, rfl⟩ | ⟨rfl, rfl⟩ | ⟨rfl, -, rfl⟩ :=
      CircuitState.tryAcquire_cases hCall
    · exact h.refl _
    · exact each_circuit (fun other => related (health.circuits other)) (h.refl _) hOther ref
    · exact each_circuit (fun other => related (health.circuits other)) (h.acquire _ _) hOther ref

/-- What a task does to a circuit: it reports a failure, or it changes it in another way. -/
theorem Unfailed.perform (policy : ReliabilityPolicy) (health : HealthState) (attempt : Attempt)
    (task : Task) (ref : CircuitRef) :
    (∃ permit, FailsNext attempt task ref permit ∧
      (perform policy health attempt task).1.circuits ref =
        (health.circuits ref).failure permit health.clock (policy.breaker ref)) ∨
    ((∀ permit, ¬FailsNext attempt task ref permit) ∧
      related (health.circuits ref) ((perform policy health attempt task).1.circuits ref)) := by
  cases task
  case acquire layer => exact .inr ⟨by simp [FailsNext], h.acquireHealth ref⟩
  case fail layer =>
    rcases resolve_circuit _ ref with ⟨permit, hRef, hHeld, hAfter⟩ | ⟨hNone, hAfter⟩
    · exact .inl ⟨permit, ⟨layer, rfl, hRef, hHeld⟩, hAfter⟩
    · refine .inr ⟨?_, by rw [HealthState.perform, hAfter]; exact h.refl _⟩
      rintro permit ⟨found, hFound, hRef, hHeld⟩
      cases hFound
      exact hNone permit hRef hHeld
  case succeed layer => exact .inr ⟨by simp [FailsNext], h.resolve (h.success _)⟩
  case release layer => exact .inr ⟨by simp [FailsNext], h.resolve (h.release _)⟩
  all_goals
    refine .inr ⟨by simp [FailsNext], ?_⟩
    simp only [HealthState.perform]
    repeat' split
    all_goals exact h.refl _

end

/-- A step in which an attempt reports a failure on a circuit with this permit. -/
def Fails (health : HealthState) (label : HealthLabel) (ref : CircuitRef)
    (permit : CircuitPermit) : Prop :=
  ∃ index attempt task rest, label = .advance index ∧ health.attempts[index]? = some attempt ∧
    attempt.tasks = task :: rest ∧ FailsNext attempt task ref permit

theorem Fails.unique {other : CircuitPermit}
    (h : health.Fails label ref permit) (hOther : health.Fails label ref other) :
    permit = other := by
  obtain ⟨index, attempt, task, rest, rfl, hAttempt, hTasks, layer, rfl, -, hHeld⟩ := h
  obtain ⟨_, found, _, _, hIndex, hFound, hNext, _, rfl, -, hAlso⟩ := hOther
  cases hIndex
  cases Option.some.inj (hAttempt.symm.trans hFound)
  cases hTasks.symm.trans hNext
  exact Option.some.inj (hHeld.symm.trans hAlso)

theorem Unfailed.step {related : CircuitHistory → CircuitHistory → Prop} (h : Unfailed related)
    (hStep : health.step policy label = some after) (ref : CircuitRef) :
    (∃ permit, health.Fails label ref permit ∧ after.circuits ref =
      (health.circuits ref).failure permit health.clock (policy.breaker ref)) ∨
    ((∀ permit, ¬health.Fails label ref permit) ∧
      related (health.circuits ref) (after.circuits ref)) := by
  cases steps_of_step hStep
  case advance index attempt task rest hAttempt hTasks =>
    rcases h.perform policy health { attempt with tasks := rest } task ref with
      ⟨permit, hFails, hAfter⟩ | ⟨hNone, hAfter⟩
    · exact .inl ⟨permit, ⟨index, attempt, task, rest, rfl, hAttempt, hTasks, hFails⟩, hAfter⟩
    · refine .inr ⟨?_, hAfter⟩
      rintro permit ⟨other, found, next, left, hLabel, hFound, hNext, hFails⟩
      cases hLabel
      cases Option.some.inj (hAttempt.symm.trans hFound)
      cases hTasks.symm.trans hNext
      exact hNone permit hFails
  all_goals exact .inr ⟨by simp [Fails], h.refl _⟩

/-- The probes in flight of a circuit are the half-open permits that attempts hold, within
the maximum; no decrement saturates; and the circuit opens when a probe fails or when the
failures recorded within the window since it last opened or closed reach the threshold. -/
theorem run_circuits {labels : List HealthLabel}
    (hRun : run (step policy) labels initial = some health) (ref : CircuitRef) :
    (health.circuits ref).state.halfOpenInFlight = health.outstanding ref ∧
    (health.circuits ref).state.halfOpenInFlight ≤ policy.halfOpenMaxProbes ∧
    (health.circuits ref).saturated = false ∧
    ∀ label after, health.step policy label = some after →
      ((health.circuits ref).Opens (after.circuits ref)
          (health.clock + (policy.breaker ref).openDuration) ↔
        ∃ permit, health.Fails label ref permit ∧ (permit.halfOpen = true ∨
          (policy.breaker ref).threshold ≤
            (health.circuits ref).recent (policy.breaker ref).window health.clock + 1)) ∧
      (¬(health.circuits ref).Opens (after.circuits ref)
          (health.clock + (policy.breaker ref).openDuration) →
        (health.circuits ref).Unopened (after.circuits ref)) := by
  have hKept : Kept policy health := invariant_of_run (fun _ _ _ h => h.step) .initial hRun
  refine ⟨hKept.counts ref, hKept.bounded ref, hKept.exact ref, fun label after hStep => ?_⟩
  rcases unfailed_unopened.step hStep ref with ⟨permit, hFails, hAfter⟩ | ⟨hNone, hSame⟩
  · rw [hAfter]
    rcases (hKept.recent ref).failure_opens permit with ⟨hReason, hOpens⟩ | ⟨hReason, hSame⟩
    · exact ⟨iff_of_true hOpens ⟨permit, hFails, hReason⟩, fun hNot => absurd hOpens hNot⟩
    · refine ⟨iff_of_false hSame.not_opens ?_, fun _ => hSame⟩
      rintro ⟨other, hOther, hEnough⟩
      rw [hFails.unique hOther] at hReason
      exact hReason hEnough
  · refine ⟨iff_of_false hSame.not_opens ?_, fun _ => hSame⟩
    rintro ⟨permit, hFails, -⟩
    exact hNone permit hFails

/-- Three attempts on one endpoint fail; the circuit opens at the third failure. -/
theorem run_circuits_third_failure :
    let candidate : RouteCandidate := ⟨some 0, none, 1, 2⟩
    let labels : List HealthLabel :=
      List.replicate 3 (.acquireHealth candidate) ++
      [0, 1, 2].flatMap (fun index => List.replicate 7 (.advance index) ++
        [.establish index, .complete index (.transportFailure .endpoint)]) ++
      List.replicate 5 (.advance 0) ++ List.replicate 5 (.advance 1) ++
      List.replicate 4 (.advance 2)
    ∃ health after, run (step reliabilityPolicy) labels initial = some health ∧
      health.step reliabilityPolicy (.advance 2) = some after ∧
      (health.circuits (.endpoint 0)).Opens (after.circuits (.endpoint 0)) (seconds 15) := by
  intro candidate labels
  have hObserved : (run (step reliabilityPolicy) labels initial).any (fun health =>
      health.clock = 0 ∧ (health.circuits (.endpoint 0)).recent (seconds 30) health.clock = 2 ∧
      (health.step reliabilityPolicy (.advance 2)).isSome ∧
      (health.attempts[2]?).map (fun attempt =>
          (attempt.tasks, attempt.candidate.circuit .endpoint, attempt.held .endpoint)) =
        some ([.fail .endpoint], some (.endpoint 0), some ⟨false, 0⟩)) = true := by
    decide +kernel
  obtain ⟨health, hRun, hSeen⟩ := (Option.any_eq_true ..).mp hObserved
  obtain ⟨hClock, hRecent, hStep, hAttempt⟩ := of_decide_eq_true hSeen
  obtain ⟨attempt, hAttempt, hParts⟩ := Option.map_eq_some_iff.mp hAttempt
  obtain ⟨hTasks, hParts⟩ := Prod.mk.inj hParts
  obtain ⟨hRef, hHeld⟩ := Prod.mk.inj hParts
  obtain ⟨after, hStep⟩ := Option.isSome_iff_exists.mp hStep
  refine ⟨health, after, hRun, hStep, ?_⟩
  have hOpens := ((run_circuits hRun (.endpoint 0)).2.2.2 (.advance 2) after hStep).1.mpr
    ⟨_, ⟨2, attempt, _, _, rfl, hAttempt, hTasks, .endpoint, rfl, hRef, hHeld⟩, .inr ?_⟩
  · rw [hClock] at hOpens
    exact hOpens
  · change 3 ≤ (health.circuits (.endpoint 0)).recent (seconds 30) health.clock + 1
    rw [hRecent]

end HealthState

end Any2Api.Runtime.Health
