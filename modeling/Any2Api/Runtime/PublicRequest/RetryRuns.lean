import Any2Api.Library.Entries
import Any2Api.Runtime.PublicRequest.Retry

/-! What holds of the attempts of a request in every run of its retry loop: they stay
within the budget, and one follows another only when the failure of the other may be
replayed. -/
namespace Any2Api.Runtime.PublicRequest

open Runs

/-- How often a list of credentials goes from one to another. -/
def switchCount : List RoutingCredentialId → Nat
  | [] => 0
  | [_] => 0
  | first :: second :: rest => (if first = second then 0 else 1) + switchCount (second :: rest)

theorem switchCount_append (credentials : List RoutingCredentialId) (next : RoutingCredentialId) :
    switchCount (credentials ++ [next]) =
      switchCount credentials + if credentials.getLast?.any (· ≠ next) then 1 else 0 := by
  induction credentials using switchCount.induct with
  | case1 => rfl
  | case2 only =>
    by_cases h : only = next
    · simp [switchCount, h]
    · simp [switchCount, h]
  | case3 first second rest ih =>
    simp only [List.cons_append, switchCount] at ih ⊢
    rw [ih, List.getLast?_cons_cons, Nat.add_assoc]

/-! The decision. -/

variable {wall : WallClock} {decision : RetryDecision}

/-- Only a failure that may be replayed is retried. -/
theorem retryDecision_safe {budget : RetryBudget} {now : Instant}
    {failure : AttemptFailure} {canRefreshOauth : Bool}
    (h : retryDecision budget now wall failure canRefreshOauth = some decision)
    (hRetry : decision ≠ .terminal) : failure.retrySafety.allowsAutomaticRetry = true := by
  unfold retryDecision at h
  split at h
  · exact absurd (Option.some.inj h).symm hRetry
  · cases failure with
    | publicError error => exact absurd (Option.some.inj h).symm hRetry
    | transport error candidate bound =>
      dsimp only at h
      split at h
      · exact absurd (Option.some.inj h).symm hRetry
      · next hSafe =>
          rw [Bool.not_eq_true, Bool.not_eq_false'] at hSafe
          exact hSafe
    | upstream origin error candidate bound =>
      dsimp only at h
      split at h
      · exact absurd (Option.some.inj h).symm hRetry
      · next hSafe =>
          rw [not_or, not_or, Bool.not_eq_true, Bool.not_eq_false'] at hSafe
          exact hSafe.2.2

/-! The budget. -/

namespace RetryBudget

variable {budget after : RetryBudget} {now : Instant} {candidate : RouteCandidate}

theorem registerAttempt_refused (h : (budget.registerAttempt now candidate).1 = none) :
    (budget.registerAttempt now candidate).2 = budget := by
  unfold registerAttempt at h ⊢
  dsimp only at h ⊢
  split at h
  · next hRefused => rw [if_pos hRefused]
  · cases h

theorem canRegisterAttempt_iff {credentialId : RoutingCredentialId} :
    budget.canRegisterAttempt now credentialId = true ↔
      (budget.attempts < budget.policy.maxTotalAttempts ∧ budget.remaining now ≠ 0) ∧
      (budget.changesCredential credentialId = true →
        budget.switches < budget.policy.maxCredentialSwitches) ∧
      (budget.attemptsByCredential credentialId).getD 0 ≤
        budget.policy.maxSameCredentialRetries := by
  unfold canRegisterAttempt
  split_ifs with hOver hSwitches
  · refine iff_of_false id ?_
    rintro ⟨⟨hLess, hTime⟩, -⟩
    rcases hOver with hOver | hOver
    · omega
    · exact hTime hOver
  · refine iff_of_false id ?_
    rintro ⟨-, hFew, -⟩
    have := hFew hSwitches.1
    omega
  · rw [not_or, not_le] at hOver
    rw [not_and, not_le] at hSwitches
    rw [decide_eq_true_eq]
    exact ⟨fun hSame => ⟨hOver, hSwitches, hSame⟩, fun hAll => hAll.2.2⟩

/-- The counters of a budget are those of the attempts that were registered, and are
within the limits of its policy. -/
structure Counts (budget : RetryBudget) (candidates : List RouteCandidate) : Prop where
  attempts : budget.attempts = candidates.length
  total : budget.attempts ≤ budget.policy.maxTotalAttempts
  last : budget.lastCredential = (candidates.map (·.credentialId)).getLast?
  switches : budget.switches = switchCount (candidates.map (·.credentialId))
  switched : budget.switches ≤ budget.policy.maxCredentialSwitches
  byCredential : ∀ id, (budget.attemptsByCredential id).getD 0 =
    (candidates.map (·.credentialId)).count id
  same : ∀ id, (budget.attemptsByCredential id).getD 0 ≤
    budget.policy.maxSameCredentialRetries + 1
  byCandidate : ∀ candidate ∈ candidates,
    (budget.attemptsByCandidate candidate.identity).isSome = true

theorem Counts.new (policy : RetryPolicy) (deadline : Instant) :
    (RetryBudget.new policy deadline).Counts [] where
  attempts := rfl
  total := Nat.zero_le _
  last := rfl
  switches := rfl
  switched := Nat.zero_le _
  byCredential := fun _ => rfl
  same := fun _ => Nat.zero_le _
  byCandidate := by simp

/-- A registered attempt is within the budget. -/
theorem Counts.register {candidates : List RouteCandidate} {number : Nat}
    (h : budget.Counts candidates)
    (hRegister : budget.registerAttempt now candidate = (some number, after)) :
    after.Counts (candidates ++ [candidate]) ∧ after.policy = budget.policy := by
  unfold registerAttempt at hRegister
  dsimp only at hRegister
  split at hRegister
  · cases hRegister
  · next hCan =>
      rw [Bool.not_eq_true, Bool.not_eq_false', canRegisterAttempt_iff] at hCan
      obtain ⟨⟨hTotal, -⟩, hSwitches, hSame⟩ := hCan
      obtain ⟨-, rfl⟩ := Prod.mk.inj hRegister
      have hChanges : budget.changesCredential candidate.credentialId =
          (candidates.map (·.credentialId)).getLast?.any (· ≠ candidate.credentialId) := by
        rw [changesCredential, h.last]
      refine ⟨?_, rfl⟩
      constructor
      · simp [h.attempts]
      · exact hTotal
      · simp
      · rw [List.map_append, List.map_singleton, switchCount_append, ← hChanges, ← h.switches]
      · split_ifs with hChange
        · exact hSwitches hChange
        · exact h.switched
      · intro id
        rw [List.map_append, List.map_singleton, List.count_append, ← h.byCredential]
        dsimp only
        by_cases hId : id = candidate.credentialId
        · subst hId
          simp
        · rw [Function.update_of_ne hId, List.count_singleton,
            if_neg (by simpa using Ne.symm hId), Nat.add_zero]
      · intro id
        dsimp only
        by_cases hId : id = candidate.credentialId
        · subst hId
          simpa using hSame
        · rw [Function.update_of_ne hId]
          exact h.same id
      · intro other hOther
        dsimp only
        by_cases hIdentity : other.identity = candidate.identity
        · rw [hIdentity, Function.update_self]
          rfl
        · rw [Function.update_of_ne hIdentity]
          rcases List.mem_append.mp hOther with hOld | hNew
          · exact h.byCandidate other hOld
          · rw [List.mem_singleton.mp hNew] at hIdentity
            exact absurd rfl hIdentity

end RetryBudget

/-! The loop. -/

/-- An attempt has ended with a failure that may be replayed, before anything was handed
downstream. -/
def AttemptRecord.Replayable (record : AttemptRecord) : Prop :=
  ∃ failure, record.ended = some (.failed failure) ∧
    failure.retrySafety.allowsAutomaticRetry = true

namespace RetryExecution

variable {execution after : RetryExecution} {policy : RetryPolicy} {failure : AttemptFailure}
  {attempts : List AttemptRecord}

/-- The last attempt has failed this way. -/
def LastFailed (attempts : List AttemptRecord) (failure : AttemptFailure) : Prop :=
  ∃ earlier record, attempts = earlier ++ [record] ∧ (∀ other ∈ earlier, other.Replayable) ∧
    record.ended = some (.failed failure) ∧ failure.candidate.all (· = record.candidate) = true

/-- The attempts in each phase of the loop. -/
def Attempted (attempts : List AttemptRecord) : Phase → Prop
  | .starting | .selecting | .awaiting | .selected .. => ∀ record ∈ attempts, record.Replayable
  | .running candidate _ => ∃ earlier, attempts = earlier ++ [⟨candidate, none⟩] ∧
      ∀ record ∈ earlier, record.Replayable
  | .failed failure => LastFailed attempts failure
  | .refreshing failure .. | .waiting failure _ =>
    LastFailed attempts failure ∧ failure.retrySafety.allowsAutomaticRetry = true
  | .finished _ => ∀ record ∈ attempts.dropLast, record.Replayable

structure Kept (policy : RetryPolicy) (execution : RetryExecution) : Prop where
  policy : execution.budget.policy = policy
  counts : execution.budget.Counts (execution.attempts.map (·.candidate))
  attempted : Attempted execution.attempts execution.phase

theorem LastFailed.earlier (h : LastFailed attempts failure) :
    ∀ record ∈ attempts.dropLast, record.Replayable := by
  obtain ⟨earlier, record, rfl, hEarlier, -⟩ := h
  rwa [List.dropLast_concat]

theorem LastFailed.replayable (h : LastFailed attempts failure)
    (hSafe : failure.retrySafety.allowsAutomaticRetry = true) :
    ∀ record ∈ attempts, record.Replayable := by
  obtain ⟨earlier, last, rfl, hEarlier, hLast, -⟩ := h
  exact Entries.forall_mem_concat hEarlier ⟨failure, hLast, hSafe⟩

/-- Every attempt but the last has been replayed, in every phase. -/
theorem Attempted.earlier {phase : Phase}
    (h : Attempted attempts phase) : ∀ record ∈ attempts.dropLast, record.Replayable := by
  have hSublist : (∀ record ∈ attempts, record.Replayable) →
      ∀ record ∈ attempts.dropLast, record.Replayable :=
    fun hAll record hMem => hAll record (List.mem_of_mem_dropLast hMem)
  cases phase with
  | starting | selecting | awaiting | selected => exact hSublist h
  | running =>
    obtain ⟨earlier, rfl, hEarlier⟩ := h
    rwa [List.dropLast_concat]
  | failed => exact LastFailed.earlier h
  | refreshing | waiting => exact h.1.earlier
  | finished => exact h

section

variable (h : Kept policy execution)
include h

/-- A step that changes neither the budget nor the attempts. -/
theorem Kept.proceed (hBudget : after.budget = execution.budget)
    (hAttempts : after.attempts = execution.attempts)
    (hPhase : Attempted after.attempts after.phase) : Kept policy after where
  policy := by rw [hBudget]; exact h.policy
  counts := by rw [hBudget, hAttempts]; exact h.counts
  attempted := hPhase

theorem Kept.fail (reason : FinalFailure) : Kept policy (execution.fail reason) :=
  h.proceed rfl rfl h.attempted.earlier

theorem Kept.failWithPreviousOr (fallback : FinalFailure) :
    Kept policy (execution.failWithPreviousOr fallback) :=
  h.proceed rfl rfl h.attempted.earlier

theorem Kept.rebaseTo (hAll : ∀ record ∈ execution.attempts, record.Replayable) (rebase : Rebase) :
    Kept policy (execution.rebaseTo rebase) := by
  cases rebase with
  | accepted => exact h.proceed rfl rfl hAll
  | refused error =>
    unfold RetryExecution.rebaseTo
    dsimp only
    split
    · exact h.fail _
    · exact h.failWithPreviousOr _

theorem Kept.execute
    (hAll : ∀ record ∈ execution.attempts, record.Replayable) (candidate : RouteCandidate)
    (bound : Bool) (start : Start) : Kept policy (execution.execute candidate bound start) := by
  cases start with
  | stale rebase => exact h.rebaseTo hAll rebase
  | revoked =>
    unfold RetryExecution.execute
    dsimp only
    split
    · exact h.fail _
    · exact h.proceed rfl rfl hAll
  | started =>
    unfold RetryExecution.execute
    generalize hRegister : execution.budget.registerAttempt execution.clock candidate = answer
    obtain ⟨number, budget⟩ := answer
    cases number with
    | none =>
      have hSame : budget = execution.budget := by
        have := RetryBudget.registerAttempt_refused (congrArg Prod.fst hRegister)
        rwa [hRegister] at this
      subst hSame
      exact h.failWithPreviousOr _
    | some number =>
      obtain ⟨hCounts, hPolicy⟩ := h.counts.register hRegister
      refine ⟨hPolicy.trans h.policy, ?_, execution.attempts, rfl, hAll⟩
      rw [List.map_append]
      exact hCounts

theorem Kept.complete {candidate : RouteCandidate} {bound : Bool}
    (hPhase : execution.phase = .running candidate bound) {outcome : AttemptEnd}
    (hOwn : ∀ failure, outcome = .failed failure →
      failure.candidate.all (· = candidate) = true) :
    Kept policy (execution.complete outcome) := by
  have hRunning := h.attempted
  rw [hPhase] at hRunning
  obtain ⟨earlier, hAttempts, hEarlier⟩ := hRunning
  have hEnded : ∀ ended, (execution.endAttempt ended).attempts =
      earlier ++ [⟨candidate, some ended⟩] := fun ended => by
    rw [endAttempt, hAttempts, List.modifyLast_concat]
  -- The end of an attempt changes no counter.
  have hCounts : ∀ ended, execution.budget.Counts
      ((execution.endAttempt ended).attempts.map (·.candidate)) := fun ended => by
    have hSame := h.counts
    rw [hAttempts, List.map_append, List.map_singleton] at hSame
    rwa [hEnded, List.map_append, List.map_singleton]
  have hLast : ∀ ended, ∀ record ∈ (execution.endAttempt ended).attempts.dropLast,
      record.Replayable := fun ended => by
    rwa [hEnded, List.dropLast_concat]
  cases outcome with
  | responded => exact ⟨h.policy, hCounts _, hLast _⟩
  | failed failure =>
    exact ⟨h.policy, hCounts _, earlier, _, hEnded _, hEarlier, rfl, hOwn failure rfl⟩
  | timedOut => exact ⟨h.policy, hCounts _, hLast _⟩

theorem Kept.goOn
    (hAll : ∀ record ∈ execution.attempts, record.Replayable) (failure : AttemptFailure) :
    Kept policy (execution.goOn failure) :=
  h.proceed rfl rfl hAll

theorem Kept.applyRetryDecision (hFailed : LastFailed execution.attempts failure)
    (hSafe : decision ≠ .terminal → failure.retrySafety.allowsAutomaticRetry = true) :
    Kept policy (execution.applyRetryDecision failure decision) := by
  cases decision with
  | terminal => exact h.fail _
  | retrySamePath delay =>
    unfold RetryExecution.applyRetryDecision
    dsimp only
    split
    · exact h.proceed rfl rfl ⟨hFailed, hSafe (by simp)⟩
    · exact h.fail _
  | preferAlternate scope delay =>
    exact h.proceed rfl rfl (hFailed.replayable (hSafe (by simp)))
  | reselect scope => exact h.proceed rfl rfl (hFailed.replayable (hSafe (by simp)))
  | oauthRefresh accountId tokenVersion =>
    exact h.goOn (hFailed.replayable (hSafe (by simp))) failure

end

theorem Kept.handleFailure (h : Kept policy execution)
    (hFailed : LastFailed execution.attempts failure)
    (hHandle : execution.handleFailure failure wall = some after) : Kept policy after := by
  unfold RetryExecution.handleFailure at hHandle
  generalize hNote : execution.noteRejectedRefreshedToken failure = noted at hHandle
  obtain ⟨hBudget, hAttempts, hPhase⟩ : noted.budget = execution.budget ∧
      noted.attempts = execution.attempts ∧ noted.phase = execution.phase := by
    rw [← hNote, noteRejectedRefreshedToken]
    split <;> exact ⟨rfl, rfl, rfl⟩
  have hNoted : Kept policy noted := by
    refine h.proceed hBudget hAttempts ?_
    rw [hAttempts, hPhase]
    exact h.attempted
  rw [← hAttempts] at hFailed
  obtain ⟨first, hFirst, hHandle⟩ := Option.bind_eq_some_iff.mp hHandle
  dsimp only at hHandle
  generalize hDecision : (if first.requiredWait.any
    (fun delay => !noted.budget.canWait noted.clock delay) then .terminal
      else first) = decision at hHandle
  have hSafe : decision ≠ .terminal → failure.retrySafety.allowsAutomaticRetry = true := by
    intro hRetry
    rw [← hDecision] at hRetry
    split at hRetry
    · exact absurd rfl hRetry
    · exact retryDecision_safe hFirst hRetry
  cases decision with
  | oauthRefresh accountId tokenVersion =>
    rw [← Option.some.inj hHandle]
    exact hNoted.proceed rfl rfl ⟨hFailed, hSafe (by simp)⟩
  | _ =>
    rw [← Option.some.inj hHandle]
    exact hNoted.applyRetryDecision hFailed hSafe

theorem Kept.refreshed (h : Kept policy execution) (hFailed : LastFailed execution.attempts failure)
    (hSafe : failure.retrySafety.allowsAutomaticRetry = true) {accountId tokenVersion : Nat}
    {refresh : Refresh}
    (hRefresh : execution.refreshed failure accountId tokenVersion wall refresh = some after) :
    Kept policy after := by
  cases refresh with
  | refreshed version rebase =>
    cases rebase with
    | accepted =>
      rw [← Option.some.inj hRefresh]
      exact (h.proceed rfl rfl h.attempted : Kept policy { execution with
        refreshedOauthTarget := version.map (accountId, ·) }).applyRetryDecision hFailed
          fun _ => hSafe
    | refused error =>
      rw [← Option.some.inj hRefresh]
      exact h.fail _
  | notRefreshed =>
    obtain ⟨decision, hDecision, hAfter⟩ := Option.bind_eq_some_iff.mp hRefresh
    rw [← Option.some.inj hAfter]
    exact h.applyRetryDecision hFailed (retryDecision_safe hDecision)

/-- Every step of the loop keeps its counts. -/
theorem Kept.step {label : RetryLabel} (h : Kept policy execution)
    (hStep : execution.step label = some after) : Kept policy after := by
  have hAttempted := h.attempted
  cases label
  case tick now =>
    obtain ⟨-, hAfter⟩ := Option.ite_none_right_eq_some.mp hStep
    exact Option.some.inj hAfter ▸ h.proceed rfl rfl hAttempted
  -- Every other label has a phase of its own.
  all_goals
    cases hPhase : execution.phase <;> rw [hPhase] at hAttempted <;>
      simp only [RetryExecution.step, hPhase, reduceCtorEq, if_true, if_false,
        Option.some.injEq] at hStep
  case start.starting rebase =>
    subst hStep
    unfold RetryExecution.start
    split
    · exact h.fail _
    · exact h.proceed rfl rfl hAttempted
  case beginSelection.selecting =>
    subst hStep
    unfold RetryExecution.beginSelection
    split
    · exact h.failWithPreviousOr _
    · exact h.proceed rfl rfl hAttempted
  case wake.awaiting reason =>
    subst hStep
    cases reason with
    | selected candidate bound => exact h.proceed rfl rfl hAttempted
    | failed error | feedLost | timedOut => exact h.failWithPreviousOr _
    | revision rebase =>
      cases rebase with
      | none => exact h.proceed rfl rfl hAttempted
      | some rebase => exact h.rebaseTo hAttempted rebase
  case execute.selected start candidate bound =>
    exact hStep ▸ h.execute hAttempted candidate bound start
  case complete.running outcome candidate bound =>
    cases outcome with
    | failed failure =>
      obtain ⟨hOwn, hAfter⟩ := Option.ite_none_right_eq_some.mp hStep
      refine Option.some.inj hAfter ▸ h.complete hPhase fun other hOther => ?_
      cases hOther
      exact hOwn.1
    | responded | timedOut => exact Option.some.inj hStep ▸ h.complete hPhase (by simp)
  case handleFailure.failed => exact h.handleFailure hAttempted hStep
  case refreshed.refreshing => exact h.refreshed hAttempted.1 hAttempted.2 hStep
  case delayElapsed.waiting failure wakeAt =>
    obtain ⟨-, hAfter⟩ := Option.ite_none_right_eq_some.mp hStep
    exact Option.some.inj hAfter ▸ h.goOn (hAttempted.1.replayable hAttempted.2) failure

theorem Kept.initial (hasRefresher : Bool) (policy : RetryPolicy) (deadline : Instant) :
    Kept policy (initial hasRefresher policy deadline) where
  policy := rfl
  counts := .new policy deadline
  attempted := by simp [RetryExecution.initial, Attempted]

/-- The attempts of a request stay within the limits of its budget, a refused registration
changes no counter, and every attempt after the first follows one that failed, before
anything was handed downstream, in a way that may be replayed. -/
theorem run_attempts {hasRefresher : Bool} {deadline : Instant} {labels : List RetryLabel}
    (hRun : run step labels (initial hasRefresher policy deadline) = some execution) :
    execution.attempts.length ≤ policy.maxTotalAttempts ∧
    switchCount (execution.attempts.map (·.candidate.credentialId)) ≤
      policy.maxCredentialSwitches ∧
    (∀ id, (execution.attempts.map (·.candidate.credentialId)).count id ≤
      policy.maxSameCredentialRetries + 1) ∧
    (∀ now candidate, (execution.budget.registerAttempt now candidate).1 = none →
      (execution.budget.registerAttempt now candidate).2 = execution.budget) ∧
    ∀ index next, execution.attempts[index + 1]? = some next →
      ∃ record, execution.attempts[index]? = some record ∧ record.Replayable := by
  have hKept : Kept policy execution :=
    invariant_of_run (fun _ _ _ h => h.step) (.initial hasRefresher policy deadline) hRun
  have hCounts := hKept.counts
  have hCredentials : (execution.attempts.map (·.candidate)).map (·.credentialId) =
      execution.attempts.map (·.candidate.credentialId) := by
    rw [List.map_map]
    rfl
  refine ⟨?_, ?_, fun id => ?_, fun now candidate => RetryBudget.registerAttempt_refused, ?_⟩
  · have hTotal := hCounts.total
    rwa [hCounts.attempts, List.length_map, hKept.policy] at hTotal
  · have hSwitched := hCounts.switched
    rwa [hCounts.switches, hCredentials, hKept.policy] at hSwitched
  · have hSame := hCounts.same id
    rwa [hCounts.byCredential, hCredentials, hKept.policy] at hSame
  · intro index next hNext
    obtain ⟨hLess, -⟩ := List.getElem?_eq_some_iff.mp hNext
    have hIndex : index < execution.attempts.dropLast.length := by
      rw [List.length_dropLast]
      omega
    refine ⟨execution.attempts.dropLast[index], ?_,
      hKept.attempted.earlier _ (List.getElem_mem hIndex)⟩
    rw [List.getElem_dropLast, List.getElem?_eq_getElem]

/-- A candidate of a provider credential. -/
def sampleCandidate (credential : Nat) : RouteCandidate where
  endpointId := 0
  endpointConfigVersion := 0
  proxyId := 0
  proxyConfigVersion := 0
  credentialId := .providerCredential credential
  routingGeneration := 0
  targetId := 0
  operation := .responses
  upstreamModel := "m"
  authenticationVersion := 0

/-- An overloaded upstream is left for another credential. -/
theorem run_attempts_other_credential :
    let policy : RetryPolicy := ⟨3, 2, 1, seconds 1, seconds 2, 20⟩
    let failure : AttemptFailure := .upstream (.httpStatus true)
      ⟨.transient, .rejectedBeforeExecution, none, .unattributed⟩ (sampleCandidate 0) false
    let labels : List RetryLabel :=
      [.start none, .beginSelection, .wake (.selected (sampleCandidate 0) false),
        .execute .started, .complete (.failed failure), .handleFailure ⟨0, 0⟩, .beginSelection,
        .wake (.selected (sampleCandidate 1) false), .execute .started]
    ∃ execution, run step labels (initial false policy (seconds 42)) = some execution ∧
      execution.attempts = [⟨sampleCandidate 0, some (.failed failure)⟩,
        ⟨sampleCandidate 1, none⟩] ∧
      execution.attempts.length ≤ 3 ∧
      switchCount (execution.attempts.map (·.candidate.credentialId)) ≤ 2 := by
  intro policy failure labels
  have hObserved : (run step labels (initial false policy (seconds 42))).map (·.attempts) =
      some [⟨sampleCandidate 0, some (.failed failure)⟩, ⟨sampleCandidate 1, none⟩] := by
    decide +kernel
  obtain ⟨execution, hRun, hAttempts⟩ := Option.map_eq_some_iff.mp hObserved
  have hLimits := run_attempts hRun
  exact ⟨execution, hRun, hAttempts, hLimits.1, hLimits.2.1⟩

end RetryExecution

end Any2Api.Runtime.PublicRequest
