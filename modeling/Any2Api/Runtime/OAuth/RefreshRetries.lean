import Any2Api.Runtime.OAuth.RefreshRuns

/-! The callers that wait behind a refresh that fails: one of them tries again. The count of
failures lets a waiter go on if it has grown by one since the waiter read it, and the gate serves
the waiters in their order. -/
namespace Any2Api.Runtime.OAuth

open Runs FifoGates

/-- The action ends a call early, ends an attempt otherwise than in a failure that may pass, or
records a success. -/
def CallerAction.disturbs : CallerAction → Bool
  | .cancel | .reject | .succeed | .forgetRejection | .forgetAttempts => true
  | _ => false

namespace RefreshPhase

/-- Phases that follow a permanent rejection or a success, up to the end of the publication. -/
def unsteady : RefreshPhase → Bool
  | .failing true | .prepared | .publishing _ | .published _ => true
  | _ => false

/-- From the snapshot to the end of an attempt that fails. -/
def trying : RefreshPhase → Bool
  | .current | .allowed | .cleared | .requesting | .failing false => true
  | _ => false

variable {phase : RefreshPhase}

theorem holds_of_unsteady (h : phase.unsteady = true) : phase.holds = true := by
  cases phase <;> first | rfl | exact absurd h Bool.false_ne_true

theorem holds_of_trying (h : phase.trying = true) : phase.holds = true := by
  cases phase <;> first | rfl | exact absurd h Bool.false_ne_true

end RefreshPhase

namespace RefreshState

/-- The step leaves the account published as it is, and the count of its failures can only grow. -/
def steady (account : Nat) (state : RefreshState) : RefreshLabel → Bool
  | .act index action => state.callers[index]?.all fun caller =>
    decide (caller.account ≠ account) || !action.disturbs
  | .publishExternally other _ => decide (other ≠ account)
  | .pruneAttempts index => state.scans[index]?.all fun scan =>
    (state.failedAttempts account).all fun failed =>
      decide (scan.active account = some failed.tokenVersion)
  | _ => true

/-- The account is steady along a run. -/
abbrev Steadily (material : Nat → Nat → TokenMaterial) (account : Nat)
    (labels : List RefreshLabel) (state : RefreshState) : Prop :=
  Along (step material) (fun state label => steady account state label = true) labels state

/-- Queued for the account at a version, with a count of failures read before that. -/
def Waits (state : RefreshState) (account version failures index : Nat) : Prop :=
  ∃ caller, state.callers[index]? = some caller ∧ caller.account = account ∧
    caller.observed = version ∧ caller.reading = some failures ∧ caller.phase = .queued

def Attempted (state : RefreshState) (index : Nat) : Prop :=
  ∃ caller, state.callers[index]? = some caller ∧ caller.attempted = true

def Finished (state : RefreshState) (index : Nat) : Prop :=
  ∃ caller, state.callers[index]? = some caller ∧ caller.phase = .finished

variable {material : Nat → Nat → TokenMaterial} {state base next : RefreshState}
  {index account version failures : Nat} {caller changed : RefreshCaller} {action : CallerAction}
  {label : RefreshLabel} {waits : Nat → Prop}

section Counts

theorem failedRefreshAttempts_congr {other : RefreshState}
    (h : other.failedAttempts account = state.failedAttempts account) :
    other.failedRefreshAttempts account version = state.failedRefreshAttempts account version := by
  unfold failedRefreshAttempts
  rw [h]

theorem failedRefreshAttempts_record :
    (state.recordFailedAttempt account version).failedRefreshAttempts account version =
      state.failedRefreshAttempts account version + 1 := by
  simp [failedRefreshAttempts, recordFailedAttempt]

end Counts

theorem steady_act (h : steady account state (.act index action) = true)
    (hCaller : state.callers[index]? = some caller) (hAccount : caller.account = account) :
    action.disturbs = false := by
  rw [steady, hCaller, Option.all_some, hAccount, decide_eq_false (not_not_intro rfl),
    Bool.false_or] at h
  exact Bool.not_eq_true' .. ▸ h

/-- The caller is not past a permanent rejection or a success, and tries the version. -/
def Quiet (version : Nat) (caller : RefreshCaller) : Prop :=
  caller.phase.unsteady = false ∧ (caller.phase.trying = true → caller.observed = version)

/-- While the account is steady: it is published at one version, and its callers are quiet. -/
structure Window (material : Nat → Nat → TokenMaterial) (account version : Nat)
    (state : RefreshState) : Prop where
  valid : Valid material state
  published : state.published account = some version
  quiet : ∀ {index : Nat} {caller : RefreshCaller}, state.callers[index]? = some caller →
    caller.account = account → Quiet version caller

namespace Acts

section

variable (h : Acts material state index caller action base changed)
include h

theorem quiet (hQuiet : Quiet version caller) (hAction : action.disturbs = false)
    (hPublished : state.published caller.account = some version) : Quiet version changed := by
  obtain ⟨hSteady, hObserved⟩ := hQuiet
  cases h
  case readObserved hRead hPhase =>
    exact ⟨rfl, fun _ => Option.some.inj (hRead.symm.trans hPublished)⟩
  case dropGate records hPhase =>
    rw [hPhase] at hSteady
    exact absurd hSteady Bool.false_ne_true.symm
  all_goals
    rename_i hPhase
    first
    | exact absurd hAction Bool.false_ne_true.symm
    | exact ⟨rfl, fun h => absurd h Bool.false_ne_true⟩
    | exact ⟨rfl, fun _ => hObserved (by rw [hPhase]; rfl)⟩
    | rw [hPhase] at hSteady
      exact absurd hSteady Bool.false_ne_true.symm

/-- A caller in line stays there until it leaves, with the count it has read. -/
theorem waited (hWaited : caller.phase.inLine = true ∨ caller.phase = .finished)
    (hSteady : caller.phase.unsteady = false) (hAction : action.disturbs = false) :
    changed.reading = caller.reading ∧
      (changed.phase.inLine = true ∨ changed.phase = .finished) := by
  cases h
  case dropGate records hPhase =>
    rw [hPhase] at hSteady
    exact absurd hSteady Bool.false_ne_true.symm
  all_goals
    rename_i hPhase
    first
    | exact absurd hAction Bool.false_ne_true.symm
    | exact ⟨rfl, .inl rfl⟩
    | exact ⟨rfl, .inr rfl⟩
    | rw [hPhase] at hWaited
      exact hWaited.elim (fun h => absurd h Bool.false_ne_true) nofun

theorem published_of_steady (hSteady : caller.account = account → caller.phase.unsteady = false) :
    base.published account = state.published account := by
  cases h
  case publishRefresh hPublished hPhase =>
    refine published_setPublished_of_ne fun hAccount => ?_
    have hSteady := hSteady hAccount.symm
    rw [hPhase] at hSteady
    exact absurd hSteady Bool.false_ne_true.symm
  all_goals rfl

/-- The count of failures of the published version grows with each that is recorded. -/
theorem count (hQuiet : caller.account = account → Quiet version caller)
    (hAction : caller.account = account → action.disturbs = false) :
    base.failedRefreshAttempts account version = state.failedRefreshAttempts account version ∨
      base.failedRefreshAttempts account version = state.failedRefreshAttempts account version + 1 ∧
        caller.account = account ∧ caller.phase = .failing false ∧
        action = .recordFailedAttempt := by
  cases h
  case recordFailedAttempt permanent hPhase =>
    by_cases hAccount : caller.account = account
    · obtain ⟨hSteady, hObserved⟩ := hQuiet hAccount
      rw [hPhase] at hSteady hObserved
      cases permanent with
      | true => exact absurd hSteady Bool.false_ne_true.symm
      | false =>
        refine .inr ⟨?_, hAccount, hPhase, rfl⟩
        rw [hAccount, hObserved rfl]
        exact failedRefreshAttempts_record
    · exact .inl (failedRefreshAttempts_congr (Function.update_of_ne (Ne.symm hAccount) ..))
  case forgetAttempts hPhase =>
    refine .inl (failedRefreshAttempts_congr (Function.update_of_ne (fun hAccount => ?_) ..))
    exact absurd (hAction hAccount.symm) Bool.false_ne_true.symm
  all_goals exact .inl rfl

theorem of_requesting
    (hAction : action.disturbs = false) (hRequesting : caller.phase = .requesting) :
    changed.phase = .failing false := by
  cases h
  all_goals
    rename_i hPhase
    first
    | exact absurd hAction Bool.false_ne_true.symm
    | cases hPhase.symm.trans hRequesting
  all_goals rfl

theorem of_failing (hAction : action.disturbs = false) (hFailing : caller.phase = .failing false) :
    base = state.recordFailedAttempt caller.account caller.observed := by
  cases h
  all_goals
    rename_i hPhase
    first
    | exact absurd hAction Bool.false_ne_true.symm
    | cases hPhase.symm.trans hFailing
  all_goals rfl

end

end Acts

namespace Window

section

variable (h : Window material account version state)
  (hSteady : steady account state label = true) (hNext : step material state label = some next)
include h hSteady hNext

theorem published_step : next.published account = some version := by
  rw [← h.published]
  cases steps_of_step hNext
  case act hActing hActs =>
    exact hActs.published_of_steady fun hAccount => (h.quiet hActing hAccount).1
  case publishExternally =>
    exact published_setPublished_of_ne (of_decide_eq_true hSteady).symm
  all_goals rfl

/-- The count changes only when a caller of the account records a failure. -/
theorem count_step :
    next.failedRefreshAttempts account version = state.failedRefreshAttempts account version ∨
      next.failedRefreshAttempts account version = state.failedRefreshAttempts account version + 1 ∧
        ∃ actor acting, state.callers[actor]? = some acting ∧ acting.account = account ∧
          acting.phase = .failing false ∧ label = .act actor .recordFailedAttempt := by
  cases steps_of_step hNext
  case act actor acting changed action base hActing hActs =>
    obtain hSame | ⟨hMore, hAccount, hPhase, rfl⟩ :=
      hActs.count (h.quiet hActing) (steady_act hSteady hActing)
    · exact .inl hSame
    · exact .inr ⟨hMore, actor, acting, hActing, hAccount, hPhase, rfl⟩
  case pruneAttempts index scan hScan =>
    refine .inl (failedRefreshAttempts_congr ?_)
    rw [steady, hScan, Option.all_some] at hSteady
    change Option.filter _ _ = _
    cases hFailed : state.failedAttempts account with
    | none => rfl
    | some failed =>
      rw [hFailed, Option.all_some] at hSteady
      exact Option.filter_some_pos hSteady
  all_goals exact .inl rfl

theorem step : Window material account version next where
  valid := h.valid.step hNext
  published := h.published_step hSteady hNext
  quiet := fun hCaller hAccount => by
    obtain hOld | hNew | ⟨before, action, base, hBefore, rfl, hActs⟩ :=
      caller_before_step hNext hCaller
    · exact h.quiet hOld hAccount
    · rw [Quiet, hNew]
      exact ⟨rfl, fun h => absurd h Bool.false_ne_true⟩
    · rw [hActs.account_eq] at hAccount
      refine hActs.quiet (h.quiet hBefore hAccount) (steady_act hSteady hBefore hAccount) ?_
      rw [hAccount]
      exact h.published

end

end Window

/-- One of the waiters has attempted at most. Once it has recorded its failure, the count is too
high for the others. -/
structure Single (material : Nat → Nat → TokenMaterial) (account version failures : Nat)
    (waits : Nat → Prop) (state : RefreshState) : Prop where
  window : Window material account version state
  waiter : ∀ {index : Nat}, waits index → ∃ caller, state.callers[index]? = some caller ∧
    caller.account = account ∧ caller.observed = version ∧ caller.reading = some failures ∧
    (caller.phase.inLine = true ∨ caller.phase = .finished)
  floor : failures + 1 ≤ state.failedRefreshAttempts account version
  cleared : ∀ {index : Nat} {caller : RefreshCaller}, waits index →
    state.callers[index]? = some caller → caller.phase = .cleared →
    state.failedRefreshAttempts account version = failures + 1
  spent : ∀ {index : Nat} {caller : RefreshCaller}, waits index →
    state.callers[index]? = some caller → caller.attempted = true →
    caller.phase = .requesting ∨ caller.phase = .failing false ∨
      failures + 2 ≤ state.failedRefreshAttempts account version
  unique : ∀ {index other : Nat}, waits index → waits other → Attempted state index →
    Attempted state other → index = other

namespace Single

section

variable (h : Single material account version failures waits state)
include h

theorem account_eq (hWaits : waits index) (hCaller : state.callers[index]? = some caller) :
    caller.account = account := by
  obtain ⟨found, hFound, hAccount, -⟩ := h.waiter hWaits
  exact Option.some.inj (hFound.symm.trans hCaller) ▸ hAccount

/-- A waiter that starts its attempt is the first of them to do so. -/
theorem not_attempted (hWaits : waits index) (hCaller : state.callers[index]? = some caller)
    (hCleared : caller.phase = .cleared) {other : Nat} (hOther : waits other)
    (hNe : index ≠ other) : ¬ Attempted state other := by
  rintro ⟨found, hFound, hAttempted⟩
  have hCount := h.cleared hWaits hCaller hCleared
  have hSame : ∀ {phase : RefreshPhase}, found.phase = phase → phase.holds ≠ true := by
    intro phase hPhase hHolds
    refine hNe (h.window.valid.exclusive hCaller hFound (by rw [hCleared]; rfl)
      (by rw [hPhase, hHolds]) ?_)
    rw [h.account_eq hOther hFound, h.account_eq hWaits hCaller]
  obtain hPhase | hPhase | hMore := h.spent hOther hFound hAttempted
  · exact hSame hPhase rfl
  · exact hSame hPhase rfl
  · omega

variable (hNext : RefreshState.step material state label = some next)
include hNext

theorem attempted_step (hWaits : waits index) (hAttempted : Attempted next index) :
    Attempted state index ∨ (∃ action, label = .act index action) ∧
      ∃ caller, state.callers[index]? = some caller ∧ caller.phase = .cleared := by
  obtain ⟨caller, hCaller, hAttempted⟩ := hAttempted
  obtain ⟨before, hBefore, -⟩ := h.waiter hWaits
  obtain ⟨found, hFound, hSame⟩ := caller_of_step hNext hBefore
  cases hFound.symm.trans hCaller
  obtain rfl | ⟨action, base, rfl, hActs, rfl⟩ := hSame
  · exact .inl ⟨_, hBefore, hAttempted⟩
  · obtain hOld | ⟨hCleared, -⟩ := hActs.attempted hAttempted
    · exact .inl ⟨before, hBefore, hOld⟩
    · exact .inr ⟨⟨action, rfl⟩, before, hBefore, hCleared⟩

variable (hSteady : steady account state label = true)
include hSteady

theorem waiter_step (hWaits : waits index) : ∃ caller, next.callers[index]? = some caller ∧
    caller.account = account ∧ caller.observed = version ∧ caller.reading = some failures ∧
    (caller.phase.inLine = true ∨ caller.phase = .finished) := by
  obtain ⟨caller, hCaller, hAccount, hObserved, hReading, hPhase⟩ := h.waiter hWaits
  obtain ⟨found, hFound, rfl | ⟨action, base, rfl, hActs, -⟩⟩ := caller_of_step hNext hCaller
  · exact ⟨found, hFound, hAccount, hObserved, hReading, hPhase⟩
  · obtain ⟨hSame, hPhase⟩ := hActs.waited hPhase (h.window.quiet hCaller hAccount).1
      (steady_act hSteady hCaller hAccount)
    exact ⟨found, hFound, hActs.account_eq.trans hAccount, hActs.observed_eq.trans hObserved,
      hSame.trans hReading, hPhase⟩

theorem cleared_step (hWaits : waits index)
    (hCaller : next.callers[index]? = some caller) (hPhase : caller.phase = .cleared) :
    next.failedRefreshAttempts account version = failures + 1 := by
  obtain ⟨before, hBefore, hAccount, hObserved, hReading, -⟩ := h.waiter hWaits
  obtain ⟨found, hFound, hSame⟩ := caller_of_step hNext hBefore
  cases hFound.symm.trans hCaller
  obtain rfl | ⟨action, base, rfl, hActs, rfl⟩ := hSame
  · rw [← h.cleared hWaits hBefore hPhase]
    obtain hCount | ⟨-, actor, acting, hActing, hActor, hFailing, rfl⟩ :=
      h.window.count_step hSteady hNext
    · exact hCount
    · -- The recording caller would hold the gate together with this one.
      have hEq : index = actor := h.window.valid.exclusive hBefore hActing (by rw [hPhase]; rfl)
        (by rw [hFailing]; rfl) (hActor.trans hAccount.symm)
      subst hEq
      rw [Option.some.inj (hActing.symm.trans hBefore), hPhase] at hFailing
      cases hFailing
  · cases hActs
    case retry hRetry hAllowed =>
      rw [mayRetry, hReading, hAccount, hObserved] at hRetry
      exact of_decide_eq_true hRetry
    case dropGate records _ => cases records <;> cases hPhase
    all_goals cases hPhase

theorem spent_step (hWaits : waits index)
    (hCaller : next.callers[index]? = some caller) (hAttempted : caller.attempted = true) :
    caller.phase = .requesting ∨ caller.phase = .failing false ∨
      failures + 2 ≤ next.failedRefreshAttempts account version := by
  obtain ⟨before, hBefore, hAccount, hObserved, -⟩ := h.waiter hWaits
  obtain ⟨found, hFound, hSame⟩ := caller_of_step hNext hBefore
  cases hFound.symm.trans hCaller
  have hGrows : state.failedRefreshAttempts account version ≤
      next.failedRefreshAttempts account version := by
    obtain hCount | ⟨hCount, -⟩ := h.window.count_step hSteady hNext <;> omega
  obtain rfl | ⟨action, base, rfl, hActs, rfl⟩ := hSame
  · obtain hPhase | hPhase | hCount := h.spent hWaits hBefore hAttempted
    · exact .inl hPhase
    · exact .inr (.inl hPhase)
    · exact .inr (.inr (hCount.trans hGrows))
  obtain hOld | ⟨-, hPhase, -⟩ := hActs.attempted hAttempted
  · have hAction := steady_act hSteady hBefore hAccount
    obtain hPhase | hPhase | hCount := h.spent hWaits hBefore hOld
    · exact .inr (.inl (hActs.of_requesting hAction hPhase))
    · refine .inr (.inr ?_)
      have hFloor := h.floor
      rw [hActs.of_failing hAction hPhase, hAccount, hObserved]
      change _ ≤ (state.recordFailedAttempt _ _).failedRefreshAttempts _ _
      rw [failedRefreshAttempts_record]
      omega
    · exact .inr (.inr (hCount.trans hGrows))
  · exact .inl hPhase

theorem step : Single material account version failures waits next where
  window := h.window.step hSteady hNext
  waiter := h.waiter_step hNext hSteady
  floor := by
    have hFloor := h.floor
    obtain hCount | ⟨hCount, -⟩ := h.window.count_step hSteady hNext <;> omega
  cleared := h.cleared_step hNext hSteady
  spent := h.spent_step hNext hSteady
  unique := fun {index other} hIndex hOther hAttempted hAttempted' => by
    by_contra hNe
    obtain hOld | ⟨⟨action, rfl⟩, caller, hCaller, hCleared⟩ :=
      h.attempted_step hNext hIndex hAttempted
    · obtain hOld' | ⟨-, caller, hCaller, hCleared⟩ := h.attempted_step hNext hOther hAttempted'
      · exact hNe (h.unique hIndex hOther hOld hOld')
      · exact h.not_attempted hOther hCaller hCleared hIndex (Ne.symm hNe) hOld
    · obtain hOld' | ⟨⟨action', hLabel⟩, -⟩ := h.attempted_step hNext hOther hAttempted'
      · exact h.not_attempted hIndex hCaller hCleared hOther hNe hOld'
      · exact hNe (RefreshLabel.act.inj hLabel).1

end

end Single

end RefreshState

end Any2Api.Runtime.OAuth
