import Any2Api.Runtime.OAuth.RefreshLine

/-! What becomes of the line behind a refresh that ends without a new token: behind one that
fails, exactly one of those who have read the count before retries; behind one that is dropped,
that depends on what those in line have read. -/
namespace Any2Api.Runtime.OAuth

open Runs FifoGates Function

namespace RefreshState

variable {material : Nat → Nat → TokenMaterial} {state base next final : RefreshState}
  {index account version failures gate waiter count : Nat} {caller changed : RefreshCaller}
  {label : RefreshLabel} {waits : Nat → Prop} {old : List Nat}
  {labels : List RefreshLabel} {holder : Nat}

section HandOver

/-- The holder of the gate ends its turn with its version still published. -/
structure HandsOver (material : Nat → Nat → TokenMaterial) (state : RefreshState) (holder : Nat)
    (caller : RefreshCaller) (next : RefreshState) : Prop where
  valid : Valid material state
  valid_next : Valid material next
  held : state.callers[holder]? = some caller
  holds : caller.phase.holds = true
  ends : ∃ changed, next.callers = state.callers.set holder changed ∧
    changed.account = caller.account ∧
    (changed.phase = .leaving ∨ changed.phase = .finished)
  published : next.published caller.account = some caller.observed
  rejection : next.permanentRejections caller.account ≠ some caller.observed
  line : next.lines caller.gate = state.lines caller.gate ∨
    next.lines caller.gate = (state.lines caller.gate).erase holder

namespace HandsOver

variable {holder : Nat} (h : HandsOver material state holder caller next)
include h

/-- Callers other than the holder stay as they are. -/
theorem callers_of_ne (hNe : index ≠ holder) : next.callers[index]? = state.callers[index]? := by
  obtain ⟨changed, hCallers, -⟩ := h.ends
  rw [hCallers, List.getElem?_set_ne (Ne.symm hNe)]

theorem ne_of_queued {waiting : RefreshCaller} (hWaiting : state.callers[index]? = some waiting)
    (hQueued : waiting.phase = .queued) : index ≠ holder := by
  rintro rfl
  have hHolds := h.holds
  rw [← Option.some.inj (hWaiting.symm.trans h.held), hQueued] at hHolds
  exact Bool.false_ne_true hHolds

theorem callers_of_waits (hWaits : state.Waits caller.account caller.observed failures index) :
    next.callers[index]? = state.callers[index]? := by
  obtain ⟨waiting, hWaiting, -, -, -, hQueued⟩ := hWaits
  exact h.callers_of_ne (h.ne_of_queued hWaiting hQueued)

/-- The account is steady from here on. -/
theorem window : Window material caller.account caller.observed next where
  valid := h.valid_next
  published := h.published
  quiet := fun {index found} hFound hAccount => by
    by_cases hNe : index = holder
    · subst hNe
      obtain ⟨changed, hCallers, -, hPhase⟩ := h.ends
      rw [hCallers, List.getElem?_set_self (List.getElem?_eq_some_iff.mp h.held).1] at hFound
      rw [← Option.some.inj hFound]
      unfold Quiet
      obtain hPhase | hPhase := hPhase <;>
        exact hPhase ▸ ⟨rfl, fun h => absurd h Bool.false_ne_true⟩
    · rw [h.callers_of_ne hNe] at hFound
      have hHolds : found.phase.holds ≠ true := fun hHolds =>
        hNe (h.valid.exclusive hFound h.held hHolds h.holds hAccount.symm)
      constructor
      · exact Bool.eq_false_of_not_eq_true fun h => hHolds (RefreshPhase.holds_of_unsteady h)
      · exact fun h => absurd (RefreshPhase.holds_of_trying h) hHolds

theorem not_attempted {waiting : RefreshCaller} (hWaiting : state.callers[index]? = some waiting)
    (hQueued : waiting.phase = .queued) : ¬Attempted next index := by
  rintro ⟨found, hFound, hAttempted⟩
  rw [h.callers_of_ne (h.ne_of_queued hWaiting hQueued)] at hFound
  cases hFound.symm.trans hWaiting
  have hSound := h.valid.sound hWaiting
  rw [RefreshCaller.Sound, hQueued] at hSound
  exact Bool.false_ne_true (hSound.2.1.symm.trans hAttempted)

theorem single (hCount : next.failedRefreshAttempts caller.account caller.observed = failures + 1) :
    Single material caller.account caller.observed failures
      (state.Waits caller.account caller.observed failures) next := by
  have hNone {index : Nat} (hWaits : state.Waits caller.account caller.observed failures index) :
      ¬Attempted next index := by
    obtain ⟨waiting, hWaiting, -, -, -, hQueued⟩ := hWaits
    exact h.not_attempted hWaiting hQueued
  exact
    { window := h.window
      waiter := fun hWaits => by
        rw [h.callers_of_waits hWaits]
        obtain ⟨waiting, hWaiting, hAccount, hObserved, hReading, hPhase⟩ := hWaits
        exact ⟨waiting, hWaiting, hAccount, hObserved, hReading, .inl (by rw [hPhase]; rfl)⟩
      floor := hCount.ge
      cleared := fun _ _ _ => hCount
      spent := fun hWaits hFound hAttempted => absurd ⟨_, hFound, hAttempted⟩ (hNone hWaits)
      unique := fun hWaits _ hAttempted => absurd hAttempted (hNone hWaits) }

/-- Those in line are the holder, on its way out, and the queue behind it. -/
theorem mem_line (hMem : index ∈ next.lines caller.gate) :
    ∃ found, next.callers[index]? = some found ∧ found.account = caller.account ∧
      (found.phase = .leaving ∨ found.phase = .finished ∨
        found.phase = .queued ∧ state.callers[index]? = some found) := by
  by_cases hNe : index = holder
  · subst hNe
    obtain ⟨changed, hCallers, hAccount, hPhase⟩ := h.ends
    refine ⟨changed, ?_, hAccount, hPhase.imp_right .inl⟩
    rw [hCallers, List.getElem?_set_self (List.getElem?_eq_some_iff.mp h.held).1]
  · have hOld : index ∈ state.lines caller.gate := by
      obtain hLine | hLine := h.line <;> rw [hLine] at hMem
      · exact hMem
      · exact List.mem_of_mem_erase hMem
    obtain ⟨found, hFound, hQueued, hAccount⟩ := h.valid.queued_behind h.held h.holds hOld hNe
    exact ⟨found, (h.callers_of_ne hNe).trans hFound, hAccount, .inr (.inr ⟨hQueued, hFound⟩)⟩

theorem turns {later : List Nat} (hLine : next.lines caller.gate = old ++ later) :
    Turns material caller.account caller.observed caller.gate old
      (next.failedRefreshAttempts caller.account caller.observed) old next where
  window := h.window
  count := rfl
  rejection := h.rejection
  line := ⟨later, hLine⟩
  account := fun index hMem => by
    obtain ⟨found, hFound, hAccount, -⟩ := h.mem_line (hLine ▸ List.mem_append_left later hMem)
    exact ⟨found, hFound, hAccount⟩
  suffix := List.suffix_rfl
  finished := fun _ => .inl

/-- A queued caller of the account is in the line of the holder. -/
theorem mem_of_queued {waiting : RefreshCaller} (hWaiting : state.callers[index]? = some waiting)
    (hAccount : waiting.account = caller.account) (hQueued : waiting.phase = .queued) :
    index ∈ next.lines caller.gate := by
  have hIn : waiting.phase.inLine = true := by
    rw [hQueued]
    rfl
  have hGate := h.valid.gated.gate hWaiting (RefreshPhase.live_of_inLine hIn)
  rw [hAccount, h.valid.gate_of_holds h.held h.holds, Option.some.injEq] at hGate
  have hMem : index ∈ state.lines caller.gate := by
    rw [hGate]
    exact h.valid.ordered.member.mpr (place_of_inLine hWaiting hIn)
  obtain hLine | hLine := h.line <;> rw [hLine]
  · exact hMem
  · exact (List.mem_erase_of_ne (h.ne_of_queued hWaiting hQueued)).mpr hMem

/-- With the count one above a reading, those who have read it and stand before one of them that
need not be due retry. -/
theorem retrying {waiting : RefreshCaller} {later : List Nat}
    (hCount : next.failedRefreshAttempts caller.account caller.observed = failures + 1)
    (hWaits : state.Waits caller.account caller.observed failures waiter)
    (hWaiting : state.callers[waiter]? = some waiting)
    (hTrigger : waiting.trigger = .authenticationFailure)
    (hLine : next.lines caller.gate = old ++ [waiter] ++ later) :
    Retrying material caller.account caller.observed caller.gate (old ++ [waiter])
      (state.Waits caller.account caller.observed failures) next := by
  refine .inr ⟨_, _, h.turns hLine, ?_⟩
  rw [hCount]
  obtain ⟨same, hSame, -, hObserved, hReading, hQueued⟩ := id hWaits
  cases hWaiting.symm.trans hSame
  refine retries_of_mem (fun index hMem found hFound hTurn => ?_)
    (List.mem_append_right old List.mem_cons_self) ((h.callers_of_waits hWaits).trans hWaiting) ?_
  · obtain ⟨other, hOther, hAccount, hPhase⟩ :=
      h.mem_line (hLine ▸ List.mem_append_left later hMem)
    cases hFound.symm.trans hOther
    obtain hPhase | hPhase | ⟨hQueued, hBefore⟩ := hPhase
    · exact absurd (by rw [RefreshCaller.turn, hPhase]) hTurn
    · exact absurd (by rw [RefreshCaller.turn, hPhase]) hTurn
    · have hSound := h.valid.sound hBefore
      rw [RefreshCaller.Sound, hQueued] at hSound
      obtain ⟨reading, hReading⟩ := Option.isSome_iff_exists.mp hSound.2.2
      rw [RefreshCaller.turn, hQueued, hReading] at hTurn
      have hBoth := (ite_ne_right_iff.mp hTurn).1
      simp only [Option.all_some, Nat.add_right_cancel_iff, decide_eq_true_eq] at hBoth
      exact ⟨found, hBefore, hAccount, hBoth.1, hBoth.2 ▸ hReading, hQueued⟩
  · rw [RefreshCaller.turn, hQueued, hObserved, hReading, hTrigger]
    exact if_pos ⟨rfl, by simp⟩

end HandsOver

end HandOver

/-- One refresh of an account at a time is between the start of its request and the end of its
publication. -/
def SingleFlight (state : RefreshState) : Prop :=
  ∀ (index other : Nat) (caller another : RefreshCaller), state.callers[index]? = some caller →
    state.callers[other]? = some another → caller.account = another.account →
    caller.phase.inFlight = true → another.phase.inFlight = true → index = other

/-- A caller that attempts holds the gate of its account, where it has read that the version it
observed is published. -/
def AttemptsCurrent (material : Nat → Nat → TokenMaterial) (state : RefreshState) : Prop :=
  ∀ (index : Nat) (due : Bool) (caller changed : RefreshCaller) (next : RefreshState),
    step material state (.act index (.attempt due)) = some next →
    state.callers[index]? = some caller → next.callers[index]? = some changed →
    changed.attempted = true →
    state.gates caller.account = some caller.gate ∧
      (state.lines caller.gate).head? = some index ∧ caller.read = some caller.observed

/-- Those in line behind a refresh when it is published never attempt. -/
def PublicationEnds (material : Nat → Nat → TokenMaterial) (state : RefreshState) : Prop :=
  ∀ (index waiter : Nat) (caller : RefreshCaller) (next final : RefreshState)
    (labels : List RefreshLabel), state.callers[index]? = some caller →
    state.published caller.account = some caller.observed →
    step material state (.act index (.publish true)) = some next →
    waiter ∈ state.lines caller.gate → waiter ≠ index →
    run (step material) labels next = some final → ¬ Attempted final waiter

/-- Of those who wait behind a refresh that fails, with the count read before the failure, one
attempts at most, and exactly one by the time a caller among them that need not be due has
finished; until then the line can move on to that. -/
def OneRetries (material : Nat → Nat → TokenMaterial) (state : RefreshState) : Prop :=
  ∀ (holder : Nat) (caller : RefreshCaller) (next final : RefreshState)
    (labels : List RefreshLabel), state.callers[holder]? = some caller →
    caller.phase = .failing false → state.published caller.account = some caller.observed →
    step material state (.act holder .recordFailedAttempt) = some next →
    Steadily material caller.account labels next →
    run (step material) labels next = some final →
    let waits := state.Waits caller.account caller.observed
      (state.failedRefreshAttempts caller.account caller.observed)
    (∀ index other, waits index → waits other → Attempted final index → Attempted final other →
      index = other) ∧
    ∀ (waiter : Nat) (waiting : RefreshCaller), waits waiter →
      state.callers[waiter]? = some waiting → waiting.trigger = .authenticationFailure →
      (Finished final waiter → ∃! index, waits index ∧ Attempted final index) ∧
      ∃ more last, Steadily material caller.account more final ∧
        run (step material) more final = some last ∧ ∃! index, waits index ∧ Attempted last index

theorem singleFlight_of_valid (h : Valid material state) : SingleFlight state := by
  intro index other caller another hCaller hAnother hAccount hFlight hFlight'
  exact h.exclusive hCaller hAnother (RefreshPhase.holds_of_inFlight hFlight)
    (RefreshPhase.holds_of_inFlight hFlight') hAccount.symm

theorem attemptsCurrent_of_valid (h : Valid material state) : AttemptsCurrent material state := by
  intro index due caller changed next hNext hCaller hChanged hAttempted
  obtain ⟨acting, base, found, hActing, hActs, rfl⟩ := acts_of_step hNext
  cases hCaller.symm.trans hActing
  have hHolds : caller.phase = .cleared := by
    cases hActs <;> assumption
  have hSound := h.sound hCaller
  rw [RefreshCaller.Sound, hHolds] at hSound
  have hHolds : caller.phase.holds = true := by
    rw [hHolds]
    rfl
  refine ⟨h.gate_of_holds hCaller hHolds, ?_, hSound.1⟩
  exact h.ordered.head_of_place ⟨caller, hCaller, hHolds⟩
    (place_of_inLine hCaller (RefreshPhase.inLine_of_holds hHolds))

theorem publicationEnds_of_valid (h : Valid material state) : PublicationEnds material state := by
  intro index waiter caller next final labels hCaller hPublished hNext hWaiter hNe hRun
  have hStep : ∀ state label next, Valid material state ∧ Outdated waiter state →
      step material state label = some next → Valid material next ∧ Outdated waiter next :=
    fun _ _ _ ⟨hValid, hOutdated⟩ hStep => ⟨hValid.step hStep, hOutdated.step hValid hStep⟩
  obtain ⟨-, found, hFound, hNot, -⟩ := invariant_of_run hStep
    ⟨h.step hNext, outdated_of_publish h hCaller hPublished hWaiter hNe hNext⟩ hRun
  rintro ⟨same, hSame, hAttempted⟩
  rw [Option.some.inj (hSame.symm.trans hFound)] at hAttempted
  exact Bool.false_ne_true (hNot.symm.trans hAttempted)

theorem Single.along (h : Single material account version failures waits state)
    (hAlong : Steadily material account labels state)
    (hRun : run (RefreshState.step material) labels state = some final) :
    Single material account version failures waits final :=
  invariant_of_along (fun _ _ _ h hSteady hNext => h.step hNext hSteady) h hAlong hRun

theorem Single.existsUnique (h : Single material account version failures waits state)
    (hAttempted : ∃ index, waits index ∧ Attempted state index) :
    ∃! index, waits index ∧ Attempted state index := by
  obtain ⟨index, hWaits, hIndex⟩ := hAttempted
  exact ⟨index, ⟨hWaits, hIndex⟩, fun other ⟨hOther, hAlso⟩ => h.unique hOther hWaits hAlso hIndex⟩

/-- A waiter that has read `failures` and need not be due does not finish without an attempt of
one who has read the same. -/
theorem HandsOver.retries (h : HandsOver material state holder caller next)
    (hCount : next.failedRefreshAttempts caller.account caller.observed = failures + 1)
    (hMaterial : material caller.account caller.observed = .refreshable)
    (hAlong : Steadily material caller.account labels next)
    (hRun : run (RefreshState.step material) labels next = some final) {waiting : RefreshCaller}
    (hWaits : state.Waits caller.account caller.observed failures waiter)
    (hWaiting : state.callers[waiter]? = some waiting)
    (hTrigger : waiting.trigger = .authenticationFailure) :
    (Finished final waiter → ∃! index, state.Waits caller.account caller.observed failures index ∧
      Attempted final index) ∧
    ∃ more last, Steadily material caller.account more final ∧
      run (RefreshState.step material) more final = some last ∧
      ∃! index, state.Waits caller.account caller.observed failures index ∧
        Attempted last index := by
  have hSingle := (h.single hCount).along hAlong hRun
  obtain ⟨old, later, hLine⟩ : ∃ old later, next.lines caller.gate = old ++ [waiter] ++ later := by
    obtain ⟨same, hSame, hAccount, -, -, hQueued⟩ := hWaits
    obtain ⟨old, later, hLine⟩ := List.append_of_mem (h.mem_of_queued hSame hAccount hQueued)
    exact ⟨old, later, hLine.trans (List.append_cons ..)⟩
  have hTurn := (h.retrying hCount hWaits hWaiting hTrigger hLine).along hMaterial hAlong hRun
  constructor
  · exact fun hFinished => hSingle.existsUnique (hTurn.attempted_of_last hFinished)
  · obtain ⟨more, last, hMore, hLast, hAttempted⟩ := hTurn.attempts hMaterial
    exact ⟨more, last, hMore, hLast, (hSingle.along hMore hLast).existsUnique hAttempted⟩

theorem handsOver_of_record (h : Valid material state)
    (hHolder : state.callers[holder]? = some caller) (hFailing : caller.phase = .failing false)
    (hPublished : state.published caller.account = some caller.observed)
    (hNext : step material state (.act holder .recordFailedAttempt) = some next) :
    HandsOver material state holder caller next ∧
      next.failedRefreshAttempts caller.account caller.observed =
        state.failedRefreshAttempts caller.account caller.observed + 1 := by
  have hValid := h.step hNext
  obtain ⟨acting, base, changed, hActing, hActs, rfl⟩ := acts_of_step hNext
  cases hHolder.symm.trans hActing
  have hUnrejected := h.unrejected hHolder (by rw [hFailing]; rfl)
  cases hActs
  exact ⟨⟨h, hValid, hHolder, by rw [hFailing]; rfl, ⟨_, rfl, rfl, .inl rfl⟩, hPublished,
    hUnrejected, .inl rfl⟩, failedRefreshAttempts_record⟩

theorem oneRetries_of_valid (h : Valid material state) : OneRetries material state := by
  intro holder caller next final labels hHolder hFailing hPublished hNext hAlong hRun waits
  obtain ⟨hTurn, hCount⟩ := handsOver_of_record h hHolder hFailing hPublished hNext
  have hMaterial : material caller.account caller.observed = .refreshable := by
    have hSound := h.sound hHolder
    rw [RefreshCaller.Sound, hFailing] at hSound
    exact hSound.2.2
  exact ⟨fun index other => ((hTurn.single hCount).along hAlong hRun).unique,
    fun waiter waiting => hTurn.retries hCount hMaterial hAlong hRun⟩

/-- In every interleaving, one refresh of an account is in flight at a time, it starts from the
published version, and a refresh ends the wait behind it: published, nobody there attempts;
failed, one of those who wait for it does. -/
theorem refresh_turns {labels : List RefreshLabel}
    (hRun : run (step material) labels initial = some state) :
    SingleFlight state ∧ AttemptsCurrent material state ∧ PublicationEnds material state ∧
      OneRetries material state :=
  have h := valid_of_run hRun
  ⟨singleFlight_of_valid h, attemptsCurrent_of_valid h, publicationEnds_of_valid h,
    oneRetries_of_valid h⟩

/-- Three callers find the token of account 0 rejected. The first attempts and fails while the
others queue. -/
def failedRefresh : List RefreshLabel :=
  [.publishExternally 0 (some 1),
    .arrive 0 1 .authenticationFailure, .act 0 .gate, .act 0 .tryLock, .act 0 .readSnapshot,
    .act 0 .permanentRejection, .act 0 .compareFailures, .act 0 (.attempt false),
    .arrive 0 1 .authenticationFailure, .act 1 .gate, .act 1 .tryLock, .act 1 .readFailures,
    .act 1 .lock,
    .arrive 0 1 .authenticationFailure, .act 2 .gate, .act 2 .tryLock, .act 2 .readFailures,
    .act 2 .lock,
    .act 0 .fail]

/-- The second tries again and fails, and the third backs off. -/
def nextTurns : List RefreshLabel :=
  [.act 0 .leave, .act 1 .wake, .act 1 .readSnapshot, .act 1 .permanentRejection,
    .act 1 .compareFailures, .act 1 (.attempt false), .act 1 .fail, .act 1 .recordFailedAttempt,
    .act 1 .leave, .act 2 .wake, .act 2 .readSnapshot, .act 2 .permanentRejection,
    .act 2 .compareFailures, .act 2 .leave]

/-- What is observed of the two runs and of the step between them. -/
def observedTurns : Bool :=
  (run (step fun _ _ => .refreshable) failedRefresh initial).any fun state =>
    (step (fun _ _ => .refreshable) state (.act 0 .recordFailedAttempt)).any fun next =>
      (run (step fun _ _ => .refreshable) nextTurns next).any fun final =>
        decide ((state.callers[0]? = some
            ⟨0, 1, .authenticationFailure, .failing false, 0, none, some 1, true⟩ ∧
          state.callers[2]? = some ⟨0, 1, .authenticationFailure, .queued, 0, some 0, none, false⟩ ∧
          state.published 0 = some 1 ∧ state.failedRefreshAttempts 0 1 = 0) ∧
          final.callers[2]? = some
            ⟨0, 1, .authenticationFailure, .finished, 0, some 0, some 1, false⟩ ∧
          Steadily (fun _ _ => .refreshable) 0 nextTurns next)

/-- Of two callers that waited through a failed refresh, exactly one sends a request. -/
theorem refresh_turns_of_three_callers :
    ∃ state next final, run (step fun _ _ => .refreshable) failedRefresh initial = some state ∧
      step (fun _ _ => .refreshable) state (.act 0 .recordFailedAttempt) = some next ∧
      run (step fun _ _ => .refreshable) nextTurns next = some final ∧ Finished final 2 ∧
      ∃! index, state.Waits 0 1 0 index ∧ Attempted final index := by
  have hObserved : observedTurns = true := by decide +kernel
  obtain ⟨state, hState, hObserved⟩ := (Option.any_eq_true ..).mp hObserved
  obtain ⟨next, hNext, hObserved⟩ := (Option.any_eq_true ..).mp hObserved
  obtain ⟨final, hFinal, hObserved⟩ := (Option.any_eq_true ..).mp hObserved
  obtain ⟨⟨hHolder, hWaiter, hPublished, hFailures⟩, hLast, hAlong⟩ := of_decide_eq_true hObserved
  have hWaits : state.Waits 0 1 0 2 := ⟨_, hWaiter, rfl, rfl, rfl, rfl⟩
  have hFinished : Finished final 2 := ⟨_, hLast, rfl⟩
  obtain ⟨-, -, -, hRetries⟩ := refresh_turns hState
  obtain ⟨-, hTurn⟩ := hRetries 0 _ next final nextTurns hHolder rfl hPublished hNext hAlong hFinal
  dsimp only at hTurn
  rw [hFailures] at hTurn
  exact ⟨state, next, final, hState, hNext, hFinal, hFinished,
    (hTurn 2 _ hWaits hWaiter rfl).1 hFinished⟩

section Drop

variable {holder : Nat}

/-- The future of the refresh in flight is dropped before its publication, with the version that it
has observed still published and not rejected for good. -/
structure Dropped (material : Nat → Nat → TokenMaterial) (state : RefreshState) (holder : Nat)
    (caller : RefreshCaller) (next : RefreshState) : Prop where
  held : state.callers[holder]? = some caller
  phase : caller.phase = .requesting ∨ caller.phase = .prepared
  published : state.published caller.account = some caller.observed
  rejection : state.permanentRejections caller.account ≠ some caller.observed
  step : step material state (.act holder .cancel) = some next

/-- Queued for the token of the caller after it was rejected. -/
def QueuedAfterFailure (state : RefreshState) (caller : RefreshCaller) (index : Nat) : Prop :=
  ∃ waiting, state.callers[index]? = some waiting ∧ waiting.account = caller.account ∧
    waiting.observed = caller.observed ∧ waiting.trigger = .authenticationFailure ∧
    waiting.phase = .queued

/-- The line behind the holder, served in its order with the count as it is, has a retry of a
caller whose token was rejected: no attempt of a scheduled caller that may be due can spoil it. -/
def LineRetries (state : RefreshState) (holder : Nat) (caller : RefreshCaller) : Prop :=
  Retries (state.QueuedAfterFailure caller) caller.observed state.callers
    (state.failedRefreshAttempts caller.account caller.observed)
    ((state.lines caller.gate).erase holder)

theorem Dropped.handsOver (h : Dropped material state holder caller next)
    (hValid : Valid material state) : HandsOver material state holder caller next ∧
      next.lines caller.gate = (state.lines caller.gate).erase holder ∧
      next.failedRefreshAttempts caller.account caller.observed =
        state.failedRefreshAttempts caller.account caller.observed := by
  have hValid' := hValid.step h.step
  have hHolds : caller.phase.holds = true := by
    obtain hPhase | hPhase := h.phase <;> rw [hPhase] <;> rfl
  obtain ⟨acting, base, changed, hActing, hActs, rfl⟩ := acts_of_step h.step
  cases hActing.symm.trans h.held
  cases hActs
  case cancelInLine =>
    have hLine : (state.release holder caller).lines caller.gate =
        (state.lines caller.gate).erase holder := update_self ..
    exact ⟨⟨hValid, hValid', h.held, hHolds, ⟨_, rfl, rfl, .inr rfl⟩, h.published, h.rejection,
      .inr hLine⟩, hLine, rfl⟩
  all_goals
    rename_i hPhase
    obtain hOther | hOther := h.phase <;> cases hOther.symm.trans hPhase

/-- A caller whose request for the token of account 0 runs. -/
def requesting (reading : Option Nat) : RefreshCaller :=
  ⟨0, 1, .authenticationFailure, .requesting, 0, reading, some 1, true⟩

/-- Queued behind it, with no failure recorded yet. -/
def waiting : RefreshCaller := ⟨0, 1, .authenticationFailure, .queued, 0, some 0, none, false⟩

/-- The first fails, and the second is dropped while it tries again. -/
def droppedRetry : List RefreshLabel :=
  failedRefresh ++ [.act 0 .recordFailedAttempt, .act 0 .leave, .act 1 .wake, .act 1 .readSnapshot,
    .act 1 .permanentRejection, .act 1 .compareFailures, .act 1 (.attempt false)]

/-- The turns of the second and the third after the first was dropped. -/
def strandedTurns : List RefreshLabel :=
  [.act 1 .wake, .act 1 .readSnapshot, .act 1 .permanentRejection, .act 1 .compareFailures,
    .act 1 .leave, .act 2 .wake, .act 2 .readSnapshot, .act 2 .permanentRejection,
    .act 2 .compareFailures, .act 2 .leave]

end Drop

end RefreshState

end Any2Api.Runtime.OAuth
