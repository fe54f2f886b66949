import Any2Api.Runtime.OAuth.RefreshRetries

/-! The turns of the callers that wait behind a refresh that ends without a new token. The gate
serves them in their order, and what they have read, who they are and the count of failures tell
who of them attempts. -/
namespace Any2Api.Runtime.OAuth

open Runs FifoGates Function

/-- The steps that are left to a call in line whose attempt can only fail. -/
def RefreshPhase.rank : RefreshPhase → Nat
  | .queued => 9
  | .locked => 8
  | .current => 7
  | .allowed => 6
  | .cleared => 5
  | .requesting => 4
  | .failing _ => 3
  | .leaving => 2
  | _ => 1

/-- What a caller does with its turn at the gate. -/
inductive Turn where
  | leaves
  /-- The caller attempts, or does so already, and is to record a failure. -/
  | attempts
  /-- The caller attempts if the account is due, and leaves otherwise. -/
  | mayAttempt
  deriving DecidableEq

/-- The turn of a caller that finds a version published and a count of its failures. -/
def RefreshCaller.turn (version count : Nat) (caller : RefreshCaller) : Turn :=
  let tries : Turn := if caller.trigger = .scheduled then .mayAttempt else .attempts
  match caller.phase with
  | .queued | .locked | .current | .allowed =>
    if caller.observed = version ∧ caller.reading.all (· + 1 = count) then tries else .leaves
  | .cleared => tries
  | .requesting | .failing _ => .attempts
  | _ => .leaves

namespace RefreshState

/-- One of the targets in a line attempts, whether or not the account is due for each scheduled
caller. Every other attempt before that adds a failure to the count. -/
def Retries (target : Nat → Prop) (version : Nat) (callers : List RefreshCaller) :
    Nat → List Nat → Prop
  | _, [] => False
  | count, index :: rest =>
    match callers[index]?.elim .leaves (·.turn version count) with
    | .leaves => Retries target version callers count rest
    | .attempts => target index ∨ Retries target version callers (count + 1) rest
    | .mayAttempt => (target index ∨ Retries target version callers (count + 1) rest) ∧
        Retries target version callers count rest

variable {material : Nat → Nat → TokenMaterial} {state base next final : RefreshState}
  {index account version gate waiter count : Nat} {caller changed : RefreshCaller}
  {action : CallerAction} {label : RefreshLabel} {target : Nat → Prop} {old rest : List Nat}
  {labels : List RefreshLabel} {callers others : List RefreshCaller}

section Retries

theorem retries_cons (hCaller : callers[index]? = some caller) :
    Retries target version callers count (index :: rest) ↔
      match caller.turn version count with
      | .leaves => Retries target version callers count rest
      | .attempts => target index ∨ Retries target version callers (count + 1) rest
      | .mayAttempt => (target index ∨ Retries target version callers (count + 1) rest) ∧
          Retries target version callers count rest := by
  rw [Retries, hCaller]
  rfl

/-- Only the callers in the line count. -/
theorem retries_congr {line : List Nat} (h : ∀ index ∈ line, callers[index]? = others[index]?)
    (count : Nat) :
    Retries target version callers count line ↔ Retries target version others count line := by
  induction line generalizing count with
  | nil => exact Iff.rfl
  | cons index rest ih =>
    have hRest := ih fun other hOther => h other (List.mem_cons_of_mem _ hOther)
    rw [Retries, Retries, h index List.mem_cons_self]
    split
    · exact hRest count
    · exact or_congr Iff.rfl (hRest _)
    · exact and_congr (or_congr Iff.rfl (hRest _)) (hRest count)

theorem Retries.exists_target {line : List Nat} (h : Retries target version callers count line) :
    ∃ index ∈ line, target index := by
  induction line generalizing count with
  | nil => exact h.elim
  | cons index rest ih =>
    have hRest {count : Nat} (h : Retries target version callers count rest) :
        ∃ other ∈ index :: rest, target other := by
      obtain ⟨other, hOther, hTarget⟩ := ih h
      exact ⟨other, List.mem_cons_of_mem _ hOther, hTarget⟩
    rw [Retries] at h
    split at h
    · exact hRest h
    · exact h.elim (fun hTarget => ⟨index, List.mem_cons_self, hTarget⟩) hRest
    · exact hRest h.2

/-- If only targets can attempt and one of them does, the line retries. -/
theorem retries_of_mem {line : List Nat}
    (hTarget : ∀ index ∈ line, ∀ caller, callers[index]? = some caller →
      caller.turn version count ≠ .leaves → target index)
    (hMem : waiter ∈ line) (hWaiter : callers[waiter]? = some caller)
    (hTurn : caller.turn version count = .attempts) :
    Retries target version callers count line := by
  induction line with
  | nil => cases hMem
  | cons index rest ih =>
    have hRest (hNe : waiter ≠ index) : Retries target version callers count rest :=
      ih (fun other hOther => hTarget other (List.mem_cons_of_mem _ hOther))
        ((List.mem_cons.mp hMem).resolve_left hNe)
    cases hFirst : callers[index]? with
    | none =>
      rw [Retries, hFirst]
      exact hRest fun hSame => by cases (hSame ▸ hWaiter).symm.trans hFirst
    | some first =>
      have hMeant := hTarget index List.mem_cons_self first hFirst
      have hNe (hOther : first.turn version count ≠ .attempts) : waiter ≠ index := by
        rintro rfl
        exact hOther (Option.some.inj (hWaiter.symm.trans hFirst) ▸ hTurn)
      rw [retries_cons hFirst]
      cases hTurn : first.turn version count with
      | leaves => exact hRest (hNe (by rw [hTurn]; nofun))
      | attempts => exact .inl (hMeant (by rw [hTurn]; nofun))
      | mayAttempt =>
        exact ⟨.inl (hMeant (by rw [hTurn]; nofun)), hRest (hNe (by rw [hTurn]; nofun))⟩

end Retries

/-- How the turn of the first in line goes on: the count that it leaves, and whether it departs. -/
inductive Goes (version count : Nat) (caller : RefreshCaller) (action : CallerAction)
    (changed : RefreshCaller) : Nat → Bool → Prop where
  | onward : changed.turn version count = caller.turn version count →
      changed.attempted = caller.attempted → Goes version count caller action changed count false
  | starts : (caller.turn version count = .attempts ∨
        caller.turn version count = .mayAttempt ∧ action = .attempt true) →
      changed.turn version count = .attempts → changed.attempted = true →
      Goes version count caller action changed count false
  | declines : caller.turn version count = .mayAttempt → action = .attempt false →
      changed.turn version count = .leaves → changed.attempted = caller.attempted →
      Goes version count caller action changed count false
  | records : caller.turn version count = .attempts → caller.attempted = true →
      changed.turn version (count + 1) = .leaves → changed.attempted = caller.attempted →
      Goes version count caller action changed (count + 1) false
  | departs : caller.turn version count = .leaves → changed.attempted = caller.attempted →
      changed.phase = .finished → Goes version count caller action changed count true

theorem Goes.finished {after : Nat} (h : Goes version count caller action changed after true) :
    changed.phase = .finished := by
  cases h
  assumption

/-- Whatever the first in line does, a target attempts or the line goes on to retry. -/
theorem Goes.retries {after : Nat} {departed : Bool}
    (h : Goes version count caller action changed after departed)
    (hCaller : callers[index]? = some caller) (hChanged : others[index]? = some changed)
    (hRest : ∀ other ∈ rest, callers[other]? = others[other]?)
    (hRetries : Retries target version callers count (index :: rest)) :
    target index ∧ changed.attempted = true ∨
      Retries target version others after (if departed then rest else index :: rest) := by
  rw [retries_cons hCaller] at hRetries
  simp only [retries_congr hRest] at hRetries
  cases h with
  | onward hTurn hAttempted =>
    rw [← hTurn, ← retries_cons hChanged] at hRetries
    exact .inr hRetries
  | starts hTurn hStarted hAttempted =>
    have hEither : target index ∨ Retries target version others (count + 1) rest := by
      obtain hTurn | ⟨hTurn, -⟩ := hTurn <;> rw [hTurn] at hRetries
      · exact hRetries
      · exact hRetries.1
    refine .inr ((retries_cons hChanged).mpr ?_)
    rw [hStarted]
    exact hEither
  | declines hTurn _ hLeft =>
    rw [hTurn] at hRetries
    refine .inr ((retries_cons hChanged).mpr ?_)
    rw [hLeft]
    exact hRetries.2
  | records hTurn hDone hLeft hAttempted =>
    rw [hTurn] at hRetries
    refine hRetries.imp (fun hTarget => ⟨hTarget, hAttempted.trans hDone⟩) fun hRest => ?_
    refine (retries_cons hChanged).mpr ?_
    rw [hLeft]
    exact hRest
  | departs hTurn =>
    rw [hTurn] at hRetries
    exact .inr hRetries

/-- If the line does not retry, it need not do so after the turn of its first: a scheduled caller
is due if and only if its attempt leaves the line without a retry. -/
theorem Goes.not_retries {after : Nat} {departed : Bool}
    (h : Goes version count caller action changed after departed)
    (hCaller : callers[index]? = some caller) (hChanged : others[index]? = some changed)
    (hRest : ∀ other ∈ rest, callers[other]? = others[other]?)
    (hDue : ∀ due, action = .attempt due →
      (due = true ↔ ¬(target index ∨ Retries target version callers (count + 1) rest)))
    (hNot : ¬Retries target version callers count (index :: rest)) :
    ¬Retries target version others after (if departed then rest else index :: rest) ∧
      (target index → changed.attempted = true → caller.attempted = true) := by
  rw [retries_cons hCaller] at hNot
  simp only [retries_congr hRest] at hNot hDue
  cases h with
  | onward hTurn hAttempted =>
    rw [← hTurn, ← retries_cons hChanged] at hNot
    exact ⟨hNot, fun _ h => hAttempted ▸ h⟩
  | starts hTurn hStarted =>
    have hNeither : ¬(target index ∨ Retries target version others (count + 1) rest) := by
      obtain hTurn | ⟨-, hAction⟩ := hTurn
      · rw [hTurn] at hNot
        exact hNot
      · exact (hDue true hAction).mp rfl
    refine ⟨fun hRetries => hNeither ?_, fun hTarget => absurd (.inl hTarget) hNeither⟩
    rw [if_neg Bool.false_ne_true, retries_cons hChanged, hStarted] at hRetries
    exact hRetries
  | declines hTurn hAction hLeft hAttempted =>
    have hEither := not_not.mp fun h => Bool.false_ne_true ((hDue false hAction).mpr h)
    rw [hTurn] at hNot
    refine ⟨fun hRetries => hNot ⟨hEither, ?_⟩, fun _ h => hAttempted ▸ h⟩
    rw [if_neg Bool.false_ne_true, retries_cons hChanged, hLeft] at hRetries
    exact hRetries
  | records hTurn _ hLeft hAttempted =>
    rw [hTurn] at hNot
    refine ⟨fun hRetries => hNot (.inr ?_), fun _ h => hAttempted ▸ h⟩
    rw [if_neg Bool.false_ne_true, retries_cons hChanged, hLeft] at hRetries
    exact hRetries
  | departs hTurn hAttempted =>
    rw [hTurn] at hNot
    exact ⟨hNot, fun _ h => hAttempted ▸ h⟩

/-- While the account is steady, a caller in line takes its turn step by step. -/
theorem Acts.goes (h : Acts material state index caller action base changed)
    (hIn : caller.phase.inLine = true) (hAction : action.disturbs = false)
    (hSound : caller.Sound material)
    (hQuiet : Quiet version caller)
    (hPublished : state.published caller.account = some version)
    (hRejection : state.permanentRejections caller.account ≠ some version)
    (hMaterial : material caller.account version = .refreshable)
    (hCount : state.failedRefreshAttempts caller.account version = count) :
    ∃ after departed, Goes version count caller action changed after departed ∧
      base.failedRefreshAttempts caller.account version = after ∧
      base.lines caller.gate = if departed then (state.lines caller.gate).erase index
        else state.lines caller.gate := by
  obtain ⟨hSteady, hObserved⟩ := hQuiet
  cases h
  case wake hPhase | readObserved hPhase | findNoRejection hPhase | fail hPhase =>
    exact ⟨count, false, .onward (by simp [RefreshCaller.turn, hPhase]) rfl, hCount, rfl⟩
  case readOther hRead hPhase =>
    have hNe : caller.observed ≠ version := fun hSame => hRead (hSame ▸ hPublished)
    exact ⟨count, false, .onward (by simp [RefreshCaller.turn, hPhase, hNe]) rfl, hCount, rfl⟩
  case findRejection hFound hPhase =>
    rw [hObserved (by rw [hPhase]; rfl)] at hFound
    exact absurd hFound hRejection
  case retry hRetry hPhase =>
    have hSame : caller.observed = version := hObserved (by rw [hPhase]; rfl)
    have hRead : caller.reading.all (· + 1 = count) = true := by
      unfold mayRetry at hRetry
      split at hRetry
      next hNone => rw [hNone]; rfl
      next reading hSome =>
        rw [hSame, hCount] at hRetry
        simp [hSome, (of_decide_eq_true hRetry).symm]
    exact ⟨count, false, .onward (by simp [RefreshCaller.turn, hPhase, hSame, hRead]) rfl,
      hCount, rfl⟩
  case backOff hRetry hPhase =>
    have hSame : caller.observed = version := hObserved (by rw [hPhase]; rfl)
    have hRead : caller.reading.all (· + 1 = count) = false := by
      unfold mayRetry at hRetry
      split at hRetry
      next => cases hRetry
      next reading hSome =>
        rw [hSame, hCount] at hRetry
        simpa [hSome, eq_comm] using hRetry
    exact ⟨count, false, .onward (by simp [RefreshCaller.turn, hPhase, hSame, hRead]) rfl,
      hCount, rfl⟩
  case attempt due hMay hPhase =>
    refine ⟨count, false, .starts ?_ rfl rfl, hCount, rfl⟩
    by_cases hTrigger : caller.trigger = .scheduled
    · simp only [mayAttempt, hTrigger, ne_eq, not_true_eq_false, decide_false, Bool.or_false,
        Bool.and_eq_true] at hMay
      exact .inr ⟨by simp [RefreshCaller.turn, hPhase, hTrigger], by rw [hMay.1]⟩
    · exact .inl (by simp [RefreshCaller.turn, hPhase, hTrigger])
  case decline due hMay hPhase =>
    rw [mayAttempt, hObserved (by rw [hPhase]; rfl), hMaterial] at hMay
    simp only [decide_true, Bool.and_true, Bool.or_eq_false_iff, decide_eq_false_iff_not,
      not_not] at hMay
    exact ⟨count, false, .declines (by simp [RefreshCaller.turn, hPhase, hMay.2])
      (by rw [hMay.1]) rfl rfl, hCount, rfl⟩
  case recordFailedAttempt permanent hPhase =>
    rw [RefreshCaller.Sound, hPhase] at hSound
    rw [hPhase] at hSteady hObserved
    cases permanent with
    | true => exact absurd hSteady Bool.false_ne_true.symm
    | false =>
      refine ⟨count + 1, false, .records (by simp [RefreshCaller.turn, hPhase]) hSound.2.1 rfl rfl,
        ?_, rfl⟩
      rw [hObserved rfl, failedRefreshAttempts_record, hCount]
  case leave hPhase =>
    refine ⟨count, true, .departs (by simp [RefreshCaller.turn, hPhase]) rfl rfl, hCount, ?_⟩
    exact update_self ..
  all_goals
    rename_i hPhase
    first
    | exact absurd hAction Bool.false_ne_true.symm
    | rw [hPhase] at hIn
      exact absurd hIn Bool.false_ne_true
    | rw [hPhase] at hSteady
      exact absurd hSteady Bool.false_ne_true.symm

/-- Others join or leave behind those who are first in line. -/
theorem Acts.line {first later : List Nat}
    (h : Acts material state index caller action base changed)
    (hOut : index ∉ first) (hLine : state.lines gate = first ++ later) :
    ∃ later, base.lines gate = first ++ later := by
  have hChange {line : List Nat} (hSame : gate = caller.gate → ∃ later, line = first ++ later) :
      ∃ later, update state.lines caller.gate line gate = first ++ later := by
    by_cases hGate : gate = caller.gate
    · subst hGate
      rw [update_self]
      exact hSame rfl
    · rw [update_of_ne hGate]
      exact ⟨later, hLine⟩
  cases h
  case lockFree | lock =>
    exact hChange fun hGate => ⟨later ++ [index], by rw [← hGate, hLine, List.append_assoc]⟩
  case leave | dropGate | cancelInLine =>
    exact hChange fun hGate =>
      ⟨later.erase index, by rw [← hGate, hLine, List.erase_append_right _ hOut]⟩
  all_goals exact ⟨later, hLine⟩

/-- The line of the gate while the account is steady: `first` are those of `old` that have not had
their turn, and the others have joined since. -/
structure Turns (material : Nat → Nat → TokenMaterial) (account version gate : Nat)
    (old : List Nat) (count : Nat) (first : List Nat) (state : RefreshState) : Prop where
  window : Window material account version state
  count : state.failedRefreshAttempts account version = count
  rejection : state.permanentRejections account ≠ some version
  line : ∃ later, state.lines gate = first ++ later
  account : ∀ index ∈ old, ∃ caller, state.callers[index]? = some caller ∧ caller.account = account
  suffix : first <:+ old
  finished : ∀ index ∈ old, index ∈ first ∨ Finished state index

theorem Finished.step (h : Finished state index)
    (hNext : RefreshState.step material state label = some next) : Finished next index := by
  obtain ⟨caller, hCaller, hFinished⟩ := h
  obtain ⟨found, hFound, rfl | ⟨action, base, -, hActs, -⟩⟩ := caller_of_step hNext hCaller
  · exact ⟨found, hFound, hFinished⟩
  · cases hActs
    all_goals
      rename_i hPhase
      first
      | cases hFinished.symm.trans hPhase
      | obtain hPhase | hPhase | hPhase := hPhase <;> cases hFinished.symm.trans hPhase

namespace Turns

/-- Nobody who is first in line has finished. -/
theorem not_finished {first : List Nat}
    (h : Turns material account version gate old count first state) (hMem : index ∈ first) :
    ¬Finished state index := by
  rintro ⟨found, hFound, hPhase⟩
  obtain ⟨later, hLine⟩ := h.line
  obtain ⟨caller, hCaller, hIn, -⟩ := exists_of_place
    (h.window.valid.ordered.member.mp (hLine ▸ List.mem_append_left later hMem))
  rw [Option.some.inj (hCaller.symm.trans hFound), hPhase] at hIn
  exact Bool.false_ne_true hIn

section

variable (h : Turns material account version gate old count (index :: rest) state)
include h

/-- The first in line, and what is known of it. -/
theorem first : ∃ caller, state.callers[index]? = some caller ∧ caller.account = account ∧
    caller.gate = gate ∧ caller.phase.inLine = true := by
  obtain ⟨caller, hCaller, hAccount⟩ := h.account index (h.suffix.subset List.mem_cons_self)
  obtain ⟨later, hLine⟩ := h.line
  have hMem : index ∈ state.lines gate := hLine ▸ List.mem_cons_self
  obtain ⟨found, hFound, hIn, hGate⟩ :=
    exists_of_place (h.window.valid.ordered.member.mp hMem)
  cases hCaller.symm.trans hFound
  exact ⟨caller, hCaller, hAccount, hGate, hIn⟩

/-- Nobody else holds the gate of the account. -/
theorem eq_of_holds {other : Nat} {another : RefreshCaller}
    (hAnother : state.callers[other]? = some another) (hAccount : another.account = account)
    (hHolds : another.phase.holds = true) : other = index := by
  obtain ⟨caller, hCaller, hSame, hGate, hIn⟩ := h.first
  obtain ⟨later, hLine⟩ := h.line
  have hGates := h.window.valid.gate_of_holds hAnother hHolds
  rw [hAccount, ← hSame, h.window.valid.gated.gate hCaller (RefreshPhase.live_of_inLine hIn),
    Option.some.injEq, hGate] at hGates
  have hHead := h.window.valid.ordered.head_of_place ⟨another, hAnother, hHolds⟩
    (place_of_inLine hAnother (RefreshPhase.inLine_of_holds hHolds))
  rw [← hGates, hLine] at hHead
  exact (Option.some.inj hHead).symm

theorem account_step (hNext : RefreshState.step material state label = some next) :
    ∀ other ∈ old, ∃ caller, next.callers[other]? = some caller ∧ caller.account = account := by
  intro other hOther
  obtain ⟨caller, hCaller, hAccount⟩ := h.account other hOther
  obtain ⟨found, hFound, rfl | ⟨_, _, -, hActs, -⟩⟩ := caller_of_step hNext hCaller
  · exact ⟨found, hFound, hAccount⟩
  · exact ⟨found, hFound, hActs.account_eq.trans hAccount⟩

variable (hSteady : steady account state label = true)
  (hNext : RefreshState.step material state label = some next)
include hSteady hNext

theorem rejection_step : next.permanentRejections account ≠ some version := by
  cases steps_of_step hNext
  case act hActing hActs =>
    have hAction := steady_act hSteady hActing
    cases hActs
    case reject hPhase =>
      refine fun hFound => h.rejection ?_
      rwa [← update_of_ne (fun hAccount => absurd (hAction hAccount.symm) Bool.false_ne_true.symm)
        _ state.permanentRejections]
    case findNoRejection caller _ _ | forgetRejection caller _ =>
      intro hFound
      by_cases hAccount : account = caller.account
      · rw [hAccount] at hFound
        cases (update_self ..).symm.trans hFound
      · exact h.rejection ((update_of_ne hAccount ..).symm.trans hFound)
    all_goals exact h.rejection
  case pruneRejections =>
    exact fun hFound => h.rejection (Option.filter_eq_some_iff.mp hFound).1
  all_goals exact h.rejection

/-- Of those who have not had their turn, only the first can act. -/
theorem not_mem_of_act {other : Nat} (hLabel : label = .act other action) (hNe : other ≠ index) :
    other ∉ index :: rest := by
  subst hLabel
  intro hMem
  obtain ⟨later, hLine⟩ := h.line
  obtain ⟨another, hAnother, hAccount⟩ := h.account other (h.suffix.subset hMem)
  obtain ⟨found, hFound, hIn, hGate⟩ := exists_of_place
    (h.window.valid.ordered.member.mp (hLine ▸ List.mem_append_left later hMem))
  cases hAnother.symm.trans hFound
  have hQueued : another.phase = .queued := by
    by_contra hPhase
    refine hNe (h.eq_of_holds hAnother hAccount ?_)
    rw [RefreshPhase.holds, hIn, decide_eq_true hPhase]
    rfl
  obtain ⟨acting, base, changed, hActing, hActs, -⟩ := acts_of_step hNext
  cases hAnother.symm.trans hActing
  have hAction := steady_act hSteady hAnother hAccount
  cases hActs
  case wake hHead _ =>
    rw [hGate, hLine] at hHead
    exact hNe (Option.some.inj hHead).symm
  all_goals
    rename_i hPhase
    first
    | exact absurd hAction Bool.false_ne_true.symm
    | cases hQueued.symm.trans hPhase

/-- A step that is not one of the first in line leaves the line as it is. -/
theorem stay (hOther : ∀ action, label ≠ .act index action) :
    Turns material account version gate old count (index :: rest) next ∧
      ∀ other ∈ index :: rest, state.callers[other]? = next.callers[other]? := by
  have hOut (other : Nat) (action : CallerAction) (hLabel : label = .act other action) :
      other ∉ index :: rest := by
    refine h.not_mem_of_act hSteady hNext hLabel ?_
    rintro rfl
    exact hOther action hLabel
  refine ⟨⟨h.window.step hSteady hNext, ?_, h.rejection_step hSteady hNext, ?_,
    h.account_step hNext, h.suffix,
    fun other hOld => (h.finished other hOld).imp_right (·.step hNext)⟩, fun other hMem => ?_⟩
  · rw [← h.count]
    obtain hCount | ⟨-, actor, acting, hActing, hAccount, hPhase, rfl⟩ :=
      h.window.count_step hSteady hNext
    · exact hCount
    · obtain rfl := h.eq_of_holds hActing hAccount (by rw [hPhase]; rfl)
      exact absurd rfl (hOther _)
  · obtain ⟨later, hLine⟩ := h.line
    cases steps_of_step hNext
    case act actor acting changed action base hActing hActs =>
      exact hActs.line (hOut actor action rfl) hLine
    all_goals exact ⟨later, hLine⟩
  · obtain ⟨caller, hCaller, -⟩ := h.account other (h.suffix.subset hMem)
    obtain ⟨found, hFound, rfl | ⟨action, _, hLabel, -⟩⟩ := caller_of_step hNext hCaller
    · rw [hCaller, hFound]
    · exact absurd hMem (hOut other action hLabel)

end

/-- A step of the first in line takes its turn on. -/
theorem go (h : Turns material account version gate old count (index :: rest) state)
    (hMaterial : material account version = .refreshable)
    (hSteady : steady account state (.act index action) = true)
    (hNext : RefreshState.step material state (.act index action) = some next) :
    ∃ caller changed after departed, state.callers[index]? = some caller ∧
      next.callers[index]? = some changed ∧
      Goes version count caller action changed after departed ∧
      (∀ other ∈ rest, state.callers[other]? = next.callers[other]?) ∧
      Turns material account version gate old after (if departed then rest else index :: rest)
        next := by
  obtain ⟨caller, hCaller, hAccount, hGate, hIn⟩ := h.first
  obtain ⟨later, hLine⟩ := h.line
  have hWindow := h.window.step hSteady hNext
  have hRejection := h.rejection_step hSteady hNext
  have hOld := h.account_step hNext
  have hFinished (other : Nat) (hOther : Finished state other) : Finished next other :=
    hOther.step hNext
  obtain ⟨acting, base, changed, hActing, hActs, rfl⟩ := acts_of_step hNext
  cases hCaller.symm.trans hActing
  obtain ⟨after, departed, hGoes, hAfter, hLines⟩ := hActs.goes hIn
    (steady_act hSteady hCaller hAccount) (h.window.valid.sound hCaller)
    (h.window.quiet hCaller hAccount) (by rw [hAccount, h.window.published])
    (by rw [hAccount]; exact h.rejection) (by rw [hAccount, hMaterial])
    (show state.failedRefreshAttempts caller.account version = count by rw [hAccount, h.count])
  have hChanged : (base.setCaller index changed).callers[index]? = some changed := by
    refine List.getElem?_set_self ?_
    rw [hActs.callers_eq]
    exact (List.getElem?_eq_some_iff.mp hCaller).1
  have hNodup : index ∉ rest := by
    have hLines := h.window.valid.ordered.nodup gate
    rw [hLine] at hLines
    exact (List.nodup_cons.mp hLines.of_append_left).1
  refine ⟨caller, changed, after, departed, hCaller, hChanged, hGoes,
    fun other hOther => ?_, hWindow, ?_, hRejection, ⟨later, ?_⟩, hOld, ?_, fun other hOther => ?_⟩
  · have hNe : index ≠ other := fun hSame => hNodup (hSame ▸ hOther)
    change _ = (base.callers.set index changed)[other]?
    rw [List.getElem?_set_ne hNe, hActs.callers_eq]
  · rw [hAccount] at hAfter
    exact hAfter
  · change base.lines gate = _
    rw [← hGate, hLines, hGate, hLine]
    cases departed with
    | false => rfl
    | true => exact List.erase_cons_head ..
  · cases departed with
    | false => exact h.suffix
    | true => exact (List.suffix_cons index rest).trans h.suffix
  · obtain hMem | hDone := h.finished other hOther
    · cases departed with
      | false => exact .inl hMem
      | true =>
        obtain rfl | hRest := List.mem_cons.mp hMem
        · exact .inr ⟨changed, hChanged, hGoes.finished⟩
        · exact .inl hRest
    · exact .inr (hFinished other hDone)

end Turns

theorem Acts.attempted_of_before (h : Acts material state index caller action base changed)
    (hAttempted : caller.attempted = true) : changed.attempted = true := by
  cases h
  case attempt => rfl
  all_goals exact hAttempted

theorem Attempted.step (h : Attempted state index)
    (hNext : RefreshState.step material state label = some next) : Attempted next index := by
  obtain ⟨caller, hCaller, hAttempted⟩ := h
  obtain ⟨found, hFound, rfl | ⟨action, base, -, hActs, -⟩⟩ := caller_of_step hNext hCaller
  · exact ⟨found, hFound, hAttempted⟩
  · exact ⟨found, hFound, hActs.attempted_of_before hAttempted⟩

section Progress

/-- A step of a call in line brings it closer to its end. -/
theorem Acts.rank_lt (h : Acts material state index caller action base changed)
    (hIn : caller.phase.inLine = true) (hSteady : caller.phase.unsteady = false)
    (hAction : action.disturbs = false) : changed.phase.rank < caller.phase.rank := by
  cases h
  all_goals
    rename_i hPhase
    first
    | exact absurd hAction Bool.false_ne_true.symm
    | rw [hPhase] at hIn
      exact absurd hIn Bool.false_ne_true
    | rw [hPhase] at hSteady
      exact absurd hSteady Bool.false_ne_true.symm
    | rw [hPhase]
      exact of_decide_eq_true rfl

/-- The first in line can go on, and a scheduled one may or may not be due. -/
theorem exists_act (due : Bool) (hIn : caller.phase.inLine = true)
    (hSteady : caller.phase.unsteady = false)
    (hHead : (state.lines caller.gate).head? = some index) :
    ∃ action next, state.act material index caller action = some next ∧
      action.disturbs = false ∧ ∀ other, action = .attempt other → other = due := by
  cases hPhase : caller.phase <;> rw [hPhase] at hIn hSteady
  case queued =>
    refine ⟨.wake, state.setCaller index { caller with phase := .locked }, ?_, rfl, nofun⟩
    unfold act
    rw [hPhase]
    exact if_pos hHead
  case locked => exact ⟨.readSnapshot, _, by unfold act; rw [hPhase], rfl, nofun⟩
  case current => exact ⟨.permanentRejection, _, by unfold act; rw [hPhase], rfl, nofun⟩
  case allowed => exact ⟨.compareFailures, _, by unfold act; rw [hPhase], rfl, nofun⟩
  case cleared =>
    by_cases hMay : mayAttempt material caller due = true
    · exact ⟨.attempt due, _, by unfold act; rw [hPhase]; exact if_pos hMay, rfl,
        fun _ hAction => (CallerAction.attempt.inj hAction).symm⟩
    · exact ⟨.attempt due, _, by unfold act; rw [hPhase]; exact if_neg hMay, rfl,
        fun _ hAction => (CallerAction.attempt.inj hAction).symm⟩
  case requesting => exact ⟨.fail, _, by unfold act; rw [hPhase], rfl, nofun⟩
  case failing permanent =>
    exact ⟨.recordFailedAttempt, _, by unfold act; rw [hPhase], rfl, nofun⟩
  case leaving => exact ⟨.leave, _, by unfold act; rw [hPhase], rfl, nofun⟩
  all_goals
    first
    | exact absurd hIn Bool.false_ne_true
    | exact absurd hSteady Bool.false_ne_true.symm

/-- The steps that are left to those who were in the line. -/
def turnsLeft (old : List Nat) (state : RefreshState) : Nat :=
  (old.map fun index => state.callers[index]?.elim 0 (·.phase.rank)).sum

theorem turnsLeft_lt (hOld : index ∈ old) (hCaller : state.callers[index]? = some caller)
    (hNext : step material state (.act index action) = some next)
    (hEarlier : ∀ index ∈ old, ∃ caller, state.callers[index]? = some caller)
    (hRank : ∀ base changed, Acts material state index caller action base changed →
      changed.phase.rank < caller.phase.rank) :
    turnsLeft old next < turnsLeft old state := by
  have hActor : next.callers[index]?.elim 0 (·.phase.rank) <
      state.callers[index]?.elim 0 (·.phase.rank) := by
    obtain ⟨acting, base, changed, hActing, hActs, rfl⟩ := acts_of_step hNext
    cases hCaller.symm.trans hActing
    have hChanged : (base.setCaller index changed).callers[index]? = some changed :=
      Entries.getElem?_set_eq_some.mpr
        (.inr ⟨rfl, hActs.callers_eq ▸ (List.getElem?_eq_some_iff.mp hCaller).1, rfl⟩)
    rw [hChanged, hCaller]
    exact hRank base changed hActs
  refine List.sum_lt_sum _ _ (fun other hOther => ?_) ⟨index, hOld, hActor⟩
  by_cases hSame : other = index
  · subst hSame
    exact hActor.le
  · obtain ⟨another, hAnother⟩ := hEarlier other hOther
    obtain ⟨found, hFound, rfl | ⟨_, _, hLabel, -⟩⟩ := caller_of_step hNext hAnother
    · rw [hFound, hAnother]
    · exact absurd (RefreshLabel.act.inj hLabel).1.symm hSame

theorem Turns.exists_step (due : Bool)
    (h : Turns material account version gate old count (index :: rest) state) :
    ∃ action next, RefreshState.step material state (.act index action) = some next ∧
      steady account state (.act index action) = true ∧
      turnsLeft old next < turnsLeft old state ∧
      ∀ other, action = .attempt other → other = due := by
  obtain ⟨caller, hCaller, hAccount, hGate, hIn⟩ := h.first
  obtain ⟨later, hLine⟩ := h.line
  have hSteady := (h.window.quiet hCaller hAccount).1
  obtain ⟨action, next, hAct, hAction, hDue⟩ :=
    exists_act due hIn hSteady (by rw [hGate, hLine]; rfl)
  have hNext : RefreshState.step material state (.act index action) = some next :=
    Option.bind_eq_some_iff.mpr ⟨caller, hCaller, hAct⟩
  refine ⟨action, next, hNext, ?_, ?_, hDue⟩
  · rw [steady, hCaller, Option.all_some, hAction, Bool.not_false, Bool.or_true]
  · refine turnsLeft_lt (h.suffix.subset List.mem_cons_self) hCaller hNext (fun other hOther => ?_)
      fun _ _ hActs => hActs.rank_lt hIn hSteady hAction
    obtain ⟨another, hAnother, -⟩ := h.account other hOther
    exact ⟨another, hAnother⟩

end Progress

/-- Some target has attempted, or the line goes on to retry. -/
def Retrying (material : Nat → Nat → TokenMaterial) (account version gate : Nat) (old : List Nat)
    (target : Nat → Prop) (state : RefreshState) : Prop :=
  (∃ index, target index ∧ Attempted state index) ∨ ∃ count first,
    Turns material account version gate old count first state ∧
      Retries target version state.callers count first

namespace Retrying

theorem step (h : Retrying material account version gate old target state)
    (hMaterial : material account version = .refreshable)
    (hSteady : steady account state label = true)
    (hNext : RefreshState.step material state label = some next) :
    Retrying material account version gate old target next := by
  obtain ⟨index, hTarget, hAttempted⟩ | ⟨count, first, hTurns, hRetries⟩ := h
  · exact .inl ⟨index, hTarget, hAttempted.step hNext⟩
  cases first with
  | nil => exact hRetries.elim
  | cons index rest =>
    by_cases hActor : ∃ action, label = .act index action
    · obtain ⟨action, rfl⟩ := hActor
      obtain ⟨caller, changed, after, departed, hCaller, hChanged, hGoes, hRest, hAfter⟩ :=
        hTurns.go hMaterial hSteady hNext
      obtain ⟨hTarget, hAttempted⟩ | hRetries := hGoes.retries hCaller hChanged hRest hRetries
      · exact .inl ⟨index, hTarget, changed, hChanged, hAttempted⟩
      · exact .inr ⟨after, _, hAfter, hRetries⟩
    · obtain ⟨hAfter, hSame⟩ := hTurns.stay hSteady hNext fun action hLabel =>
        hActor ⟨action, hLabel⟩
      exact .inr ⟨count, _, hAfter, (retries_congr hSame count).mp hRetries⟩

theorem along (h : Retrying material account version gate old target state)
    (hMaterial : material account version = .refreshable)
    (hAlong : Steadily material account labels state)
    (hRun : run (RefreshState.step material) labels state = some final) :
    Retrying material account version gate old target final :=
  invariant_of_along (fun _ _ _ h hSteady hNext => h.step hMaterial hSteady hNext) h hAlong hRun

/-- When all targets have finished, one of them has attempted. -/
theorem attempted_of_finished (h : Retrying material account version gate old target state)
    (hFinished : ∀ index, target index → Finished state index) :
    ∃ index, target index ∧ Attempted state index := by
  refine h.resolve_right fun ⟨count, first, hTurns, hRetries⟩ => ?_
  obtain ⟨index, hMem, hTarget⟩ := hRetries.exists_target
  exact hTurns.not_finished hMem (hFinished index hTarget)

/-- When the last in line has finished, one of the targets has attempted. -/
theorem attempted_of_last
    (h : Retrying material account version gate (old ++ [waiter]) target state)
    (hFinished : Finished state waiter) : ∃ index, target index ∧ Attempted state index := by
  refine h.resolve_right fun ⟨count, first, hTurns, hRetries⟩ => ?_
  obtain ⟨index, hMem, -⟩ := hRetries.exists_target
  obtain ⟨front, hFront⟩ := hTurns.suffix
  refine hTurns.not_finished (List.mem_of_getLast? ?_) hFinished
  rw [← List.getLast?_append_of_ne_nil front (List.ne_nil_of_mem hMem), hFront]
  exact List.getLast?_concat ..

/-- The line moves on until one of the targets attempts. -/
theorem attempts (h : Retrying material account version gate old target state)
    (hMaterial : material account version = .refreshable) :
    ∃ labels final, Steadily material account labels state ∧
      run (RefreshState.step material) labels state = some final ∧
      ∃ index, target index ∧ Attempted final index := by
  -- The induction is on the steps that are left to the line.
  induction hLeft : turnsLeft old state using Nat.strong_induction_on generalizing state with
  | _ left ih =>
    obtain hDone | ⟨count, first, hTurns, hRetries⟩ := id h
    · exact ⟨[], state, trivial, rfl, hDone⟩
    cases first with
    | nil => exact hRetries.elim
    | cons index rest =>
      obtain ⟨action, next, hNext, hSteady, hLess, -⟩ := hTurns.exists_step true
      obtain ⟨labels, final, hAlong, hRun, hAttempted⟩ :=
        ih _ (hLeft ▸ hLess) (h.step hMaterial hSteady hNext) rfl
      exact ⟨.act index action :: labels, final, .cons hSteady hNext hAlong,
        run_cons_iff.mpr ⟨next, hNext, hRun⟩, hAttempted⟩

end Retrying

/-- A line that does not retry can move on until everyone has left, with no attempt of a target. -/
theorem Turns.strands {first : List Nat}
    (h : Turns material account version gate old count first state)
    (hMaterial : material account version = .refreshable)
    (hNot : ¬Retries target version state.callers count first)
    (hNone : ∀ index, target index → ¬Attempted state index) :
    ∃ labels final, Steadily material account labels state ∧
      run (RefreshState.step material) labels state = some final ∧
      (∀ index ∈ old, Finished final index) ∧ ∀ index, target index → ¬Attempted final index := by
  induction hLeft : turnsLeft old state using Nat.strong_induction_on
    generalizing state count first with
  | _ left ih =>
    cases first with
    | nil =>
      exact ⟨[], state, trivial, rfl, fun index hOld =>
        (h.finished index hOld).resolve_left List.not_mem_nil, hNone⟩
    | cons index rest =>
      classical
      obtain ⟨action, next, hNext, hSteady, hLess, hDue⟩ := h.exists_step
        (decide ¬(target index ∨ Retries target version state.callers (count + 1) rest))
      obtain ⟨caller, changed, after, departed, hCaller, hChanged, hGoes, hRest, hAfter⟩ :=
        h.go hMaterial hSteady hNext
      obtain ⟨hStill, hQuiet⟩ := hGoes.not_retries hCaller hChanged hRest
        (fun due hAction => by rw [hDue due hAction, decide_eq_true_iff]) hNot
      have hStillNone (other : Nat) (hTarget : target other) : ¬Attempted next other := by
        rintro ⟨found, hFound, hAttempted⟩
        obtain hOld | hNew | ⟨before, _, _, hBefore, hLabel, hActs⟩ :=
          caller_before_step hNext hFound
        · exact hNone other hTarget ⟨found, hOld, hAttempted⟩
        · have hSound := hAfter.window.valid.sound hFound
          rw [RefreshCaller.Sound, hNew] at hSound
          exact Bool.false_ne_true (hSound.2.symm.trans hAttempted)
        · obtain ⟨rfl, -⟩ := RefreshLabel.act.inj hLabel
          cases hFound.symm.trans hChanged
          exact hNone _ hTarget ⟨caller, hCaller, hQuiet hTarget hAttempted⟩
      obtain ⟨labels, final, hAlong, hRun, hEnd⟩ :=
        ih _ (hLeft ▸ hLess) hAfter hStill hStillNone rfl
      exact ⟨.act index action :: labels, final, .cons hSteady hNext hAlong,
        run_cons_iff.mpr ⟨next, hNext, hRun⟩, hEnd⟩

end RefreshState

end Any2Api.Runtime.OAuth
