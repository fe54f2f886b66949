import Any2Api.Library.Entries
import Any2Api.Library.Ledger
import Any2Api.Runtime.Lifecycle.Process

/-! What a completed wait for the requests means. A call that takes its token after the tracker has
been closed and empty finds the phase changed, so no guard comes into being after that. -/
namespace Any2Api.Runtime.Lifecycle

open Runs Ledger Entries

/-- The change of the shared counters by a request that comes into a stage. -/
def TrackedRequest.token (request : TrackedRequest) : Nat := request.holdsToken.toNat

def TrackedRequest.block (request : TrackedRequest) : Nat := request.blocker.toNat

namespace LifecycleState

variable {state next : LifecycleState} {index : Nat} {request changed : TrackedRequest}
  {call : Shutdown} {label : LifecycleLabel} {base : LifecycleState}

variable (state) (request) in
/-- What a request does: how it changes and what it does to the rest of the state. -/
inductive Advances : LifecycleState → TrackedRequest → Prop where
  | accept : request.stage = .started → state.phase = .running →
      Advances state { request with stage := .admitted }
  | turnAway : request.stage = .started → Advances state { request with stage := .finished }
  | block : request.stage = .admitted →
      Advances { state with blockers := state.blockers + 1 } ⟨.blocking, true⟩
  | track : request.stage = .blocking → Advances { state with tokens := state.tokens + 1 }
        { request with stage := .tracked }
  | guard : request.stage = .tracked → state.phase = .running →
      Advances state { request with stage := .recording }
  | refuse : request.stage = .tracked → Advances state { request with stage := .refusing }
  | record : request.stage = .recording →
      Advances { state with activityEpoch := state.activityEpoch + 1 }
        { request with stage := .notifying }
  | notify {requested : Bool} : request.stage = .notifying →
      Advances { state with requested } { request with stage := .live }
  | dropToken : request.holdsToken = true → ¬ (state.closed = true ∧ state.tokens = 1) →
      Advances { state with tokens := state.tokens - 1 }
        { request with stage := .dropping }
  | dropLast : request.holdsToken = true → state.closed = true → state.tokens = 1 →
      Advances { state with tokens := 0, settled := true }
        { request with stage := .emptying }
  | notifyWaiters : request.stage = .emptying →
      Advances { state with notified := state.notified + 1 }
        { request with stage := .dropping }
  | release {requested : Bool} : request.blocker = true → request.stage = .dropping →
      Advances { state with blockers := state.blockers - 1, requested }
        ⟨.finished, false⟩
  | finish : request.blocker = false → request.stage = .dropping → Advances state ⟨.finished, false⟩
  | releaseLive {requested : Bool} : request.blocker = true → request.stage = .live →
      Advances { state with blockers := state.blockers - 1, requested }
        ⟨.live, false⟩
  | releaseAgain : request.blocker = false → request.stage = .live → Advances state ⟨.live, false⟩

theorem advances_of_dropToken (state : LifecycleState) (index : Nat)
    (hHolds : request.holdsToken = true) :
    ∃ base changed, Advances state request base changed ∧
      base.setRequest index changed = state.dropToken index request := by
  unfold dropToken
  by_cases hLast : state.closed = true ∧ state.tokens = 1
  · obtain ⟨hClosed, hTokens⟩ := hLast
    refine ⟨_, _, .dropLast hHolds hClosed hTokens, ?_⟩
    simp [hClosed, hTokens]
  · refine ⟨_, _, .dropToken hHolds hLast, ?_⟩
    have hNot : (state.closed && decide (state.tokens = 1)) = false := by simpa using hLast
    simp [hNot]

theorem advances_of_releaseBlocker (state : LifecycleState) {stage : RequestStage}
    (hStage : request.stage = stage)
    (hEnds : stage = .dropping ∧ changed = ⟨.finished, false⟩ ∨
      stage = .live ∧ changed = ⟨.live, false⟩) :
    ∃ base, Advances state request base changed ∧ base = state.releaseBlocker request := by
  unfold releaseBlocker
  cases hBlocker : request.blocker with
  | true =>
    rcases hEnds with ⟨rfl, rfl⟩ | ⟨rfl, rfl⟩
    · exact ⟨_, .release hBlocker hStage, rfl⟩
    · exact ⟨_, .releaseLive hBlocker hStage, rfl⟩
  | false =>
    rcases hEnds with ⟨rfl, rfl⟩ | ⟨rfl, rfl⟩
    · exact ⟨_, .finish hBlocker hStage, rfl⟩
    · exact ⟨_, .releaseAgain hBlocker hStage, rfl⟩

theorem advances_of_advance (h : state.advance index request = some next) :
    ∃ base changed, Advances state request base changed ∧ base.setRequest index changed = next := by
  unfold advance at h
  cases hStage : request.stage <;> rw [hStage] at h
  case started =>
    obtain rfl := Option.some.inj h
    by_cases hRunning : state.phase = .running
    · exact ⟨_, _, .accept hStage hRunning, by rw [if_pos hRunning]⟩
    · exact ⟨_, _, .turnAway hStage, by rw [if_neg hRunning]⟩
  case admitted => exact ⟨_, _, .block hStage, Option.some.inj h⟩
  case blocking => exact ⟨_, _, .track hStage, Option.some.inj h⟩
  case tracked =>
    obtain rfl := Option.some.inj h
    by_cases hRunning : state.phase = .running
    · exact ⟨_, _, .guard hStage hRunning, by rw [if_pos hRunning]⟩
    · exact ⟨_, _, .refuse hStage, by rw [if_neg hRunning]⟩
  case recording => exact ⟨_, _, .record hStage, Option.some.inj h⟩
  case notifying => exact ⟨_, _, .notify hStage, Option.some.inj h⟩
  case refusing =>
    obtain rfl := Option.some.inj h
    exact advances_of_dropToken state index (by rw [TrackedRequest.holdsToken, hStage])
  case emptying => exact ⟨_, _, .notifyWaiters hStage, Option.some.inj h⟩
  case dropping =>
    obtain rfl := Option.some.inj h
    obtain ⟨base, hAdvances, rfl⟩ := advances_of_releaseBlocker state hStage (.inl ⟨rfl, rfl⟩)
    exact ⟨_, _, hAdvances, rfl⟩
  case live | finished => cases h

variable (state) (call) in
/-- What a call that ends the process does. -/
inductive Shuts : LifecycleState → Shutdown → Prop where
  | exchange {phase : ShutdownPhase} : LifecycleState.exchange state.phase call.force = some phase →
      call.stage = .started → Shuts { state with phase } { call with stage := .closing }
  | tooLate : call.stage = .started → Shuts state { call with stage := .returned false }
  | close : state.closed = true ∨ state.tokens ≠ 0 → call.stage = .closing →
      Shuts { state with closed := true } { call with stage := .cancelling }
  | closeEmpty : state.tokens = 0 → call.stage = .closing →
      Shuts { state with closed := true, settled := true }
        { call with stage := .notifying }
  | notify : call.stage = .notifying → Shuts { state with notified := state.notified + 1 }
        { call with stage := .cancelling }
  | cancel {stage : ShutdownStage} : stage = .cancellingForced ∨ stage = .returned true →
      call.stage = .cancelling → Shuts { state with draining := true } { call with stage }
  | cancelForced : call.stage = .cancellingForced →
      Shuts { state with forced := true } { call with stage := .returned true }

theorem shuts_of_advanceShutdown (h : state.advanceShutdown index call = some next) :
    ∃ base changed, Shuts state call base changed ∧ base.setShutdown index changed = next := by
  unfold advanceShutdown at h
  cases hStage : call.stage <;> rw [hStage] at h
  case started =>
    dsimp only at h
    cases hPhase : exchange state.phase call.force <;> rw [hPhase] at h
    · exact ⟨_, _, .tooLate hStage, Option.some.inj h⟩
    · exact ⟨_, _, .exchange hPhase hStage, Option.some.inj h⟩
  case closing =>
    obtain rfl := Option.some.inj h
    by_cases hEmpty : (!state.closed && decide (state.tokens = 0)) = true
    · have hTokens : state.tokens = 0 := of_decide_eq_true (Bool.and_eq_true_iff.mp hEmpty).2
      refine ⟨_, _, .closeEmpty hTokens hStage, ?_⟩
      simp [hEmpty]
    · have hNot : state.closed = true ∨ state.tokens ≠ 0 := by
        cases hClosed : state.closed with
        | true => exact .inl rfl
        | false => exact .inr fun hTokens => hEmpty (by rw [hClosed, hTokens]; rfl)
      refine ⟨_, _, .close hNot hStage, ?_⟩
      simp [hEmpty]
  case notifying => exact ⟨_, _, .notify hStage, Option.some.inj h⟩
  case cancelling =>
    obtain rfl := Option.some.inj h
    refine ⟨_, _, .cancel ?_ hStage, rfl⟩
    cases call.force
    · exact .inr rfl
    · exact .inl rfl
  case cancellingForced => exact ⟨_, _, .cancelForced hStage, Option.some.inj h⟩
  case returned => cases h

/-- The counters are those of the requests, and what has been closed and empty once stays without
guards. -/
structure Valid (state : LifecycleState) : Prop where
  tokens : state.tokens = (state.requests.map TrackedRequest.token).sum
  blockers : state.blockers = (state.requests.map TrackedRequest.block).sum
  unblocked : ∀ request ∈ state.requests, request.stage = .started ∨ request.stage = .admitted →
    request.blocker = false
  closing : ∀ call ∈ state.shutdowns, call.stage = .closing → state.phase ≠ .running
  closed : state.closed = true → state.phase ≠ .running
  settled : state.settled = true → state.closed = true ∧
    ∀ request ∈ state.requests, request.guarded = false
  empty : state.closed = true → state.tokens = 0 → state.settled = true
  emptying : ∀ request ∈ state.requests, request.stage = .emptying → state.settled = true
  notifying : ∀ call ∈ state.shutdowns, call.stage = .notifying → state.settled = true
  notified : 0 < state.notified → state.settled = true
  completed : ∀ waiter ∈ state.waiters, waiter.completed = true → state.settled = true

theorem guarded_of_token_eq_zero (h : request.token = 0) : request.guarded = false := by
  unfold TrackedRequest.token TrackedRequest.holdsToken at h
  unfold TrackedRequest.guarded
  cases hStage : request.stage <;> rw [hStage] at h <;> first | rfl | cases h

/-- Without tokens there is no guard. -/
theorem guarded_of_sum_eq_zero {requests : List TrackedRequest}
    (h : (requests.map TrackedRequest.token).sum = 0) :
    ∀ request ∈ requests, request.guarded = false := by
  intro request hMem
  refine guarded_of_token_eq_zero (Nat.eq_zero_of_le_zero (h ▸ ?_))
  exact List.single_le_sum (fun _ _ => Nat.zero_le _) _ (List.mem_map_of_mem hMem)

theorem sum_block (requests : List TrackedRequest) :
    (requests.map TrackedRequest.block).sum = requests.countP (·.blocker) := by
  induction requests with
  | nil => rfl
  | cons request rest ih =>
    rw [List.map_cons, List.sum_cons, ih, List.countP_cons, Nat.add_comm, TrackedRequest.block]
    cases request.blocker <;> rfl

section

variable (h : Advances state request base changed)
include h

theorem Advances.tokens (hLe : request.token ≤ state.tokens) :
    base.tokens + request.token = state.tokens + changed.token := by
  cases h
  case dropToken hHolds hNot =>
    have hToken : request.token = 1 := by rw [TrackedRequest.token, hHolds]; rfl
    change state.tokens - 1 + request.token = state.tokens + 0
    omega
  case dropLast hHolds hClosed hTokens =>
    have hToken : request.token = 1 := by rw [TrackedRequest.token, hHolds]; rfl
    change 0 + request.token = state.tokens + 0
    omega
  all_goals
    simp [TrackedRequest.token, TrackedRequest.holdsToken, *]

theorem Advances.blockers (hLe : request.block ≤ state.blockers)
    (hUnblocked : request.stage = .started ∨ request.stage = .admitted → request.blocker = false) :
    base.blockers + request.block = state.blockers + changed.block := by
  cases h
  case block hStage =>
    change state.blockers + 1 + request.blocker.toNat = state.blockers + 1
    rw [hUnblocked (.inr hStage)]
    rfl
  case release hBlocker hStage | releaseLive hBlocker hStage =>
    have hBlock : request.block = 1 := by rw [TrackedRequest.block, hBlocker]; rfl
    change state.blockers - 1 + request.block = state.blockers + 0
    omega
  case finish hBlocker hStage | releaseAgain hBlocker hStage =>
    change state.blockers + request.blocker.toNat = state.blockers + 0
    rw [hBlocker]
    rfl
  all_goals rfl

theorem Advances.valid (hRequest : state.requests[index]? = some request) (hValid : Valid state) :
    Valid (base.setRequest index changed) := by
  have hMem := List.mem_of_getElem? hRequest
  have hTokenLe : request.token ≤ state.tokens :=
    hValid.tokens ▸ le_sum_map TrackedRequest.token hRequest
  have hBlockLe : request.block ≤ state.blockers :=
    hValid.blockers ▸ le_sum_map TrackedRequest.block hRequest
  have hTokens : base.tokens =
      ((state.requests.set index changed).map TrackedRequest.token).sum := by
    have hSum : ((state.requests.set index changed).map TrackedRequest.token).sum + request.token =
      (state.requests.map TrackedRequest.token).sum + changed.token := sum_map_set _ hRequest
    have hChange := h.tokens hTokenLe
    have hOld := hValid.tokens
    omega
  have hBlockers :
      base.blockers = ((state.requests.set index changed).map TrackedRequest.block).sum := by
    have hSum : ((state.requests.set index changed).map TrackedRequest.block).sum + request.block =
      (state.requests.map TrackedRequest.block).sum + changed.block := sum_map_set _ hRequest
    have hChange := h.blockers hBlockLe (hValid.unblocked request hMem)
    have hOld := hValid.blockers
    omega
  have hGuarded := fun hSettled : state.settled = true => (hValid.settled hSettled).2 request hMem
  have hUnguarded (hNew : state.settled = true → changed.guarded = false)
      (hSettled : state.settled = true) : state.closed = true ∧
        ∀ other ∈ state.requests.set index changed, other.guarded = false :=
    (hValid.settled hSettled).imp_right fun hAll => forall_mem_set hAll (hNew hSettled)
  unfold TrackedRequest.guarded at hGuarded
  cases h
  case accept hStage hRunning =>
    exact { hValid with
      tokens := hTokens
      blockers := hBlockers
      unblocked := forall_mem_set hValid.unblocked fun _ =>
        hValid.unblocked request hMem (.inl hStage)
      settled := hUnguarded fun _ => rfl
      emptying := forall_mem_set hValid.emptying nofun }
  case guard hStage hRunning =>
    exact { hValid with
      tokens := hTokens
      blockers := hBlockers
      unblocked := forall_mem_set hValid.unblocked nofun
      settled := fun hSettled => absurd hRunning (hValid.closed (hValid.settled hSettled).1)
      emptying := forall_mem_set hValid.emptying nofun }
  case dropLast hHolds hClosed hOne =>
    exact { hValid with
      tokens := hTokens
      blockers := hBlockers
      unblocked := forall_mem_set hValid.unblocked nofun
      settled := fun _ => ⟨hClosed, guarded_of_sum_eq_zero hTokens.symm⟩
      empty := fun _ _ => rfl
      emptying := fun _ _ _ => rfl
      notifying := fun _ _ _ => rfl
      notified := fun _ => rfl
      completed := fun _ _ _ => rfl }
  all_goals
    rename_i hStage
    refine { hValid with
      tokens := hTokens
      blockers := hBlockers
      unblocked := forall_mem_set hValid.unblocked nofun
      settled := hUnguarded fun hSettled => ?_
      empty := ?_
      emptying := forall_mem_set hValid.emptying nofun
      notified := ?_ }
  case dropToken.refine_2 hHolds =>
    intro hClosed hNone
    have hOne : request.token = 1 := by rw [TrackedRequest.token, hHolds]; rfl
    have hLess : state.tokens - 1 = 0 := hNone
    exact absurd ⟨hClosed, by omega⟩ hStage
  case track.refine_2 => exact fun _ hNone => absurd hNone (Nat.succ_ne_zero _)
  case notifyWaiters.refine_3 => exact fun _ => hValid.emptying request hMem hStage
  all_goals
    first
    | rfl
    | exact hValid.empty
    | exact hValid.notified
    | rw [hStage] at hGuarded
      exact absurd (hGuarded hSettled) Bool.noConfusion

end

theorem exchange_rank {phase changed : ShutdownPhase} {force : Bool}
    (h : exchange phase force = some changed) : phase.rank < changed.rank := by
  cases force <;> cases phase <;> cases h <;> decide

theorem Shuts.valid {changed : Shutdown}
    (h : Shuts state call base changed) (hCall : state.shutdowns[index]? = some call)
    (hValid : Valid state) : Valid (base.setShutdown index changed) := by
  have hMem := List.mem_of_getElem? hCall
  have hClosing {stage : ShutdownStage} (hNew : stage ≠ .closing) :
      ∀ other ∈ state.shutdowns.set index { call with stage }, other.stage = .closing →
        state.phase ≠ .running :=
    forall_mem_set hValid.closing fun hStage => absurd hStage hNew
  have hNotifying {stage : ShutdownStage} (hNew : stage ≠ .notifying) :
      ∀ other ∈ state.shutdowns.set index { call with stage }, other.stage = .notifying →
        state.settled = true :=
    forall_mem_set hValid.notifying fun hStage => absurd hStage hNew
  cases h
  case exchange phase hPhase hStage =>
    have hEnds : phase ≠ .running := by
      rintro rfl
      exact absurd (exchange_rank hPhase) (Nat.not_lt_zero _)
    exact { hValid with
      closing := fun _ _ _ => hEnds
      closed := fun _ => hEnds
      notifying := hNotifying nofun }
  case close hNot hStage =>
    exact { hValid with
      closing := hClosing nofun
      closed := fun _ => hValid.closing call hMem hStage
      settled := fun hSettled => ⟨rfl, (hValid.settled hSettled).2⟩
      empty := fun _ hNone => hNot.elim (hValid.empty · hNone) fun hSome => absurd hNone hSome
      notifying := hNotifying nofun }
  case closeEmpty hTokens hStage =>
    exact { hValid with
      closing := hClosing nofun
      closed := fun _ => hValid.closing call hMem hStage
      settled := fun _ => ⟨rfl, guarded_of_sum_eq_zero (hValid.tokens.symm.trans hTokens)⟩
      empty := fun _ _ => rfl
      emptying := fun _ _ _ => rfl
      notifying := fun _ _ _ => rfl
      notified := fun _ => rfl
      completed := fun _ _ _ => rfl }
  case notify hStage =>
    exact { hValid with
      closing := hClosing nofun
      notifying := hNotifying nofun
      notified := fun _ => hValid.notifying call hMem hStage }
  case cancel stage hNew hStage =>
    refine { hValid with closing := hClosing ?_, notifying := hNotifying ?_ }
    all_goals rcases hNew with rfl | rfl <;> nofun
  all_goals
    exact { hValid with closing := hClosing nofun, notifying := hNotifying nofun }

/-- What a step of the process does. -/
inductive Steps (state : LifecycleState) : LifecycleLabel → LifecycleState → Prop where
  | trackRequest :
      Steps state .trackRequest { state with requests := state.requests ++ [⟨.started, false⟩] }
  | request {label : LifecycleLabel} {index : Nat} {request changed : TrackedRequest}
      {base : LifecycleState} : state.requests[index]? = some request →
      Advances state request base changed → Steps state label (base.setRequest index changed)
  | shutdown {force : Bool} :
      Steps state (.shutdown force)
        { state with shutdowns := state.shutdowns ++ [⟨force, .started⟩] }
  | advanceShutdown {index : Nat} {call changed : Shutdown} {base : LifecycleState} :
      state.shutdowns[index]? = some call → Shuts state call base changed →
      Steps state (.advanceShutdown index) (base.setShutdown index changed)
  | waitForRequests :
      Steps state .waitForRequests
        { state with waiters := state.waiters ++ [⟨state.notified, state.closedAndEmpty⟩] }
  | poll {index : Nat} {waiter : Waiter} : state.waiters[index]? = some waiter →
      state.closedAndEmpty = true ∨ 0 < state.notified →
      Steps state (.poll index)
        { state with waiters := state.waiters.set index { waiter with completed := true } }

theorem steps_of_step (h : step state label = some next) : Steps state label next := by
  cases label
  case trackRequest => exact Option.some.inj h ▸ .trackRequest
  case advance index =>
    obtain ⟨request, hRequest, hNext⟩ := Option.bind_eq_some_iff.mp h
    obtain ⟨base, changed, hAdvances, rfl⟩ := advances_of_advance hNext
    exact .request hRequest hAdvances
  case drop index =>
    obtain ⟨request, hRequest, hNext⟩ := Option.bind_eq_some_iff.mp h
    obtain ⟨hStage, hEq⟩ := Option.ite_none_right_eq_some.mp hNext
    obtain ⟨base, changed, hAdvances, hBase⟩ :=
      advances_of_dropToken state index
        (show request.holdsToken = true by rw [TrackedRequest.holdsToken, hStage])
    exact Option.some.inj hEq ▸ hBase ▸ .request hRequest hAdvances
  case releaseMemoryReclamationBlocker index =>
    obtain ⟨request, hRequest, hNext⟩ := Option.bind_eq_some_iff.mp h
    obtain ⟨hStage, hEq⟩ := Option.ite_none_right_eq_some.mp hNext
    obtain ⟨base, hAdvances, rfl⟩ := advances_of_releaseBlocker state hStage (.inr ⟨rfl, rfl⟩)
    have hChanged : ({ request with blocker := false } : TrackedRequest) = ⟨.live, false⟩ := by
      rw [hStage]
    rw [hChanged] at hEq
    exact Option.some.inj hEq ▸ .request hRequest hAdvances
  case shutdown force => exact Option.some.inj h ▸ .shutdown
  case advanceShutdown index =>
    obtain ⟨call, hCall, hNext⟩ := Option.bind_eq_some_iff.mp h
    obtain ⟨base, changed, hShuts, rfl⟩ := shuts_of_advanceShutdown hNext
    exact .advanceShutdown hCall hShuts
  case waitForRequests => exact Option.some.inj h ▸ .waitForRequests
  case poll index =>
    obtain ⟨waiter, hWaiter, hNext⟩ := Option.bind_eq_some_iff.mp h
    obtain ⟨⟨-, hReady⟩, hEq⟩ := Option.ite_none_right_eq_some.mp hNext
    exact Option.some.inj hEq ▸ .poll hWaiter (hReady.imp_right Nat.zero_lt_of_lt)

theorem Steps.valid (h : Steps state label next) (hValid : Valid state) : Valid next := by
  have hReady (hEmpty : state.closedAndEmpty = true) : state.settled = true := by
    obtain ⟨hClosed, hTokens⟩ := Bool.and_eq_true_iff.mp hEmpty
    exact hValid.empty hClosed (of_decide_eq_true hTokens)
  cases h
  case request hRequest hAdvances => exact hAdvances.valid hRequest hValid
  case advanceShutdown hCall hShuts => exact hShuts.valid hCall hValid
  case trackRequest =>
    refine { hValid with
      tokens := ?_, blockers := ?_, unblocked := ?_, settled := ?_, emptying := ?_ }
    · exact hValid.tokens.trans (by simp [TrackedRequest.token, TrackedRequest.holdsToken])
    · exact hValid.blockers.trans (by simp [TrackedRequest.block])
    · exact forall_mem_concat hValid.unblocked fun _ => rfl
    · exact fun hSettled => (hValid.settled hSettled).imp_right fun hAll =>
        forall_mem_concat hAll rfl
    · exact forall_mem_concat hValid.emptying nofun
  case shutdown force =>
    exact { hValid with
      closing := forall_mem_concat hValid.closing nofun
      notifying := forall_mem_concat hValid.notifying nofun }
  case waitForRequests =>
    exact { hValid with completed := forall_mem_concat hValid.completed hReady }
  case poll index waiter hWaiter hDone =>
    exact { hValid with completed := fun _ _ _ => hDone.elim hReady hValid.notified }

theorem valid_initial : Valid initial :=
  ⟨rfl, rfl, nofun, nofun, nofun, nofun, nofun, nofun, nofun, nofun, nofun⟩

theorem valid_of_run {labels : List LifecycleLabel}
    (hRun : run step labels initial = some state) : Valid state :=
  invariant_of_run (fun _ _ _ h hStep => (steps_of_step hStep).valid h) valid_initial hRun

/-- The phase only moves forward. -/
theorem Steps.rank_le (h : Steps state label next) : state.phase.rank ≤ next.phase.rank := by
  cases h
  case request hAdvances => cases hAdvances <;> exact Nat.le_refl _
  case advanceShutdown hShuts =>
    cases hShuts
    case exchange hPhase hStage => exact (exchange_rank hPhase).le
    all_goals exact Nat.le_refl _
  all_goals exact Nat.le_refl _

theorem Steps.settled_mono (h : Steps state label next) (hSettled : state.settled = true) :
    next.settled = true := by
  cases h
  case request hAdvances => cases hAdvances <;> first | exact hSettled | rfl
  case advanceShutdown hShuts => cases hShuts <;> first | exact hSettled | rfl
  all_goals exact hSettled

/-- In every run, when a wait for the requests has completed no call has returned a guard that is
not dropped, or is about to return one, then or later. The phase only moves forward, and the
blockers of memory reclamation are counted. -/
theorem shutdown_safe {labels : List LifecycleLabel} (hRun : run step labels initial = some state) :
    (∀ waiter ∈ state.waiters, waiter.completed = true →
      ∀ more final, run step more state = some final →
        ∀ request ∈ final.requests, request.guarded = false) ∧
    (∀ label next, step state label = some next → state.phase.rank ≤ next.phase.rank) ∧
    state.blockers = state.requests.countP (·.blocker) := by
  have hValid := valid_of_run hRun
  refine ⟨fun waiter hWaiter hCompleted more final hMore => ?_,
    fun label next hStep => (steps_of_step hStep).rank_le, ?_⟩
  · have hKeep (state : LifecycleState) (label : LifecycleLabel) (next : LifecycleState)
        (hSettled : state.settled = true) (hStep : step state label = some next) :
        next.settled = true := (steps_of_step hStep).settled_mono hSettled
    have hSettled := invariant_of_run hKeep (hValid.completed waiter hWaiter hCompleted) hMore
    have hFinal : Valid final :=
      invariant_of_run (fun _ _ _ h hStep => (steps_of_step hStep).valid h) hValid hMore
    exact (hFinal.settled hSettled).2
  · exact hValid.blockers.trans (sum_block state.requests)

/-- A call takes its token while another request is served, and finds the process draining. -/
def drainedRequests : List LifecycleLabel :=
  [.trackRequest, .advance 0, .advance 0, .advance 0, .advance 0, .advance 0, .advance 0,
    .trackRequest, .advance 1, .advance 1,
    .shutdown false, .advanceShutdown 0, .advanceShutdown 0, .advanceShutdown 0,
    .waitForRequests, .advance 1, .advance 1, .releaseMemoryReclamationBlocker 0, .advance 1,
    .advance 1, .drop 0, .advance 0, .poll 0]

/-- A request that arrives after the drain is not guarded. -/
theorem shutdown_safe_of_drained :
    ∃ state final, run step drainedRequests initial = some state ∧ state.blockers = 0 ∧
      run step [.trackRequest, .advance 2, .advance 0] state = some final ∧
      ∀ request ∈ final.requests, request.guarded = false := by
  have hDrained : (run step drainedRequests initial).any (fun state =>
      (run step [.trackRequest, .advance 2, .advance 0] state).any fun final =>
        decide (state.waiters = [⟨0, true⟩] ∧ state.requests.countP (·.blocker) = 0 ∧
          final.requests.length = 3)) = true := by decide +kernel
  obtain ⟨state, hState, hDrained⟩ := (Option.any_eq_true ..).mp hDrained
  obtain ⟨final, hFinal, hDrained⟩ := (Option.any_eq_true ..).mp hDrained
  obtain ⟨hWaiters, hBlockers, -⟩ := of_decide_eq_true hDrained
  obtain ⟨hSafe, -, hCount⟩ := shutdown_safe hState
  refine ⟨state, final, hState, hCount.trans hBlockers, hFinal, ?_⟩
  exact hSafe ⟨0, true⟩ (hWaiters ▸ List.mem_singleton_self _) rfl _ final hFinal

end LifecycleState

end Any2Api.Runtime.Lifecycle
