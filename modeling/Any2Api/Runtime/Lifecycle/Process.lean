import Any2Api.Library.Runs

/-! The end of the process. Requests are tracked while the process runs; whoever ends it changes
the phase, closes the tracker and waits until the tracker is closed and empty. Each atomic
operation is a step of its own. -/
namespace Any2Api.Runtime.Lifecycle

inductive ShutdownPhase where
  | running
  | draining
  | forced
  deriving DecidableEq

/-- How far the end of the process has come. -/
def ShutdownPhase.rank : ShutdownPhase → Nat
  | .running => 0
  | .draining => 1
  | .forced => 2

/-- Where a call of `track_request` is, and then the guard that it has returned. -/
inductive RequestStage where
  | started
  /-- The phase has been found running. -/
  | admitted
  | blocking
  | tracked
  /-- The phase has been found running again. -/
  | recording
  | notifying
  /-- The call has returned a guard. -/
  | live
  | refusing
  /-- The last token of a closed tracker has been dropped. -/
  | emptying
  /-- The token is dropped. -/
  | dropping
  | finished
  deriving DecidableEq

structure TrackedRequest where
  stage : RequestStage
  /-- There is a memory reclamation blocker that has not been released. -/
  blocker : Bool
  deriving DecidableEq

namespace TrackedRequest

def holdsToken (request : TrackedRequest) : Bool :=
  match request.stage with
  | .tracked | .recording | .notifying | .live | .refusing => true
  | _ => false

/-- The call has returned a guard or is about to. -/
def guarded (request : TrackedRequest) : Bool :=
  match request.stage with
  | .recording | .notifying | .live => true
  | _ => false

end TrackedRequest

inductive ShutdownStage where
  | started
  /-- The phase is changed. -/
  | closing
  /-- The tracker has been closed when it was empty. -/
  | notifying
  | cancelling
  | cancellingForced
  | returned (changed : Bool)
  deriving DecidableEq

/-- A call of `begin_draining` or of `force`. -/
structure Shutdown where
  force : Bool
  stage : ShutdownStage
  deriving DecidableEq

/-- A call of `wait_for_requests`. -/
structure Waiter where
  /-- The notifications of the tracker before the call. -/
  seen : Nat
  completed : Bool
  deriving DecidableEq

structure LifecycleState where
  phase : ShutdownPhase
  activityEpoch : Nat
  blockers : Nat
  /-- The permit of a requested memory reclamation. -/
  requested : Bool
  /-- The tracker of the requests. -/
  tokens : Nat
  closed : Bool
  notified : Nat
  /-- The tracker has been closed and empty. -/
  settled : Bool
  draining : Bool
  forced : Bool
  requests : List TrackedRequest
  shutdowns : List Shutdown
  waiters : List Waiter

inductive LifecycleLabel where
  | trackRequest
  /-- The next operation of a call or of the drop of a guard. -/
  | advance (request : Nat)
  | drop (request : Nat)
  | releaseMemoryReclamationBlocker (request : Nat)
  | shutdown (force : Bool)
  | advanceShutdown (call : Nat)
  | waitForRequests
  | poll (waiter : Nat)
  deriving DecidableEq

namespace LifecycleState

def initial : LifecycleState where
  phase := .running
  activityEpoch := 0
  blockers := 0
  requested := false
  tokens := 0
  closed := false
  notified := 0
  settled := false
  draining := false
  forced := false
  requests := []
  shutdowns := []
  waiters := []

variable (state : LifecycleState)

def setRequest (index : Nat) (request : TrackedRequest) : LifecycleState :=
  { state with requests := state.requests.set index request }

def setShutdown (index : Nat) (call : Shutdown) : LifecycleState :=
  { state with shutdowns := state.shutdowns.set index call }

/-- The drop of a token; the last one of a closed tracker notifies its waiters. -/
def dropToken (index : Nat) (request : TrackedRequest) : LifecycleState :=
  let last := state.closed && decide (state.tokens = 1)
  { state with
    tokens := state.tokens - 1
    settled := state.settled || last }.setRequest index
      { request with stage := if last then .emptying else .dropping }

/-- `release`: the second time there is nothing to release. -/
def releaseBlocker (request : TrackedRequest) : LifecycleState :=
  if request.blocker then
    { state with
      blockers := state.blockers - 1
      requested := state.requested || decide (state.blockers = 1) }
  else
    state

def advance (index : Nat) (request : TrackedRequest) : Option LifecycleState :=
  match request.stage with
  | .started =>
    some (state.setRequest index
      { request with stage := if state.phase = .running then .admitted else .finished })
  | .admitted =>
    some ({ state with blockers := state.blockers + 1 }.setRequest index
      { request with stage := .blocking, blocker := true })
  | .blocking =>
    some ({ state with tokens := state.tokens + 1 }.setRequest index
      { request with stage := .tracked })
  | .tracked =>
    some (state.setRequest index
      { request with stage := if state.phase = .running then .recording else .refusing })
  | .recording =>
    some ({ state with activityEpoch := state.activityEpoch + 1 }.setRequest index
      { request with stage := .notifying })
  | .notifying =>
    some ({ state with requested := state.requested || decide (state.blockers = 0) }.setRequest
      index { request with stage := .live })
  | .refusing => some (state.dropToken index request)
  | .emptying =>
    some ({ state with notified := state.notified + 1 }.setRequest index
      { request with stage := .dropping })
  | .dropping =>
    some ((state.releaseBlocker request).setRequest index
      { request with stage := .finished, blocker := false })
  | .live | .finished => none

/-- The change of the phase, `none` when the call has nothing to do. -/
def exchange (phase : ShutdownPhase) : Bool → Option ShutdownPhase
  | false => if phase = .running then some .draining else none
  | true => if phase = .forced then none else some .forced

def advanceShutdown (index : Nat) (call : Shutdown) : Option LifecycleState :=
  match call.stage with
  | .started =>
    match exchange state.phase call.force with
    | none => some (state.setShutdown index { call with stage := .returned false })
    | some phase => some ({ state with phase }.setShutdown index { call with stage := .closing })
  | .closing =>
    let empty := !state.closed && decide (state.tokens = 0)
    some ({ state with
      closed := true
      settled := state.settled || empty }.setShutdown index
        { call with stage := if empty then .notifying else .cancelling })
  | .notifying =>
    some ({ state with notified := state.notified + 1 }.setShutdown index
      { call with stage := .cancelling })
  | .cancelling =>
    some ({ state with draining := true }.setShutdown index
      { call with stage := if call.force then .cancellingForced else .returned true })
  | .cancellingForced =>
    some ({ state with forced := true }.setShutdown index { call with stage := .returned true })
  | .returned _ => none

def closedAndEmpty : Bool := state.closed && decide (state.tokens = 0)

def step : LifecycleLabel → Option LifecycleState
  | .trackRequest => some { state with requests := state.requests ++ [⟨.started, false⟩] }
  | .advance index => do
      let request ← state.requests[index]?
      state.advance index request
  | .drop index => do
      let request ← state.requests[index]?
      if request.stage = .live then some (state.dropToken index request) else none
  | .releaseMemoryReclamationBlocker index => do
      let request ← state.requests[index]?
      if request.stage = .live then
        some ((state.releaseBlocker request).setRequest index { request with blocker := false })
      else
        none
  | .shutdown force => some { state with shutdowns := state.shutdowns ++ [⟨force, .started⟩] }
  | .advanceShutdown index => do
      let call ← state.shutdowns[index]?
      state.advanceShutdown index call
  | .waitForRequests =>
    some { state with waiters := state.waiters ++ [⟨state.notified, state.closedAndEmpty⟩] }
  | .poll index => do
      let waiter ← state.waiters[index]?
      if waiter.completed = false ∧
        (state.closedAndEmpty = true ∨ waiter.seen < state.notified) then
        some { state with waiters := state.waiters.set index { waiter with completed := true } }
      else
        none

end LifecycleState

end Any2Api.Runtime.Lifecycle
