import Any2Api.Runtime.Credential.RateWindow
import Mathlib.Data.List.Count

/-! Credentials, the bindings that configurations hold of them, and the permits
that requests hold. A permit is taken and given back in several steps, between
which anything else may happen: the window is changed under its lock, the count of
requests in flight and the admission of a route are atomics of their own. -/
namespace Any2Api.Runtime.Credential

open Runs

/-- One more than the largest `u32`. -/
def counterSize : Nat := 2 ^ 32

structure CredentialGeneration where
  routingGeneration : Nat
  authenticationVersion : Nat
  deriving DecidableEq

/-- The window is shown beside its history; the program has the window only. -/
structure CredentialRuntimeHandle where
  inFlight : Nat
  window : WindowHistory
  fixedWaiters : Nat
  currentGeneration : CredentialGeneration

def CredentialRuntimeHandle.new (generation : CredentialGeneration) : CredentialRuntimeHandle where
  inFlight := 0
  window := .initial
  fixedWaiters := 0
  currentGeneration := generation

/-- The first half of `rollback_before_attempt`, under the lock of the window. -/
def CredentialRuntimeHandle.rollback (handle : CredentialRuntimeHandle) :
    Option RateReservation → CredentialRuntimeHandle
  | none => handle
  | some reservation => { handle with window := handle.window.rollback reservation }

/-- Handles and admissions are shared, so they are held by number. -/
structure CredentialRuntimeBinding where
  handle : Nat
  generation : CredentialGeneration
  requestsPerMinute : Option RequestsPerMinute
  routeAdmission : Option Nat

/-- How far a permit has come. `reserved` is inside `try_reserve` between the
window and the counter; `rollingBack` and `withdrawn` are inside
`rollback_before_attempt`, before the window and before the counter. -/
inductive Phase where
  | reserved
  | live
  | rollingBack
  | withdrawn
  | rolledBack
  | dropped
  | aborted
  deriving DecidableEq

/-- The permit has its unit of the counter and has not given it back. -/
def Phase.counted : Phase → Bool
  | .live | .rollingBack | .withdrawn => true
  | .reserved | .rolledBack | .dropped | .aborted => false

/-- The permit has given its reservation back to the window. -/
def Phase.returned : Phase → Bool
  | .withdrawn | .rolledBack => true
  | .reserved | .live | .rollingBack | .dropped | .aborted => false

structure RoutingPermit where
  handle : Nat
  generation : CredentialGeneration
  rateReservation : Option RateReservation
  routeAdmission : Option Nat
  attemptStarted : Bool
  phase : Phase
  deriving DecidableEq

/-- `try_start_attempt`: a rejected start goes on to roll the permit back. -/
def RoutingPermit.tryStartAttempt (permit : RoutingPermit) (revoked : Nat → Bool) : RoutingPermit :=
  if permit.attemptStarted then
    permit
  else
    match permit.routeAdmission with
    | none => { permit with phase := .rollingBack }
    | some admission =>
      if revoked admission then
        { permit with phase := .rollingBack }
      else
        { permit with attemptStarted := true }

structure RoutingCredentialSpec where
  id : RoutingCredentialId
  requestsPerMinute : Option RequestsPerMinute
  generation : CredentialGeneration
  routeAdmission : Option Nat

structure Routing where
  registry : RoutingCredentialId → Option Nat
  handles : Nat → CredentialRuntimeHandle
  /-- The number of handles that were ever created. -/
  created : Nat
  bindings : List CredentialRuntimeBinding
  revoked : Nat → Bool
  permits : List RoutingPermit
  /-- The handles of the registered fixed waiters. -/
  waiters : List Nat
  clock : Instant
  /-- A counter was decremented at zero. -/
  underflowed : Bool

inductive RoutingLabel where
  | tick (now : Instant)
  | reconcile (specs : List RoutingCredentialSpec)
  | revoke (admission : Nat)
  | registerFixedWaiter (binding : Nat)
  | releaseFixedWaiter (handle : Nat)
  | rateSnapshot (binding : Nat) (now : Instant)
  | tryReserve (binding : Nat) (fixed : Bool)
  | count (permit : Nat)
  | tryStartAttempt (permit : Nat)
  | rollbackBeforeAttempt (permit : Nat)
  | withdraw (permit : Nat)
  | release (permit : Nat)
  | drop (permit : Nat)

namespace Routing

def initial : Routing where
  registry := fun _ => none
  handles := fun _ => .new ⟨0, 0⟩
  created := 0
  bindings := []
  revoked := fun _ => false
  permits := []
  waiters := []
  clock := 0
  underflowed := false

variable (state : Routing) (index : Nat)

def setHandle (handle : CredentialRuntimeHandle) : Routing :=
  { state with handles := Function.update state.handles index handle }

variable (permit : RoutingPermit)

def setPermit : Routing :=
  { state with permits := state.permits.set index permit }

/-- `reconcile` of a handle. The health of a generation is not part of the model, so
a new generation and one that keeps its routing health are the same here. -/
def reconcileHandle (spec : RoutingCredentialSpec) : Routing :=
  let handle := state.handles index
  let generation :=
    if handle.currentGeneration = spec.generation then
      handle.currentGeneration
    else
      spec.generation
  { state.setHandle index { handle with currentGeneration := generation } with
    bindings := state.bindings ++
      [⟨index, generation, spec.requestsPerMinute, spec.routeAdmission⟩] }

/-- One turn of the loop over the configured credentials. -/
def reconcileSpec (spec : RoutingCredentialSpec) : Routing :=
  match state.registry spec.id with
  | some handle => state.reconcileHandle handle spec
  | none =>
    { state.setHandle state.created (.new spec.generation) with
      registry := Function.update state.registry spec.id (some state.created)
      created := state.created + 1
      bindings := state.bindings ++
        [⟨state.created, spec.generation, spec.requestsPerMinute, spec.routeAdmission⟩] }

def reconcileConfiguration (specs : List RoutingCredentialSpec) : Routing :=
  let state := specs.foldl reconcileSpec state
  { state with
    registry := fun id => if id ∈ specs.map (·.id) then state.registry id else none }

/-- The first half of `try_reserve`, under the lock of the window. The clock is
read there. -/
def tryReserve (binding : CredentialRuntimeBinding) (fixed : Bool) : Routing :=
  let handle := state.handles binding.handle
  let answer := handle.window.tryReserve state.clock binding.requestsPerMinute
    handle.fixedWaiters fixed
  let state := state.setHandle binding.handle { handle with window := answer.2 }
  match answer.1 with
  | .error _ => state
  | .ok reservation =>
    { state with
      permits := state.permits ++ [⟨binding.handle, binding.generation, reservation,
        binding.routeAdmission, false, .reserved⟩] }

/-- The increment of the counter. A full counter aborts the request. -/
def count : Routing :=
  let handle := state.handles permit.handle
  if handle.inFlight + 1 < counterSize then
    (state.setHandle permit.handle { handle with inFlight := handle.inFlight + 1 }).setPermit index
      { permit with phase := .live }
  else
    state.setPermit index { permit with phase := .aborted }

def withdraw : Routing :=
  (state.setHandle permit.handle
    ((state.handles permit.handle).rollback permit.rateReservation)).setPermit index
      { permit with phase := .withdrawn }

/-- `release_in_flight`, at the end of a rollback or in `drop`. -/
def releaseInFlight (phase : Phase) : Routing :=
  let handle := state.handles permit.handle
  let state := state.setPermit index { permit with phase }
  if 1 ≤ handle.inFlight then
    state.setHandle permit.handle { handle with inFlight := handle.inFlight - 1 }
  else
    { state with underflowed := true }

def permitIn (phase : Phase) : Option RoutingPermit := do
  let permit ← state.permits[index]?
  if permit.phase = phase then some permit else none

def step : RoutingLabel → Option Routing
  | .tick now => if state.clock ≤ now then some { state with clock := now } else none
  | .reconcile specs => some (state.reconcileConfiguration specs)
  | .revoke admission =>
    some { state with revoked := Function.update state.revoked admission true }
  | .registerFixedWaiter index => do
      let binding ← state.bindings[index]?
      let handle := state.handles binding.handle
      if handle.fixedWaiters + 1 < counterSize then
        some { state.setHandle binding.handle
            { handle with fixedWaiters := handle.fixedWaiters + 1 } with
          waiters := binding.handle :: state.waiters }
      else
        none
  | .releaseFixedWaiter index =>
    if index ∈ state.waiters then
      let handle := state.handles index
      let state := { state with waiters := state.waiters.erase index }
      if 1 ≤ handle.fixedWaiters then
        some (state.setHandle index { handle with fixedWaiters := handle.fixedWaiters - 1 })
      else
        some { state with underflowed := true }
    else
      none
  | .rateSnapshot index now => do
      let binding ← state.bindings[index]?
      let handle := state.handles binding.handle
      -- The instant is read before the lock is taken.
      if now ≤ state.clock then
        some (state.setHandle binding.handle { handle with window := { handle.window with
          window := (handle.window.window.snapshot now binding.requestsPerMinute).2
          clock := state.clock } })
      else
        none
  | .tryReserve index fixed => do
      let binding ← state.bindings[index]?
      some (state.tryReserve binding fixed)
  | .count index => do
      let permit ← state.permitIn index .reserved
      some (state.count index permit)
  | .tryStartAttempt index => do
      let permit ← state.permitIn index .live
      some (state.setPermit index (permit.tryStartAttempt state.revoked))
  | .rollbackBeforeAttempt index => do
      let permit ← state.permitIn index .live
      some (state.setPermit index { permit with phase := .rollingBack })
  | .withdraw index => do
      let permit ← state.permitIn index .rollingBack
      some (state.withdraw index permit)
  | .release index => do
      let permit ← state.permitIn index .withdrawn
      some (state.releaseInFlight index permit .rolledBack)
  | .drop index => do
      let permit ← state.permitIn index .live
      some (state.releaseInFlight index permit .dropped)

end Routing

end Any2Api.Runtime.Credential
