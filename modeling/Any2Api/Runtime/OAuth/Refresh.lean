import Any2Api.Library.Runs
import Any2Api.Runtime.Domain

/-! The refresh of OAuth tokens: callers that find an account due or its token rejected, the
gates that let one of them refresh an account at a time, the publication of the new token, and
the worker that prunes what it has recorded. -/
namespace Any2Api.Runtime.OAuth

open Runs Function

inductive OAuthRefreshTrigger where
  | scheduled
  | authenticationFailure
  deriving DecidableEq

/-- What the snapshot has of the token of an account at one of its versions. -/
inductive TokenMaterial where
  | unavailable
  | withoutRefreshToken
  | refreshable
  deriving DecidableEq

structure FailedRefreshAttempts where
  tokenVersion : Nat
  attempts : Nat
  deriving DecidableEq

/-- Where a call of `prepare_refresh` or `refresh` is. -/
inductive RefreshPhase where
  | entering
  /-- The call has the gate of the account. -/
  | gated
  /-- `try_lock_owned` has failed. -/
  | contended
  /-- The failure count is read. -/
  | counted
  /-- In the queue of the gate, or first in it and not yet resumed. -/
  | queued
  | locked
  /-- The account is published at the version that was observed. -/
  | current
  /-- No permanent rejection of this version was found. -/
  | allowed
  | cleared
  /-- The attempt runs. -/
  | requesting
  | failing (permanent : Bool)
  /-- The call drops the guard of the gate and returns. -/
  | leaving
  | prepared
  /-- The publication runs, and outlives a call that is dropped. -/
  | publishing (abandoned : Bool)
  /-- The publication has ended and is about to drop the gate. -/
  | published (records : Bool)
  /-- `record_refresh_success` is next. -/
  | succeeded
  | forgetting
  | finished
  deriving DecidableEq

namespace RefreshPhase

/-- In line for the gate, as its holder or behind it. -/
def inLine : RefreshPhase → Bool
  | .queued | .locked | .current | .allowed | .cleared | .requesting | .failing _ | .leaving
  | .prepared | .publishing _ | .published _ => true
  | .entering | .gated | .contended | .counted | .succeeded | .forgetting | .finished => false

/-- The call, or its publication, holds the guard of the gate. -/
def holds (phase : RefreshPhase) : Bool := phase.inLine && decide (phase ≠ .queued)

/-- The call has a strong handle of the gate. -/
def live : RefreshPhase → Bool
  | .gated | .contended | .counted => true
  | phase => phase.inLine

/-- Between the start of the request and the end of the publication. -/
def inFlight : RefreshPhase → Bool
  | .requesting | .failing _ | .prepared | .publishing _ | .published _ => true
  | _ => false

end RefreshPhase

structure RefreshCaller where
  account : Nat
  observed : Nat
  trigger : OAuthRefreshTrigger
  phase : RefreshPhase
  gate : Nat
  /-- `waiter_observed_failures`. -/
  reading : Option Nat
  /-- The version that was read under the gate. -/
  read : Option Nat
  attempted : Bool
  deriving DecidableEq

inductive ScanStage where
  | gates
  | rejections
  | attempts
  | done
  deriving DecidableEq

/-- A scan, with the published versions at its start. -/
structure RefreshScan where
  active : Nat → Option Nat
  stage : ScanStage

structure RefreshState where
  callers : List RefreshCaller
  /-- The holder of each gate and, in their order, those who wait for it. -/
  lines : Nat → List Nat
  /-- The weak handles. -/
  gates : Nat → Option Nat
  nextGate : Nat
  published : Nat → Option Nat
  /-- The highest version that has been published. -/
  latest : Nat → Nat
  permanentRejections : Nat → Option Nat
  failedAttempts : Nat → Option FailedRefreshAttempts
  scans : List RefreshScan
  /-- The accounts and versions of all permanent rejections. -/
  rejected : List (Nat × Nat)

inductive CallerAction where
  | gate
  | tryLock
  | readFailures
  | lock
  | wake
  | readSnapshot
  | permanentRejection
  | compareFailures
  /-- The attempt starts, if the account is due or that does not count. -/
  | attempt (due : Bool)
  | fail
  | reject
  | succeed
  | recordFailedAttempt
  | leave
  | startPublication
  | publish (stored : Bool)
  | dropGate
  | forgetRejection
  | forgetAttempts
  /-- The future of the call is dropped. -/
  | cancel
  deriving DecidableEq

inductive RefreshLabel where
  | arrive (account observed : Nat) (trigger : OAuthRefreshTrigger)
  | act (caller : Nat) (action : CallerAction)
  /-- A reauthorization, a new account or a deletion. -/
  | publishExternally (account : Nat) (version : Option Nat)
  | scan
  | pruneGates (scan : Nat)
  | pruneRejections (scan : Nat)
  | pruneAttempts (scan : Nat)
  deriving DecidableEq

namespace RefreshState

def initial : RefreshState where
  callers := []
  lines := fun _ => []
  gates := fun _ => none
  nextGate := 0
  published := fun _ => none
  latest := fun _ => 0
  permanentRejections := fun _ => none
  failedAttempts := fun _ => none
  scans := []
  rejected := []

variable (state : RefreshState) (index : Nat) (caller : RefreshCaller)

def setCaller : RefreshState :=
  { state with callers := state.callers.set index caller }

def strong (callers : List RefreshCaller) (gate : Nat) : Bool :=
  callers.any fun caller => caller.phase.live && decide (caller.gate = gate)

/-- The weak handle can be upgraded. -/
def upgrade (account : Nat) : Option Nat :=
  (state.gates account).filter (strong state.callers)

def failedRefreshAttempts (account tokenVersion : Nat) : Nat :=
  match state.failedAttempts account with
  | some failed => if failed.tokenVersion = tokenVersion then failed.attempts else 0
  | none => 0

def recordFailedAttempt (account tokenVersion : Nat) : RefreshState :=
  { state with
    failedAttempts := update state.failedAttempts account
      (some ⟨tokenVersion, state.failedRefreshAttempts account tokenVersion + 1⟩) }

def setRejection (account : Nat) (version : Option Nat) : RefreshState :=
  { state with permanentRejections := update state.permanentRejections account version }

/-- The guard is dropped, or the caller leaves the queue. -/
def release : RefreshState :=
  { state with
    lines := update state.lines caller.gate ((state.lines caller.gate).erase index) }

def enqueue : RefreshState :=
  { state with
    lines := update state.lines caller.gate (state.lines caller.gate ++ [index]) }

def setPublished (account : Nat) (version : Option Nat) : RefreshState :=
  { state with
    published := update state.published account version
    latest := update state.latest account (version.getD (state.latest account)) }

/-- The publication of a refresh skips accounts that have moved on. -/
def publishRefresh : RefreshState :=
  if state.published caller.account = some caller.observed then
    state.setPublished caller.account (some (caller.observed + 1))
  else
    state

def gate : RefreshState :=
  match state.upgrade caller.account with
  | some gate => state.setCaller index { caller with phase := .gated, gate }
  | none =>
    { state with
      gates := update state.gates caller.account (some state.nextGate)
      nextGate := state.nextGate + 1 }.setCaller index
        { caller with phase := .gated, gate := state.nextGate }

/-- The lookup forgets a rejection of another version. -/
def permanentRejection : RefreshState :=
  if state.permanentRejections caller.account = some caller.observed then
    state.setCaller index { caller with phase := .leaving }
  else
    (state.setRejection caller.account none).setCaller index { caller with phase := .allowed }

/-- A waiter goes on if exactly one attempt has failed since it read the count. -/
def mayRetry : Bool :=
  match caller.reading with
  | none => true
  | some observed =>
    decide (state.failedRefreshAttempts caller.account caller.observed = observed + 1)

def mayAttempt (material : Nat → Nat → TokenMaterial) (caller : RefreshCaller)
    (due : Bool) : Bool :=
  (due || decide (caller.trigger ≠ .scheduled)) &&
    decide (material caller.account caller.observed = .refreshable)

def cancel : Option RefreshState :=
  match caller.phase with
  | .queued | .requesting | .prepared =>
    some ((state.release index caller).setCaller index { caller with phase := .finished })
  | .publishing _ => some (state.setCaller index { caller with phase := .publishing true })
  | .published _ => some (state.setCaller index { caller with phase := .published false })
  | .succeeded => some (state.setCaller index { caller with phase := .finished })
  | _ => none

def act (material : Nat → Nat → TokenMaterial) (state : RefreshState) (index : Nat)
    (caller : RefreshCaller) (action : CallerAction) : Option RefreshState :=
  match action, caller.phase with
  | .gate, .entering => some (state.gate index caller)
  | .tryLock, .gated =>
    if state.lines caller.gate = [] then
      some ((state.enqueue index caller).setCaller index { caller with phase := .locked })
    else
      some (state.setCaller index { caller with phase := .contended })
  | .readFailures, .contended =>
    some (state.setCaller index { caller with
      phase := .counted
      reading := some (state.failedRefreshAttempts caller.account caller.observed) })
  | .lock, .counted =>
    some ((state.enqueue index caller).setCaller index { caller with phase := .queued })
  | .wake, .queued =>
    if (state.lines caller.gate).head? = some index then
      some (state.setCaller index { caller with phase := .locked })
    else
      none
  | .readSnapshot, .locked =>
    let read := state.published caller.account
    some (state.setCaller index { caller with
      phase := if read = some caller.observed then .current else .leaving
      read })
  | .permanentRejection, .current => some (state.permanentRejection index caller)
  | .compareFailures, .allowed =>
    some (state.setCaller index { caller with
      phase := if state.mayRetry caller then .cleared else .leaving })
  | .attempt due, .cleared =>
    if mayAttempt material caller due then
      some (state.setCaller index { caller with phase := .requesting, attempted := true })
    else
      some (state.setCaller index { caller with phase := .leaving })
  | .fail, .requesting => some (state.setCaller index { caller with phase := .failing false })
  | .reject, .requesting =>
    some ({ state.setRejection caller.account (some caller.observed) with
      rejected := (caller.account, caller.observed) :: state.rejected }.setCaller index
        { caller with phase := .failing true })
  | .succeed, .requesting => some (state.setCaller index { caller with phase := .prepared })
  | .recordFailedAttempt, .failing _ =>
    some ((state.recordFailedAttempt caller.account caller.observed).setCaller index
      { caller with phase := .leaving })
  | .leave, .leaving =>
    some ((state.release index caller).setCaller index { caller with phase := .finished })
  | .startPublication, .prepared =>
    some (state.setCaller index { caller with phase := .publishing false })
  | .publish stored, .publishing abandoned =>
    let state := if stored then state.publishRefresh caller else state
    let newer := (state.published caller.account).any (caller.observed < ·)
    some (state.setCaller index
      { caller with phase := .published (stored && newer && !abandoned) })
  | .dropGate, .published records =>
    some ((state.release index caller).setCaller index
      { caller with phase := if records then .succeeded else .finished })
  | .forgetRejection, .succeeded =>
    some ((state.setRejection caller.account none).setCaller index
      { caller with phase := .forgetting })
  | .forgetAttempts, .forgetting =>
    some ({ state with
      failedAttempts := update state.failedAttempts caller.account none }.setCaller index
        { caller with phase := .finished })
  | .cancel, _ => state.cancel index caller
  | _, _ => none

def pruneGates (active : Nat → Option Nat) : RefreshState :=
  { state with
    gates := fun account => (state.gates account).filter fun gate =>
      (active account).isSome || strong state.callers gate }

def pruneRejections (active : Nat → Option Nat) : RefreshState :=
  { state with
    permanentRejections := fun account => (state.permanentRejections account).filter fun version =>
      decide (active account = some version) }

def pruneAttempts (active : Nat → Option Nat) : RefreshState :=
  { state with
    failedAttempts := fun account => (state.failedAttempts account).filter fun failed =>
      decide (active account = some failed.tokenVersion) }

/-- A section of `retain_active_refresh_state`. -/
def prune (stage next : ScanStage)
    (retain : RefreshState → (Nat → Option Nat) → RefreshState) : Option RefreshState := do
  let scan ← state.scans[index]?
  if scan.stage = stage then
    some { retain state scan.active with scans := state.scans.set index ⟨scan.active, next⟩ }
  else
    none

def step (material : Nat → Nat → TokenMaterial) (state : RefreshState) :
    RefreshLabel → Option RefreshState
  | .arrive account observed trigger =>
    -- A caller has the version from a snapshot.
    if observed ≤ state.latest account then
      some { state with
        callers := state.callers ++
          [⟨account, observed, trigger, .entering, 0, none, none, false⟩] }
    else
      none
  | .act index action => do
      let caller ← state.callers[index]?
      state.act material index caller action
  | .publishExternally account version =>
    -- A version is published once.
    if version.all (state.latest account < ·) then some (state.setPublished account version)
    else none
  | .scan => some { state with scans := state.scans ++ [⟨state.published, .gates⟩] }
  | .pruneGates index => state.prune index .gates .rejections pruneGates
  | .pruneRejections index => state.prune index .rejections .attempts pruneRejections
  | .pruneAttempts index => state.prune index .attempts .done pruneAttempts

end RefreshState

end Any2Api.Runtime.OAuth
