import Any2Api.Runtime.Affinity.Bindings

/-! The operations of the affinity registry as programs over the instructions
of the sharded bindings, and the machine that interleaves their calls. -/
namespace Any2Api.Runtime.Affinity

abbrev Prog := Program Answer

inductive InsertRejection where
  | entries
  | continuationBytes
  deriving DecidableEq

inductive AffinityError where
  | capacity
  | identityConflict
  | leaseLost
  | deadlineExceeded
  | continuationCapacity
  | continuationTooLarge
  deriving DecidableEq

def InsertRejection.toError : InsertRejection → AffinityError
  | .entries => .capacity
  | .continuationBytes => .continuationCapacity

abbrev Try := ExceptT AffinityError Prog

/-! Instructions as programs. -/

def instr (i : Instr) : Prog (Answer i) := Program.perform i

def now : Prog Instant := instr .now
def lock (key : SessionHash) : Prog Unit := instr (.lock key)
def visit (shard : Fin shardCount) : Prog Unit := instr (.visit shard)
def unlock (shard : Fin shardCount) : Prog Unit := instr (.unlock shard)
def tryReserveEntry : Prog Bool := instr .reserveEntry
def releaseEntries (count : Nat) : Prog Unit := instr (.releaseEntries count)
def reserveBytes (bytes : Nat) : Prog Bool := instr (.reserveBytes bytes)
def releaseBytes (bytes : Nat) : Prog Unit := instr (.releaseBytes bytes)
def addBytes (bytes : Nat) : Prog Unit := instr (.addBytes bytes)
def nextVersion : Prog Nat := instr .nextVersion
def wakeWaiters : Prog Nat := instr .wake

/-- A section behind the lock of a key. -/
def withLock {α : Type} (key : SessionHash) (body : Fin shardCount → Prog α) : Prog α := do
  lock key
  let result ← body key.shardIndex
  unlock key.shardIndex
  pure result

/-- The shards are visited one at a time, each behind its lock. -/
def forEachShard {σ : Type} (initial : σ) (body : Fin shardCount → σ → Prog σ) : Prog σ :=
  (List.finRange shardCount).foldlM (fun found shard => do
    visit shard
    let found ← body shard found
    unlock shard
    pure found) initial

def tryReserveContinuationBytes (bytes : Nat) : Prog Bool :=
  if bytes = 0 then pure true else reserveBytes bytes

namespace ShardGuard

variable (shard : Fin shardCount) (key : SessionHash)

def get : Prog (Option BindingState) := instr (.get shard key)

def iter : Prog (List (SessionHash × BindingState)) := instr (.iter shard)

/-- `HashMap::insert`, which also stands for a change in place. -/
def insert (state : BindingState) : Prog (Option BindingState) :=
  instr (.insert shard key state)

def tryInsert (state : BindingState) : Prog (Except InsertRejection Unit) := do
  if ← tryReserveEntry then
    if ← tryReserveContinuationBytes (continuationFootprint state) then
      let _ ← insert shard key state
      pure (.ok ())
    else
      releaseEntries 1
      pure (.error .continuationBytes)
  else pure (.error .entries)

/-- The entry must exist; its footprint never grows. -/
def replace (state : BindingState) : Prog Unit := do
  let replaced ← insert shard key state
  let bytes := continuationFootprint state
  let replacedBytes := (replaced.map continuationFootprint).getD 0
  if bytes < replacedBytes then releaseBytes (replacedBytes - bytes)
  else if replacedBytes < bytes then addBytes (bytes - replacedBytes)
  else pure ()

def remove : Prog (Option BindingState) := do
  let removed : Option BindingState ← instr (.remove shard key)
  match removed with
  | none => pure none
  | some entry =>
    releaseEntries 1
    if 0 < continuationFootprint entry then releaseBytes (continuationFootprint entry) else pure ()
    pure (some entry)

def removeIfExpired (now : Instant) (ttl : Duration) : Prog Bool := do
  let expired := (← get shard key).any (·.isExpired now ttl)
  if expired then
    let _ ← remove shard key
    pure true
  else pure false

def removeAll (keys : List SessionHash) : Prog PUnit :=
  keys.forM fun key => do
    let _ ← remove shard key
    pure ⟨⟩

def expiredKeys (entries : List (SessionHash × BindingState)) (now : Instant) (ttl : Duration) :
    List SessionHash :=
  (entries.filter fun entry => entry.2.isExpired now ttl).map Prod.fst

def removeExpired (now : Instant) (ttl : Duration) : Prog Nat := do
  let expired := expiredKeys (← iter shard) now ttl
  removeAll shard expired
  pure expired.length

def reclaimSample : Nat := 8

def reclaimExpiredSample (now : Instant) (ttl : Duration) : Prog PUnit := do
  let expired := expiredKeys ((← iter shard).take reclaimSample) now ttl
  removeAll shard expired

def clear : Prog Nat := do
  let entries ← iter shard
  let bytes := (entries.map fun entry => continuationFootprint entry.2).sum
  let () ← instr (.clear shard)
  releaseEntries entries.length
  if 0 < bytes then releaseBytes bytes else pure ()
  pure entries.length

end ShardGuard

open ShardGuard

def removeExpiredAll (now : Instant) (ttl : Duration) : Prog Nat :=
  forEachShard 0 fun shard removed => do pure (removed + (← removeExpired shard now ttl))

def maxWord : Nat := wordSize - 1

variable (settings : Settings)

def elapsedMillis (now : Instant) : Nat :=
  min ((now - settings.createdAt) / millis 1) maxWord

def futileReclaimThrottleMillis : Nat := 1000

def reclaimForCapacity (now : Instant) (ttl : Duration) : Prog Bool := do
  let elapsed := elapsedMillis settings now
  let lastFutile : Nat ← instr .loadFutileReclaim
  if lastFutile ≠ 0 ∧ elapsed - (lastFutile - 1) < futileReclaimThrottleMillis then pure false
  else
    let removed ← removeExpiredAll now ttl
    let () ← instr (.storeFutileReclaim (if removed = 0 then min (elapsed + 1) maxWord else 0))
    pure (0 < removed)

/-- A section that ends without room for its entry is repeated at most
`retries` times, after a full reclaim. -/
def insertLoop {α : Type} (settings : Settings) (now : Instant) (ttl : Duration)
    (toError : InsertRejection → AffinityError)
    (attempt : Prog (Except AffinityError (Except InsertRejection α))) :
    (retries : Nat) → Prog (Except AffinityError α)
  | 0 => do
      match ← attempt with
      | .error error => pure (.error error)
      | .ok (.ok result) => pure (.ok result)
      | .ok (.error rejection) => pure (.error (toError rejection))
  | retries + 1 => do
      match ← attempt with
      | .error error => pure (.error error)
      | .ok (.ok result) => pure (.ok result)
      | .ok (.error rejection) =>
        if ← reclaimForCapacity settings now ttl then
          insertLoop settings now ttl toError attempt retries
        else pure (.error (toError rejection))

/-- A deadline that has been reached is an error; without a deadline the clock
is not read. -/
def checkDeadline : Option Instant → Try Unit
  | none => pure ()
  | some deadline => do if deadline ≤ (← now) then throw .deadlineExceeded else pure ()

/-! Sessions. -/

structure BindingLease where
  key : SessionHash
  version : Nat
  active : Bool
  deriving DecidableEq

inductive BindingStart where
  | create (lease : BindingLease)
  | wait (phase : BindingCreationPhase)
  | bound (target : AffinityTarget)
  deriving DecidableEq

def createSession (shard : Fin shardCount) (key : SessionHash) (now : Instant) (ttl : Duration) :
    Prog (Except InsertRejection BindingStart) := do
  reclaimExpiredSample shard now ttl
  let version ← nextVersion
  match ← tryInsert shard key (.creating version .selecting) with
  | .ok () => pure (.ok (.create ⟨key, version, true⟩))
  | .error rejection => pure (.error rejection)

def beginSessionLocked (key : SessionHash) (now : Instant) (ttl : Duration)
    (shard : Fin shardCount) : Prog (Except InsertRejection BindingStart) := do
  match ← get shard key with
  | some (.bound binding) =>
    if now - binding.lastSeenAt < ttl then
      let _ ← insert shard key (.bound { binding with lastSeenAt := now })
      pure (.ok (.bound binding.target))
    else
      let _ ← remove shard key
      createSession shard key now ttl
  | some (.creating _ phase) => pure (.ok (.wait phase))
  | none => createSession shard key now ttl

def beginSession (key : SessionHash) (ttl : Duration) :
    Prog (Except AffinityError BindingStart) := do
  let now ← now
  insertLoop settings now ttl (fun _ => .capacity)
    (.ok <$> withLock key (beginSessionLocked key now ttl)) 1

namespace BindingLease

variable (lease : BindingLease)

def markAttempting : Prog (Except AffinityError Unit) := do
  let marked ← withLock lease.key fun shard => do
    match ← get shard lease.key with
    | some (.creating version _) =>
      if version = lease.version then
        let _ ← insert shard lease.key (.creating version .attempting)
        pure true
      else pure false
    | _ => pure false
  if marked then
    let _ ← wakeWaiters
    pure (.ok ())
  else pure (.error .leaseLost)

def removeCurrent : Prog Bool :=
  if lease.active then
    withLock lease.key fun shard => do
      match ← get shard lease.key with
      | some (.creating version _) =>
        if version = lease.version then
          let _ ← remove shard lease.key
          pure true
        else pure false
      | _ => pure false
  else pure false

def releaseForWait : Prog (Except AffinityError Nat) := do
  if ← lease.removeCurrent then pure (.ok (← wakeWaiters)) else pure (.error .leaseLost)

def drop : Prog Unit := do
  if ← lease.removeCurrent then
    let _ ← wakeWaiters
    pure ()
  else pure ()

def commitLocked (target : AffinityTarget) (committedAt : Instant)
    (deadline : Option Instant) (shard : Fin shardCount) : Try Unit := do
  checkDeadline deadline
  match ← get shard lease.key with
  | some (.creating version .attempting) =>
    if version = lease.version then
      checkDeadline deadline
      replace shard lease.key (.bound ⟨target, committedAt, .session⟩)
    else throw .leaseLost
  | _ => throw .leaseLost

/-- The body of `commit`. -/
def tryCommit (target : AffinityTarget) (deadline : Option Instant) :
    Prog (Except AffinityError Unit) := do
  let committedAt ← now
  if deadline.any (· ≤ committedAt) then pure (.error .deadlineExceeded)
  else withLock lease.key fun shard => (commitLocked lease target committedAt deadline shard).run

/-- The lease is consumed: when it was not committed, it is dropped. -/
def commit (target : AffinityTarget) (deadline : Option Instant) :
    Prog (Except AffinityError Unit) := do
  match ← lease.tryCommit target deadline with
  | .ok () =>
    let _ ← wakeWaiters
    pure (.ok ())
  | .error error =>
    lease.drop
    pure (.error error)

end BindingLease

/-! Continuations. -/

structure ResolvedContinuation where
  target : AffinityTarget
  state : Option ContinuationState
  deriving DecidableEq

inductive ContinuationLookup where
  | missing
  | pending
  | ready (resolved : ResolvedContinuation)
  deriving DecidableEq

structure ContinuationLease where
  key : SessionHash
  version : Nat
  target : AffinityTarget
  active : Bool
  deriving DecidableEq

def checkedStateBytes (continuation : Option ContinuationState) : Except AffinityError Nat :=
  let bytes := (continuation.map ContinuationState.serializedBytes).getD 0
  if bytes ≤ maxContinuationStateBytes then .ok bytes else .error .continuationTooLarge

def resolveContinuation (key : SessionHash) (ttl : Duration)
    (targetIsAvailable : AffinityTarget → Bool) : Prog ContinuationLookup := do
  let now ← now
  withLock key fun shard => do
    match ← get shard key with
    | some (.bound binding) =>
      match binding.source with
      | .continuation (.pending _) => pure .pending
      | .continuation (.ready state) =>
        if ttl ≤ now - binding.lastSeenAt then
          let _ ← remove shard key
          pure .missing
        else if targetIsAvailable binding.target then
          let _ ← insert shard key (.bound { binding with lastSeenAt := now })
          pure (.ready ⟨binding.target, state⟩)
        else pure .missing
      | .session => pure .missing
    | _ => pure .missing

def bindReadyLocked (key : SessionHash) (target : AffinityTarget)
    (continuation : Option ContinuationState) (now : Instant) (ttl : Duration)
    (deadline : Option Instant) (shard : Fin shardCount) :
    Try (Except InsertRejection Unit) := do
  checkDeadline deadline
  let _ ← removeIfExpired shard key now ttl
  match ← get shard key with
  | some (.creating _ _) => throw .identityConflict
  | some (.bound binding) =>
    if binding.target = target ∧ continuation = none ∧
        binding.source = .continuation (.ready none) then
      checkDeadline deadline
      let seenAt ← Affinity.now
      let _ ← insert shard key (.bound { binding with lastSeenAt := seenAt })
      pure (.ok ())
    else throw .identityConflict
  | none =>
    reclaimExpiredSample shard now ttl
    checkDeadline deadline
    let seenAt ← Affinity.now
    tryInsert shard key (.bound ⟨target, seenAt, .continuation (.ready continuation)⟩)

def bindReadyContinuation (key : SessionHash) (target : AffinityTarget)
    (continuation : Option ContinuationState) (ttl : Duration) (deadline : Option Instant) :
    Try Unit := do
  checkDeadline deadline
  let _ ← checkedStateBytes continuation
  let now ← now
  ExceptT.mk (insertLoop settings now ttl InsertRejection.toError
    (withLock key fun shard =>
      (bindReadyLocked key target continuation now ttl deadline shard).run) 1)

def beginPendingLocked (key : SessionHash) (target : AffinityTarget) (now : Instant)
    (ttl : Duration) (deadline : Option Instant) (shard : Fin shardCount) :
    Try (Except InsertRejection ContinuationLease) := do
  checkDeadline deadline
  let _ ← removeIfExpired shard key now ttl
  match ← get shard key with
  | some _ => throw .identityConflict
  | none =>
    reclaimExpiredSample shard now ttl
    checkDeadline deadline
    let version ← nextVersion
    let seenAt ← Affinity.now
    match ← tryInsert shard key (.bound ⟨target, seenAt, .continuation (.pending version)⟩) with
    | .ok () => pure (.ok ⟨key, version, target, true⟩)
    | .error rejection => pure (.error rejection)

def beginPendingContinuation (key : SessionHash) (target : AffinityTarget)
    (ttl : Duration) (deadline : Option Instant) : Try ContinuationLease := do
  checkDeadline deadline
  let now ← now
  ExceptT.mk (insertLoop settings now ttl InsertRejection.toError
    (withLock key fun shard => (beginPendingLocked key target now ttl deadline shard).run) 1)

namespace ContinuationLease

def readyLocked (lease : ContinuationLease) (continuation : Option ContinuationState)
    (deadline : Option Instant) (shard : Fin shardCount) : Try Unit := do
  checkDeadline deadline
  match ← get shard lease.key with
  | some (.bound ⟨target, _, .continuation (.pending version)⟩) =>
    if target = lease.target ∧ version = lease.version then
      let seenAt ← now
      replace shard lease.key (.bound ⟨lease.target, seenAt, .continuation (.ready continuation)⟩)
    else throw .leaseLost
  | _ => throw .leaseLost

/-- The lease is no longer active once its entry is ready. -/
def ready (lease : ContinuationLease) (continuation : Option ContinuationState)
    (deadline : Option Instant) : Try ContinuationLease := do
  checkDeadline deadline
  let _ ← checkedStateBytes continuation
  ExceptT.mk (withLock lease.key fun shard => (lease.readyLocked continuation deadline shard).run)
  let _ ← wakeWaiters
  pure { lease with active := false }

def drop (lease : ContinuationLease) : Prog Unit :=
  if lease.active then do
    let current ← withLock lease.key fun shard => do
      match ← get shard lease.key with
      | some (.bound ⟨_, _, .continuation (.pending version)⟩) =>
        if version = lease.version then
          let _ ← remove shard lease.key
          pure true
        else pure false
      | _ => pure false
    if current then
      let _ ← wakeWaiters
      pure ()
    else pure ()
  else pure ()

end ContinuationLease

/-! Maintenance. -/

/-- Someone waits for an entry that is being created or is pending. -/
def BindingState.isWaitedFor : BindingState → Bool
  | .creating _ _ => true
  | .bound binding => binding.isPendingContinuation

def BindingState.isBoundTo (credential : RoutingCredentialId) : BindingState → Bool
  | .creating _ _ => false
  | .bound binding => binding.target.credentialId = credential

def clearAll : Prog Nat := do
  let (cleared, waiting) ← forEachShard (0, false) fun shard (cleared, waiting) => do
    let waiting := waiting || (← iter shard).any fun entry => entry.2.isWaitedFor
    pure (cleared + (← clear shard), waiting)
  if waiting then
    let _ ← wakeWaiters
    pure cleared
  else pure cleared

def clearCredential (credential : RoutingCredentialId) : Prog Nat := do
  let (cleared, waiting) ← forEachShard (0, false) fun shard (cleared, waiting) => do
    let removed := (← iter shard).filter fun entry => entry.2.isBoundTo credential
    removeAll shard (removed.map Prod.fst)
    pure (cleared + removed.length, waiting || removed.any fun entry => entry.2.isWaitedFor)
  if waiting then
    let _ ← wakeWaiters
    pure cleared
  else pure cleared

def sweepExpired (ttl : Duration) : Prog Nat := do removeExpiredAll (← now) ttl

structure AffinityRuntimeSnapshot where
  activeSessionCount : Nat
  creatingSessionCount : Nat
  deriving DecidableEq

def snapshot (ttl : Duration) (enabled : Bool) : Prog AffinityRuntimeSnapshot := do
  let now ← now
  forEachShard ⟨0, 0⟩ fun shard counts => do
    let _ ← removeExpired shard now ttl
    if enabled then
      let entries ← iter shard
      pure ⟨counts.activeSessionCount + entries.countP fun entry => match entry.2 with
          | .bound binding => binding.source = .session
          | .creating _ _ => false,
        counts.creatingSessionCount + entries.countP fun entry => match entry.2 with
          | .bound _ => false
          | .creating _ _ => true⟩
    else pure counts

/-! Calls. -/

inductive Call where
  | beginSession (dialect : ProtocolDialect) (routeId : Nat) (raw : String) (ttl : Duration)
  | markAttempting (lease : BindingLease)
  | releaseForWait (lease : BindingLease)
  | commit (lease : BindingLease) (target : AffinityTarget) (deadline : Option Instant)
  | dropLease (lease : BindingLease)
  | resolveContinuation (raw : String) (ttl : Duration) (targetIsAvailable : AffinityTarget → Bool)
  | bindReady (raw : String) (target : AffinityTarget) (continuation : Option ContinuationState)
      (ttl : Duration) (deadline : Option Instant)
  | beginPending (raw : String) (target : AffinityTarget) (ttl : Duration)
      (deadline : Option Instant)
  | ready (lease : ContinuationLease) (continuation : Option ContinuationState)
      (deadline : Option Instant)
  | dropContinuation (lease : ContinuationLease)
  | clearAll
  | clearCredential (credential : RoutingCredentialId)
  | sweepExpired (ttl : Duration)
  | snapshot (ttl : Duration) (enabled : Bool)

def Result : Call → Type
  | .beginSession _ _ _ _ => Except AffinityError BindingStart
  | .markAttempting _ | .commit _ _ _ | .bindReady _ _ _ _ _ => Except AffinityError Unit
  | .releaseForWait _ => Except AffinityError Nat
  | .dropLease _ | .dropContinuation _ => Unit
  | .resolveContinuation _ _ _ => ContinuationLookup
  | .beginPending _ _ _ _ | .ready _ _ _ => Except AffinityError ContinuationLease
  | .clearAll | .clearCredential _ | .sweepExpired _ => Nat
  | .snapshot _ _ => AffinityRuntimeSnapshot

def body : (call : Call) → Prog (Result call)
  | .beginSession dialect routeId raw ttl =>
    beginSession settings (settings.hasher.session dialect routeId raw) ttl
  | .markAttempting lease => lease.markAttempting
  | .releaseForWait lease => lease.releaseForWait
  | .commit lease target deadline => lease.commit target deadline
  | .dropLease lease => lease.drop
  | .resolveContinuation raw ttl targetIsAvailable =>
    resolveContinuation (settings.hasher.continuation raw) ttl targetIsAvailable
  | .bindReady raw target continuation ttl deadline =>
    (bindReadyContinuation settings (settings.hasher.continuation raw) target continuation ttl
      deadline).run
  | .beginPending raw target ttl deadline =>
    (beginPendingContinuation settings (settings.hasher.continuation raw) target ttl deadline).run
  | .ready lease continuation deadline => (lease.ready continuation deadline).run
  | .dropContinuation lease => lease.drop
  | .clearAll => clearAll
  | .clearCredential credential => clearCredential credential
  | .sweepExpired ttl => sweepExpired ttl
  | .snapshot ttl enabled => snapshot ttl enabled

/-- A lease can be used once it was handed out. -/
def Call.usable {ι : Type} (s : ShardedBindings ι) : Call → Bool
  | .markAttempting lease | .releaseForWait lease | .commit lease _ _ | .dropLease lease =>
    ⟨lease.key, lease.version⟩ ∈ s.sessionLeases
  | .ready lease _ _ | .dropContinuation lease =>
    ⟨lease.key, lease.version⟩ ∈ s.continuationLeases
  | _ => true

/-- The registry, its callers and a clock that goes on between instructions. -/
def registry (ι : Type) [DecidableEq ι] (settings : Settings) : Machine ι where
  State := ShardedBindings ι
  Instr := Instr
  Answer := Answer
  Choice := List SessionHash
  Call := Call
  Result := Result
  Event := Duration
  perform := perform settings
  body := body settings
  enter thread call s :=
    if call.usable s then
      some (s.setNote thread
        { s.notes thread with drawn := none, visited := none, committed := false })
    else none
  react elapsed s := some { s with clock := s.clock + elapsed }

end Any2Api.Runtime.Affinity
