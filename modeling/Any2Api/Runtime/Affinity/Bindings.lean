import Any2Api.Library.Threads
import Any2Api.Runtime.Domain

/-! The session and continuation bindings, split over independently locked
shards with two global counters. An instruction is one access to what threads
share: a lock, the map behind a lock, an atomic counter, the clock. -/
namespace Any2Api.Runtime.Affinity

structure AffinityTarget where
  routeId : Nat
  targetId : Nat
  credentialId : RoutingCredentialId
  upstreamModel : String
  ingressProtocolDialect : ProtocolDialect
  upstreamProtocolDialect : ProtocolDialect
  deriving DecidableEq

/-- `MAX_BRIDGE_CONTINUATION_STATE_BYTES` -/
def maxContinuationStateBytes : Nat := 16 * 1024 * 1024

/-- A state that the protocol stores for a continuation: the object, which the
runtime never looks into, and its size, checked when it was built. -/
structure ContinuationState where
  object : Nat
  serializedBytes : Nat
  bounded : serializedBytes ≤ maxContinuationStateBytes
  deriving DecidableEq

inductive BindingCreationPhase where
  | selecting
  | attempting
  deriving DecidableEq

inductive ContinuationLifecycle where
  | pending (version : Nat)
  | ready (state : Option ContinuationState)
  deriving DecidableEq

inductive BindingSource where
  | session
  | continuation (lifecycle : ContinuationLifecycle)
  deriving DecidableEq

structure TimedBinding where
  target : AffinityTarget
  lastSeenAt : Instant
  source : BindingSource
  deriving DecidableEq

inductive BindingState where
  | creating (version : Nat) (phase : BindingCreationPhase)
  | bound (binding : TimedBinding)
  deriving DecidableEq

def TimedBinding.isPendingContinuation (binding : TimedBinding) : Bool :=
  match binding.source with
  | .continuation (.pending _) => true
  | _ => false

def BindingState.isExpired (entry : BindingState) (now : Instant) (ttl : Duration) : Bool :=
  match entry with
  | .creating _ _ => false
  | .bound binding => !binding.isPendingContinuation && decide (ttl ≤ now - binding.lastSeenAt)

def continuationFootprint : BindingState → Nat
  | .creating _ _ => 0
  | .bound binding =>
    match binding.source with
    | .session => 0
    | .continuation (.pending _) => maxContinuationStateBytes
    | .continuation (.ready state) => (state.map ContinuationState.serializedBytes).getD 0

def shardCount : Nat := 16

structure SessionHash where
  bytes : List UInt8
  size : bytes.length = 32
  deriving DecidableEq

def SessionHash.shardIndex (key : SessionHash) : Fin shardCount :=
  ⟨(key.bytes.headD 0).toNat % shardCount, Nat.mod_lt _ (by decide)⟩

/-- The keyed hash of session and continuation identities. -/
structure SessionHasher where
  session : ProtocolDialect → Nat → String → SessionHash
  continuation : String → SessionHash

abbrev Shard := Finmap fun _ : SessionHash => BindingState

/-- What a shard adds to the two counters: its entries and their bytes. -/
def weight (shard : Shard) : Nat × Nat :=
  (shard.entries.map fun entry => (1, continuationFootprint entry.2)).sum

structure Lease where
  key : SessionHash
  version : Nat
  deriving DecidableEq

/-! The state. Fields marked as history are not in the program: they record
what the statements about runs speak of, and no instruction reads them. -/

/-- What a thread found and left behind a lock that it took for a key. -/
structure Section where
  key : SessionHash
  found : Shard
  left : Shard
  /-- The last binding of the key as a continuation, when the lock was released. -/
  bound : Option (AffinityTarget × Option ContinuationState)
  releasedAt : Instant

/-- History of a thread. -/
structure Note where
  /-- What the thread has counted and does not store, in entries and bytes. -/
  reserved : Nat × Nat := 0
  /-- The last instant that it read. -/
  reading : Instant := 0
  /-- A version that it drew for the entry it is about to store. -/
  drawn : Option Nat := none
  /-- The last section of the current call. -/
  visited : Option Section := none
  /-- The current call has bound a session or a continuation. -/
  committed : Bool := false

/-! History of an entry that is stored in the place of another. -/

def sessionLeasesOf (key : SessionHash) : Option BindingState → BindingState → List Lease
  | none, .creating version _ => [⟨key, version⟩]
  | _, _ => []

def continuationLeasesOf (key : SessionHash) : Option BindingState → BindingState → List Lease
  | none, .bound ⟨_, _, .continuation (.pending version)⟩ => [⟨key, version⟩]
  | _, _ => []

def boundBy : Option BindingState → BindingState →
    Option (AffinityTarget × Option ContinuationState)
  | none, .bound ⟨target, _, .continuation (.ready state)⟩ => some (target, state)
  | some (.bound ⟨_, _, .continuation (.pending _)⟩),
      .bound ⟨target, _, .continuation (.ready state)⟩ => some (target, state)
  | _, _ => none

def Note.store (note : Note) (old : Option BindingState) (state : BindingState) : Note :=
  match old, state with
  | none, .bound ⟨_, _, .continuation (.ready _)⟩ => { note with drawn := none, committed := true }
  | none, _ => { note with drawn := none }
  | some (.creating _ _), .bound _ => { note with committed := true }
  | some (.bound ⟨_, _, .continuation (.pending _)⟩), .bound ⟨_, _, .continuation (.ready _)⟩ =>
    { note with committed := true }
  | _, _ => note

structure ShardState (ι : Type) where
  entries : Shard
  holder : Option ι
  /-- History: what the holder found, and the key it looked for. -/
  found : Shard
  sought : Option SessionHash

structure ShardedBindings (ι : Type) where
  shards : Fin shardCount → ShardState ι
  entryCount : Nat
  continuationBytes : Nat
  /-- How many versions were drawn; `next_version` is this number modulo `2 ^ 64`. -/
  versions : Nat
  lastFutileReclaim : Nat
  schedulerEpoch : Nat
  clock : Instant
  /-- History. -/
  notes : ι → Note
  /-- History: the leases of sessions, as they were handed out. -/
  sessionLeases : List Lease
  /-- History: the leases of pending continuations, as they were handed out. -/
  continuationLeases : List Lease
  /-- History: the last binding of a key as a continuation. -/
  bound : SessionHash → Option (AffinityTarget × Option ContinuationState)

structure Settings where
  hasher : SessionHasher
  maxEntries : Nat
  maxContinuationBytes : Nat
  createdAt : Instant
  maxEntries_lt : maxEntries < wordSize
  maxContinuationBytes_lt : maxContinuationBytes < wordSize

variable {ι : Type} [DecidableEq ι]

namespace ShardedBindings

def new (ι : Type) (settings : Settings) : ShardedBindings ι where
  shards := fun _ => ⟨∅, none, ∅, none⟩
  entryCount := 0
  continuationBytes := 0
  versions := 0
  lastFutileReclaim := 0
  schedulerEpoch := 0
  clock := settings.createdAt
  notes := fun _ => {}
  sessionLeases := []
  continuationLeases := []
  bound := fun _ => none

variable (s : ShardedBindings ι)

def entries (shard : Fin shardCount) : Shard := (s.shards shard).entries

def lookup (key : SessionHash) : Option BindingState :=
  (s.entries key.shardIndex).lookup key

def setNote (thread : ι) (note : Note) : ShardedBindings ι :=
  { s with notes := Function.update s.notes thread note }

def setShard (shard : Fin shardCount) (state : ShardState ι) : ShardedBindings ι :=
  { s with shards := Function.update s.shards shard state }

def acquire (thread : ι) (shard : Fin shardCount)
    (sought : Option SessionHash) : ShardedBindings ι :=
  s.setShard shard ⟨s.entries shard, some thread, s.entries shard, sought⟩

/-- Releasing a shard; a lock taken for a key leaves its section in the history. -/
def release (thread : ι) (shard : Fin shardCount) : ShardedBindings ι :=
  let state := s.shards shard
  let note := s.notes thread
  let note := match state.sought with
    | none => note
    | some key =>
      { note with visited := some ⟨key, state.found, state.entries, s.bound key, s.clock⟩ }
  (s.setShard shard { state with holder := none }).setNote thread note

/-- The map behind a lock becomes `next`; what it counts less is reserved. -/
def write (thread : ι) (shard : Fin shardCount) (next : Shard) (note : Note) : ShardedBindings ι :=
  (s.setShard shard { s.shards shard with entries := next }).setNote thread
    { note with reserved := note.reserved + weight (s.entries shard) - weight next }

def store (thread : ι) (shard : Fin shardCount) (key : SessionHash)
    (state : BindingState) : ShardedBindings ι :=
  let old := (s.entries shard).lookup key
  { s.write thread shard ((s.entries shard).insert key state)
      ((s.notes thread).store old state) with
    sessionLeases := s.sessionLeases ++ sessionLeasesOf key old state
    continuationLeases := s.continuationLeases ++ continuationLeasesOf key old state
    bound := match boundBy old state with
      | some binding => Function.update s.bound key (some binding)
      | none => s.bound }

end ShardedBindings

/-! Instructions. -/

inductive Instr where
  | now
  | lock (key : SessionHash)
  | visit (shard : Fin shardCount)
  | unlock (shard : Fin shardCount)
  | get (shard : Fin shardCount) (key : SessionHash)
  | iter (shard : Fin shardCount)
  | insert (shard : Fin shardCount) (key : SessionHash) (state : BindingState)
  | remove (shard : Fin shardCount) (key : SessionHash)
  | clear (shard : Fin shardCount)
  | reserveEntry
  | releaseEntries (count : Nat)
  | reserveBytes (bytes : Nat)
  | releaseBytes (bytes : Nat)
  | addBytes (bytes : Nat)
  | nextVersion
  | loadFutileReclaim
  | storeFutileReclaim (marker : Nat)
  | wake

def Answer : Instr → Type
  | .now | .nextVersion | .loadFutileReclaim | .wake => Nat
  | .get _ _ | .insert _ _ _ | .remove _ _ => Option BindingState
  | .iter _ => List (SessionHash × BindingState)
  | .reserveEntry | .reserveBytes _ => Bool
  | _ => Unit

/-- An atomic decrement of a `usize`, which wraps around. -/
def fetchSub (counter amount : Nat) : Nat := (counter + (wordSize - amount % wordSize)) % wordSize

/-- The value of `next_version` when `drawn` versions were drawn before. -/
def versionAt (drawn : Nat) : Nat := max ((drawn % wordSize + 1) % wordSize) 1

/-- The order in which a hash map yields its entries is up to the environment. -/
def inOrder (entries : Shard) (order : List SessionHash) :
    Option (List (SessionHash × BindingState)) :=
  if order.Nodup ∧ order.toFinset = entries.keys then
    some (order.filterMap fun key => (entries.lookup key).map fun entry => (key, entry))
  else none

/-- What an instruction does. Only the holder of a shard reaches its map, and
only taking a lock can wait. -/
def perform (settings : Settings) (thread : ι) (order : List SessionHash) :
    (instr : Instr) → ShardedBindings ι → Option (Answer instr × ShardedBindings ι)
  | .now, s => some (s.clock, s.setNote thread { s.notes thread with reading := s.clock })
  | .lock key, s =>
    match (s.shards key.shardIndex).holder with
    | some _ => none
    | none => some ((), s.acquire thread key.shardIndex (some key))
  | .visit shard, s =>
    match (s.shards shard).holder with
    | some _ => none
    | none => some ((), s.acquire thread shard none)
  | .unlock shard, s =>
    some ((), if (s.shards shard).holder = some thread then s.release thread shard else s)
  | .get shard key, s =>
    some (if (s.shards shard).holder = some thread then (s.entries shard).lookup key else none, s)
  | .iter shard, s =>
    if (s.shards shard).holder = some thread then
      (inOrder (s.entries shard) order).map fun entries => (entries, s)
    else some ([], s)
  | .insert shard key state, s =>
    if (s.shards shard).holder = some thread then
      some ((s.entries shard).lookup key, s.store thread shard key state)
    else some (none, s)
  | .remove shard key, s =>
    if (s.shards shard).holder = some thread then
      some ((s.entries shard).lookup key,
        s.write thread shard ((s.entries shard).erase key) (s.notes thread))
    else some (none, s)
  | .clear shard, s =>
    some ((), if (s.shards shard).holder = some thread then
      s.write thread shard ∅ (s.notes thread) else s)
  | .reserveEntry, s =>
    let note := s.notes thread
    if s.entryCount < settings.maxEntries then
      some (true, ShardedBindings.setNote { s with entryCount := s.entryCount + 1 } thread
        { note with reserved := note.reserved + (1, 0) })
    else some (false, s)
  | .releaseEntries count, s =>
    let note := s.notes thread
    some ((), ShardedBindings.setNote { s with entryCount := fetchSub s.entryCount count } thread
      { note with reserved := note.reserved - (count, 0) })
  | .reserveBytes bytes, s =>
    let note := s.notes thread
    if s.continuationBytes + bytes ≤ settings.maxContinuationBytes then
      some (true, ShardedBindings.setNote
        { s with continuationBytes := s.continuationBytes + bytes } thread
        { note with reserved := note.reserved + (0, bytes) })
    else some (false, s)
  | .releaseBytes bytes, s =>
    let note := s.notes thread
    some ((), ShardedBindings.setNote
      { s with continuationBytes := fetchSub s.continuationBytes bytes } thread
      { note with reserved := note.reserved - (0, bytes) })
  | .addBytes bytes, s =>
    let note := s.notes thread
    some ((), ShardedBindings.setNote
      { s with continuationBytes := (s.continuationBytes + bytes) % wordSize } thread
      { note with reserved := note.reserved + (0, bytes) })
  | .nextVersion, s =>
    some (versionAt s.versions, ShardedBindings.setNote { s with versions := s.versions + 1 } thread
      { s.notes thread with drawn := some (versionAt s.versions) })
  | .loadFutileReclaim, s => some (s.lastFutileReclaim, s)
  | .storeFutileReclaim marker, s => some ((), { s with lastFutileReclaim := marker })
  | .wake, s => some (s.schedulerEpoch + 1, { s with schedulerEpoch := s.schedulerEpoch + 1 })

/-! What maps count. -/

section Weights

@[simp] theorem weight_empty : weight ∅ = 0 := rfl

variable {shard : Shard} {key : SessionHash} {state : BindingState}

/-- A new entry adds its footprint. -/
theorem weight_insert (h : shard.lookup key = none) (state : BindingState) :
    weight (shard.insert key state) = weight shard + (1, continuationFootprint state) := by
  unfold weight
  rw [Finmap.entries_insert_of_notMem (Finmap.lookup_eq_none.mp h), Multiset.map_cons,
    Multiset.sum_cons, add_comm]

theorem insert_erase (shard : Shard) (key : SessionHash) (state : BindingState) :
    (shard.erase key).insert key state = shard.insert key state := by
  apply Finmap.ext_lookup
  intro other
  rcases eq_or_ne other key with rfl | hOther
  · rw [Finmap.lookup_insert, Finmap.lookup_insert]
  · rw [Finmap.lookup_insert_of_ne _ hOther, Finmap.lookup_insert_of_ne _ hOther,
      Finmap.lookup_erase_ne hOther]

theorem insert_lookup (h : shard.lookup key = some state) : shard.insert key state = shard := by
  apply Finmap.ext_lookup
  intro other
  rcases eq_or_ne other key with rfl | hOther
  · rw [Finmap.lookup_insert, h]
  · rw [Finmap.lookup_insert_of_ne _ hOther]

theorem weight_erase (h : shard.lookup key = some state) :
    weight shard = weight (shard.erase key) + (1, continuationFootprint state) := by
  rw [← weight_insert (Finmap.lookup_erase key shard), insert_erase, insert_lookup h]

theorem erase_absent (h : shard.lookup key = none) : shard.erase key = shard := by
  apply Finmap.ext_lookup
  intro other
  rcases eq_or_ne other key with rfl | hOther
  · rw [Finmap.lookup_erase, h]
  · rw [Finmap.lookup_erase_ne hOther]

theorem weight_replace {old : BindingState}
    (h : shard.lookup key = some old) (state : BindingState) :
    weight (shard.insert key state) + (0, continuationFootprint old) =
      weight shard + (0, continuationFootprint state) := by
  rw [← insert_erase, weight_insert (Finmap.lookup_erase key shard), weight_erase h]
  apply Prod.ext
  · simp
  · simp only [Prod.snd_add]
    omega

variable {order : List SessionHash} {entries : List (SessionHash × BindingState)}

/-- The entries in some order are those of the map, each once. -/
theorem inOrder_eq_some (h : inOrder shard order = some entries) :
    (entries.map Prod.fst).Nodup ∧
      ∀ key entry, (key, entry) ∈ entries ↔ shard.lookup key = some entry := by
  unfold inOrder at h
  split_ifs at h with hOrder
  rw [← Option.some.inj h]
  constructor
  · refine hOrder.1.sublist ?_
    clear h hOrder
    induction order with
    | nil => exact List.Sublist.refl []
    | cons key order ih =>
      cases hKey : shard.lookup key with
      | none =>
        rw [List.filterMap_cons_none (by rw [hKey, Option.map_none])]
        exact ih.cons key
      | some entry =>
        rw [List.filterMap_cons_some (by rw [hKey, Option.map_some])]
        exact ih.cons_cons key
  · intro key entry
    constructor
    · intro hMem
      obtain ⟨other, -, hOther⟩ := List.mem_filterMap.mp hMem
      obtain ⟨found, hFound, hPair⟩ := Option.map_eq_some_iff.mp hOther
      cases hPair
      exact hFound
    · intro hLookup
      refine List.mem_filterMap.mpr ⟨key, ?_, by rw [hLookup, Option.map_some]⟩
      rw [← List.mem_toFinset, hOrder.2, Finmap.mem_keys]
      exact Finmap.mem_of_lookup_eq_some hLookup

theorem inOrder_weight (h : inOrder shard order = some entries) :
    weight shard =
      (entries.length, (entries.map fun entry => continuationFootprint entry.2).sum) := by
  obtain ⟨hNodup, hMem⟩ := inOrder_eq_some h
  clear h
  induction entries generalizing shard with
  | nil =>
    have hEmpty : shard = ∅ := by
      apply Finmap.ext_lookup
      intro key
      rw [Finmap.lookup_empty, Option.eq_none_iff_forall_ne_some]
      intro entry hEntry
      exact List.not_mem_nil ((hMem key entry).mpr hEntry)
    rw [hEmpty]
    rfl
  | cons entry entries ih =>
    obtain ⟨key, state⟩ := entry
    rw [List.map_cons, List.nodup_cons] at hNodup
    have hState : shard.lookup key = some state := (hMem key state).mp List.mem_cons_self
    rw [weight_erase hState, ih hNodup.2]
    · simp only [List.length_cons, List.map_cons, List.sum_cons, Prod.mk_add_mk]
      rw [add_comm (continuationFootprint state)]
    · intro other found
      rcases eq_or_ne other key with rfl | hOther
      · rw [Finmap.lookup_erase]
        constructor
        · intro hFound
          exact absurd (List.mem_map_of_mem hFound) hNodup.1
        · intro hFound
          cases hFound
      · rw [Finmap.lookup_erase_ne hOther, ← hMem, List.mem_cons, Prod.mk.injEq]
        simp [hOther]

end Weights

end Any2Api.Runtime.Affinity
