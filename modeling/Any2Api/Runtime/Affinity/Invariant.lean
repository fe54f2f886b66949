import Mathlib.Algebra.BigOperators.Fin
import Any2Api.Runtime.Affinity.Registry

/-! What every instruction keeps. The counters are the sum of what the shards
hold and what threads have reserved, every lease that an entry refers to was
handed out, and versions are handed out once. -/
namespace Any2Api.Runtime.Affinity

open Function

variable {ι : Type} {settings : Settings}

/-! What calls may do to entries. -/

namespace Call

/-- The life time of entries that a call reclaims. -/
def reclaims : Call → Option Duration
  | .beginSession _ _ _ ttl | .resolveContinuation _ ttl _ | .bindReady _ _ _ ttl _
  | .beginPending _ _ ttl _ | .sweepExpired ttl | .snapshot ttl _ => some ttl
  | _ => none

/-- The calls that see a binding refresh it. -/
def Touches (settings : Settings) (key : SessionHash) (target : AffinityTarget)
    (source : BindingSource) : Call → Prop
  | .beginSession dialect routeId raw _ => key = settings.hasher.session dialect routeId raw
  | .resolveContinuation raw _ _ =>
    key = settings.hasher.continuation raw ∧ ∃ state, source = .continuation (.ready state)
  | .bindReady raw bound continuation _ _ =>
    key = settings.hasher.continuation raw ∧ target = bound ∧ continuation = none ∧
      source = .continuation (.ready none)
  | _ => False

/-- The calls that give a lease of a session back. -/
def Drops (lease : BindingLease) : Call → Prop
  | .releaseForWait used | .dropLease used | .commit used _ _ => used = lease
  | _ => False

end Call

/-- The changes that a call may make to the entry of a key, at an instant and
with a drawn version. -/
inductive Change (settings : Settings) (clock : Instant) (drawn : Option Nat) :
    Call → SessionHash → Option BindingState → Option BindingState → Prop
  | expired {call : Call} {ttl : Duration} (hCall : call.reclaims = some ttl) (key : SessionHash)
      {binding : TimedBinding} (hReady : binding.isPendingContinuation = false)
      (hOld : ttl ≤ clock - binding.lastSeenAt) :
      Change settings clock drawn call key (some (.bound binding)) none
  | outdated (dialect : ProtocolDialect) (routeId : Nat) (raw : String) {ttl : Duration}
      {binding : TimedBinding} (hOld : ttl ≤ clock - binding.lastSeenAt) :
      Change settings clock drawn (.beginSession dialect routeId raw ttl)
        (settings.hasher.session dialect routeId raw) (some (.bound binding)) none
  | touched {call : Call} {key : SessionHash} {target : AffinityTarget} {source : BindingSource}
      (hCall : call.Touches settings key target source) (lastSeenAt seenAt : Instant) :
      Change settings clock drawn call key (some (.bound ⟨target, lastSeenAt, source⟩))
        (some (.bound ⟨target, seenAt, source⟩))
  | created (dialect : ProtocolDialect) (routeId : Nat) (raw : String) (ttl : Duration)
      {version : Nat} (hDrawn : drawn = some version) :
      Change settings clock drawn (.beginSession dialect routeId raw ttl)
        (settings.hasher.session dialect routeId raw) none (some (.creating version .selecting))
  | attempting (lease : BindingLease) (phase : BindingCreationPhase) :
      Change settings clock drawn (.markAttempting lease) lease.key
        (some (.creating lease.version phase)) (some (.creating lease.version .attempting))
  | committed (lease : BindingLease) (target : AffinityTarget) (deadline : Option Instant)
      (committedAt : Instant) :
      Change settings clock drawn (.commit lease target deadline) lease.key
        (some (.creating lease.version .attempting)) (some (.bound ⟨target, committedAt, .session⟩))
  | released {call : Call} {lease : BindingLease} (hCall : call.Drops lease)
      (phase : BindingCreationPhase) :
      Change settings clock drawn call lease.key (some (.creating lease.version phase)) none
  | pended (raw : String) (target : AffinityTarget) (ttl : Duration) (deadline : Option Instant)
      (seenAt : Instant) {version : Nat} (hDrawn : drawn = some version) :
      Change settings clock drawn (.beginPending raw target ttl deadline)
        (settings.hasher.continuation raw) none
        (some (.bound ⟨target, seenAt, .continuation (.pending version)⟩))
  | readied (lease : ContinuationLease) (continuation : Option ContinuationState)
      (deadline : Option Instant) (lastSeenAt seenAt : Instant) :
      Change settings clock drawn (.ready lease continuation deadline) lease.key
        (some (.bound ⟨lease.target, lastSeenAt, .continuation (.pending lease.version)⟩))
        (some (.bound ⟨lease.target, seenAt, .continuation (.ready continuation)⟩))
  | abandoned (lease : ContinuationLease) (target : AffinityTarget) (lastSeenAt : Instant) :
      Change settings clock drawn (.dropContinuation lease) lease.key
        (some (.bound ⟨target, lastSeenAt, .continuation (.pending lease.version)⟩)) none
  | bound (raw : String) (target : AffinityTarget) (continuation : Option ContinuationState)
      (ttl : Duration) (deadline : Option Instant) (seenAt : Instant) :
      Change settings clock drawn (.bindReady raw target continuation ttl deadline)
        (settings.hasher.continuation raw) none
        (some (.bound ⟨target, seenAt, .continuation (.ready continuation)⟩))
  | cleared (key : SessionHash) (entry : BindingState) :
      Change settings clock drawn .clearAll key (some entry) none
  | disowned {credential : RoutingCredentialId} (key : SessionHash) {binding : TimedBinding}
      (hCredential : binding.target.credentialId = credential) :
      Change settings clock drawn (.clearCredential credential) key (some (.bound binding)) none

/-! The invariant. -/

def ShardedBindings.leases (s : ShardedBindings ι) : List Lease :=
  s.sessionLeases ++ s.continuationLeases

/-- Versions are handed out once. -/
structure Fresh (s : ShardedBindings ι) : Prop where
  nodup : (s.leases.map Lease.version).Nodup
  issued : ∀ lease ∈ s.leases, lease.version ≤ s.versions
  drawn : ∀ thread version, (s.notes thread).drawn = some version →
    version ≤ s.versions ∧ ∀ lease ∈ s.leases, lease.version ≠ version
  apart : ∀ thread other version, (s.notes thread).drawn = some version →
    (s.notes other).drawn = some version → thread = other

/-- The entries are where their keys belong and were handed out. -/
structure Recorded (s : ShardedBindings ι) : Prop where
  placed : ∀ shard key entry, (s.entries shard).lookup key = some entry → shard = key.shardIndex
  creating : ∀ shard key version phase,
    (s.entries shard).lookup key = some (.creating version phase) → ⟨key, version⟩ ∈ s.sessionLeases
  pending : ∀ shard key target seenAt version,
    (s.entries shard).lookup key =
      some (.bound ⟨target, seenAt, .continuation (.pending version)⟩) →
    ⟨key, version⟩ ∈ s.continuationLeases
  ready : ∀ shard key target seenAt state,
    (s.entries shard).lookup key = some (.bound ⟨target, seenAt, .continuation (.ready state)⟩) →
    s.bound key = some (target, state)

variable [Fintype ι] {after s : ShardedBindings ι}

/-- The counters are the sum of what is stored and what is reserved. -/
def Counted (s : ShardedBindings ι) : Prop :=
  (s.entryCount, s.continuationBytes) =
    ∑ shard, weight (s.entries shard) + ∑ thread, (s.notes thread).reserved

/-- The counters, within their limits. -/
structure Balanced (settings : Settings) (s : ShardedBindings ι) : Prop where
  counters : Counted s
  entries_le : s.entryCount ≤ settings.maxEntries
  bytes_le : s.continuationBytes ≤ settings.maxContinuationBytes

structure Invariant (settings : Settings) (s : ShardedBindings ι) : Prop where
  balanced : Balanced settings s
  recorded : Recorded s
  readings : ∀ thread, (s.notes thread).reading ≤ s.clock
  fresh : s.versions < wordSize → Fresh s

theorem invariant_new (settings : Settings) :
    Invariant settings (ShardedBindings.new ι settings) where
  balanced := ⟨by simp [Counted, ShardedBindings.new, ShardedBindings.entries], Nat.zero_le _,
    Nat.zero_le _⟩
  recorded := ⟨by simp [ShardedBindings.new, ShardedBindings.entries],
    by simp [ShardedBindings.new, ShardedBindings.entries],
    by simp [ShardedBindings.new, ShardedBindings.entries],
    by simp [ShardedBindings.new, ShardedBindings.entries]⟩
  readings := fun _ => Nat.zero_le _
  fresh := fun _ => ⟨by simp [ShardedBindings.new, ShardedBindings.leases],
    by simp [ShardedBindings.new, ShardedBindings.leases], by simp [ShardedBindings.new],
    by simp [ShardedBindings.new]⟩

/-! Parts of the invariant that a step leaves alone. -/

omit [Fintype ι] in
theorem Recorded.shrink (h : Recorded s)
    (hEntries : ∀ shard key entry, (after.entries shard).lookup key = some entry →
      (s.entries shard).lookup key = some entry)
    (hSession : after.sessionLeases = s.sessionLeases)
    (hContinuation : after.continuationLeases = s.continuationLeases)
    (hBound : after.bound = s.bound) : Recorded after := by
  refine ⟨fun _ _ _ hLookup => h.placed _ _ _ (hEntries _ _ _ hLookup), ?_, ?_, ?_⟩
  · rw [hSession]
    exact fun _ _ _ _ hLookup => h.creating _ _ _ _ (hEntries _ _ _ hLookup)
  · rw [hContinuation]
    exact fun _ _ _ _ _ hLookup => h.pending _ _ _ _ _ (hEntries _ _ _ hLookup)
  · rw [hBound]
    exact fun _ _ _ _ _ hLookup => h.ready _ _ _ _ _ (hEntries _ _ _ hLookup)

omit [Fintype ι] in
theorem Fresh.congr (h : Fresh s) (hLeases : after.leases = s.leases)
    (hVersions : after.versions = s.versions)
    (hDrawn : ∀ thread version, (after.notes thread).drawn = some version →
      (s.notes thread).drawn = some version) : Fresh after := by
  refine ⟨hLeases ▸ h.nodup, ?_, ?_, ?_⟩
  · rw [hLeases, hVersions]
    exact h.issued
  · intro thread version hThread
    rw [hLeases, hVersions]
    exact h.drawn thread version (hDrawn thread version hThread)
  · intro thread other version hThread hOther
    exact h.apart thread other version (hDrawn _ _ hThread) (hDrawn _ _ hOther)

variable [DecidableEq ι] {thread : ι} {shard : Fin shardCount} {next : Shard} {note : Note}
  {state : ShardState ι} {key : SessionHash} {clock : Instant} {call : Call}

omit [Fintype ι] [DecidableEq ι] in
theorem add_sub_of_le {a b : Nat × Nat} (h : a ≤ b) : a + (b - a) = b :=
  Prod.ext (Nat.add_sub_of_le h.1) (Nat.add_sub_of_le h.2)

omit [Fintype ι] [DecidableEq ι] in
/-- A total that changes as its two parts do stays their sum. -/
theorem balance {M : Type} [AddCancelCommMonoid M] {total total' shards shards' threads threads' old
    new held held' : M} (h : total = shards + threads) (hShards : shards' + old = shards + new)
    (hThreads : threads' + held = threads + held')
    (hTotal : total' + (old + held) = total + (new + held')) : total' = shards' + threads' := by
  refine add_right_cancel (b := old + held) ?_
  calc total' + (old + held) = (shards + new) + (threads + held') := by
        rw [hTotal, h]
        ac_rfl
    _ = (shards' + old) + (threads' + held) := by rw [hShards, hThreads]
    _ = shards' + threads' + (old + held) := by ac_rfl

/-- A shard, the counters and what one thread has reserved change together. -/
theorem Counted.change (h : Counted s) (hEntries : after.entries = update s.entries shard next)
    (hNotes : after.notes = update s.notes thread note)
    (hChange : (after.entryCount, after.continuationBytes) +
        (weight (s.entries shard) + (s.notes thread).reserved) =
      (s.entryCount, s.continuationBytes) + (weight next + note.reserved)) : Counted after := by
  unfold Counted
  rw [hEntries, hNotes]
  exact balance h (Fintype.sum_update_add s.entries weight shard next)
    (Fintype.sum_update_add s.notes Note.reserved thread note) hChange

theorem Counted.changeNote (h : Counted s) (hEntries : after.entries = s.entries)
    (hNotes : after.notes = update s.notes thread note)
    (hChange : (after.entryCount, after.continuationBytes) + (s.notes thread).reserved =
      (s.entryCount, s.continuationBytes) + note.reserved) : Counted after := by
  unfold Counted
  rw [hEntries, hNotes]
  refine balance h (rfl : _ + (0 : Nat × Nat) = _ + 0)
    (Fintype.sum_update_add s.notes Note.reserved thread note) ?_
  rwa [zero_add, zero_add]

omit [Fintype ι] [DecidableEq ι] in
theorem entries_setShard
    (h : state.entries = s.entries shard) : (s.setShard shard state).entries = s.entries := by
  funext other
  rcases eq_or_ne other shard with rfl | hOther
  · simpa [ShardedBindings.entries, ShardedBindings.setShard] using h
  · simp [ShardedBindings.entries, ShardedBindings.setShard, hOther]

/-! Entries that are stored and removed. -/

section Store

omit [Fintype ι]

theorem entries_write (s : ShardedBindings ι) (thread : ι) (shard : Fin shardCount) (next : Shard)
    (note : Note) : (s.write thread shard next note).entries = update s.entries shard next := by
  funext other
  rcases eq_or_ne other shard with rfl | hOther
  · simp [ShardedBindings.write, ShardedBindings.entries, ShardedBindings.setShard,
      ShardedBindings.setNote]
  · simp [ShardedBindings.write, ShardedBindings.entries, ShardedBindings.setShard,
      ShardedBindings.setNote, update_of_ne hOther]

theorem entries_store (s : ShardedBindings ι) (thread : ι) (shard : Fin shardCount)
    (key : SessionHash) (state : BindingState) :
    (s.store thread shard key state).entries =
      update s.entries shard ((s.entries shard).insert key state) :=
  entries_write s thread shard _ ((s.notes thread).store ((s.entries shard).lookup key) state)

theorem lookup_store (s : ShardedBindings ι) (thread : ι) (key : SessionHash)
    (state : BindingState) (other : SessionHash) :
    (s.store thread key.shardIndex key state).lookup other =
      if other = key then some state else s.lookup other := by
  unfold ShardedBindings.lookup
  rw [entries_store]
  split_ifs with hKey
  · rw [hKey, update_self, Finmap.lookup_insert]
  · rcases eq_or_ne other.shardIndex key.shardIndex with hShard | hShard
    · rw [hShard, update_self, Finmap.lookup_insert_of_ne _ hKey]
    · rw [update_of_ne hShard]

variable {binding : AffinityTarget × Option ContinuationState} {s : ShardedBindings ι}
  {state : BindingState} {thread : ι} {version : Nat} {old : Option BindingState}

theorem bound_store_of_some
    (h : boundBy ((s.entries shard).lookup key) state = some binding) (thread : ι) :
    (s.store thread shard key state).bound = update s.bound key (some binding) := by
  simp only [ShardedBindings.store, h]

theorem bound_store_of_none (h : boundBy ((s.entries shard).lookup key) state = none) (thread : ι) :
    (s.store thread shard key state).bound = s.bound := by
  simp only [ShardedBindings.store, h]

theorem bound_store_of_ne (s : ShardedBindings ι)
    {key other : SessionHash} (hOther : other ≠ key) (state : BindingState) (thread : ι) :
    (s.store thread shard key state).bound other = s.bound other := by
  cases h : boundBy ((s.entries shard).lookup key) state with
  | none => rw [bound_store_of_none h]
  | some binding => rw [bound_store_of_some h, update_of_ne hOther]

section Change

variable {clock : Instant} {drawn : Option Nat} {call : Call} {key : SessionHash}
  {old : Option BindingState} {state : BindingState} {target : AffinityTarget}

/-- The leases that storing an entry hands out. -/
def newLeases (key : SessionHash) (old : Option BindingState) (state : BindingState) : List Lease :=
  sessionLeasesOf key old state ++ continuationLeasesOf key old state

/-- An entry hands out a lease with the drawn version, or none. -/
theorem Change.newLeases (h : Change settings clock drawn call key old (some state)) :
    newLeases key old state = [] ∨
      ∃ version, newLeases key old state = [⟨key, version⟩] ∧ drawn = some version ∧
        old = none := by
  cases h with
  | created _ _ _ _ hDrawn | pended _ _ _ _ _ hDrawn => exact .inr ⟨_, rfl, hDrawn, rfl⟩
  | touched | attempting | committed | readied | bound => exact .inl rfl

/-- An entry that is created keeps its version. -/
theorem Change.creating {phase : BindingCreationPhase}
    (h : Change settings clock drawn call key old (some (.creating version phase))) :
    ⟨key, version⟩ ∈ sessionLeasesOf key old (.creating version phase) ∨
      ∃ phase, old = some (.creating version phase) := by
  cases h with
  | created => exact .inl List.mem_cons_self
  | attempting lease phase => exact .inr ⟨phase, rfl⟩

theorem Change.pending {seenAt : Instant} (h : Change settings clock drawn call key old
      (some (.bound ⟨target, seenAt, .continuation (.pending version)⟩))) :
    ⟨key, version⟩ ∈ continuationLeasesOf key old
        (.bound ⟨target, seenAt, .continuation (.pending version)⟩) ∨
      ∃ seenAt, old = some (.bound ⟨target, seenAt, .continuation (.pending version)⟩) := by
  cases h with
  | touched => exact .inr ⟨_, rfl⟩
  | pended => exact .inl List.mem_cons_self

theorem Change.ready {seenAt : Instant} {ready : Option ContinuationState}
    (h : Change settings clock drawn call key old
      (some (.bound ⟨target, seenAt, .continuation (.ready ready)⟩))) :
    boundBy old (.bound ⟨target, seenAt, .continuation (.ready ready)⟩) = some (target, ready) ∨
      boundBy old (.bound ⟨target, seenAt, .continuation (.ready ready)⟩) = none ∧
        ∃ seenAt, old = some (.bound ⟨target, seenAt, .continuation (.ready ready)⟩) := by
  cases h with
  | touched => exact .inr ⟨rfl, _, rfl⟩
  | readied | bound => exact .inl rfl

end Change

theorem Recorded.store (h : Recorded s) {drawn : Option Nat}
    (hChange : Change settings clock drawn call key (s.lookup key) (some state)) :
    Recorded (s.store thread key.shardIndex key state) := by
  have hEntries : ∀ shard other entry,
      ((s.store thread key.shardIndex key state).entries shard).lookup other = some entry →
      (other = key ∧ shard = key.shardIndex ∧ state = entry) ∨
        other ≠ key ∧ (s.entries shard).lookup other = some entry := by
    intro shard other entry hLookup
    rw [entries_store] at hLookup
    rcases eq_or_ne shard key.shardIndex with rfl | hShard
    · rw [update_self] at hLookup
      rcases eq_or_ne other key with rfl | hOther
      · rw [Finmap.lookup_insert] at hLookup
        exact .inl ⟨rfl, rfl, Option.some.inj hLookup⟩
      · rw [Finmap.lookup_insert_of_ne _ hOther] at hLookup
        exact .inr ⟨hOther, hLookup⟩
    · rw [update_of_ne hShard] at hLookup
      refine .inr ⟨?_, hLookup⟩
      rintro rfl
      exact hShard (h.placed _ _ _ hLookup)
  refine ⟨?_, ?_, ?_, ?_⟩
  · intro shard other entry hLookup
    rcases hEntries shard other entry hLookup with ⟨rfl, rfl, -⟩ | ⟨-, hOld⟩
    · rfl
    · exact h.placed _ _ _ hOld
  · intro shard other version phase hLookup
    refine List.mem_append.mpr ?_
    rcases hEntries shard other _ hLookup with ⟨rfl, rfl, rfl⟩ | ⟨-, hOld⟩
    · rcases hChange.creating with hNew | ⟨phase, hOld⟩
      · exact .inr hNew
      · exact .inl (h.creating _ _ _ _ hOld)
    · exact .inl (h.creating _ _ _ _ hOld)
  · intro shard other target seenAt version hLookup
    refine List.mem_append.mpr ?_
    rcases hEntries shard other _ hLookup with ⟨rfl, rfl, rfl⟩ | ⟨-, hOld⟩
    · rcases hChange.pending with hNew | ⟨seenAt, hOld⟩
      · exact .inr hNew
      · exact .inl (h.pending _ _ _ _ _ hOld)
    · exact .inl (h.pending _ _ _ _ _ hOld)
  · intro shard other target seenAt ready hLookup
    rcases hEntries shard other _ hLookup with ⟨rfl, rfl, rfl⟩ | ⟨hOther, hOld⟩
    · rcases hChange.ready with hNew | ⟨hSame, seenAt, hOld⟩
      · rw [bound_store_of_some hNew, update_self]
      · rw [bound_store_of_none hSame]
        exact h.ready _ _ _ _ _ hOld
    · rw [bound_store_of_ne s hOther]
      exact h.ready _ _ _ _ _ hOld

theorem leases_store (s : ShardedBindings ι) (thread : ι) (shard : Fin shardCount)
    (key : SessionHash) (state : BindingState) :
    (s.store thread shard key state).leases.Perm
      (newLeases key ((s.entries shard).lookup key) state ++ s.leases) := by
  rw [← Multiset.coe_eq_coe]
  simp only [ShardedBindings.leases, ShardedBindings.store, newLeases, ← Multiset.coe_add]
  ac_rfl

/-- A call that binds a continuation is committed. -/
theorem Note.committed_of_boundBy (h : boundBy old state = some binding)
    (note : Note) : (note.store old state).committed = true := by
  unfold boundBy at h
  split at h
  · rfl
  · rfl
  · cases h

theorem Note.drawn_store_none (note : Note) (state : BindingState) :
    (note.store none state).drawn = none := by
  cases state with
  | creating version phase => rfl
  | bound binding =>
    obtain ⟨target, lastSeenAt, _ | _ | _⟩ := binding <;> rfl

theorem Note.drawn_store (h : (note.store old state).drawn = some version) :
    note.drawn = some version ∧ old ≠ none := by
  cases old with
  | none =>
    rw [Note.drawn_store_none] at h
    cases h
  | some old =>
    refine ⟨?_, Option.some_ne_none old⟩
    unfold Note.store at h
    split at h <;> first | exact h | contradiction

theorem notes_store (s : ShardedBindings ι) (thread : ι) (shard : Fin shardCount)
    (key : SessionHash) (state : BindingState) :
    (s.store thread shard key state).notes = update s.notes thread
      { (s.notes thread).store ((s.entries shard).lookup key) state with
        reserved := ((s.notes thread).store ((s.entries shard).lookup key) state).reserved +
          weight (s.entries shard) - weight ((s.entries shard).insert key state) } := rfl

theorem drawn_store {other : ι}
    (h : ((s.store thread shard key state).notes other).drawn = some version) :
    (s.notes other).drawn = some version ∧
      (other = thread → (s.entries shard).lookup key ≠ none) := by
  rw [notes_store] at h
  rcases eq_or_ne other thread with rfl | hOther
  · rw [update_self] at h
    exact ⟨(Note.drawn_store h).1, fun _ => (Note.drawn_store h).2⟩
  · rw [update_of_ne hOther] at h
    exact ⟨h, fun hThread => absurd hThread hOther⟩

/-- A stored version is the one drawn for it. -/
theorem Fresh.store (h : Fresh s)
    (hChange : Change settings clock (s.notes thread).drawn call key (s.lookup key) (some state)) :
    Fresh (s.store thread key.shardIndex key state) := by
  have hPerm := leases_store s thread key.shardIndex key state
  rcases hChange.newLeases with hNone | ⟨version, hNew, hDrawn, hAbsent⟩
  · have hLeases : (s.store thread key.shardIndex key state).leases.Perm s.leases := by
      rwa [show (s.entries key.shardIndex).lookup key = s.lookup key from rfl, hNone] at hPerm
    refine ⟨(hLeases.map _).nodup_iff.mpr h.nodup, ?_, ?_, ?_⟩
    · intro lease hLease
      exact h.issued lease (hLeases.mem_iff.mp hLease)
    · intro other version hOther
      obtain ⟨hBound, hApart⟩ := h.drawn other version (drawn_store hOther).1
      exact ⟨hBound, fun lease hLease => hApart lease (hLeases.mem_iff.mp hLease)⟩
    · intro first second version hFirst hSecond
      exact h.apart first second version (drawn_store hFirst).1 (drawn_store hSecond).1
  · obtain ⟨hBound, hApart⟩ := h.drawn thread version hDrawn
    have hLeases : (s.store thread key.shardIndex key state).leases.Perm
        (⟨key, version⟩ :: s.leases) := by
      rwa [show (s.entries key.shardIndex).lookup key = s.lookup key from rfl, hNew] at hPerm
    refine ⟨(hLeases.map _).nodup_iff.mpr ?_, ?_, ?_, ?_⟩
    · rw [List.map_cons, List.nodup_cons]
      refine ⟨?_, h.nodup⟩
      intro hMem
      obtain ⟨lease, hLease, hVersion⟩ := List.mem_map.mp hMem
      exact hApart lease hLease hVersion
    · intro lease hLease
      rcases List.mem_cons.mp (hLeases.mem_iff.mp hLease) with rfl | hOld
      · exact hBound
      · exact h.issued lease hOld
    · intro other drawn hOther
      obtain ⟨hOld, hThread⟩ := drawn_store hOther
      obtain ⟨hOldBound, hOldApart⟩ := h.drawn other drawn hOld
      refine ⟨hOldBound, fun lease hLease => ?_⟩
      rcases List.mem_cons.mp (hLeases.mem_iff.mp hLease) with rfl | hMem
      · -- the version that is stored was drawn by this thread, which holds it no longer
        rintro rfl
        exact hThread (h.apart other thread version hOld hDrawn) hAbsent
      · exact hOldApart lease hMem
    · intro first second drawn hFirst hSecond
      exact h.apart first second drawn (drawn_store hFirst).1 (drawn_store hSecond).1

/-! Removing entries. -/

theorem lookup_write_le (hNext : ∀ key entry, next.lookup key = some entry →
      (s.entries shard).lookup key = some entry)
    (other : Fin shardCount) (key : SessionHash) (entry : BindingState)
    (h : ((s.write thread shard next note).entries other).lookup key = some entry) :
    (s.entries other).lookup key = some entry := by
  rw [entries_write] at h
  rcases eq_or_ne other shard with rfl | hOther
  · rw [update_self] at h
    exact hNext key entry h
  · rwa [update_of_ne hOther] at h

end Store

@[simp] theorem Note.reserved_store (note : Note) (old : Option BindingState)
    (state : BindingState) : (note.store old state).reserved = note.reserved := by
  unfold Note.store
  split <;> rfl

@[simp] theorem Note.reading_store (note : Note) (old : Option BindingState)
    (state : BindingState) : (note.store old state).reading = note.reading := by
  unfold Note.store
  split <;> rfl

/-! One lemma for each kind of step. -/

section Notes

omit [Fintype ι]

variable {s : ShardedBindings ι}

theorem reading_update (h : ∀ thread, (s.notes thread).reading ≤ s.clock)
    (hNote : note.reading ≤ s.clock) (other : ι) :
    (update s.notes thread note other).reading ≤ s.clock := by
  rcases eq_or_ne other thread with rfl | hOther
  · rwa [update_self]
  · rw [update_of_ne hOther]
    exact h other

theorem drawn_update
    (hNote : ∀ version, note.drawn = some version → (s.notes thread).drawn = some version)
    (other : ι) (version : Nat)
    (h : (update s.notes thread note other).drawn = some version) :
    (s.notes other).drawn = some version := by
  rcases eq_or_ne other thread with rfl | hOther
  · rw [update_self] at h
    exact hNote version h
  · rwa [update_of_ne hOther] at h

end Notes

namespace Invariant

variable {s : ShardedBindings ι} {thread : ι}

section

variable (h : Invariant settings s)
include h

theorem store {state : BindingState}
    (hChange : Change settings s.clock (s.notes thread).drawn call key (s.lookup key) (some state))
    (hWeight : weight ((s.entries key.shardIndex).insert key state) ≤
      (s.notes thread).reserved + weight (s.entries key.shardIndex)) :
    Invariant settings (s.store thread key.shardIndex key state) := by
  refine ⟨⟨?_, h.balanced.entries_le, h.balanced.bytes_le⟩, h.recorded.store hChange, ?_,
    fun hVersions => (h.fresh hVersions).store hChange⟩
  · refine h.balanced.counters.change (entries_store s thread key.shardIndex key state)
      (notes_store s thread key.shardIndex key state) (congrArg _ ?_)
    rw [Note.reserved_store, add_sub_of_le hWeight, add_comm]
  · exact reading_update h.readings (by rw [Note.reading_store]; exact h.readings thread)

/-- Entries are removed, and reserved until they are no longer counted. -/
theorem write (hNext : ∀ key entry, next.lookup key = some entry →
      (s.entries shard).lookup key = some entry)
    (hWeight : weight next ≤ (s.notes thread).reserved + weight (s.entries shard)) :
    Invariant settings (s.write thread shard next (s.notes thread)) := by
  refine ⟨⟨?_, h.balanced.entries_le, h.balanced.bytes_le⟩,
    h.recorded.shrink (lookup_write_le hNext) rfl rfl rfl,
    reading_update h.readings (h.readings thread),
    fun hVersions => (h.fresh hVersions).congr rfl rfl (drawn_update fun _ => id)⟩
  refine h.balanced.counters.change (entries_write s thread shard next (s.notes thread))
    rfl (congrArg _ ?_)
  exact (add_comm _ _).trans (add_sub_of_le hWeight).symm

/-- The counters change with what the thread has reserved. -/
theorem count {entryCount continuationBytes : Nat} {reserved : Nat × Nat}
    (hCount : (entryCount, continuationBytes) + (s.notes thread).reserved =
      (s.entryCount, s.continuationBytes) + reserved) (hEntries : entryCount ≤ settings.maxEntries)
    (hBytes : continuationBytes ≤ settings.maxContinuationBytes) :
    Invariant settings (ShardedBindings.setNote { s with entryCount, continuationBytes } thread
      { s.notes thread with reserved }) := by
  refine ⟨⟨?_, hEntries, hBytes⟩, h.recorded.shrink (fun _ _ _ => id) rfl rfl rfl,
    reading_update h.readings (h.readings thread),
    fun hVersions => (h.fresh hVersions).congr rfl rfl (drawn_update fun _ => id)⟩
  exact h.balanced.counters.changeNote rfl rfl hCount

/-- A thread reads the clock, leaves a section or begins a call. -/
theorem setNote
    (hReserved : note.reserved = (s.notes thread).reserved) (hReading : note.reading ≤ s.clock)
    (hDrawn : ∀ version, note.drawn = some version → (s.notes thread).drawn = some version) :
    Invariant settings (s.setNote thread note) := by
  refine ⟨⟨?_, h.balanced.entries_le, h.balanced.bytes_le⟩,
    h.recorded.shrink (fun _ _ _ => id) rfl rfl rfl, reading_update h.readings hReading,
    fun hVersions => (h.fresh hVersions).congr rfl rfl (drawn_update hDrawn)⟩
  refine h.balanced.counters.changeNote rfl rfl ?_
  rw [hReserved]
  rfl

end

omit [DecidableEq ι] in
/-- A lock is taken or released. -/
theorem setShard (h : Invariant settings s)
    (hEntries : state.entries = s.entries shard) : Invariant settings (s.setShard shard state) := by
  have hSame := entries_setShard hEntries
  refine ⟨⟨?_, h.balanced.entries_le, h.balanced.bytes_le⟩,
    h.recorded.shrink (fun _ _ _ hLookup => by rwa [hSame] at hLookup) rfl rfl rfl, h.readings,
    fun hVersions => (h.fresh hVersions).congr rfl rfl fun _ _ => id⟩
  unfold Counted
  rw [hSame]
  exact h.balanced.counters

omit [DecidableEq ι] in
/-- Time passes, waiters are woken, a reclaim is marked. -/
theorem elsewhere (h : Invariant settings s) (lastFutileReclaim schedulerEpoch : Nat)
    (hClock : s.clock ≤ clock) :
    Invariant settings { s with lastFutileReclaim, schedulerEpoch, clock } :=
  ⟨⟨h.balanced.counters, h.balanced.entries_le, h.balanced.bytes_le⟩,
    h.recorded.shrink (fun _ _ _ => id) rfl rfl rfl,
    fun thread => (h.readings thread).trans hClock,
    fun hVersions => (h.fresh hVersions).congr rfl rfl fun _ _ => id⟩

theorem versionAt_eq {drawn : Nat} (h : drawn + 1 < wordSize) : versionAt drawn = drawn + 1 := by
  unfold versionAt
  rw [Nat.mod_eq_of_lt (Nat.lt_of_succ_lt h), Nat.mod_eq_of_lt h]
  exact Nat.max_eq_left (Nat.succ_le_succ (Nat.zero_le drawn))

theorem nextVersion (h : Invariant settings s) :
    Invariant settings (ShardedBindings.setNote { s with versions := s.versions + 1 } thread
      { s.notes thread with drawn := some (versionAt s.versions) }) := by
  refine ⟨⟨?_, h.balanced.entries_le, h.balanced.bytes_le⟩,
    h.recorded.shrink (fun _ _ _ => id) rfl rfl rfl,
    reading_update h.readings (h.readings thread), ?_⟩
  · exact h.balanced.counters.changeNote rfl rfl rfl
  · intro hVersions
    have hFresh := h.fresh (Nat.lt_of_succ_lt hVersions)
    have hVersion := versionAt_eq hVersions
    -- the new version is larger than all that were drawn before
    have hNew : ∀ other version,
        (update s.notes thread
          { s.notes thread with drawn := some (versionAt s.versions) } other).drawn = some version →
        (other = thread ∧ version = s.versions + 1) ∨
          other ≠ thread ∧ (s.notes other).drawn = some version := by
      intro other version hOther
      rcases eq_or_ne other thread with rfl | hNe
      · rw [update_self] at hOther
        exact .inl ⟨rfl, (Option.some.inj hOther).symm.trans hVersion⟩
      · rw [update_of_ne hNe] at hOther
        exact .inr ⟨hNe, hOther⟩
    refine ⟨hFresh.nodup, fun lease hLease =>
      Nat.le_succ_of_le (hFresh.issued lease hLease), ?_, ?_⟩
    · intro other version hOther
      rcases hNew other version hOther with ⟨-, rfl⟩ | ⟨-, hOld⟩
      · exact ⟨Nat.le_refl _, fun lease hLease => Nat.ne_of_lt
          (Nat.lt_succ_of_le (hFresh.issued lease hLease))⟩
      · obtain ⟨hBound, hApart⟩ := hFresh.drawn other version hOld
        exact ⟨Nat.le_succ_of_le hBound, hApart⟩
    · intro first second version hFirst hSecond
      rcases hNew first version hFirst with ⟨hThread, hSame⟩ | ⟨-, hOld⟩
      · rcases hNew second version hSecond with ⟨hOther, -⟩ | ⟨-, hOld⟩
        · exact hThread.trans hOther.symm
        · rw [hSame] at hOld
          exact absurd (hFresh.drawn second _ hOld).1 (Nat.not_succ_le_self _)
      · rcases hNew second version hSecond with ⟨-, hSame⟩ | ⟨-, hOther⟩
        · rw [hSame] at hOld
          exact absurd (hFresh.drawn first _ hOld).1 (Nat.not_succ_le_self _)
        · exact hFresh.apart first second version hOld hOther

end Invariant

end Any2Api.Runtime.Affinity
