import Mathlib.Algebra.Order.BigOperators.Group.Finset
import Mathlib.Algebra.Order.Monoid.Prod
import Any2Api.Runtime.Affinity.Invariant

/-! The part of the bindings that belongs to a thread, and the rules of the
instructions: what a thread knows after each of them, whatever the other
threads do. A thread that holds a lock knows the map behind it. -/
namespace Any2Api.Runtime.Affinity

open Function

variable {ι : Type} [DecidableEq ι] {settings : Settings}

/-- What a thread knows of a shard that it holds. -/
structure Held where
  entries : Shard
  found : Shard
  sought : Option SessionHash

structure Part where
  held : Fin shardCount → Option Held
  note : Note

namespace Part

/-- A thread that holds no lock. -/
def free (note : Note) : Part := ⟨fun _ => none, note⟩

/-- A thread that holds one lock. -/
def inside (note : Note) (shard : Fin shardCount) (held : Held) : Part :=
  ⟨update (fun _ => none) shard (some held), note⟩

end Part

variable {shard : Fin shardCount} {thread : ι} {note : Note} {held : Held} {s : ShardedBindings ι}
  {post : Unit → Part → Prop} {call : Call} {after : ShardedBindings ι} {key : SessionHash}
  {state : BindingState}

namespace ShardedBindings

def own (s : ShardedBindings ι) (thread : ι) : Part where
  held shard :=
    let state := s.shards shard
    if state.holder = some thread then some ⟨state.entries, state.found, state.sought⟩ else none
  note := s.notes thread

theorem own_setNote (s : ShardedBindings ι) (thread : ι) (note : Note) :
    (s.setNote thread note).own thread = ⟨(s.own thread).held, note⟩ := by
  have hNote : (s.setNote thread note).notes thread = note := update_self ..
  exact congrArg (Part.mk (s.own thread).held) hNote

theorem own_setNote_of_ne (s : ShardedBindings ι) {thread other : ι} (h : other ≠ thread)
    (note : Note) : (s.setNote thread note).own other = s.own other := by
  have hNote : (s.setNote thread note).notes other = s.notes other := update_of_ne h ..
  exact congrArg (Part.mk (s.own other).held) hNote

theorem own_setShard (s : ShardedBindings ι) (thread : ι) (shard : Fin shardCount)
    (state : ShardState ι) :
    (s.setShard shard state).own thread =
      ⟨update (s.own thread).held shard
        (if state.holder = some thread then some ⟨state.entries, state.found, state.sought⟩
          else none), s.notes thread⟩ := by
  unfold own setShard
  congr 1
  funext other
  rcases eq_or_ne other shard with rfl | hOther
  · simp
  · simp [hOther]

/-- A shard that another thread does not hold is none of its part. -/
theorem own_setShard_of_ne (s : ShardedBindings ι) {other : ι}
    {state : ShardState ι} (hOld : (s.shards shard).holder ≠ some other)
    (hNew : state.holder ≠ some other) : (s.setShard shard state).own other = s.own other := by
  rw [own_setShard, if_neg hNew]
  have hNone : (s.own other).held shard = none := if_neg hOld
  rw [← hNone, update_eq_self]
  rfl

variable {s : ShardedBindings ι}

/-- What a thread that holds one lock knows of the state. -/
theorem own_inside (h : s.own thread = .inside note shard held) :
    (s.shards shard).holder = some thread ∧ s.entries shard = held.entries ∧
      (s.shards shard).found = held.found ∧ (s.shards shard).sought = held.sought ∧
      s.notes thread = note := by
  have hHeld := congrFun (congrArg Part.held h) shard
  have hNote := congrArg Part.note h
  simp only [own, Part.inside, update_self] at hHeld hNote
  split_ifs at hHeld with hHolder
  have hSame := Option.some.inj hHeld
  exact ⟨hHolder, congrArg Held.entries hSame, congrArg Held.found hSame,
    congrArg Held.sought hSame, hNote⟩

theorem own_release (s : ShardedBindings ι) (thread : ι) (shard : Fin shardCount) :
    (s.release thread shard).own thread =
      ⟨update (s.own thread).held shard none,
        match (s.shards shard).sought with
        | none => (s.own thread).note
        | some key => { (s.own thread).note with
            visited := some ⟨key, (s.shards shard).found, s.entries shard, s.bound key,
              s.clock⟩ }⟩ := by
  unfold release
  rw [own_setNote, own_setShard, if_neg (by simp)]
  rfl

/-- The holder of a shard after a write. -/
theorem own_write (h : (s.shards shard).holder = some thread) (next : Shard) (note : Note) :
    (s.write thread shard next note).own thread =
      ⟨update (s.own thread).held shard
          (some ⟨next, (s.shards shard).found, (s.shards shard).sought⟩),
        { note with reserved := note.reserved + weight (s.entries shard) - weight next }⟩ := by
  unfold write
  rw [own_setNote, own_setShard, if_pos h]

theorem own_free (h : s.own thread = .free note) : s.notes thread = note :=
  congrArg Part.note h

end ShardedBindings

/-- An instruction releases no more than is counted. -/
def ShardedBindings.Covers (s : ShardedBindings ι) : Instr → Prop
  | .releaseEntries count => count ≤ s.entryCount
  | .releaseBytes bytes => bytes ≤ s.continuationBytes
  | _ => True

/-- What an instruction of a call does to the entries and their history. -/
structure Allowed (settings : Settings) (thread : ι) (call : Call) (instr : Instr)
    (s after : ShardedBindings ι) : Prop where
  entries : ∀ key, after.lookup key = s.lookup key ∨
    Change settings s.clock (s.notes thread).drawn call key (s.lookup key) (after.lookup key)
  bound : ∀ key, after.bound key = s.bound key ∨ ∃ entry binding,
    boundBy (s.lookup key) entry = some binding ∧ after.bound key = some binding ∧
      (after.notes thread).committed = true ∧ after.lookup key = some entry ∧
      Change settings s.clock (s.notes thread).drawn call key (s.lookup key) (some entry)
  committed : ∀ key version phase binding, s.lookup key = some (.creating version phase) →
    after.lookup key = some (.bound binding) → (after.notes thread).committed = true
  covers : s.Covers instr

section

variable {instr : Instr} (hCovers : s.Covers instr)
include hCovers

omit [DecidableEq ι] in
/-- An instruction that leaves the entries alone. -/
theorem Allowed.quiet (hEntries : after.entries = s.entries) (hBound : after.bound = s.bound) :
    Allowed settings thread call instr s after := by
  have hLookup : after.lookup = s.lookup := by
    unfold ShardedBindings.lookup
    rw [hEntries]
  refine ⟨fun key => .inl (by rw [hLookup]), fun key => .inl (by rw [hBound]), ?_, hCovers⟩
  intro key version phase binding hOld hNew
  rw [hLookup, hOld] at hNew
  cases hNew

/-- An instruction that stores an entry the call may store. -/
theorem Allowed.store
    (hChange : Change settings s.clock (s.notes thread).drawn call key (s.lookup key)
      (some state)) :
    Allowed settings thread call instr s (s.store thread key.shardIndex key state) := by
  refine ⟨?_, ?_, ?_, hCovers⟩
  · intro other
    rw [lookup_store]
    split_ifs with hKey
    · rw [hKey]
      exact .inr hChange
    · exact .inl rfl
  · intro other
    rcases eq_or_ne other key with rfl | hOther
    · cases hBound : boundBy (s.lookup other) state with
      | none => exact .inl (by rw [bound_store_of_none hBound])
      | some binding =>
        refine .inr ⟨state, binding, hBound, ?_, ?_, ?_, hChange⟩
        · rw [bound_store_of_some hBound, update_self]
        · rw [notes_store, update_self]
          exact Note.committed_of_boundBy hBound (s.notes thread)
        · rw [lookup_store, if_pos rfl]
    · exact .inl (bound_store_of_ne s hOther state thread)
  · intro other version phase binding hOld hNew
    rw [lookup_store] at hNew
    split_ifs at hNew with hKey
    · cases hNew
      rw [notes_store, update_self]
      rw [hKey] at hOld
      change ((s.notes thread).store (s.lookup key) _).committed = true
      rw [hOld]
      rfl
    · rw [hOld] at hNew
      cases hNew

/-- An instruction that removes entries the call may remove. -/
theorem Allowed.write {next : Shard}
    (hNext : ∀ key entry, (s.entries shard).lookup key = some entry →
      next.lookup key = some entry ∨ next.lookup key = none ∧
        Change settings s.clock (s.notes thread).drawn call key (some entry) none)
    (hNone : ∀ key, (s.entries shard).lookup key = none → next.lookup key = none) :
    Allowed settings thread call instr s (s.write thread shard next note) := by
  have hLookup : ∀ key, (s.write thread shard next note).lookup key = s.lookup key ∨
      (s.write thread shard next note).lookup key = none ∧
        Change settings s.clock (s.notes thread).drawn call key (s.lookup key) none := by
    intro key
    unfold ShardedBindings.lookup
    rw [entries_write]
    rcases eq_or_ne key.shardIndex shard with rfl | hShard
    · rw [update_self]
      cases hOld : (s.entries key.shardIndex).lookup key with
      | none => exact .inl (hNone key hOld)
      | some entry => exact hNext key entry hOld
    · rw [update_of_ne hShard]
      exact .inl rfl
  refine ⟨?_, fun key => .inl rfl, ?_, hCovers⟩
  · intro key
    rcases hLookup key with hSame | ⟨hGone, hChange⟩
    · exact .inl hSame
    · exact .inr (hGone ▸ hChange)
  · intro key version phase binding hOld hNew
    rcases hLookup key with hSame | ⟨hGone, -⟩
    · rw [hSame, hOld] at hNew
      cases hNew
    · rw [hGone] at hNew
      cases hNew

end

/-! What calls return. -/

/-- A deadline that has been reached. -/
def Reached (deadline : Option Instant) (clock : Instant) : Prop :=
  ∃ instant, deadline = some instant ∧ instant ≤ clock

omit [DecidableEq ι] in
theorem Reached.mono {deadline : Option Instant} {clock later : Instant}
    (h : Reached deadline clock)
    (hLater : clock ≤ later) : Reached deadline later :=
  h.imp fun _ hReached => ⟨hReached.1, hReached.2.trans hLater⟩

namespace Section

/-- The key is bound as a continuation when the lock is released. -/
def Shows (sec : Section) (key : SessionHash) (target : AffinityTarget)
    (state : Option ContinuationState) : Prop :=
  sec.key = key ∧ sec.bound = some (target, state) ∧
    ∃ seenAt, sec.left.lookup key = some (.bound ⟨target, seenAt, .continuation (.ready state)⟩)

/-- An entry that was found alive and could not be bound again is left alone,
and the bind fails. -/
def Conflicts {α : Type} (sec : Section) (key : SessionHash) (ttl : Duration)
    (deadline : Option Instant) (again : BindingState → Prop) (result : Except AffinityError α) :
    Prop :=
  sec.key = key ∧ ∀ entry, sec.found.lookup key = some entry →
    entry.isExpired sec.releasedAt ttl = false → ¬again entry →
    (result = .error .identityConflict ∨
      result = .error .deadlineExceeded ∧ Reached deadline sec.releasedAt) ∧
    sec.left.lookup key = some entry

end Section

/-- The stateless binding of a target, which may be repeated. -/
def Again (target : AffinityTarget) (continuation : Option ContinuationState)
    (entry : BindingState) : Prop :=
  continuation = none ∧ ∃ seenAt, entry = .bound ⟨target, seenAt, .continuation (.ready none)⟩

/-- A bind that ends without a section was too late; otherwise a live entry
that it found refuses it. -/
def Refused {α : Type} (note : Note) (key : SessionHash) (ttl : Duration)
    (deadline : Option Instant) (again : BindingState → Prop) (result : Except AffinityError α) :
    Prop :=
  match note.visited with
  | none => result = .error .deadlineExceeded ∧ Reached deadline note.reading
  | some sec => sec.Conflicts key ttl deadline again result

/-- What the result of a call says about the last section of the call. -/
def Outcome (settings : Settings) : (call : Call) → Result call → Note → Prop
  | .commit _ _ _, result, note => note.committed = true ↔ result = .ok ()
  | .resolveContinuation raw _ _, result, note =>
    ∀ resolved, result = .ready resolved → ∃ sec, note.visited = some sec ∧
      sec.Shows (settings.hasher.continuation raw) resolved.target resolved.state
  | .bindReady raw target continuation ttl deadline, result, note =>
    (result = .ok () → ∃ sec, note.visited = some sec ∧
      sec.Shows (settings.hasher.continuation raw) target continuation) ∧
    (note.committed = true → result = .ok ()) ∧
    Refused note (settings.hasher.continuation raw) ttl deadline (Again target continuation) result
  | .beginPending raw _ ttl deadline, result, note =>
    Refused note (settings.hasher.continuation raw) ttl deadline (fun _ => False) result
  | .ready lease continuation _, result, note =>
    (∀ used, result = .ok used → ∃ sec, note.visited = some sec ∧
      sec.Shows lease.key lease.target continuation) ∧
    (note.committed = true → ∃ used, result = .ok used)
  | _, _, _ => True

def Returned (settings : Settings) (call : Call) (result : Result call) (part : Part) : Prop :=
  ∃ note, part = .free note ∧ note.reserved = 0 ∧ Outcome settings call result note

variable [Fintype ι] {thread : ι} {call : Call} {part : Part} {entries found : Shard}

variable (ι settings) in
def discipline : (registry ι settings).Discipline where
  Local := Part
  own := ShardedBindings.own
  invariant := Invariant settings
  allowed := Allowed settings
  idle part := ∃ note, part = .free note ∧ note.reserved = 0
  returned := Returned settings

/-- The safety of a program of the registry. -/
abbrev Safe {α : Type} (ι : Type) [DecidableEq ι] [Fintype ι] (settings : Settings) (thread : ι)
    (call : Call) (program : Prog α) (post : α → Part → Prop) (part : Part) : Prop :=
  (discipline ι settings).Safe thread call program post part

theorem safe_instr {i : Instr} {post : Answer i → Part → Prop}
    (h : ∀ choice s answer after, Invariant settings s → s.own thread = part →
      perform settings thread choice i s = some (answer, after) →
      Invariant settings after ∧ Allowed settings thread call i s after ∧
        post answer (after.own thread)) :
    Safe ι settings thread call (instr i) post part := h

/-! Instructions that leave the entries alone. -/

/-- An instruction that changes no more than the note of its thread. -/
theorem quiet_step {instr : Instr}
    {post : Part → Prop} (hInvariant : Invariant settings (after.setNote thread note))
    (hShards : after.shards = s.shards) (hBound : after.bound = s.bound) (hCovers : s.Covers instr)
    (hPost : post ⟨(s.own thread).held, note⟩) :
    Invariant settings (after.setNote thread note) ∧
      Allowed settings thread call instr s (after.setNote thread note) ∧
      post ((after.setNote thread note).own thread) := by
  have hHeld : (after.own thread).held = (s.own thread).held := by
    unfold ShardedBindings.own
    rw [hShards]
  refine ⟨hInvariant, .quiet hCovers ?_ hBound, ?_⟩
  · exact congrArg (fun shards shard => (shards shard).entries) hShards
  · rw [after.own_setNote, hHeld]
    exact hPost

theorem safe_now {post : Instant → Part → Prop} (h : ∀ clock, part.note.reading ≤ clock →
      post clock ⟨part.held, { part.note with reading := clock }⟩) :
    Safe ι settings thread call now post part := by
  apply safe_instr
  rintro choice s answer after hInvariant rfl hPerform
  cases hPerform
  exact quiet_step (hInvariant.setNote rfl (Nat.le_refl _) fun _ => id) rfl rfl trivial
    (h s.clock (hInvariant.readings thread))

theorem safe_nextVersion {post : Nat → Part → Prop}
    (h : ∀ version, post version ⟨part.held, { part.note with drawn := some version }⟩) :
    Safe ι settings thread call nextVersion post part := by
  apply safe_instr
  rintro choice s answer after hInvariant rfl hPerform
  cases hPerform
  exact quiet_step hInvariant.nextVersion rfl rfl trivial (h (versionAt s.versions))

theorem safe_wakeWaiters {post : Nat → Part → Prop} (h : ∀ epoch, post epoch part) :
    Safe ι settings thread call wakeWaiters post part := by
  apply safe_instr
  rintro choice s answer after hInvariant rfl hPerform
  cases hPerform
  exact ⟨hInvariant.elsewhere _ _ (Nat.le_refl _), .quiet trivial rfl rfl, h _⟩

theorem safe_loadFutileReclaim {post : Nat → Part → Prop} (h : ∀ marker, post marker part) :
    Safe ι settings thread call (instr .loadFutileReclaim) post part := by
  apply safe_instr
  rintro choice s answer after hInvariant rfl hPerform
  cases hPerform
  exact ⟨hInvariant, .quiet trivial rfl rfl, h _⟩

theorem safe_storeFutileReclaim {marker : Nat} (h : post () part) :
    Safe ι settings thread call (instr (.storeFutileReclaim marker)) post part := by
  apply safe_instr
  rintro choice s answer after hInvariant rfl hPerform
  cases hPerform
  exact ⟨hInvariant.elsewhere _ _ (Nat.le_refl _), .quiet trivial rfl rfl, h⟩

/-! The counters. -/

omit [DecidableEq ι] in
/-- What a thread has reserved is counted. -/
theorem Balanced.reserved_le (h : Balanced settings s) (thread : ι) :
    (s.notes thread).reserved ≤ (s.entryCount, s.continuationBytes) := by
  rw [h.counters]
  have hThread := Finset.single_le_sum (f := fun thread => (s.notes thread).reserved)
    (fun _ _ => zero_le) (Finset.mem_univ thread)
  exact hThread.trans le_add_self

omit [DecidableEq ι] [Fintype ι] in
theorem sub_add_eq_add_sub {total reserved amount : Nat × Nat} (hReserved : amount ≤ reserved)
    (hTotal : amount ≤ total) : total - amount + reserved = total + (reserved - amount) := by
  have hShift : ∀ {a b c : Nat}, a ≤ b → a ≤ c → c - a + b = c + (b - a) := by omega
  exact Prod.ext (hShift hReserved.1 hTotal.1) (hShift hReserved.2 hTotal.2)

omit [DecidableEq ι] [Fintype ι] in
theorem fetchSub_eq {counter amount : Nat} (h : amount ≤ counter) (hCounter : counter < wordSize) :
    fetchSub counter amount = counter - amount := by
  unfold fetchSub
  rw [Nat.mod_eq_of_lt (Nat.lt_of_le_of_lt h hCounter),
    show counter + (wordSize - amount) = wordSize + (counter - amount) by omega,
    Nat.add_mod_left, Nat.mod_eq_of_lt (Nat.lt_of_le_of_lt (Nat.sub_le _ _) hCounter)]

theorem safe_tryReserveEntry {post : Bool → Part → Prop}
    (hTrue : post true ⟨part.held, { part.note with reserved := part.note.reserved + (1, 0) }⟩)
    (hFalse : post false part) : Safe ι settings thread call tryReserveEntry post part := by
  apply safe_instr
  rintro choice s answer after hInvariant rfl hPerform
  simp only [perform] at hPerform
  split_ifs at hPerform with hRoom
  · cases hPerform
    refine quiet_step (hInvariant.count ?_ hRoom hInvariant.balanced.bytes_le) rfl rfl trivial
      hTrue
    rw [add_comm (s.notes thread).reserved, ← add_assoc]
    rfl
  · cases hPerform
    exact ⟨hInvariant, .quiet trivial rfl rfl, hFalse⟩

theorem safe_releaseEntries {count : Nat} (hReserved : (count, 0) ≤ part.note.reserved)
    (h : post () ⟨part.held, { part.note with reserved := part.note.reserved - (count, 0) }⟩) :
    Safe ι settings thread call (releaseEntries count) post part := by
  apply safe_instr
  rintro choice s answer after hInvariant rfl hPerform
  have hCounted := hReserved.trans (hInvariant.balanced.reserved_le thread)
  have hExact := fetchSub_eq hCounted.1
    (Nat.lt_of_le_of_lt hInvariant.balanced.entries_le settings.maxEntries_lt)
  simp only [perform, hExact] at hPerform
  cases hPerform
  exact quiet_step (hInvariant.count (sub_add_eq_add_sub hReserved hCounted)
      ((Nat.sub_le _ _).trans hInvariant.balanced.entries_le) hInvariant.balanced.bytes_le) rfl rfl
    hCounted.1 h

theorem safe_tryReserveContinuationBytes {bytes : Nat} {post : Bool → Part → Prop}
    (hTrue : post true ⟨part.held, { part.note with reserved := part.note.reserved + (0, bytes) }⟩)
    (hFalse : post false part) :
    Safe ι settings thread call (tryReserveContinuationBytes bytes) post part := by
  unfold tryReserveContinuationBytes
  by_cases hZero : bytes = 0
  · rw [if_pos hZero]
    rw [hZero] at hTrue
    exact hTrue
  rw [if_neg hZero]
  apply safe_instr
  rintro choice s answer after hInvariant rfl hPerform
  simp only [perform] at hPerform
  split_ifs at hPerform with hRoom
  · cases hPerform
    refine quiet_step (hInvariant.count ?_ hInvariant.balanced.entries_le hRoom) rfl rfl trivial
      hTrue
    rw [add_comm (s.notes thread).reserved, ← add_assoc]
    rfl
  · cases hPerform
    exact ⟨hInvariant, .quiet trivial rfl rfl, hFalse⟩

theorem safe_releaseBytes {bytes : Nat} (hReserved : (0, bytes) ≤ part.note.reserved)
    (h : post () ⟨part.held, { part.note with reserved := part.note.reserved - (0, bytes) }⟩) :
    Safe ι settings thread call (releaseBytes bytes) post part := by
  apply safe_instr
  rintro choice s answer after hInvariant rfl hPerform
  have hCounted := hReserved.trans (hInvariant.balanced.reserved_le thread)
  have hExact := fetchSub_eq hCounted.2
    (Nat.lt_of_le_of_lt hInvariant.balanced.bytes_le settings.maxContinuationBytes_lt)
  simp only [perform, hExact] at hPerform
  cases hPerform
  exact quiet_step (hInvariant.count (sub_add_eq_add_sub hReserved hCounted)
      hInvariant.balanced.entries_le ((Nat.sub_le _ _).trans hInvariant.balanced.bytes_le)) rfl rfl
    hCounted.2 h

/-! Locks. -/

/-- A thread that holds nothing gets the lock of a shard. -/
theorem acquire_step {instr : Instr} {sought : Option SessionHash} {post : Part → Prop}
    (hInvariant : Invariant settings s) (hOwn : s.own thread = .free note)
    (hCovers : s.Covers instr)
    (h : ∀ entries, post (.inside note shard ⟨entries, entries, sought⟩)) :
    Invariant settings (s.acquire thread shard sought) ∧
      Allowed settings thread call instr s (s.acquire thread shard sought) ∧
      post ((s.acquire thread shard sought).own thread) := by
  refine ⟨hInvariant.setShard rfl, .quiet hCovers (entries_setShard rfl) rfl, ?_⟩
  rw [ShardedBindings.acquire, ShardedBindings.own_setShard, if_pos rfl, hOwn,
    ShardedBindings.own_free hOwn]
  exact h _

theorem safe_lock
    (h : ∀ entries, post () (.inside note key.shardIndex ⟨entries, entries, some key⟩)) :
    Safe ι settings thread call (lock key) post (.free note) := by
  apply safe_instr
  intro choice s answer after hInvariant hOwn hPerform
  simp only [perform] at hPerform
  split at hPerform <;> cases hPerform
  exact acquire_step hInvariant hOwn trivial h

theorem safe_visit (h : ∀ entries, post () (.inside note shard ⟨entries, entries, none⟩)) :
    Safe ι settings thread call (visit shard) post (.free note) := by
  apply safe_instr
  intro choice s answer after hInvariant hOwn hPerform
  simp only [perform] at hPerform
  split at hPerform <;> cases hPerform
  exact acquire_step hInvariant hOwn trivial h

theorem Invariant.release (h : Invariant settings s) (thread : ι)
    (shard : Fin shardCount) : Invariant settings (s.release thread shard) := by
  have hShard : Invariant settings (s.setShard shard { s.shards shard with holder := none }) :=
    h.setShard rfl
  unfold ShardedBindings.release
  dsimp only
  split
  · exact hShard.setNote rfl (h.readings thread) fun _ => id
  · exact hShard.setNote rfl (h.readings thread) fun _ => id

/-- Leaving a shard that was visited. -/
theorem safe_unlock_visited (h : post () (.free note)) :
    Safe ι settings thread call (unlock shard) post
      (.inside note shard ⟨entries, found, none⟩) := by
  apply safe_instr
  intro choice s answer after hInvariant hOwn hPerform
  obtain ⟨hHolder, -, -, hSought, -⟩ := ShardedBindings.own_inside hOwn
  simp only [perform, if_pos hHolder] at hPerform
  cases hPerform
  refine ⟨hInvariant.release thread shard, .quiet trivial (entries_setShard rfl) rfl, ?_⟩
  have hAfter := s.own_release thread shard
  rw [hSought, hOwn, Part.inside, update_idem, update_eq_self] at hAfter
  rw [hAfter]
  exact h

/-- Leaving the section of a key. -/
theorem safe_unlock (h : ∀ bound clock, note.reading ≤ clock → (∀ target seenAt state,
        entries.lookup key = some (.bound ⟨target, seenAt, .continuation (.ready state)⟩) →
          bound = some (target, state)) →
      post () (.free { note with visited := some ⟨key, found, entries, bound, clock⟩ })) :
    Safe ι settings thread call (unlock shard) post
      (.inside note shard ⟨entries, found, some key⟩) := by
  apply safe_instr
  intro choice s answer after hInvariant hOwn hPerform
  obtain ⟨hHolder, hEntries, hFound, hSought, hNote⟩ := ShardedBindings.own_inside hOwn
  simp only [perform, if_pos hHolder] at hPerform
  cases hPerform
  refine ⟨hInvariant.release thread shard, .quiet trivial (entries_setShard rfl) rfl, ?_⟩
  have hAfter := s.own_release thread shard
  rw [hSought, hFound, hEntries, hOwn, Part.inside, update_idem,
    update_eq_self] at hAfter
  rw [hAfter]
  refine h (s.bound key) s.clock (hNote ▸ hInvariant.readings thread) ?_
  intro target seenAt state hLookup
  exact hInvariant.recorded.ready shard key target seenAt state (by rw [hEntries]; exact hLookup)

/-! The map behind a lock. -/

theorem safe_get {post : Option BindingState → Part → Prop}
    (h : post (held.entries.lookup key) (.inside note shard held)) :
    Safe ι settings thread call (ShardGuard.get shard key) post (.inside note shard held) := by
  apply safe_instr
  intro choice s answer after hInvariant hOwn hPerform
  obtain ⟨hHolder, hEntries, -⟩ := ShardedBindings.own_inside hOwn
  simp only [perform, hEntries] at hPerform
  cases hPerform
  refine ⟨hInvariant, .quiet trivial rfl rfl, ?_⟩
  have hAnswer : (if (s.shards shard).holder = some thread then held.entries.lookup key
      else none) = held.entries.lookup key := if_pos hHolder
  rw [hOwn]
  exact hAnswer.symm ▸ h

/-- The entries of a map in some order. -/
structure Listed (entries : Shard) (listed : List (SessionHash × BindingState)) : Prop where
  nodup : (listed.map Prod.fst).Nodup
  mem : ∀ key entry, (key, entry) ∈ listed ↔ entries.lookup key = some entry
  weight : weight entries =
    (listed.length, (listed.map fun entry => continuationFootprint entry.2).sum)

theorem safe_iter {post : List (SessionHash × BindingState) → Part → Prop}
    (h : ∀ listed, Listed held.entries listed → post listed (.inside note shard held)) :
    Safe ι settings thread call (ShardGuard.iter shard) post (.inside note shard held) := by
  apply safe_instr
  intro choice s answer after hInvariant hOwn hPerform
  obtain ⟨hHolder, hEntries, -⟩ := ShardedBindings.own_inside hOwn
  simp only [perform, if_pos hHolder, hEntries] at hPerform
  obtain ⟨listed, hListed, hPair⟩ := Option.map_eq_some_iff.mp hPerform
  cases hPair
  refine ⟨hInvariant, .quiet trivial rfl rfl, ?_⟩
  rw [hOwn]
  exact h answer ⟨(inOrder_eq_some hListed).1, (inOrder_eq_some hListed).2, inOrder_weight hListed⟩

/-- The call may change an entry from the last reading of the clock on. -/
abbrev Note.Permits (note : Note) (settings : Settings) (call : Call) (key : SessionHash)
    (old new : Option BindingState) : Prop :=
  ∀ clock, note.reading ≤ clock → Change settings clock note.drawn call key old new

/-- Storing an entry that the call may store. -/
theorem safe_insert {post : Option BindingState → Part → Prop}
    (hChange : note.Permits settings call key (held.entries.lookup key) (some state))
    (hWeight : weight (held.entries.insert key state) ≤ note.reserved + weight held.entries)
    (h : post (held.entries.lookup key) (.inside { note.store (held.entries.lookup key) state with
          reserved := note.reserved + weight held.entries - weight (held.entries.insert key state) }
        key.shardIndex { held with entries := held.entries.insert key state })) :
    Safe ι settings thread call (ShardGuard.insert key.shardIndex key state) post
      (.inside note key.shardIndex held) := by
  apply safe_instr
  intro choice s answer after hInvariant hOwn hPerform
  obtain ⟨hHolder, hEntries, hFound, hSought, hNote⟩ := ShardedBindings.own_inside hOwn
  simp only [perform, if_pos hHolder] at hPerform
  cases hPerform
  have hLookup : s.lookup key = held.entries.lookup key := by rw [← hEntries]; rfl
  have hStep : Change settings s.clock (s.notes thread).drawn call key (s.lookup key)
      (some state) := by
    rw [hLookup, hNote]
    exact hChange s.clock (hNote ▸ hInvariant.readings thread)
  refine ⟨hInvariant.store hStep (by rw [hEntries, hNote]; exact hWeight),
    .store trivial hStep, ?_⟩
  have hAfter : (s.store thread key.shardIndex key state).own thread = _ :=
    ShardedBindings.own_write hHolder ((s.entries key.shardIndex).insert key state)
      ((s.notes thread).store ((s.entries key.shardIndex).lookup key) state)
  rw [Note.reserved_store, hEntries, hFound, hSought, hNote, hOwn, Part.inside,
    update_idem] at hAfter
  rw [hEntries, hAfter]
  exact h

/-- Replacing the map by one without some of its entries. -/
theorem write_step {next : Shard}
    {instr : Instr} {post : Part → Prop} (hInvariant : Invariant settings s)
    (hOwn : s.own thread = .inside note shard held)
    (hNext : ∀ key entry, held.entries.lookup key = some entry →
      next.lookup key = some entry ∨
        next.lookup key = none ∧ note.Permits settings call key (some entry) none)
    (hNone : ∀ key, held.entries.lookup key = none → next.lookup key = none)
    (hWeight : weight next ≤ weight held.entries)
    (hCovers : s.Covers instr) (h : post (.inside
      { note with reserved := note.reserved + weight held.entries - weight next } shard
      { held with entries := next })) :
    Invariant settings (s.write thread shard next (s.notes thread)) ∧
      Allowed settings thread call instr s (s.write thread shard next (s.notes thread)) ∧
      post ((s.write thread shard next (s.notes thread)).own thread) := by
  obtain ⟨hHolder, hEntries, hFound, hSought, hNote⟩ := ShardedBindings.own_inside hOwn
  rw [← hEntries] at hNext hNone hWeight
  refine ⟨hInvariant.write ?_ (hWeight.trans le_add_self), .write hCovers ?_ hNone, ?_⟩
  · intro key entry hLookup
    cases hOld : (s.entries shard).lookup key with
    | none => exact absurd (hNone key hOld ▸ hLookup) (by simp)
    | some old =>
      rcases hNext key old hOld with hSame | ⟨hGone, -⟩
      · exact hSame ▸ hLookup
      · exact absurd (hGone ▸ hLookup) (by simp)
  · intro key entry hLookup
    refine (hNext key entry hLookup).imp_right fun ⟨hGone, hChange⟩ => ⟨hGone, ?_⟩
    rw [hNote]
    exact hChange s.clock (hNote ▸ hInvariant.readings thread)
  · have hAfter := ShardedBindings.own_write hHolder next (s.notes thread)
    rw [hEntries, hFound, hSought, hOwn, Part.inside, update_idem, hNote] at hAfter
    rw [hNote, hAfter]
    exact h

/-- Removing an entry that the call may remove. -/
theorem safe_removeEntry {post : Option BindingState → Part → Prop}
    (hChange : ∀ entry, held.entries.lookup key = some entry →
      note.Permits settings call key (some entry) none)
    (h : post (held.entries.lookup key) (.inside { note with
          reserved := note.reserved + weight held.entries - weight (held.entries.erase key) }
        shard { held with entries := held.entries.erase key })) :
    Safe ι settings thread call (instr (.remove shard key)) post (.inside note shard held) := by
  apply safe_instr
  intro choice s answer after hInvariant hOwn hPerform
  obtain ⟨hHolder, hEntries, -⟩ := ShardedBindings.own_inside hOwn
  simp only [perform, if_pos hHolder, hEntries] at hPerform
  cases hPerform
  refine write_step hInvariant hOwn ?_ ?_ ?_ trivial h
  · intro other entry hLookup
    rcases eq_or_ne other key with rfl | hOther
    · exact .inr ⟨Finmap.lookup_erase other held.entries, hChange entry hLookup⟩
    · exact .inl (by rwa [Finmap.lookup_erase_ne hOther])
  · intro other hLookup
    rcases eq_or_ne other key with rfl | hOther
    · exact Finmap.lookup_erase other held.entries
    · rwa [Finmap.lookup_erase_ne hOther]
  · cases hOld : held.entries.lookup key with
    | none => rw [erase_absent hOld]
    | some entry =>
      rw [weight_erase hOld]
      exact le_self_add

theorem safe_clearEntries
    (hChange : ∀ key entry, held.entries.lookup key = some entry →
      note.Permits settings call key (some entry) none)
    (h : post () (.inside { note with reserved := note.reserved + weight held.entries } shard
      { held with entries := ∅ })) :
    Safe ι settings thread call (instr (.clear shard)) post (.inside note shard held) := by
  apply safe_instr
  intro choice s answer after hInvariant hOwn hPerform
  obtain ⟨hHolder, -⟩ := ShardedBindings.own_inside hOwn
  simp only [perform, if_pos hHolder] at hPerform
  cases hPerform
  refine write_step hInvariant hOwn ?_ ?_ ?_ trivial h
  · exact fun key entry hLookup => .inr ⟨Finmap.lookup_empty key, hChange key entry hLookup⟩
  · exact fun key _ => Finmap.lookup_empty key
  · exact zero_le

end Any2Api.Runtime.Affinity
