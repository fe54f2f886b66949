import Any2Api.Runtime.Affinity.Operations

/-! Every call keeps the invariant and changes no more than it may, whatever
other calls do between its instructions. -/
namespace Any2Api.Runtime.Affinity

variable {ι : Type} [DecidableEq ι] [Fintype ι] {settings : Settings} {thread : ι}
  {key : SessionHash} {note : Note} {entry : BindingState} {ttl : Duration} {found : Shard}

/-- A thread that holds and reserves nothing. -/
def Idle (committed : Bool) (part : Part) : Prop :=
  ∃ note, part = .free note ∧ note.reserved = 0 ∧ note.committed = committed

theorem Closing.idle {α : Type} {found left : Shard} {result : α} (hReserved : note.reserved = 0) :
    Closing key found (fun _ => Idle note.committed) result
      (.inside note key.shardIndex ⟨left, found, some key⟩) :=
  ⟨note, left, rfl, fun _ _ _ _ => ⟨_, rfl, hReserved, rfl⟩⟩

/-- What is left of a call that wakes the waiters when something has changed. -/
theorem safe_wakeIf {α : Type} {call : Call} {part : Part} {changed : Bool} {woken : Nat → α}
    {otherwise : α} {post : α → Part → Prop} (h : ∀ result, post result part) :
    Safe ι settings thread call
      (if changed then do pure (woken (← wakeWaiters)) else pure otherwise) post part := by
  cases changed with
  | false => exact h otherwise
  | true => exact .bind (safe_wakeWaiters fun epoch => h (woken epoch))

/-- The whole of a call, from a thread that holds nothing. -/
def SafeCall (settings : Settings) (thread : ι) (call : Call) (note : Note) : Prop :=
  Safe ι settings thread call (body settings call) (Returned settings call) (.free note)

theorem BindingState.isExpired_mono {now later : Instant}
    (hLater : now ≤ later) (h : entry.isExpired now ttl = true) :
    entry.isExpired later ttl = true := by
  cases entry with
  | creating version phase => cases h
  | bound binding =>
    simp only [BindingState.isExpired, Bool.and_eq_true, Bool.not_eq_true',
      decide_eq_true_eq] at h ⊢
    exact ⟨h.1, h.2.trans (Nat.sub_le_sub_right hLater _)⟩

/-! Sessions. -/

section BeginSession

variable {dialect : ProtocolDialect} {routeId : Nat} {raw : String} {ttl : Duration} {now : Instant}
  {key : SessionHash}

theorem safe_createSession {held : Held} {post : Except InsertRejection BindingStart → Part → Prop}
    (hKey : key = settings.hasher.session dialect routeId raw) (hClear : note.Clear now)
    (hAbsent : held.entries.lookup key = none)
    (h : ∀ result (note : Note) left, note.Clear now →
      post result (.inside note key.shardIndex { held with entries := left })) :
    Safe ι settings thread (.beginSession dialect routeId raw ttl)
      (createSession key.shardIndex key now ttl) post (.inside note key.shardIndex held) := by
  refine .bind (safe_reclaimExpiredSample hClear.reserved rfl hClear.reading fun left hLeft => ?_)
  refine .bind (safe_nextVersion fun version => ?_)
  refine .bind (safe_tryInsert hClear.reserved (hLeft key hAbsent) ?_ ?_ ?_)
  · intro clock hClock
    rw [hKey]
    exact .created dialect routeId raw ttl rfl
  · exact h _ _ _ ⟨hClear.reserved, hClear.reading, hClear.committed⟩
  · exact fun rejection => h _ _ _ ⟨hClear.reserved, hClear.reading, hClear.committed⟩

theorem safe_beginSessionLocked {held : Held}
    {post : Except InsertRejection BindingStart → Part → Prop}
    (hKey : key = settings.hasher.session dialect routeId raw) (hClear : note.Clear now)
    (h : ∀ result (note : Note) left, note.Clear now →
      post result (.inside note key.shardIndex { held with entries := left })) :
    Safe ι settings thread (.beginSession dialect routeId raw ttl)
      (beginSessionLocked key now ttl key.shardIndex) post (.inside note key.shardIndex held) := by
  refine .bind (safe_get ?_)
  split
  · next binding hOld =>
      split_ifs with hLive
      · have hTouches : Call.Touches settings key binding.target binding.source
            (.beginSession dialect routeId raw ttl) := hKey
        exact .bind (safe_touch hClear.reserved hOld hTouches (h _ _ _ hClear))
      · refine .bind (safe_remove hClear.reserved ?_ ?_)
        · intro entry hEntry clock hClock
          cases hOld.symm.trans hEntry
          rw [hKey]
          refine .outdated dialect routeId raw ?_
          exact (Nat.le_of_not_lt hLive).trans
            (Nat.sub_le_sub_right (hClear.reading.trans hClock) _)
        · exact safe_createSession hKey hClear (Finmap.lookup_erase key held.entries) h
  · exact h _ _ _ hClear
  · next hOld => exact safe_createSession hKey hClear hOld h

theorem safe_beginSession (hReserved : note.reserved = 0) (hCommitted : note.committed = false) :
    SafeCall settings thread (.beginSession dialect routeId raw ttl) note := by
  refine .bind (safe_now fun now hNow => ?_)
  refine safe_insertLoop rfl ?_ 1 ⟨hReserved, Nat.le_refl now, hCommitted⟩
  intro note hClear
  refine .bind (safe_withLock fun found => safe_beginSessionLocked rfl hClear ?_)
  intro result note left hClear
  exact ⟨note, left, rfl, fun bound clock _ _ => ⟨⟨_, rfl, hClear.reserved, trivial⟩,
    fun _ _ => ⟨_, rfl, hClear.reserved, hClear.reading, hClear.committed⟩⟩⟩

end BeginSession

section BindingLease

variable {lease : BindingLease} {note : Note} {call : Call} {target : AffinityTarget}
  {deadline : Option Instant}

theorem safe_markAttempting (hReserved : note.reserved = 0) :
    SafeCall settings thread (.markAttempting lease) note := by
  refine .seq (?_ : Safe ι settings thread _ _ (fun _ => Idle note.committed) _) ?_
  · refine safe_withLock fun found => .bind (safe_get ?_)
    split
    · next version phase hOld =>
        split_ifs with hVersion
        · refine .bind (safe_refresh hReserved hOld rfl ?_ (.idle hReserved))
          intro clock _
          rw [hVersion]
          exact .attempting lease phase
        · exact .idle hReserved
    · exact .idle hReserved
  · rintro marked part ⟨note, rfl, hReserved, -⟩
    exact safe_wakeIf fun _ => ⟨note, rfl, hReserved, trivial⟩

/-- The entry is removed only when it is still the one of the lease. -/
theorem safe_removeCurrent (hCall : call.Drops lease) (hReserved : note.reserved = 0) :
    Safe ι settings thread call lease.removeCurrent (fun _ => Idle note.committed)
      (.free note) := by
  unfold BindingLease.removeCurrent
  split_ifs
  · refine safe_withLock fun found => .bind (safe_get ?_)
    split
    · next version phase hOld =>
        split_ifs with hVersion
        · refine .bind (safe_remove hReserved ?_ (.idle hReserved))
          intro entry hEntry clock _
          cases hOld.symm.trans hEntry
          rw [hVersion]
          exact .released hCall phase
        · exact .idle hReserved
    · exact .idle hReserved
  · exact ⟨note, rfl, hReserved, rfl⟩

theorem safe_drop (hCall : call.Drops lease) (hReserved : note.reserved = 0) :
    Safe ι settings thread call lease.drop (fun _ => Idle note.committed) (.free note) := by
  refine .seq (safe_removeCurrent hCall hReserved) ?_
  rintro removed part hIdle
  exact safe_wakeIf fun _ => hIdle

theorem safe_releaseForWait (hReserved : note.reserved = 0) :
    SafeCall settings thread (.releaseForWait lease) note := by
  refine .seq (safe_removeCurrent rfl hReserved) ?_
  rintro removed part ⟨note, rfl, hReserved, -⟩
  exact safe_wakeIf fun _ => ⟨note, rfl, hReserved, trivial⟩

theorem safe_dropLease (hReserved : note.reserved = 0) :
    SafeCall settings thread (.dropLease lease) note := by
  have hCall : Call.Drops lease (.dropLease lease) := rfl
  refine (safe_drop hCall hReserved).mono ?_
  rintro ⟨⟩ part ⟨note, rfl, hReserved, -⟩
  exact ⟨note, rfl, hReserved, trivial⟩

theorem safe_commitLocked {committedAt : Instant} (hReserved : note.reserved = 0)
    (hCommitted : note.committed = false) :
    Safe ι settings thread (.commit lease target deadline)
      (lease.commitLocked target committedAt deadline lease.key.shardIndex).run
      (Closing lease.key found fun result => Idle result.isOk)
      (.inside note lease.key.shardIndex ⟨found, found, some lease.key⟩) := by
  have hFail : ∀ (note : Note) error, note.reserved = 0 → note.committed = false →
      Closing lease.key found (fun (result : Except AffinityError Unit) => Idle result.isOk)
        (.error error) (.inside note lease.key.shardIndex ⟨found, found, some lease.key⟩) :=
    fun note error hReserved hCommitted =>
      ⟨note, found, rfl, fun _ _ _ _ => ⟨_, rfl, hReserved, hCommitted⟩⟩
  refine safe_checkDeadline (fun _ _ _ => hFail _ _ hReserved hCommitted) fun reading _ => ?_
  refine safe_tryDo (safe_get ?_)
  split
  · next version hOld =>
      split_ifs with hVersion
      · refine safe_checkDeadline (fun _ _ _ => hFail _ _ hReserved hCommitted) fun reading _ => ?_
        refine safe_tryLift (safe_replace hReserved hOld (Nat.le_refl 0) ?_ ?_)
        · intro clock _
          rw [hVersion]
          exact .committed lease target deadline committedAt
        · exact ⟨_, _, rfl, fun _ _ _ _ => ⟨_, rfl, hReserved, rfl⟩⟩
      · exact hFail _ _ hReserved hCommitted
  · exact hFail _ _ hReserved hCommitted

theorem safe_tryCommit (hReserved : note.reserved = 0) (hCommitted : note.committed = false) :
    Safe ι settings thread (.commit lease target deadline) (lease.tryCommit target deadline)
      (fun result => Idle result.isOk) (.free note) := by
  refine .bind (safe_now fun committedAt _ => ?_)
  split_ifs
  · exact ⟨_, rfl, hReserved, hCommitted⟩
  · exact safe_withLock fun found => safe_commitLocked hReserved hCommitted

theorem safe_commit (hReserved : note.reserved = 0) (hCommitted : note.committed = false) :
    SafeCall settings thread (.commit lease target deadline) note := by
  have hCall : Call.Drops lease (.commit lease target deadline) := rfl
  refine .seq (safe_tryCommit hReserved hCommitted) ?_
  rintro (error | ⟨⟩) part ⟨note, rfl, hReserved, hOk⟩
  · refine .seq (safe_drop hCall hReserved) ?_
    rintro ⟨⟩ part ⟨dropped, rfl, hReserved, hSame⟩
    refine ⟨dropped, rfl, hReserved, ?_⟩
    have hFalse : dropped.committed = false := hSame.trans hOk
    exact iff_of_false (by simp [hFalse]) (by simp)
  · refine .bind (safe_wakeWaiters fun _ => ⟨note, rfl, hReserved, ?_⟩)
    exact iff_of_true hOk rfl

end BindingLease

/-! Continuations. -/

theorem shows_of_lookup {found left : Shard} {target : AffinityTarget}
    {clock : Instant} {state : Option ContinuationState}
    {bound : Option (AffinityTarget × Option ContinuationState)} (seenAt : Instant)
    (h : left.lookup key = some (.bound ⟨target, seenAt, .continuation (.ready state)⟩))
    (hBound : ∀ target seenAt state,
      left.lookup key = some (.bound ⟨target, seenAt, .continuation (.ready state)⟩) →
        bound = some (target, state)) :
    Section.Shows ⟨key, found, left, bound, clock⟩ key target state :=
  ⟨rfl, hBound target seenAt state h, seenAt, h⟩

section Continuations

variable {raw : String} {target : AffinityTarget} {continuation : Option ContinuationState}
  {ttl : Duration} {deadline : Option Instant} {note : Note}

theorem safe_resolveContinuation {targetIsAvailable : AffinityTarget → Bool}
    (hReserved : note.reserved = 0) :
    SafeCall settings thread (.resolveContinuation raw ttl targetIsAvailable) note := by
  refine .bind (safe_now fun now _ => safe_withLock fun found => .bind (safe_get ?_))
  have hOther : ∀ result (note : Note) left, note.reserved = 0 →
      (∀ resolved, result ≠ .ready resolved) →
      Closing (settings.hasher.continuation raw) found
        (Returned settings (.resolveContinuation raw ttl targetIsAvailable)) result
        (.inside note _ ⟨left, found, some (settings.hasher.continuation raw)⟩) :=
    fun result note left hReserved hResult => ⟨note, left, rfl, fun _ _ _ _ =>
      ⟨_, rfl, hReserved, fun resolved h => absurd h (hResult resolved)⟩⟩
  split
  · next binding hOld =>
      split
      · exact hOther _ _ _ hReserved (fun _ h => by cases h)
      · next state hSource =>
          split_ifs with hExpired hAvailable
          · refine .bind (safe_remove hReserved ?_ (hOther _ _ _ hReserved (fun _ h => by cases h)))
            intro entry hEntry clock hClock
            cases hOld.symm.trans hEntry
            refine .expired rfl _ ?_ (hExpired.trans (Nat.sub_le_sub_right hClock _))
            simp [TimedBinding.isPendingContinuation, hSource]
          · have hTouches : Call.Touches settings (settings.hasher.continuation raw) binding.target
                binding.source (.resolveContinuation raw ttl targetIsAvailable) :=
              ⟨rfl, state, hSource⟩
            refine .bind (safe_touch hReserved hOld hTouches ?_)
            refine ⟨_, _, rfl, fun bound clock _ hBound => ⟨_, rfl, hReserved, ?_⟩⟩
            rintro resolved hResolved
            cases hResolved
            refine ⟨_, rfl, shows_of_lookup now ?_ hBound⟩
            rw [Finmap.lookup_insert, hSource]
          · exact hOther _ _ _ hReserved (fun _ h => by cases h)
      · exact hOther _ _ _ hReserved (fun _ h => by cases h)
  · exact hOther _ _ _ hReserved (fun _ h => by cases h)

/-! Binding an identity. -/

section Bind

variable {key : SessionHash} {found left : Shard}
  {bound : Option (AffinityTarget × Option ContinuationState)} {clock now : Instant} {α : Type}
  {again : BindingState → Prop} {result : Except AffinityError α}

/-- Nothing alive was found. -/
theorem conflicts_of_expired (hClock : now ≤ clock)
    (h : ∀ entry, found.lookup key = some entry → entry.isExpired now ttl = true) :
    Section.Conflicts ⟨key, found, left, bound, clock⟩ key ttl deadline again result := by
  refine ⟨rfl, fun entry hEntry hAlive _ => ?_⟩
  rw [BindingState.isExpired_mono hClock (h entry hEntry)] at hAlive
  cases hAlive

/-- What was found could be bound again. -/
theorem conflicts_of_again (hEntry : found.lookup key = some entry) (h : again entry) :
    Section.Conflicts ⟨key, found, left, bound, clock⟩ key ttl deadline again result := by
  refine ⟨rfl, fun other hOther _ hNot => ?_⟩
  cases hEntry.symm.trans hOther
  exact absurd h hNot

/-- What a section may end in that has bound nothing. -/
def Ends (now : Instant) (key : SessionHash) (found : Shard) (ttl : Duration)
    (deadline : Option Instant) (again : BindingState → Prop)
    (post : Except AffinityError (Except InsertRejection α) → Part → Prop)
    (result : Except AffinityError (Except InsertRejection α)) : Prop :=
  ∀ (note : Note) left bound clock, note.Clear now →
    (∀ toError, Section.Conflicts ⟨key, found, left, bound, clock⟩ key ttl deadline again
      (result.bind fun inserted => inserted.mapError toError)) →
    post result (.free { note with visited := some ⟨key, found, left, bound, clock⟩ })

variable {post : Except AffinityError (Except InsertRejection α) → Part → Prop}
  {ended : Except AffinityError (Except InsertRejection α)} {error : AffinityError}

/-- A section that failed before it changed anything may end. -/
theorem Ends.closing_of_error (h : Ends now key found ttl deadline again post (.error error))
    (hClear : note.Clear now)
    (hError : error = .identityConflict ∨
      error = .deadlineExceeded ∧ Reached deadline note.reading) :
    Closing key found post (.error error)
      (.inside note key.shardIndex ⟨found, found, some key⟩) := by
  refine ⟨note, found, rfl, fun bound clock hClock _ => h _ _ _ _ hClear fun _ => ?_⟩
  refine ⟨rfl, fun _ hEntry _ _ => ⟨?_, hEntry⟩⟩
  rcases hError with rfl | ⟨rfl, hLate⟩
  · exact .inl rfl
  · exact .inr ⟨rfl, hLate.mono hClock⟩

/-- A section that found nothing alive may end. -/
theorem Ends.closing_of_expired (h : Ends now key found ttl deadline again post ended)
    (hClear : note.Clear now)
    (hExpired : ∀ entry, found.lookup key = some entry → entry.isExpired now ttl = true) :
    Closing key found post ended (.inside note key.shardIndex ⟨left, found, some key⟩) :=
  ⟨note, left, rfl, fun _ _ hClock _ => h _ _ _ _ hClear fun _ =>
    conflicts_of_expired (hClear.reading.trans hClock) hExpired⟩

end Bind

theorem safe_bindReadyLocked {now : Instant}
    {post : Except AffinityError (Except InsertRejection Unit) → Part → Prop}
    (hKey : key = settings.hasher.continuation raw) (hClear : note.Clear now)
    (hEnds : ∀ result, result ≠ .ok (.ok ()) →
      Ends now key found ttl deadline (Again target continuation) post result)
    (hOk : ∀ (note : Note) left bound clock, note.reserved = 0 →
      Section.Shows ⟨key, found, left, bound, clock⟩ key target continuation →
      Section.Conflicts ⟨key, found, left, bound, clock⟩ key ttl deadline
        (Again target continuation) (.ok () : Except AffinityError Unit) →
      post (.ok (.ok ())) (.free { note with visited := some ⟨key, found, left, bound, clock⟩ })) :
    Safe ι settings thread (.bindReady raw target continuation ttl deadline)
      (bindReadyLocked key target continuation now ttl deadline key.shardIndex).run
      (Closing key found post) (.inside note key.shardIndex ⟨found, found, some key⟩) := by
  have hFail (error : AffinityError) := hEnds (.error error) fun h => by cases h
  refine safe_checkDeadline (fun _ hReading hLate => ?_) fun reading hReading => ?_
  · exact (hFail _).closing_of_error (hClear.read hReading) (.inr ⟨rfl, hLate⟩)
  have hClear := hClear.read hReading
  refine safe_tryDo (safe_removeIfExpired hClear.reserved rfl hClear.reading ?_ ?_)
  · intro entry hEntry hAlive
    refine safe_tryDo (safe_get ?_)
    rw [hEntry]
    cases entry with
    | creating version phase => exact (hFail _).closing_of_error hClear (.inl rfl)
    | bound binding =>
      dsimp only
      split_ifs with hSame
      · obtain ⟨rfl, rfl, hSource⟩ := hSame
        have hAgain : Again binding.target none (.bound binding) :=
          ⟨rfl, binding.lastSeenAt, by rw [← hSource]⟩
        refine safe_checkDeadline (fun _ hLater hLate => ?_) fun later hLater => ?_
        · exact (hFail _).closing_of_error (hClear.read hLater) (.inr ⟨rfl, hLate⟩)
        refine safe_tryDo (safe_now fun seenAt hSeenAt => ?_)
        have hTouches : Call.Touches settings key binding.target binding.source
            (.bindReady raw binding.target none ttl deadline) := ⟨hKey, rfl, rfl, hSource⟩
        refine safe_tryDo (safe_touch hClear.reserved hEntry hTouches ?_)
        refine ⟨_, _, rfl, fun bound clock hClock hBound => ?_⟩
        refine hOk _ _ bound clock hClear.reserved (shows_of_lookup seenAt ?_ hBound)
          (conflicts_of_again hEntry hAgain)
        rw [Finmap.lookup_insert, hSource]
      · exact (hFail _).closing_of_error hClear (.inl rfl)
  · intro hExpired removed left hLeft
    refine safe_tryDo (safe_get ?_)
    rw [hLeft]
    refine safe_tryDo
      (safe_reclaimExpiredSample hClear.reserved rfl hClear.reading fun left hSample => ?_)
    refine safe_checkDeadline (fun _ hLater _ => ?_) fun later hLater => ?_
    · exact (hFail _).closing_of_expired (hClear.read hLater) hExpired
    refine safe_tryDo (safe_now fun seenAt hSeenAt => ?_)
    have hClear := (hClear.read hLater).read hSeenAt
    refine safe_tryLift (safe_tryInsert hClear.reserved (hSample key hLeft) ?_ ?_ ?_)
    · intro clock _
      rw [hKey]
      exact .bound raw target continuation ttl deadline seenAt
    · refine ⟨_, _, rfl, fun bound clock hClock hBound => ?_⟩
      exact hOk _ _ bound clock hClear.reserved
        (shows_of_lookup seenAt (Finmap.lookup_insert _) hBound)
        (conflicts_of_expired (hClear.reading.trans hClock) hExpired)
    · exact fun rejection =>
        (hEnds (.ok (.error rejection)) fun h => by cases h).closing_of_expired hClear hExpired

theorem checkedStateBytes_isOk (continuation : Option ContinuationState) :
    ∃ bytes, checkedStateBytes continuation = .ok bytes := by
  cases continuation with
  | none => exact ⟨0, rfl⟩
  | some state => exact ⟨_, if_pos state.bounded⟩

/-- A bind that was too late to take the lock. -/
theorem refused_of_late {α : Type} {again : BindingState → Prop} {reading : Instant}
    (hVisited : note.visited = none) (hLate : Reached deadline reading) :
    Refused { note with reading } key ttl deadline again
      (.error .deadlineExceeded : Except AffinityError α) := by
  rw [hVisited]
  exact ⟨rfl, hLate⟩

theorem safe_bindReady (hReserved : note.reserved = 0) (hVisited : note.visited = none)
    (hCommitted : note.committed = false) :
    SafeCall settings thread (.bindReady raw target continuation ttl deadline) note := by
  refine safe_checkDeadline (fun _ _ hLate => ?_) fun reading _ => ?_
  · refine ⟨_, rfl, hReserved, .intro (fun h => by cases h) (.intro ?_ ?_)⟩
    · exact fun h => absurd (hCommitted.symm.trans h) (by decide)
    · exact refused_of_late hVisited hLate
  obtain ⟨bytes, hBytes⟩ := checkedStateBytes_isOk continuation
  rw [hBytes]
  refine safe_tryBind (safe_tryExcept ?_)
  refine safe_tryDo (safe_now fun now _ => ?_)
  refine safe_insertLoop rfl ?_ 1 ⟨hReserved, Nat.le_refl now, hCommitted⟩
  intro note hClear
  refine safe_withLock fun found => safe_bindReadyLocked rfl hClear ?_ ?_
  · intro result hNot note left bound clock hClear hConflicts
    refine ⟨⟨_, rfl, hClear.reserved, .intro ?_ (.intro ?_ (hConflicts InsertRejection.toError))⟩,
      fun _ _ => ⟨_, rfl, hClear.reserved, hClear.reading, hClear.committed⟩⟩
    · intro hOk
      obtain error | rejection | ⟨⟩ := result
      · cases hOk
      · cases hOk
      · exact absurd rfl hNot
    · exact fun hBound => absurd (hClear.committed.symm.trans hBound) (by decide)
  · intro note left bound clock hReserved hShows hConflicts
    exact ⟨⟨_, rfl, hReserved, .intro (fun _ => ⟨_, rfl, hShows⟩)
      (.intro (fun _ => rfl) hConflicts)⟩,
      fun _ h => by cases h⟩

theorem safe_beginPendingLocked {now : Instant}
    {post : Except AffinityError (Except InsertRejection ContinuationLease) → Part → Prop}
    (hKey : key = settings.hasher.continuation raw) (hClear : note.Clear now)
    (hEnds : ∀ result, Ends now key found ttl deadline (fun _ => False) post result) :
    Safe ι settings thread (.beginPending raw target ttl deadline)
      (beginPendingLocked key target now ttl deadline key.shardIndex).run
      (Closing key found post) (.inside note key.shardIndex ⟨found, found, some key⟩) := by
  refine safe_checkDeadline (fun _ hReading hLate => ?_) fun reading hReading => ?_
  · exact (hEnds _).closing_of_error (hClear.read hReading) (.inr ⟨rfl, hLate⟩)
  have hClear := hClear.read hReading
  refine safe_tryDo (safe_removeIfExpired hClear.reserved rfl hClear.reading ?_ ?_)
  · intro entry hEntry hAlive
    refine safe_tryDo (safe_get ?_)
    rw [hEntry]
    exact (hEnds _).closing_of_error hClear (.inl rfl)
  · intro hExpired removed left hLeft
    refine safe_tryDo (safe_get ?_)
    rw [hLeft]
    refine safe_tryDo
      (safe_reclaimExpiredSample hClear.reserved rfl hClear.reading fun left hSample => ?_)
    refine safe_checkDeadline (fun _ hLater _ => ?_) fun later hLater => ?_
    · exact (hEnds _).closing_of_expired (hClear.read hLater) hExpired
    refine safe_tryDo (safe_nextVersion fun version => ?_)
    refine safe_tryDo (safe_now fun seenAt hSeenAt => ?_)
    have hClear := (hClear.read hLater).read hSeenAt
    refine safe_tryDo (safe_tryInsert hClear.reserved (hSample key hLeft) ?_ ?_ ?_)
    · intro clock _
      rw [hKey]
      exact .pended raw target ttl deadline seenAt rfl
    · exact (hEnds _).closing_of_expired
        ⟨hClear.reserved, hClear.reading, hClear.committed⟩ hExpired
    · exact fun rejection => (hEnds _).closing_of_expired
        ⟨hClear.reserved, hClear.reading, hClear.committed⟩ hExpired

theorem safe_beginPending (hReserved : note.reserved = 0) (hVisited : note.visited = none)
    (hCommitted : note.committed = false) :
    SafeCall settings thread (.beginPending raw target ttl deadline) note := by
  refine safe_checkDeadline (fun _ _ hLate => ⟨_, rfl, hReserved, refused_of_late hVisited hLate⟩)
    fun reading hReading => ?_
  refine safe_tryDo (safe_now fun now _ => ?_)
  refine safe_insertLoop rfl ?_ 1 ⟨hReserved, Nat.le_refl now, hCommitted⟩
  intro note hClear
  refine safe_withLock fun found => safe_beginPendingLocked rfl hClear ?_
  intro result note left bound clock hClear hConflicts
  exact ⟨⟨_, rfl, hClear.reserved, hConflicts InsertRejection.toError⟩,
    fun _ _ => ⟨_, rfl, hClear.reserved, hClear.reading, hClear.committed⟩⟩

section ContinuationLease

variable {lease : ContinuationLease}

theorem safe_readyLocked {post : Except AffinityError Unit → Part → Prop}
    (hReserved : note.reserved = 0) (hCommitted : note.committed = false)
    (hPost : ∀ result (note : Note) left bound clock, note.reserved = 0 →
      (result = .ok () ∨ note.committed = false) → (result = .ok () →
        Section.Shows ⟨lease.key, found, left, bound, clock⟩ lease.key lease.target continuation) →
      post result (.free { note with visited := some ⟨lease.key, found, left, bound, clock⟩ })) :
    Safe ι settings thread (.ready lease continuation deadline)
      (lease.readyLocked continuation deadline lease.key.shardIndex).run
      (Closing lease.key found post)
      (.inside note lease.key.shardIndex ⟨found, found, some lease.key⟩) := by
  have hFail : ∀ (note : Note) error, note.reserved = 0 → note.committed = false →
      Closing lease.key found post (.error error)
        (.inside note lease.key.shardIndex ⟨found, found, some lease.key⟩) :=
    fun note error hReserved hCommitted => ⟨note, found, rfl, fun bound clock _ _ =>
      hPost _ note found bound clock hReserved (.inr hCommitted) fun h => by cases h⟩
  refine safe_checkDeadline (fun _ _ _ => hFail _ _ hReserved hCommitted) fun reading _ => ?_
  refine safe_tryDo (safe_get ?_)
  split
  · next target lastSeenAt version hOld =>
      split_ifs with hSame
      · obtain ⟨rfl, rfl⟩ := hSame
        refine safe_tryDo (safe_now fun seenAt _ => ?_)
        refine safe_tryLift (safe_replace hReserved hOld ?_ ?_ ?_)
        · cases continuation with
          | none => exact Nat.zero_le _
          | some state => exact state.bounded
        · exact fun clock _ => .readied lease continuation deadline lastSeenAt seenAt
        · exact ⟨_, _, rfl, fun bound clock _ hBound => hPost _ _ _ bound clock hReserved (.inl rfl)
            fun _ => shows_of_lookup seenAt (Finmap.lookup_insert _) hBound⟩
      · exact hFail _ _ hReserved hCommitted
  · exact hFail _ _ hReserved hCommitted

theorem safe_ready (hReserved : note.reserved = 0) (hCommitted : note.committed = false) :
    SafeCall settings thread (.ready lease continuation deadline) note := by
  have hFail : ∀ (note : Note) error, note.reserved = 0 → note.committed = false →
      Returned settings (.ready lease continuation deadline) (.error error) (.free note) :=
    fun note error hReserved hCommitted => ⟨note, rfl, hReserved, .intro (fun used h => by cases h)
      fun h => absurd (hCommitted.symm.trans h) (by decide)⟩
  refine safe_checkDeadline (fun _ _ _ => hFail _ _ hReserved hCommitted) fun reading _ => ?_
  obtain ⟨bytes, hBytes⟩ := checkedStateBytes_isOk continuation
  rw [hBytes]
  refine safe_tryBind (safe_tryExcept (safe_tryBind ?_))
  refine safe_withLock fun found => safe_readyLocked hReserved hCommitted ?_
  rintro (error | ⟨⟩) note left bound clock hReserved hCommitted hShows
  · exact hFail _ _ hReserved (hCommitted.resolve_left fun h => by cases h)
  · refine safe_tryDo (safe_wakeWaiters fun _ => ?_)
    exact ⟨_, rfl, hReserved, .intro (fun used _ => ⟨_, rfl, hShows rfl⟩) fun _ => ⟨_, rfl⟩⟩

theorem safe_dropContinuation (hReserved : note.reserved = 0) :
    SafeCall settings thread (.dropContinuation lease) note := by
  unfold SafeCall body ContinuationLease.drop
  dsimp only
  split_ifs
  swap
  · exact ⟨note, rfl, hReserved, trivial⟩
  refine .seq (?_ : Safe ι settings thread _ _ (fun _ => Idle note.committed) _) ?_
  · refine safe_withLock fun found => .bind (safe_get ?_)
    split
    · next target lastSeenAt version hOld =>
        split_ifs with hVersion
        · refine .bind (safe_remove hReserved ?_ (.idle hReserved))
          intro entry hEntry clock _
          cases hOld.symm.trans hEntry
          rw [hVersion]
          exact .abandoned lease target lastSeenAt
        · exact .idle hReserved
    · exact .idle hReserved
  · rintro current part ⟨note, rfl, hReserved, -⟩
    exact safe_wakeIf fun _ => ⟨note, rfl, hReserved, trivial⟩

end ContinuationLease

end Continuations

/-! Maintenance. -/

section Maintenance

variable {note : Note}

section

variable (hReserved : note.reserved = 0)
include hReserved

theorem safe_clearAll : SafeCall settings thread .clearAll note := by
  refine .bind (safe_forEachShard ?_ ?_)
  · rintro shard ⟨cleared, waiting⟩ entries
    refine .bind (safe_iter fun listed _ => .bind (safe_clear hReserved ?_ fun count => ⟨∅, rfl⟩))
    exact fun key entry _ clock _ => .cleared key entry
  · rintro ⟨cleared, waiting⟩
    exact safe_wakeIf fun _ => ⟨note, rfl, hReserved, trivial⟩

theorem safe_clearCredential {credential : RoutingCredentialId} :
    SafeCall settings thread (.clearCredential credential) note := by
  refine .bind (safe_forEachShard ?_ ?_)
  · rintro shard ⟨cleared, waiting⟩ entries
    refine .bind (safe_iter fun listed hListed =>
      .bind (safe_removeAll hReserved ?_ fun left _ => ⟨left, rfl⟩))
    intro key hKey entry hEntry clock _
    obtain ⟨⟨found, other⟩, hFound, rfl⟩ := List.mem_map.mp hKey
    obtain ⟨hMem, hBound⟩ := List.mem_filter.mp hFound
    cases ((hListed.mem found other).mp hMem).symm.trans hEntry
    cases entry with
    | creating version phase => cases hBound
    | bound binding => exact .disowned found (of_decide_eq_true hBound)
  · rintro ⟨cleared, waiting⟩
    exact safe_wakeIf fun _ => ⟨note, rfl, hReserved, trivial⟩

theorem safe_sweepExpired : SafeCall settings thread (.sweepExpired ttl) note :=
  .bind (safe_now fun now _ => safe_removeExpiredAll hReserved rfl (Nat.le_refl now)
    fun _ => ⟨_, rfl, hReserved, trivial⟩)

theorem safe_snapshot {enabled : Bool} : SafeCall settings thread (.snapshot ttl enabled) note := by
  refine .bind (safe_now fun now _ => safe_forEachShard ?_ fun _ => ⟨_, rfl, hReserved, trivial⟩)
  intro shard counts entries
  refine .bind (safe_removeExpired (by exact hReserved) rfl (Nat.le_refl now) fun _ left => ?_)
  cases enabled with
  | false => exact ⟨left, rfl⟩
  | true => exact .bind (safe_iter fun _ _ => ⟨left, rfl⟩)

end

end Maintenance

/-- Every call, from a thread that holds and reserves nothing. -/
theorem safe_body (call : Call) (hReserved : note.reserved = 0)
    (hVisited : note.visited = none) (hCommitted : note.committed = false) :
    SafeCall settings thread call note := by
  cases call with
  | beginSession dialect routeId raw ttl => exact safe_beginSession hReserved hCommitted
  | markAttempting lease => exact safe_markAttempting hReserved
  | releaseForWait lease => exact safe_releaseForWait hReserved
  | commit lease target deadline => exact safe_commit hReserved hCommitted
  | dropLease lease => exact safe_dropLease hReserved
  | resolveContinuation raw ttl targetIsAvailable => exact safe_resolveContinuation hReserved
  | bindReady raw target continuation ttl deadline =>
    exact safe_bindReady hReserved hVisited hCommitted
  | beginPending raw target ttl deadline => exact safe_beginPending hReserved hVisited hCommitted
  | ready lease continuation deadline => exact safe_ready hReserved hCommitted
  | dropContinuation lease => exact safe_dropContinuation hReserved
  | clearAll => exact safe_clearAll hReserved
  | clearCredential credential => exact safe_clearCredential hReserved
  | sweepExpired ttl => exact safe_sweepExpired hReserved
  | snapshot ttl enabled => exact safe_snapshot hReserved

end Any2Api.Runtime.Affinity
