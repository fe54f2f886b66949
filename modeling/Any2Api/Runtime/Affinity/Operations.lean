import Any2Api.Runtime.Affinity.Guard

/-! The rules of the operations that the calls share: those behind a lock,
sections, walks over all shards, and insertions that make room. -/
namespace Any2Api.Runtime.Affinity

variable {ι : Type} [DecidableEq ι] [Fintype ι] {settings : Settings} {thread : ι} {call : Call}
  {part : Part} {now : Instant}

/-! Operations behind a lock. They release what they counted and do not store,
so a thread outside of them has nothing reserved. -/

omit [DecidableEq ι] [Fintype ι] in
theorem pair_add_sub_cancel (a b : Nat × Nat) : a + b - a = b :=
  Prod.ext (Nat.add_sub_cancel_left ..) (Nat.add_sub_cancel_left ..)

omit [DecidableEq ι] [Fintype ι] in
theorem Note.reserved_eq {note : Note} (h : note.reserved = 0) :
    { note with reserved := 0 } = note := by rw [← h]

/-- Releasing all that is reserved. -/
theorem safe_release {α : Type} {count bytes : Nat} {result : α}
    {post : α → Part → Prop} (hReserved : part.note.reserved = (count, bytes))
    (h : post result ⟨part.held, { part.note with reserved := 0 }⟩) :
    Safe ι settings thread call (do
      releaseEntries count
      if 0 < bytes then releaseBytes bytes else pure ()
      pure result) post part := by
  refine .bind (safe_releaseEntries (hReserved ▸ ⟨Nat.le_refl _, Nat.zero_le _⟩) ?_)
  have hBytes : part.note.reserved - (count, 0) = (0, bytes) := by
    rw [hReserved]
    exact Prod.ext (Nat.sub_self count) rfl
  rw [hBytes]
  split_ifs with hSome
  · refine .bind (safe_releaseBytes (le_refl _) ?_)
    have hZero : ((0, bytes) : Nat × Nat) - (0, bytes) = 0 := Prod.ext rfl (Nat.sub_self bytes)
    rw [hZero]
    exact h
  · rw [Nat.eq_zero_of_not_pos hSome]
    exact h

section Operations

variable {shard : Fin shardCount} {key : SessionHash} {note : Note} {held : Held}
  {post : Option BindingState → Part → Prop} {ttl : Duration} {state old : BindingState}
  {entry : BindingState}

theorem safe_remove (hReserved : note.reserved = 0)
    (hChange : ∀ entry, held.entries.lookup key = some entry →
      note.Permits settings call key (some entry) none)
    (h : post (held.entries.lookup key)
      (.inside note shard { held with entries := held.entries.erase key })) :
    Safe ι settings thread call (ShardGuard.remove shard key) post (.inside note shard held) := by
  refine .bind (safe_removeEntry hChange ?_)
  cases hOld : held.entries.lookup key with
  | none =>
    have hNothing := pair_add_sub_cancel (weight held.entries) 0
    rw [add_zero] at hNothing
    rw [hReserved, zero_add, erase_absent hOld, hNothing, Note.reserved_eq hReserved]
    rwa [hOld, erase_absent hOld] at h
  | some entry =>
    refine safe_release (?_ : _ = (1, continuationFootprint entry)) ?_
    · change note.reserved + weight held.entries - weight (held.entries.erase key) = _
      rw [hReserved, zero_add, weight_erase hOld, pair_add_sub_cancel]
    · change post (some entry) (.inside { note with reserved := 0 } shard _)
      rw [Note.reserved_eq hReserved, ← hOld]
      exact h

theorem safe_clear {post : Nat → Part → Prop} (hReserved : note.reserved = 0)
    (hChange : ∀ key entry, held.entries.lookup key = some entry →
      note.Permits settings call key (some entry) none)
    (h : ∀ count, post count (.inside note shard { held with entries := ∅ })) :
    Safe ι settings thread call (ShardGuard.clear shard) post (.inside note shard held) := by
  refine .bind (safe_iter fun listed hListed => .bind (safe_clearEntries hChange ?_))
  refine safe_release (?_ : _ = (listed.length, _)) ?_
  · change note.reserved + weight held.entries = _
    rw [hReserved, zero_add, hListed.weight]
  · change post listed.length (.inside { note with reserved := 0 } shard _)
    rw [Note.reserved_eq hReserved]
    exact h listed.length

theorem safe_removeAll {keys : List SessionHash} {post : PUnit → Part → Prop}
    (hReserved : note.reserved = 0)
    (hChange : ∀ key ∈ keys, ∀ entry, held.entries.lookup key = some entry →
      note.Permits settings call key (some entry) none)
    (h : ∀ left, (∀ key, left.lookup key = if key ∈ keys then none else held.entries.lookup key) →
      post ⟨⟩ (.inside note shard { held with entries := left })) :
    Safe ι settings thread call (ShardGuard.removeAll shard keys) post
      (.inside note shard held) := by
  induction keys generalizing held with
  | nil => exact h held.entries fun key => by simp
  | cons key keys ih =>
    refine .bind (.bind (safe_remove hReserved (hChange key List.mem_cons_self) ?_))
    refine ih ?_ ?_
    · intro other hOther entry hLookup
      refine hChange other (List.mem_cons_of_mem key hOther) entry ?_
      rcases eq_or_ne other key with rfl | hKey
      · exact absurd (Finmap.lookup_erase other held.entries ▸ hLookup) (by simp)
      · rwa [Finmap.lookup_erase_ne hKey] at hLookup
    · intro left hLeft
      refine h left fun other => ?_
      rw [hLeft other]
      rcases eq_or_ne other key with rfl | hKey
      · simp [Finmap.lookup_erase]
      · simp [hKey, Finmap.lookup_erase_ne hKey]

/-- An entry whose time has passed at an instant that was read. -/
theorem Change.expired_of_isExpired {clock now : Instant} {drawn : Option Nat}
    (hCall : call.reclaims = some ttl) (hClock : now ≤ clock) (h : entry.isExpired now ttl = true) :
    Change settings clock drawn call key (some entry) none := by
  cases entry with
  | creating version phase => cases h
  | bound binding =>
    simp only [BindingState.isExpired, Bool.and_eq_true, Bool.not_eq_true', decide_eq_true_eq] at h
    exact .expired hCall key h.1 (h.2.trans (Nat.sub_le_sub_right hClock _))

omit [DecidableEq ι] [Fintype ι] in
theorem Listed.isExpired_of_mem_expiredKeys {entries : Shard}
    {listed : List (SessionHash × BindingState)}
    (h : Listed entries listed) {sample : List (SessionHash × BindingState)}
    (hSample : sample ⊆ listed)
    (hKey : key ∈ ShardGuard.expiredKeys sample now ttl)
    (hEntry : entries.lookup key = some entry) :
    entry.isExpired now ttl = true := by
  obtain ⟨⟨found, other⟩, hFound, rfl⟩ := List.mem_map.mp hKey
  obtain ⟨hMem, hExpired⟩ := List.mem_filter.mp hFound
  have hOther := (h.mem found other).mp (hSample hMem)
  cases hOther.symm.trans hEntry
  exact hExpired

section

variable (hReserved : note.reserved = 0) (hCall : call.reclaims = some ttl)
  (hNow : now ≤ note.reading)
include hReserved hCall hNow

/-- Expired entries of a shard that were found by looking through it. -/
theorem safe_removeExpired {post : Nat → Part → Prop}
    (h : ∀ count left, post count (.inside note shard { held with entries := left })) :
    Safe ι settings thread call (ShardGuard.removeExpired shard now ttl) post
      (.inside note shard held) := by
  refine .bind (safe_iter fun listed hListed => .bind (safe_removeAll hReserved ?_ ?_))
  · intro key hKey entry hLookup clock hClock
    exact .expired_of_isExpired hCall (hNow.trans hClock)
      (hListed.isExpired_of_mem_expiredKeys (List.Subset.refl listed) hKey hLookup)
  · exact fun left _ => h _ left

theorem safe_reclaimExpiredSample {post : PUnit → Part → Prop}
    (h : ∀ left, (∀ key, held.entries.lookup key = none → left.lookup key = none) →
      post ⟨⟩ (.inside note shard { held with entries := left })) :
    Safe ι settings thread call (ShardGuard.reclaimExpiredSample shard now ttl) post
      (.inside note shard held) := by
  refine .bind (safe_iter fun listed hListed => safe_removeAll hReserved ?_ ?_)
  · intro key hKey entry hLookup clock hClock
    exact .expired_of_isExpired hCall (hNow.trans hClock)
      (hListed.isExpired_of_mem_expiredKeys (List.take_subset _ listed) hKey hLookup)
  · refine fun left hLeft => h left fun key hNone => ?_
    rw [hLeft key, hNone, ite_self]

theorem safe_removeIfExpired {post : Bool → Part → Prop}
    (hKept : ∀ entry, held.entries.lookup key = some entry → entry.isExpired now ttl = false →
      post false (.inside note shard held))
    (hGone : (∀ entry, held.entries.lookup key = some entry → entry.isExpired now ttl = true) →
      ∀ removed left, left.lookup key = none →
        post removed (.inside note shard { held with entries := left })) :
    Safe ι settings thread call (ShardGuard.removeIfExpired shard key now ttl) post
      (.inside note shard held) := by
  refine .bind (safe_get ?_)
  cases hLookup : held.entries.lookup key with
  | none => exact hGone (by simp [hLookup]) false held.entries hLookup
  | some entry =>
    cases hExpired : entry.isExpired now ttl with
    | false =>
      simp only [Option.any_some, hExpired, Bool.false_eq_true, if_false]
      exact hKept entry hLookup hExpired
    | true =>
      simp only [Option.any_some, hExpired, if_true]
      refine .bind (safe_remove hReserved ?_ ?_)
      · intro other hOther clock hClock
        cases hLookup.symm.trans hOther
        exact .expired_of_isExpired hCall (hNow.trans hClock) hExpired
      · refine hGone ?_ true _ (Finmap.lookup_erase key held.entries)
        intro other hOther
        cases hLookup.symm.trans hOther
        exact hExpired

end

omit [DecidableEq ι] [Fintype ι] in
theorem Note.store_reserved (note : Note) (reserved : Nat × Nat) (state : BindingState) :
    { { note with reserved }.store none state with reserved := note.reserved } =
      note.store none state := by
  cases state with
  | creating version phase => rfl
  | bound binding =>
    obtain ⟨target, lastSeenAt, _ | _ | _⟩ := binding <;> rfl

/-- Room for an entry is reserved before it is stored. -/
theorem safe_tryInsert {post : Except InsertRejection Unit → Part → Prop}
    (hReserved : note.reserved = 0) (hAbsent : held.entries.lookup key = none)
    (hChange : note.Permits settings call key none (some state))
    (hOk : post (.ok ()) (.inside (note.store none state) key.shardIndex
      { held with entries := held.entries.insert key state }))
    (hError : ∀ rejection, post (.error rejection) (.inside note key.shardIndex held)) :
    Safe ι settings thread call (ShardGuard.tryInsert key.shardIndex key state) post
      (.inside note key.shardIndex held) := by
  have hRoom : note.reserved + (1, 0) + (0, continuationFootprint state) + weight held.entries =
      weight (held.entries.insert key state) := by
    rw [weight_insert hAbsent, hReserved, zero_add, add_comm (weight held.entries)]
    exact congrArg (· + weight held.entries) (Prod.ext rfl (Nat.zero_add _))
  have hStored : note.reserved + (1, 0) + (0, continuationFootprint state) + weight held.entries -
      weight (held.entries.insert key state) = note.reserved := by
    rw [hRoom, hReserved, ← pair_add_sub_cancel (weight (held.entries.insert key state)) 0,
      add_zero]
  have hLess : note.reserved + (1, 0) - (1, 0) = 0 := by
    rw [hReserved]
    rfl
  refine .bind (safe_tryReserveEntry (.bind (safe_tryReserveContinuationBytes ?_ ?_)) ?_)
  · refine .bind (safe_insert ?_ (le_of_eq hRoom.symm) ?_)
    · rw [hAbsent]
      exact hChange
    · rw [hAbsent]
      change post (.ok ()) (.inside
        { { note with
            reserved := note.reserved + (1, 0) + (0, continuationFootprint state) }.store none
              state with
          reserved := note.reserved + (1, 0) + (0, continuationFootprint state) +
            weight held.entries - weight (held.entries.insert key state) } _ _)
      rw [hStored, Note.store_reserved]
      exact hOk
  · refine .bind (safe_releaseEntries ?_ ?_)
    · exact ⟨Nat.le_add_left 1 _, Nat.zero_le _⟩
    · change post (.error .continuationBytes) (.inside
        { note with reserved := note.reserved + (1, 0) - (1, 0) } _ _)
      rw [hLess, Note.reserved_eq hReserved]
      exact hError .continuationBytes
  · exact hError .entries

/-- Storing in the place of an entry that is no smaller leaves the difference reserved. -/
theorem safe_overwrite (hReserved : note.reserved = 0) (hOld : held.entries.lookup key = some old)
    (hSize : continuationFootprint state ≤ continuationFootprint old)
    (hChange : note.Permits settings call key (some old) (some state))
    (h : post (some old) (.inside { note.store (some old) state with
        reserved := (0, continuationFootprint old - continuationFootprint state) } key.shardIndex
      { held with entries := held.entries.insert key state })) :
    Safe ι settings thread call (ShardGuard.insert key.shardIndex key state) post
      (.inside note key.shardIndex held) := by
  have hLess : weight held.entries = weight (held.entries.insert key state) +
      (0, continuationFootprint old - continuationFootprint state) := by
    have hReplace := weight_replace hOld state
    have hFirst := congrArg Prod.fst hReplace
    have hSecond := congrArg Prod.snd hReplace
    simp only [Prod.fst_add, Prod.snd_add, add_zero] at hFirst hSecond
    refine Prod.ext hFirst.symm ?_
    simp only [Prod.snd_add]
    omega
  refine safe_insert ?_ ?_ ?_
  · rw [hOld]
    exact hChange
  · rw [hReserved, zero_add, hLess]
    exact le_self_add
  · rw [hOld, hReserved, zero_add, hLess, pair_add_sub_cancel]
    exact h

/-- Changing an entry in place, when its size stays. -/
theorem safe_refresh (hReserved : note.reserved = 0) (hOld : held.entries.lookup key = some old)
    (hSize : continuationFootprint state = continuationFootprint old)
    (hChange : note.Permits settings call key (some old) (some state))
    (h : post (some old) (.inside (note.store (some old) state) key.shardIndex
      { held with entries := held.entries.insert key state })) :
    Safe ι settings thread call (ShardGuard.insert key.shardIndex key state) post
      (.inside note key.shardIndex held) := by
  refine safe_overwrite hReserved hOld (le_of_eq hSize) hChange ?_
  rw [hSize, Nat.sub_self]
  change post (some old) (.inside { note.store (some old) state with reserved := 0 } _ _)
  rw [Note.reserved_eq (by rw [Note.reserved_store, hReserved])]
  exact h

omit [DecidableEq ι] [Fintype ι] in
theorem Note.store_touch (note : Note) (binding : TimedBinding) (seenAt : Instant) :
    note.store (some (.bound binding)) (.bound { binding with lastSeenAt := seenAt }) = note := by
  obtain ⟨target, lastSeenAt, _ | _ | _⟩ := binding <;> rfl

/-- A binding that was seen. -/
theorem safe_touch {binding : TimedBinding} {seenAt : Instant} (hReserved : note.reserved = 0)
    (hOld : held.entries.lookup key = some (.bound binding))
    (hTouches : call.Touches settings key binding.target binding.source)
    (h : post (some (.bound binding)) (.inside note key.shardIndex
      { held with entries :=
          held.entries.insert key (.bound { binding with lastSeenAt := seenAt }) })) :
    Safe ι settings thread call
      (ShardGuard.insert key.shardIndex key (.bound { binding with lastSeenAt := seenAt })) post
      (.inside note key.shardIndex held) := by
  refine safe_refresh hReserved hOld rfl ?_ ?_
  · exact fun clock _ => .touched hTouches binding.lastSeenAt seenAt
  · rw [Note.store_touch]
    exact h

/-- An entry is replaced by one that is no larger. -/
theorem safe_replace {post : Unit → Part → Prop}
    (hReserved : note.reserved = 0) (hOld : held.entries.lookup key = some old)
    (hSize : continuationFootprint state ≤ continuationFootprint old)
    (hChange : note.Permits settings call key (some old) (some state))
    (h : post () (.inside (note.store (some old) state) key.shardIndex
      { held with entries := held.entries.insert key state })) :
    Safe ι settings thread call (ShardGuard.replace key.shardIndex key state) post
      (.inside note key.shardIndex held) := by
  have hStored : (note.store (some old) state).reserved = 0 := by
    rw [Note.reserved_store, hReserved]
  refine .bind (safe_overwrite hReserved hOld hSize hChange ?_)
  dsimp only [Option.map_some, Option.getD_some]
  split_ifs with hLess hMore
  · refine safe_releaseBytes (le_refl _) ?_
    have hZero : ∀ bytes : Nat, ((0, bytes) : Nat × Nat) - (0, bytes) = 0 :=
      fun bytes => Prod.ext rfl (Nat.sub_self bytes)
    dsimp only [Part.inside]
    rw [hZero]
    rw [Note.reserved_eq hStored]
    exact h
  · omega
  · rw [Nat.sub_eq_zero_of_le (Nat.le_of_not_lt hLess)]
    change post () (.inside { note.store (some old) state with reserved := 0 } _ _)
    rw [Note.reserved_eq hStored]
    exact h

end Operations

/-! Sections and walks. -/

section Sections

variable {α : Type} {note : Note} {ttl : Duration}

/-- The section of a key may end here. -/
def Closing (key : SessionHash) (found : Shard) (post : α → Part → Prop) (result : α)
    (part : Part) : Prop :=
  ∃ note left, part = .inside note key.shardIndex ⟨left, found, some key⟩ ∧
    ∀ bound clock, note.reading ≤ clock →
      (∀ target seenAt state,
        left.lookup key = some (.bound ⟨target, seenAt, .continuation (.ready state)⟩) →
          bound = some (target, state)) →
      post result (.free { note with visited := some ⟨key, found, left, bound, clock⟩ })

theorem safe_withLock {key : SessionHash} {body : Fin shardCount → Prog α} {post : α → Part → Prop}
    (h : ∀ found, Safe ι settings thread call (body key.shardIndex) (Closing key found post)
      (.inside note key.shardIndex ⟨found, found, some key⟩)) :
    Safe ι settings thread call (withLock key body) post (.free note) := by
  refine .bind (safe_lock fun found => ?_)
  refine .seq (h found) ?_
  rintro result part ⟨note, left, rfl, hPost⟩
  exact .bind (safe_unlock hPost)

/-- A walk over the shards that learns nothing of what it found. -/
theorem safe_forEachShard {initial : α} {body : Fin shardCount → α → Prog α}
    {post : α → Part → Prop}
    (hBody : ∀ shard found entries, Safe ι settings thread call (body shard found)
      (fun _ part => ∃ left, part = .inside note shard ⟨left, entries, none⟩)
      (.inside note shard ⟨entries, entries, none⟩))
    (h : ∀ found, post found (.free note)) :
    Safe ι settings thread call (forEachShard initial body) post (.free note) := by
  unfold forEachShard
  generalize List.finRange shardCount = shards
  induction shards generalizing initial with
  | nil => exact h initial
  | cons shard shards ih =>
    rw [List.foldlM_cons]
    refine .bind (.bind (safe_visit fun entries => .seq (hBody shard initial entries) ?_))
    rintro found part ⟨left, rfl⟩
    exact .bind (safe_unlock_visited ih)

theorem safe_removeExpiredAll {post : Nat → Part → Prop}
    (hReserved : note.reserved = 0) (hCall : call.reclaims = some ttl) (hNow : now ≤ note.reading)
    (h : ∀ count, post count (.free note)) :
    Safe ι settings thread call (removeExpiredAll now ttl) post (.free note) := by
  refine safe_forEachShard ?_ h
  intro shard found entries
  exact .bind (safe_removeExpired hReserved hCall hNow fun _ left => ⟨left, rfl⟩)

theorem safe_reclaimForCapacity {post : Bool → Part → Prop}
    (hReserved : note.reserved = 0) (hCall : call.reclaims = some ttl) (hNow : now ≤ note.reading)
    (h : ∀ reclaimed, post reclaimed (.free note)) :
    Safe ι settings thread call (reclaimForCapacity settings now ttl) post (.free note) := by
  refine .bind (safe_loadFutileReclaim fun marker => ?_)
  split_ifs
  · exact h false
  · refine .bind (safe_removeExpiredAll hReserved hCall hNow fun count => ?_)
    exact .bind (safe_storeFutileReclaim (h _))

/-- Nothing is reserved or committed, and the clock has been read since an instant. -/
structure Note.Clear (note : Note) (now : Instant) : Prop where
  reserved : note.reserved = 0
  reading : now ≤ note.reading
  committed : note.committed = false

omit [DecidableEq ι] [Fintype ι] in
theorem Note.Clear.read {later : Instant} (h : note.Clear now) (hLater : note.reading ≤ later) :
    { note with reading := later }.Clear now :=
  ⟨h.reserved, h.reading.trans hLater, h.committed⟩

/-- An attempt that ends in its postcondition; when there was no room, it may
also be repeated. -/
def Attempted (now : Instant) (toError : InsertRejection → AffinityError)
    (post : Except AffinityError α → Part → Prop)
    (result : Except AffinityError (Except InsertRejection α)) (part : Part) : Prop :=
  post (result.bind fun inserted => inserted.mapError toError) part ∧
    ∀ rejection, result = .ok (.error rejection) → ∃ note, part = .free note ∧ note.Clear now

theorem safe_insertLoop {toError : InsertRejection → AffinityError}
    {attempt : Prog (Except AffinityError (Except InsertRejection α))}
    {post : Except AffinityError α → Part → Prop} (hCall : call.reclaims = some ttl)
    (hAttempt : ∀ note : Note, note.Clear now →
      Safe ι settings thread call attempt (Attempted now toError post) (.free note))
    (retries : Nat) (h : note.Clear now) :
    Safe ι settings thread call (insertLoop settings now ttl toError attempt retries) post
      (.free note) := by
  induction retries generalizing note with
  | zero =>
    refine .seq (hAttempt note h) ?_
    rintro (error | rejection | result) part ⟨hPost, -⟩ <;> exact hPost
  | succ retries ih =>
    refine .seq (hAttempt note h) ?_
    rintro (error | rejection | result) part ⟨hPost, hRetry⟩
    · exact hPost
    · obtain ⟨note, rfl, h⟩ := hRetry rejection rfl
      refine .bind (safe_reclaimForCapacity h.reserved hCall h.reading fun reclaimed => ?_)
      cases reclaimed with
      | false => exact hPost
      | true => exact ih h
    · exact hPost

end Sections

/-! Programs that may fail. -/

section Fallible

variable {α β : Type} {post : Except AffinityError β → Part → Prop}

theorem safe_tryBind {first : Try α} {next : α → Try β}
    (h : Safe ι settings thread call first.run (fun result part => match result with
      | .ok a => Safe ι settings thread call (next a).run post part
      | .error error => post (.error error) part) part) :
    Safe ι settings thread call (first >>= next).run post part := by
  refine .seq h ?_
  rintro (error | a) part hNext <;> exact hNext

theorem safe_tryLift {program : Prog α} {post : Except AffinityError α → Part → Prop}
    (h : Safe ι settings thread call program (fun a => post (.ok a)) part) :
    Safe ι settings thread call (liftM program : Try α).run post part :=
  .bind h

theorem safe_tryDo {program : Prog α} {next : α → Try β} (h : Safe ι settings thread call program
      (fun a => Safe ι settings thread call (next a).run post) part) :
    Safe ι settings thread call ((liftM program : Try α) >>= next).run post part :=
  safe_tryBind (safe_tryLift h)

theorem safe_tryExcept {value : Except AffinityError α}
    {post : Except AffinityError α → Part → Prop} (h : post value part) :
    Safe ι settings thread call (liftM value : Try α).run post part := h

/-- What follows a check of the deadline runs in time; otherwise the program fails. -/
theorem safe_checkDeadline {deadline : Option Instant} {next : Unit → Try β}
    (hLate : ∀ reading, part.note.reading ≤ reading → Reached deadline reading →
      post (.error .deadlineExceeded) ⟨part.held, { part.note with reading }⟩)
    (hNext : ∀ reading, part.note.reading ≤ reading →
      Safe ι settings thread call (next ()).run post ⟨part.held, { part.note with reading }⟩) :
    Safe ι settings thread call (checkDeadline deadline >>= next).run post part := by
  refine safe_tryBind ?_
  cases deadline with
  | none => exact hNext part.note.reading (Nat.le_refl _)
  | some deadline =>
    refine safe_tryDo (safe_now fun clock hClock => ?_)
    split_ifs with hReached
    · exact hLate clock hClock ⟨deadline, rfl, hReached⟩
    · exact hNext clock hClock

end Fallible

end Any2Api.Runtime.Affinity
