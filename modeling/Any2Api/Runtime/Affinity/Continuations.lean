import Any2Api.Runtime.Affinity.Accounting

/-! The bindings of continuations. An identity that is alive is bound once: a
resolved continuation is the one of the last bind, other binds are refused, and
the lease of a pending entry acts on no other entry. -/
namespace Any2Api.Runtime.Affinity

section Runs

variable {ι : Type} [DecidableEq ι] {settings : Settings} {s : ShardedBindings ι}
  {entry : BindingState}

/-- The lease of a call. -/
def Call.continuationLease : Call → Option ContinuationLease
  | .ready lease _ _ | .dropContinuation lease => some lease
  | _ => none

/-- A lease whose version is that of the pending entry. -/
def ShardedBindings.isPending (s : ShardedBindings ι) (lease : Lease) : Bool :=
  match s.lookup lease.key with
  | some (.bound ⟨_, _, .continuation (.pending version)⟩) => version = lease.version
  | _ => false

omit [DecidableEq ι] in
theorem isPending_iff {lease : Lease} :
    s.isPending lease = true ↔ ∃ target seenAt, s.lookup lease.key =
      some (.bound ⟨target, seenAt, .continuation (.pending lease.version)⟩) := by
  unfold ShardedBindings.isPending
  split
  · next target seenAt version hLookup =>
      rw [hLookup, decide_eq_true_eq]
      exact ⟨fun h => ⟨target, seenAt, by rw [h]⟩, fun ⟨_, _, h⟩ => by cases h; rfl⟩
  · next hOther =>
      refine iff_of_false (by simp) ?_
      rintro ⟨target, seenAt, hLookup⟩
      exact hOther _ _ _ hLookup

omit [DecidableEq ι] in
theorem isPending_version {a b : Lease} (hKey : a.key = b.key)
    (ha : s.isPending a = true) (hb : s.isPending b = true) : a.version = b.version := by
  obtain ⟨_, _, hFirst⟩ := isPending_iff.mp ha
  obtain ⟨_, _, hSecond⟩ := isPending_iff.mp hb
  rw [hKey] at hFirst
  have hSame := BindingState.bound.inj (Option.some.inj (hFirst.symm.trans hSecond))
  exact ContinuationLifecycle.pending.inj
    (BindingSource.continuation.inj (congrArg TimedBinding.source hSame))

section Change

variable {clock : Instant} {drawn : Option Nat} {call : Call} {key : SessionHash}
  {old new : Option BindingState} {target : AffinityTarget} {deadline : Option Instant}

/-- A call on a lease changes the entry of its key, and only while it is pending
with the version of the lease. -/
theorem Change.pendingLease {lease : ContinuationLease}
    (hCall : call.continuationLease = some lease)
    (h : Change settings clock drawn call key old new) :
    key = lease.key ∧ ∃ target seenAt,
      old = some (.bound ⟨target, seenAt, .continuation (.pending lease.version)⟩) := by
  cases h with
  | expired hReclaims => cases call <;> cases hCall <;> cases hReclaims
  | touched hTouches => cases call <;> cases hCall <;> cases hTouches
  | released hDrops => cases call <;> cases hCall <;> cases hDrops
  | readied used continuation deadline lastSeenAt seenAt =>
    cases hCall
    exact ⟨rfl, lease.target, lastSeenAt, rfl⟩
  | abandoned used target lastSeenAt =>
    cases hCall
    exact ⟨rfl, target, lastSeenAt, rfl⟩
  | outdated | created | attempting | committed | pended | bound | cleared | disowned => cases hCall

/-- A continuation is bound by a bind of its key or by the lease of its pending entry. -/
theorem Change.binds {binding : AffinityTarget × Option ContinuationState}
    (hBound : boundBy old entry = some binding)
    (h : Change settings clock drawn call key old (some entry)) :
    (∃ raw target continuation ttl deadline,
      call = .bindReady raw target continuation ttl deadline ∧
        key = settings.hasher.continuation raw ∧ binding = (target, continuation)) ∨
    ∃ lease continuation deadline, call = .ready lease continuation deadline ∧ key = lease.key ∧
      binding = (lease.target, continuation) := by
  cases h with
  | bound raw target continuation ttl deadline seenAt =>
    exact .inl ⟨raw, target, continuation, ttl, deadline, rfl, rfl, (Option.some.inj hBound).symm⟩
  | readied lease continuation deadline lastSeenAt seenAt =>
    exact .inr ⟨lease, continuation, deadline, rfl, rfl, (Option.some.inj hBound).symm⟩
  | @touched _ _ target source _ lastSeenAt seenAt =>
    obtain _ | _ | _ := source <;> cases hBound
  | created | attempting | committed | pended => cases hBound

/-- A bind changes an entry that has expired, that is absent or that it binds again. -/
theorem Change.bindReady {raw : String} {continuation : Option ContinuationState} {ttl : Duration}
    (h : Change settings clock drawn (.bindReady raw target continuation ttl deadline) key
      (some entry) new) :
    entry.isExpired clock ttl = true ∨ Again target continuation entry := by
  cases h with
  | expired hReclaims _ hReady hOld =>
    cases hReclaims
    refine .inl ?_
    simp [BindingState.isExpired, hReady, hOld]
  | @touched _ _ _ _ hTouches lastSeenAt seenAt =>
    obtain ⟨-, rfl, rfl, rfl⟩ := hTouches
    exact .inr ⟨rfl, lastSeenAt, rfl⟩
  | released hDrops => cases hDrops

theorem Change.beginPending {raw : String} {ttl : Duration}
    (h : Change settings clock drawn (.beginPending raw target ttl deadline) key (some entry) new) :
    entry.isExpired clock ttl = true := by
  cases h with
  | expired hReclaims _ hReady hOld =>
    cases hReclaims
    simp [BindingState.isExpired, hReady, hOld]
  | touched hTouches => cases hTouches
  | released hDrops => cases hDrops

end Change

variable [Fintype ι] {config next : (registry ι settings).Config}

/-- The steps that bind a continuation: one instruction of a bind of the key, or
of the lease of its pending entry, in a call that succeeds. -/
inductive Binds (settings : Settings) (config next : (registry ι settings).Config)
    (key : SessionHash) :
    (registry ι settings).Label → AffinityTarget × Option ContinuationState → Prop
  | ready {thread : ι} {choice : List SessionHash} {raw : String} {target : AffinityTarget}
      {continuation : Option ContinuationState} {ttl : Duration} {deadline : Option Instant}
      {rest : Prog (Except AffinityError Unit)}
      (hThread : config.threads thread =
        some ⟨.bindReady raw target continuation ttl deadline, rest⟩)
      (hKey : settings.hasher.continuation raw = key)
      (hReturns : Returns next thread (.bindReady raw target continuation ttl deadline)
        (· = .ok ())) :
      Binds settings config next key (.advance thread choice) (target, continuation)
  | completed {thread : ι} {choice : List SessionHash} {lease : ContinuationLease}
      {continuation : Option ContinuationState} {deadline : Option Instant}
      {rest : Prog (Except AffinityError ContinuationLease)}
      (hThread : config.threads thread = some ⟨.ready lease continuation deadline, rest⟩)
      (hKey : lease.key = key)
      (hReturns : Returns next thread (.ready lease continuation deadline)
        (fun result => ∃ used, result = .ok used)) :
      Binds settings config next key (.advance thread choice) (lease.target, continuation)

/-- What holds of the continuations in a state of the registry and of its steps. -/
structure ContinuationsBound (settings : Settings) (config : (registry ι settings).Config) :
    Prop where
  /-- A resolved continuation is what its identity was last bound to. -/
  resolved : ∀ thread raw ttl targetIsAvailable resolved,
    config.threads thread =
      some ⟨.resolveContinuation raw ttl targetIsAvailable, .pure (.ready resolved)⟩ →
    ∃ sec, (config.state.notes thread).visited = some sec ∧
      sec.Shows (settings.hasher.continuation raw) resolved.target resolved.state
  /-- A bind that has succeeded was the last one when it released its lock. -/
  bound : ∀ thread raw target continuation ttl deadline,
    config.threads thread = some ⟨.bindReady raw target continuation ttl deadline, .pure (.ok ())⟩ →
    ∃ sec, (config.state.notes thread).visited = some sec ∧
      sec.Shows (settings.hasher.continuation raw) target continuation
  completed : ∀ thread lease continuation deadline used,
    config.threads thread = some ⟨.ready lease continuation deadline, .pure (.ok used)⟩ →
    ∃ sec, (config.state.notes thread).visited = some sec ∧
      sec.Shows lease.key lease.target continuation
  /-- Nothing but binds that succeed changes what an identity was last bound to. -/
  last : ∀ label next key, Machine.step config label = some next →
    next.state.bound key ≠ config.state.bound key →
    ∃ binding, next.state.bound key = some binding ∧ Binds settings config next key label binding
  /-- A bind of a live identity is refused, unless it repeats a stateless one. -/
  refused : ∀ thread raw target continuation ttl deadline result,
    config.threads thread = some ⟨.bindReady raw target continuation ttl deadline, .pure result⟩ →
    Refused (config.state.notes thread) (settings.hasher.continuation raw) ttl deadline
      (Again target continuation) result
  pendingRefused : ∀ thread raw target ttl deadline result,
    config.threads thread = some ⟨.beginPending raw target ttl deadline, .pure result⟩ →
    Refused (config.state.notes thread) (settings.hasher.continuation raw) ttl deadline
      (fun _ => False) result
  /-- No instruction of a bind changes a live entry, unless it binds it again. -/
  unchanged : ∀ thread raw target continuation ttl deadline rest choice next,
    config.threads thread = some ⟨.bindReady raw target continuation ttl deadline, rest⟩ →
    Machine.step config (.advance thread choice) = some next →
    ∀ key entry, config.state.lookup key = some entry →
      entry.isExpired config.state.clock ttl = false → ¬Again target continuation entry →
      next.state.lookup key = some entry
  pendingUnchanged : ∀ thread raw target ttl deadline rest choice next,
    config.threads thread = some ⟨.beginPending raw target ttl deadline, rest⟩ →
    Machine.step config (.advance thread choice) = some next →
    ∀ key entry, config.state.lookup key = some entry →
      entry.isExpired config.state.clock ttl = false → next.state.lookup key = some entry
  /-- A pending entry belongs to one lease. -/
  lease : ∀ key, config.state.continuationLeases.countP
    (fun lease => lease.key = key && config.state.isPending lease) ≤ 1
  /-- A lease changes no entry but the pending one that belongs to it. -/
  leased : ∀ thread choice call rest lease next, config.threads thread = some ⟨call, rest⟩ →
    call.continuationLease = some lease →
    Machine.step config (.advance thread choice) = some next →
    ∀ key, next.state.lookup key ≠ config.state.lookup key →
      key = lease.key ∧ config.state.isPending ⟨lease.key, lease.version⟩ = true

/-- A call that has returned. -/
theorem outcome_of_returned {config : (registry ι settings).Config}
    (hSound : (discipline ι settings).Sound config) {thread : ι} {call : Call}
    {result : Result call}
    (hThread : config.threads thread = some ⟨call, .pure result⟩) :
    Outcome settings call result (config.state.notes thread) := by
  obtain ⟨note, hOwn, -, hOutcome⟩ := hSound.returned hThread
  rw [ShardedBindings.own_free hOwn]
  exact hOutcome

/-- A step that changes what an identity was last bound to. -/
theorem step_binds
    {label : (registry ι settings).Label} (hSound : (discipline ι settings).Sound config)
    (hStep : Machine.step config label = some next) {key : SessionHash}
    (hBound : next.state.bound key ≠ config.state.bound key) :
    ∃ binding, next.state.bound key = some binding ∧
      Binds settings config next key label binding := by
  have hNext := (discipline_valid settings).step hStep hSound
  obtain ⟨thread, call, state, -, -, hEnter, rfl⟩ |
    ⟨thread, choice, call, instr, rest, answer, state, rfl, hThread, hPerform, rfl⟩ |
    ⟨thread, call, result, -, -, rfl⟩ | ⟨event, state, -, hReact, rfl⟩ := Machine.step_cases hStep
  · simp only [registry] at hEnter
    split_ifs at hEnter
    cases hEnter
    exact absurd rfl hBound
  · obtain ⟨-, hAllowed, -⟩ := hSound.advance hThread hPerform
    obtain ⟨entry, binding, hBy, hNew, hCommitted, -, hChange⟩ :=
      (hAllowed.bound _).resolve_left hBound
    refine ⟨binding, hNew, ?_⟩
    rcases hChange.binds hBy with ⟨raw, target, continuation, ttl, deadline, rfl, hKey, rfl⟩ |
      ⟨lease, continuation, deadline, rfl, hKey, rfl⟩
    · refine .ready hThread hKey.symm (returns_of_committed hNext hCommitted ?_)
      exact fun result note hOutcome => hOutcome.2.1
    · refine .completed hThread hKey.symm (returns_of_committed hNext hCommitted ?_)
      exact fun result note hOutcome => hOutcome.2
  · exact absurd rfl hBound
  · cases hReact
    exact absurd rfl hBound

/-- An entry that no change of a call can be made to stays. -/
theorem step_keeps_entry {thread : ι}
    {choice : List SessionHash} {call : Call} {rest : Prog (Result call)}
    (hSound : (discipline ι settings).Sound config)
    (hThread : config.threads thread = some ⟨call, rest⟩)
    (hStep : Machine.step config (.advance thread choice) = some next) {key : SessionHash}
    (hEntry : config.state.lookup key = some entry)
    (h : ∀ drawn new, ¬Change settings config.state.clock drawn call key (some entry) new) :
    next.state.lookup key = some entry := by
  by_contra hOther
  rw [← hEntry] at hOther
  have hChange := step_changes_of_thread hSound hThread hStep hOther
  rw [hEntry] at hChange
  exact h _ _ hChange

/-- In every run a resolved continuation is what its identity was last bound to, and only a bind
that succeeds changes that. A bind leaves the live entries of others alone, and a lease changes no
entry but the pending one that is its own. -/
theorem run_continuations {labels : List (registry ι settings).Label}
    {config : (registry ι settings).Config} (hRun : Reaches settings labels config)
    (hVersions : config.state.versions < wordSize) : ContinuationsBound settings config := by
  have hSound := hRun.sound
  constructor
  case resolved =>
    intro thread raw ttl targetIsAvailable resolved hThread
    exact outcome_of_returned hSound hThread resolved rfl
  case bound =>
    intro thread raw target continuation ttl deadline hThread
    exact (outcome_of_returned hSound hThread).1 rfl
  case completed =>
    intro thread lease continuation deadline used hThread
    exact (outcome_of_returned hSound hThread).1 used rfl
  case last => exact fun label next key hStep => step_binds hSound hStep
  case refused =>
    intro thread raw target continuation ttl deadline result hThread
    exact (outcome_of_returned hSound hThread).2.2
  case pendingRefused =>
    intro thread raw target ttl deadline result hThread
    exact outcome_of_returned hSound hThread
  case unchanged =>
    intro thread raw target continuation ttl deadline rest choice next hThread hStep key entry
      hEntry hAlive hAgain
    refine step_keeps_entry hSound hThread hStep hEntry fun drawn new hChange => ?_
    rcases hChange.bindReady with hExpired | hSame
    · exact absurd (hAlive.symm.trans hExpired) (by decide)
    · exact hAgain hSame
  case pendingUnchanged =>
    intro thread raw target ttl deadline rest choice next hThread hStep key entry hEntry hAlive
    refine step_keeps_entry hSound hThread hStep hEntry fun drawn new hChange => ?_
    exact absurd (hAlive.symm.trans hChange.beginPending) (by decide)
  case lease =>
    exact countP_le_one (hSound.invariant.fresh hVersions).continuationVersions
      fun _ _ => isPending_version
  case leased =>
    intro thread choice call rest lease next hThread hLease hStep key hKey
    have hChange := step_changes_of_thread hSound hThread hStep hKey
    obtain ⟨rfl, target, seenAt, hOld⟩ := hChange.pendingLease hLease
    exact ⟨rfl, isPending_iff.mpr ⟨target, seenAt, hOld⟩⟩

end Runs

def otherTarget : AffinityTarget := { sampleTarget with targetId := 5 }

/-- A continuation is bound to one target, and another target wants it. -/
def rivalLabels (deadline : Option Instant) (instructions : Nat) :
    List (registry Unit sampleSettings).Label :=
  .start () (.bindReady "c" sampleTarget none (seconds 60) none) ::
    List.replicate 9 (.advance () []) ++
    .finish () :: .start () (.bindReady "c" otherTarget none (seconds 60) deadline) ::
    List.replicate instructions (.advance () [])

/-- The error of a bind that has returned. -/
def bindError {settings : Settings} (config : (registry Unit settings).Config) :
    Option (String × AffinityTarget × AffinityError) :=
  match config.threads () with
  | some ⟨.bindReady raw target _ _ _, .pure (.error error)⟩ => some (raw, target, error)
  | _ => none

/-- The identity is bound to the first target and the second has failed. -/
def Rival (error : AffinityError) (config : (registry Unit sampleSettings).Config) : Prop :=
  config.state.versions = 0 ∧ bindError config = some ("c", otherTarget, error) ∧
    config.state.lookup (sampleSettings.hasher.continuation "c") =
      some (.bound ⟨sampleTarget, 0, .continuation (.ready none)⟩)

instance (error : AffinityError) (config : (registry Unit sampleSettings).Config) :
    Decidable (Rival error config) :=
  inferInstanceAs (Decidable (_ ∧ _ ∧ _))

/-- The second target is refused and the identity stays with the first. -/
theorem run_continuations_rival : ∃ config, Reaches sampleSettings (rivalLabels none 5) config ∧
    config.state.versions < wordSize ∧ Rival .identityConflict config ∧
    ContinuationsBound sampleSettings config := by
  have hRival : (Machine.run (rivalLabels none 5)
      (.initial (.new Unit sampleSettings))).map
      (fun config => decide (Rival .identityConflict config)) = some true := by decide +kernel
  obtain ⟨config, hRun, hConfig⟩ := Option.map_eq_some_iff.mp hRival
  have hState := of_decide_eq_true hConfig
  have hVersions : config.state.versions < wordSize := by
    rw [hState.1]
    decide
  exact ⟨config, hRun, hVersions, hState, run_continuations hRun hVersions⟩

/-- A bind of a live identity whose deadline has been reached fails for that. -/
theorem late_bind_of_live_identity : ∃ config,
    Reaches sampleSettings (rivalLabels (some 0) 1) config ∧ config.state.clock = 0 ∧
      Rival .deadlineExceeded config := by
  have hRival : (Machine.run (rivalLabels (some 0) 1)
      (.initial (.new Unit sampleSettings))).map
      (fun config => decide (config.state.clock = 0 ∧ Rival .deadlineExceeded config)) =
      some true := by decide +kernel
  obtain ⟨config, hRun, hConfig⟩ := Option.map_eq_some_iff.mp hRival
  exact ⟨config, hRun, of_decide_eq_true hConfig⟩

end Any2Api.Runtime.Affinity
