import Any2Api.Runtime.Affinity.Accounting

/-! The leases of sessions. A lease is current as long as the entry of its key
is being created with its version; it acts on nothing else, and only its commit
makes a binding that other requests find. -/
namespace Any2Api.Runtime.Affinity

section Runs

variable {ι : Type} [DecidableEq ι] {settings : Settings}

/-- The lease of a call. -/
def Call.bindingLease : Call → Option BindingLease
  | .markAttempting lease | .releaseForWait lease | .commit lease _ _ | .dropLease lease =>
    some lease
  | _ => none

/-- A lease whose version is that of the entry that is being created. -/
def ShardedBindings.isCurrent (s : ShardedBindings ι) (lease : Lease) : Bool :=
  match s.lookup lease.key with
  | some (.creating version _) => version = lease.version
  | _ => false

omit [DecidableEq ι] in
theorem isCurrent_iff {s : ShardedBindings ι} {lease : Lease} :
    s.isCurrent lease = true ↔
      ∃ phase, s.lookup lease.key = some (.creating lease.version phase) := by
  unfold ShardedBindings.isCurrent
  split
  · next version phase hLookup =>
      rw [hLookup, decide_eq_true_eq]
      exact ⟨fun h => ⟨phase, by rw [h]⟩, fun ⟨_, h⟩ => by cases h; rfl⟩
  · next hOther =>
      refine iff_of_false (by simp) ?_
      rintro ⟨phase, hLookup⟩
      exact hOther _ _ hLookup

omit [DecidableEq ι] in
theorem isCurrent_version {s : ShardedBindings ι} {a b : Lease} (hKey : a.key = b.key)
    (ha : s.isCurrent a = true) (hb : s.isCurrent b = true) : a.version = b.version := by
  obtain ⟨phase, hFirst⟩ := isCurrent_iff.mp ha
  obtain ⟨other, hSecond⟩ := isCurrent_iff.mp hb
  rw [hKey] at hFirst
  exact (BindingState.creating.inj (Option.some.inj (hFirst.symm.trans hSecond))).1

/-- A call on a lease changes the entry of its key, and only while it is current. -/
theorem Change.current {clock : Instant} {drawn : Option Nat} {call : Call} {lease : BindingLease}
    {key : SessionHash} {old new : Option BindingState} (hCall : call.bindingLease = some lease)
    (h : Change settings clock drawn call key old new) :
    key = lease.key ∧ ∃ phase, old = some (.creating lease.version phase) := by
  cases h with
  | expired hReclaims => cases call <;> cases hCall <;> cases hReclaims
  | touched hTouches => cases call <;> cases hCall <;> cases hTouches
  | attempting used phase =>
    cases hCall
    exact ⟨rfl, phase, rfl⟩
  | committed used =>
    cases hCall
    exact ⟨rfl, .attempting, rfl⟩
  | @released _ used hDrops phase =>
    cases call <;> cases hCall <;> cases hDrops <;> exact ⟨rfl, phase, rfl⟩
  | outdated | created | pended | readied | abandoned | bound | cleared | disowned => cases hCall

/-- A session is bound by a commit of the current lease. -/
theorem Change.session {clock : Instant} {drawn : Option Nat} {call : Call} {key : SessionHash}
    {old : Option BindingState} {binding : TimedBinding} (hSource : binding.source = .session)
    (h : Change settings clock drawn call key old (some (.bound binding))) :
    (∃ seenAt, old = some (.bound { binding with lastSeenAt := seenAt })) ∨
      ∃ lease deadline, call = .commit lease binding.target deadline ∧ key = lease.key ∧
        old = some (.creating lease.version .attempting) := by
  cases h with
  | touched _ lastSeenAt seenAt => exact .inl ⟨lastSeenAt, rfl⟩
  | committed lease target deadline committedAt => exact .inr ⟨lease, deadline, rfl, rfl, rfl⟩
  | pended | readied | bound => cases hSource

variable [Fintype ι]

/-- While versions are not repeated, at most one lease of a key is current. A
call on a lease changes no entry but that of its key, and only while the lease
is current. A session is bound only by a commit of the current lease, and a
commit that bound a session returns that it did. -/
theorem run_leases {labels : List (registry ι settings).Label}
    {config : (registry ι settings).Config} (hRun : Reaches settings labels config)
    (hVersions : config.state.versions < wordSize) :
    (∀ key, config.state.sessionLeases.countP
      (fun lease => lease.key = key && config.state.isCurrent lease) ≤ 1) ∧
    (∀ thread choice call rest lease next, config.threads thread = some ⟨call, rest⟩ →
      call.bindingLease = some lease → Machine.step config (.advance thread choice) = some next →
      ∀ key, next.state.lookup key ≠ config.state.lookup key →
        key = lease.key ∧ config.state.isCurrent ⟨lease.key, lease.version⟩ = true) ∧
    ∀ label next key binding, Machine.step config label = some next →
      next.state.lookup key = some (.bound binding) → binding.source = .session →
      (∃ seenAt, config.state.lookup key = some (.bound { binding with lastSeenAt := seenAt })) ∨
      ∃ thread choice lease deadline rest, label = .advance thread choice ∧
        config.threads thread = some ⟨.commit lease binding.target deadline, rest⟩ ∧
        key = lease.key ∧ config.state.isCurrent ⟨lease.key, lease.version⟩ = true ∧
        Returns next thread (.commit lease binding.target deadline) (· = .ok ()) := by
  have hSound := hRun.sound
  refine ⟨?_, ?_, ?_⟩
  · exact countP_le_one (hSound.invariant.fresh hVersions).sessionVersions
      fun _ _ => isCurrent_version
  · intro thread choice call rest lease next hThread hLease hStep key hKey
    have hChange := step_changes_of_thread hSound hThread hStep hKey
    obtain ⟨rfl, phase, hOld⟩ := hChange.current hLease
    exact ⟨rfl, isCurrent_iff.mpr ⟨phase, hOld⟩⟩
  · intro label next key binding hStep hBound hSource
    by_cases hKey : next.state.lookup key = config.state.lookup key
    · exact .inl ⟨binding.lastSeenAt, hKey ▸ hBound⟩
    obtain ⟨thread, choice, call, instr, rest, rfl, hThread, hAllowed, hChange⟩ :=
      step_changes hSound hStep hKey
    rw [hBound] at hChange
    refine (hChange.session hSource).imp_right ?_
    rintro ⟨lease, deadline, rfl, rfl, hOld⟩
    refine ⟨thread, choice, lease, deadline, _, rfl, hThread, rfl,
      isCurrent_iff.mpr ⟨_, hOld⟩, ?_⟩
    refine returns_of_committed ((discipline_valid settings).step hStep hSound)
      (hAllowed.committed _ _ _ _ hOld hBound) ?_
    exact fun result note hOutcome hCommitted => hOutcome.mp hCommitted

end Runs

/-- One thread has created a session and marked it, and another is about to
bind it. -/
def commitLabels : List (registry Bool sampleSettings).Label :=
  let lease : BindingLease := ⟨sampleHash 2, 1, true⟩
  .start false (.beginSession .openAiResponses 1 "s" (seconds 60)) ::
    List.replicate 8 (.advance false []) ++
    .finish false :: .start false (.markAttempting lease) :: List.replicate 5 (.advance false []) ++
    .finish false :: .start true (.commit lease sampleTarget none) ::
    List.replicate 3 (.advance true [])

/-- The next step of this run commits the one current lease of its key. -/
theorem run_leases_commit : ∃ config next, Reaches sampleSettings commitLabels config ∧
    config.state.versions < wordSize ∧ Machine.step config (.advance true []) = some next ∧
    next.state.lookup (sampleHash 2) = some (.bound ⟨sampleTarget, 0, .session⟩) ∧
    config.state.sessionLeases.countP
      (fun lease => lease.key = sampleHash 2 && config.state.isCurrent lease) ≤ 1 ∧
    ∃ lease : BindingLease, lease.key = sampleHash 2 ∧
      config.state.isCurrent ⟨lease.key, lease.version⟩ = true := by
  have hSample :
      ((Machine.run commitLabels (.initial (ShardedBindings.new Bool sampleSettings))).bind
      fun config => (Machine.step config (.advance true [])).map fun next =>
        (config.state.versions, config.state.lookup (sampleHash 2),
          next.state.lookup (sampleHash 2))) =
      some (1, some (.creating 1 .attempting), some (.bound ⟨sampleTarget, 0, .session⟩)) := by
    decide +kernel
  obtain ⟨config, hRun, hSample⟩ := Option.bind_eq_some_iff.mp hSample
  obtain ⟨next, hStep, hSample⟩ := Option.map_eq_some_iff.mp hSample
  have hVersions : config.state.versions = 1 := congrArg Prod.fst hSample
  have hOld := congrArg (fun sample => sample.2.1) hSample
  have hNew : next.state.lookup (sampleHash 2) = some (.bound ⟨sampleTarget, 0, .session⟩) :=
    congrArg (fun sample => sample.2.2) hSample
  have hSmall : config.state.versions < wordSize := by rw [hVersions]; decide
  have hLeases := run_leases hRun hSmall
  refine ⟨config, next, hRun, hSmall, hStep, hNew, hLeases.1 _, ?_⟩
  obtain ⟨seenAt, hBound⟩ | ⟨thread, choice, lease, deadline, rest, -, -, hKey, hCurrent, -⟩ :=
    hLeases.2.2 _ next _ _ hStep hNew rfl
  · cases hOld.symm.trans hBound
  · exact ⟨lease, hKey.symm, hCurrent⟩

/-! Versions are 64 bits wide. When they have wrapped around, an old lease and a
new one of the same key are current together. -/

namespace Wrap

def settings : Settings :=
  { sampleSettings with maxEntries := 1, maxEntries_lt := by decide }

def session (routeId : Nat) : Call := .beginSession .openAiResponses routeId "s" (seconds 60)

def key (routeId : Nat) : SessionHash := sampleHash (2 * UInt8.ofNat routeId)

/-- The shard of a session is not locked. -/
def Unlocked (s : ShardedBindings Unit) (routeId : Nat) (entries : Shard) : Prop :=
  ∃ found sought, s.shards (key routeId).shardIndex = ⟨entries, none, found, sought⟩

/-- The second session fills the registry, and the last reclaim was futile. -/
structure Full (drawn : Nat) (s : ShardedBindings Unit) : Prop where
  first : Unlocked s 1 ∅
  second : Unlocked s 2 ((∅ : Shard).insert (key 2) (.creating 2 .selecting))
  third : Unlocked s 3 ∅
  entryCount : s.entryCount = 1
  lastFutileReclaim : s.lastFutileReclaim = 1
  clock : s.clock = 0
  versions : s.versions = drawn
  sessionLeases : s.sessionLeases = [⟨key 1, 1⟩, ⟨key 2, 2⟩]

/-- A label that uses no lease of version one. -/
def spares : (registry Unit settings).Label → Bool
  | .start _ call => (Call.bindingLease call).all (·.version ≠ 1)
  | _ => true

/-- A run that uses no lease of version one. -/
def Leads (config final : (registry Unit settings).Config) : Prop :=
  ∃ labels, labels.all spares = true ∧ Machine.run labels config = some final

theorem Leads.trans {a b c : (registry Unit settings).Config} (hFirst : Leads a b)
    (hSecond : Leads b c) : Leads a c := by
  obtain ⟨labels, hLabels, hRun⟩ := hFirst
  obtain ⟨more, hMore, hNext⟩ := hSecond
  refine ⟨labels ++ more, ?_, ?_⟩
  · rw [List.all_append, hLabels, hMore]
    rfl
  · rw [Machine.run_append, hRun]
    exact hNext

variable {config : (registry Unit settings).Config} {drawn : Nat} {s : ShardedBindings Unit}

/-- A call that uses no lease of version one and is not interrupted. -/
theorem leads_call (call : Call)
    (choices : List (registry Unit settings).Choice) {result : Result call}
    {entered state : ShardedBindings Unit}
    (hCall : call.bindingLease.all (·.version ≠ 1) = true) (hIdle : config.threads () = none)
    (hEnter : (registry Unit settings).enter () call config.state = some entered)
    (h : Machine.alone (m := registry Unit settings) () choices (body settings call) entered =
      some (result, state)) : Leads config { config with state } := by
  refine ⟨_, ?_, Machine.run_call hIdle hEnter h⟩
  have hAdvances : (choices.map (.advance (m := registry Unit settings) ())).all spares = true := by
    rw [List.all_map]
    exact List.all_eq_true.mpr fun _ _ => rfl
  rw [List.all_append, List.all_cons, hAdvances]
  exact Bool.and_eq_true_iff.mpr ⟨Bool.and_eq_true_iff.mpr ⟨hCall, rfl⟩, rfl⟩

/-- A shard that is known, among others. -/
theorem exists_update {shards : Fin shardCount → ShardState Unit} {shard : Fin shardCount}
    {state : ShardState Unit} (h : shards shard = state) :
    ∃ others, shards = Function.update others shard state :=
  ⟨shards, by rw [← h, Function.update_eq_self]⟩

/-- A session that finds no room draws a version all the same. -/
theorem Full.refuse (h : Full drawn s) :
    ∃ result after, Machine.alone (m := registry Unit settings) ()
        (List.replicate 7 ([] : List SessionHash))
        (insertLoop settings 0 (seconds 60) (fun _ => .capacity)
          (.ok <$> withLock (key 3) (beginSessionLocked (key 3) 0 (seconds 60))) 1) s =
      some (result, after) ∧ Full (drawn + 1) after := by
  obtain ⟨hFirst, hSecond, ⟨found, sought, hThird⟩, hCount, hFutile, hClock, hVersions,
    hLeases⟩ := h
  obtain ⟨shards, entryCount, bytes, versions, futile, epoch, clock, notes, leases, others,
    bound⟩ := s
  cases hCount
  cases hFutile
  obtain ⟨others, rfl⟩ := exists_update hThird
  refine ⟨_, _, rfl, ?_⟩
  exact ⟨hFirst, hSecond, ⟨_, _, rfl⟩, rfl, rfl, hClock, congrArg (· + 1) hVersions, hLeases⟩

theorem Full.setNote (h : Full drawn s) (note : Note) : Full drawn (s.setNote () note) :=
  ⟨h.first, h.second, h.third, h.entryCount, h.lastFutileReclaim, h.clock, h.versions,
    h.sessionLeases⟩

theorem Full.draw (config : (registry Unit settings).Config)
    (hIdle : config.threads () = none) (h : Full drawn config.state) :
    ∃ state, Leads config { config with state } ∧ Full (drawn + 1) state := by
  let entered := config.state.setNote ()
    { config.state.notes () with drawn := none, visited := none, committed := false }
  have hEntered : Full drawn entered := h.setNote _
  obtain ⟨result, state, hAlone, hFull⟩ :=
    (hEntered.setNote { entered.notes () with reading := entered.clock }).refuse
  rw [← hEntered.clock] at hAlone
  exact ⟨state, leads_call (session 3) (List.replicate 8 []) rfl hIdle rfl hAlone,
    hFull⟩

/-- Any number of versions can be drawn. -/
theorem Full.drawMany
    (hIdle : config.threads () = none) (h : Full drawn config.state) (count : Nat) :
    ∃ state, Leads config { config with state } ∧ Full (drawn + count) state := by
  induction count with
  | zero => exact ⟨config.state, ⟨[], rfl, rfl⟩, h⟩
  | succ count ih =>
    obtain ⟨state, hLeads, hFull⟩ := ih
    obtain ⟨next, hNext, hDrawn⟩ := Full.draw { config with state } hIdle hFull
    exact ⟨next, hLeads.trans hNext, hDrawn⟩

/-- The second session gives its place up. -/
theorem Full.leave (config : (registry Unit settings).Config)
    (hIdle : config.threads () = none) (h : Full drawn config.state) :
    ∃ state : ShardedBindings Unit, Leads config { config with state } ∧
      Unlocked state 1 ∅ ∧ state.entryCount = 0 ∧ state.versions = drawn ∧
      state.sessionLeases = [⟨key 1, 1⟩, ⟨key 2, 2⟩] := by
  have hUsable : Call.usable config.state (.dropLease ⟨key 2, 2, true⟩) = true := by
    simp [Call.usable, h.sessionLeases]
  obtain ⟨state, result, hAlone, hState⟩ : ∃ state result,
      Machine.alone (m := registry Unit settings) () (List.replicate 6 ([] : List SessionHash))
        (body settings (.dropLease ⟨key 2, 2, true⟩)) (config.state.setNote ()
          { config.state.notes () with drawn := none, visited := none, committed := false }) =
        some (result, state) ∧
      Unlocked state 1 ∅ ∧ state.entryCount = 0 ∧ state.versions = drawn ∧
      state.sessionLeases = [⟨key 1, 1⟩, ⟨key 2, 2⟩] := by
    obtain ⟨hFirst, ⟨found, sought, hSecond⟩, -, hCount, -, -, hVersions, hLeases⟩ := h
    obtain ⟨⟨shards, entryCount, bytes, versions, futile, epoch, clock, notes, leases,
      others, bound⟩, threads⟩ := config
    cases hCount
    obtain ⟨others, rfl⟩ := exists_update hSecond
    refine ⟨_, _, rfl, ?_⟩
    exact ⟨hFirst, (by decide : fetchSub 1 1 = 0), hVersions, hLeases⟩
  exact ⟨state, leads_call (.dropLease ⟨key 2, 2, true⟩) _ (by decide) hIdle
    (if_pos hUsable) hAlone, hState⟩

/-- The first session is created again. -/
theorem create_again (config : (registry Unit settings).Config) (hIdle : config.threads () = none)
    (hShard : Unlocked config.state 1 ∅) (hCount : config.state.entryCount = 0) :
    ∃ state : ShardedBindings Unit, Leads config { config with state } ∧
      state.lookup (key 1) = some (.creating (versionAt config.state.versions) .selecting) ∧
      state.sessionLeases =
        config.state.sessionLeases ++ [⟨key 1, versionAt config.state.versions⟩] := by
  obtain ⟨found, sought, hShard⟩ := hShard
  obtain ⟨⟨shards, entryCount, bytes, versions, futile, epoch, clock, notes, leases, others, bound⟩,
    threads⟩ := config
  cases hCount
  obtain ⟨others, rfl⟩ := exists_update hShard
  refine ⟨_, leads_call (session 1) (List.replicate 8 []) rfl hIdle rfl rfl, ?_⟩
  exact ⟨rfl, rfl⟩

def advances (orders : List (List SessionHash)) : List (registry Unit settings).Label :=
  orders.map fun order => .advance () order

/-- The first session, all is cleared, the second session, and a third that
finds no room. -/
def setup : List (registry Unit settings).Label :=
  .start () (session 1) :: advances (List.replicate 8 []) ++
    .finish () :: .start () .clearAll ::
      advances ((List.finRange shardCount).flatMap fun shard =>
        let order := if shard = (key 1).shardIndex then [key 1] else []
        [[], order, order, [], [], []]) ++
    .advance () [] :: .finish () :: .start () (session 2) :: advances (List.replicate 8 []) ++
    .finish () :: .start () (session 3) :: advances (List.replicate 8 []) ++
    advances ((List.finRange shardCount).flatMap fun shard =>
      [[], if shard = (key 2).shardIndex then [key 2] else [], []]) ++
    [.advance () [], .finish ()]

theorem shard_eq {state : ShardState Unit} {entries : Shard} (hEntries : state.entries = entries)
    (hHolder : state.holder = none) :
    ∃ found sought, state = ⟨entries, none, found, sought⟩ := by
  obtain ⟨_, _, found, sought⟩ := state
  cases hEntries
  cases hHolder
  exact ⟨found, sought, rfl⟩

theorem setup_full : ∃ config, Leads (.initial (ShardedBindings.new Unit settings)) config ∧
    config.threads () = none ∧ Full 3 config.state := by
  have hSetup : (Machine.run setup (.initial (ShardedBindings.new Unit settings))).any
      (fun config => (config.threads ()).isNone ∧
      ((config.state.shards (key 1).shardIndex).entries = ∅ ∧
        (config.state.shards (key 1).shardIndex).holder = none) ∧
      ((config.state.shards (key 2).shardIndex).entries =
          (∅ : Shard).insert (key 2) (.creating 2 .selecting) ∧
        (config.state.shards (key 2).shardIndex).holder = none) ∧
      ((config.state.shards (key 3).shardIndex).entries = ∅ ∧
        (config.state.shards (key 3).shardIndex).holder = none) ∧
      config.state.entryCount = 1 ∧ config.state.lastFutileReclaim = 1 ∧ config.state.clock = 0 ∧
      config.state.versions = 3 ∧ config.state.sessionLeases = [⟨key 1, 1⟩, ⟨key 2, 2⟩])
      = true := by
    decide +kernel
  cases hRun : Machine.run setup (.initial (ShardedBindings.new Unit settings)) with
  | none =>
    rw [hRun] at hSetup
    cases hSetup
  | some config =>
    rw [hRun, Option.any_some, decide_eq_true_eq] at hSetup
    obtain ⟨hIdle, hFirst, hSecond, hThird, hRest⟩ := hSetup
    refine ⟨config, ⟨setup, by decide +kernel, hRun⟩, Option.isNone_iff_eq_none.mp hIdle, ?_⟩
    exact ⟨shard_eq hFirst.1 hFirst.2, shard_eq hSecond.1 hSecond.2, shard_eq hThird.1 hThird.2,
      hRest.1, hRest.2.1, hRest.2.2.1, hRest.2.2.2.1, hRest.2.2.2.2⟩

end Wrap

/-- After `2 ^ 64` draws two leases of one key, neither of which was used, are
current together. -/
theorem two_current_leases : ∃ labels config, Reaches Wrap.settings labels config ∧
    labels.all Wrap.spares = true ∧
    config.state.sessionLeases.countP
      (fun lease => lease.key = Wrap.key 1 && config.state.isCurrent lease) = 2 ∧
    ∀ lease ∈ config.state.sessionLeases, lease.key = Wrap.key 1 → lease.version = 1 := by
  obtain ⟨start, ⟨labels, hLabels, hRun⟩, hIdle, hFull⟩ := Wrap.setup_full
  obtain ⟨full, hDrawn, hFull⟩ := hFull.drawMany hIdle (wordSize - 4)
  obtain ⟨left, hLeft, hShard, hCount, hVersions, hLeases⟩ :=
    hFull.leave { start with state := full } hIdle
  obtain ⟨final, hFinal, hEntry, hAll⟩ :=
    Wrap.create_again { start with state := left } hIdle hShard hCount
  obtain ⟨more, hMore, hRest⟩ := hDrawn.trans (hLeft.trans hFinal)
  have hVersion : versionAt left.versions = 1 := by
    rw [hVersions]
    rfl
  rw [hVersion] at hEntry hAll
  rw [hLeases] at hAll
  refine ⟨labels ++ more, { start with state := final }, ?_, ?_, ?_, ?_⟩
  · exact (Machine.run_append _ _ _).trans (by rw [hRun]; exact hRest)
  · rw [List.all_append, hLabels, hMore]
    rfl
  · have hFirst : final.isCurrent ⟨Wrap.key 1, 1⟩ = true := isCurrent_iff.mpr ⟨_, hEntry⟩
    have hSecond : ¬Wrap.key 2 = Wrap.key 1 := by decide
    simp [hAll, hFirst, hSecond]
  · have hSecond : ¬Wrap.key 2 = Wrap.key 1 := by decide
    simp [hAll, hSecond]

end Any2Api.Runtime.Affinity
