import Any2Api.Runtime.Affinity.Calls

/-! Runs of the registry. Every interleaving of calls keeps the invariant, and
what a step changes is a change that its call may make. -/
namespace Any2Api.Runtime.Affinity

variable {ι : Type} [DecidableEq ι] {settings : Settings} {after s : ShardedBindings ι} {thread : ι}
  {config next : (registry ι settings).Config} {label : (registry ι settings).Label}
  {labels : List (registry ι settings).Label}

namespace ShardedBindings

variable {other thread : ι} {s : ShardedBindings ι} {shard : Fin shardCount}

theorem own_write_of_ne
    (hOther : other ≠ thread) (h : (s.shards shard).holder = some thread) (next : Shard)
    (note : Note) : (s.write thread shard next note).own other = s.own other := by
  have hHolder : (s.shards shard).holder ≠ some other := by
    rw [h]
    exact fun hSame => hOther (Option.some.inj hSame).symm
  unfold write
  rw [own_setNote_of_ne _ hOther]
  exact s.own_setShard_of_ne hHolder hHolder

theorem own_release_of_ne (hOther : other ≠ thread) (h : (s.shards shard).holder = some thread) :
    (s.release thread shard).own other = s.own other := by
  unfold release
  rw [own_setNote_of_ne _ hOther, s.own_setShard_of_ne _ (by simp)]
  rw [h]
  exact fun hSame => hOther (Option.some.inj hSame).symm

end ShardedBindings

/-- What an instruction of a thread does to the shards and to the notes. -/
inductive Effect (s : ShardedBindings ι) (thread : ι) : ShardedBindings ι → Prop
  | elsewhere {after : ShardedBindings ι} (hShards : after.shards = s.shards)
      (hNotes : after.notes = s.notes) : Effect s thread after
  | noted {other : ShardedBindings ι} {note : Note} (hShards : other.shards = s.shards)
      (hNotes : other.notes = s.notes) (hCommitted : note.committed = (s.notes thread).committed) :
      Effect s thread (other.setNote thread note)
  | acquired {shard : Fin shardCount} (hHolder : (s.shards shard).holder = none)
      (sought : Option SessionHash) : Effect s thread (s.acquire thread shard sought)
  | released {shard : Fin shardCount} (hHolder : (s.shards shard).holder = some thread) :
      Effect s thread (s.release thread shard)
  | written {shard : Fin shardCount} (hHolder : (s.shards shard).holder = some thread)
      (next : Shard) : Effect s thread (s.write thread shard next (s.notes thread))
  | stored {shard : Fin shardCount} (hHolder : (s.shards shard).holder = some thread)
      (key : SessionHash) (state : BindingState) : Effect s thread (s.store thread shard key state)

theorem perform_effect {order : List SessionHash} {instr : Instr} {answer : Answer instr}
    (h : perform settings thread order instr s = some (answer, after)) : Effect s thread after := by
  cases instr with
  | now | nextVersion | releaseEntries | releaseBytes | addBytes =>
    cases h
    exact .noted rfl rfl rfl
  | loadFutileReclaim | storeFutileReclaim | wake | get =>
    cases h
    exact .elsewhere rfl rfl
  | lock | visit =>
    simp only [perform] at h
    split at h
    · cases h
    · next hFree =>
        cases h
        exact .acquired hFree _
  | unlock shard =>
    cases h
    split_ifs with hHolder
    · exact .released hHolder
    · exact .elsewhere rfl rfl
  | iter shard =>
    simp only [perform] at h
    split_ifs at h
    · obtain ⟨listed, -, hPair⟩ := Option.map_eq_some_iff.mp h
      cases hPair
      exact .elsewhere rfl rfl
    · cases h
      exact .elsewhere rfl rfl
  | insert shard key state =>
    simp only [perform] at h
    split_ifs at h with hHolder
    · cases h
      exact .stored hHolder key state
    · cases h
      exact .elsewhere rfl rfl
  | remove shard key =>
    simp only [perform] at h
    split_ifs at h with hHolder
    · cases h
      exact .written hHolder _
    · cases h
      exact .elsewhere rfl rfl
  | clear shard =>
    cases h
    split_ifs with hHolder
    · exact .written hHolder _
    · exact .elsewhere rfl rfl
  | reserveEntry | reserveBytes =>
    simp only [perform] at h
    split_ifs at h
    · cases h
      exact .noted rfl rfl rfl
    · cases h
      exact .elsewhere rfl rfl

open ShardedBindings in
/-- An instruction leaves the parts of other threads alone. -/
theorem Effect.own_of_ne {other : ι} (h : Effect s thread after)
    (hOther : other ≠ thread) : after.own other = s.own other := by
  have hSame : ∀ t : ShardedBindings ι, t.shards = s.shards → t.notes = s.notes →
      t.own other = s.own other := by
    intro t hShards hNotes
    unfold own
    rw [hShards, hNotes]
  cases h with
  | elsewhere hShards hNotes => exact hSame after hShards hNotes
  | noted hShards hNotes _ => exact (own_setNote_of_ne _ hOther _).trans (hSame _ hShards hNotes)
  | acquired hHolder sought =>
    exact s.own_setShard_of_ne (by simp [hHolder]) fun hSame =>
      hOther (Option.some.inj hSame).symm
  | released hHolder => exact own_release_of_ne hOther hHolder
  | written hHolder next => exact own_write_of_ne hOther hHolder next _
  | stored hHolder key state => exact own_write_of_ne hOther hHolder _ _

/-! Once a call has committed, it stays committed. -/

theorem Note.committed_store {note : Note} (h : note.committed = true) (old : Option BindingState)
    (state : BindingState) : (note.store old state).committed = true := by
  unfold Note.store
  split <;> first | exact h | rfl

/-- No instruction takes a commit back. -/
theorem Effect.committed (h : Effect s thread after)
    (hCommitted : (s.notes thread).committed = true) : (after.notes thread).committed = true := by
  have hNote : ∀ (t : ShardedBindings ι) (note : Note), note.committed = true →
      ((t.setNote thread note).notes thread).committed = true := by
    intro t note hNote
    have hSelf : (t.setNote thread note).notes thread = note := Function.update_self ..
    rw [hSelf]
    exact hNote
  cases h with
  | elsewhere _ hNotes =>
    rw [hNotes]
    exact hCommitted
  | noted _ _ hSame => exact hNote _ _ (hSame.trans hCommitted)
  | acquired => exact hCommitted
  | released =>
    refine hNote _ _ ?_
    split
    · exact hCommitted
    · exact hCommitted
  | written => exact hNote _ _ hCommitted
  | stored _ key state => exact hNote _ _ (Note.committed_store hCommitted _ state)

/-- A commit stays until its thread begins another call. -/
theorem committed_step
    (hStep : Machine.step config label = some next) (hLabel : ∀ call, label ≠ .start thread call)
    (h : (config.state.notes thread).committed = true) :
    (next.state.notes thread).committed = true := by
  obtain ⟨starter, call, state, rfl, -, hEnter, rfl⟩ |
    ⟨actor, choice, call, instr, rest, answer, state, rfl, -, hPerform, rfl⟩ |
    ⟨ended, call, result, -, -, rfl⟩ | ⟨event, state, -, hReact, rfl⟩ := Machine.step_cases hStep
  · have hOther : thread ≠ starter := fun hSame => hLabel call (by rw [hSame])
    simp only [registry] at hEnter
    split_ifs at hEnter
    cases hEnter
    change (Function.update config.state.notes starter _ thread).committed = true
    rw [Function.update_of_ne hOther]
    exact h
  · rcases eq_or_ne thread actor with rfl | hOther
    · exact (perform_effect hPerform).committed h
    · have hNote := congrArg Part.note ((perform_effect hPerform).own_of_ne hOther)
      exact (congrArg Note.committed hNote).trans h
  · exact h
  · cases hReact
    exact h

theorem committed_run {config final : (registry ι settings).Config}
    (hRun : Machine.run labels config = some final) (hLabels : ∀ call, .start thread call ∉ labels)
    (h : (config.state.notes thread).committed = true) :
    (final.state.notes thread).committed = true := by
  induction labels generalizing config with
  | nil =>
    cases hRun
    exact h
  | cons label labels ih =>
    rw [Machine.run, List.foldlM_cons] at hRun
    obtain ⟨next, hStep, hRun⟩ := Option.bind_eq_some_iff.mp hRun
    refine ih hRun (fun call hMem => hLabels call (List.mem_cons_of_mem _ hMem)) ?_
    refine committed_step hStep (fun call hLabel => hLabels call ?_) h
    rw [hLabel]
    exact List.mem_cons_self

variable [Fintype ι]

theorem discipline_valid (settings : Settings) : (discipline ι settings).Valid where
  frame _ hPerform other hOther := (perform_effect hPerform).own_of_ne hOther
  enter := by
    rintro thread call s after hInvariant ⟨note, hOwn, hReserved⟩ hEnter
    have hNote : s.notes thread = note := ShardedBindings.own_free hOwn
    simp only [registry] at hEnter
    split_ifs at hEnter
    cases hEnter
    refine ⟨hInvariant.setNote rfl (hInvariant.readings thread) (fun _ h => by cases h),
      fun other hOther => s.own_setNote_of_ne hOther _, ?_⟩
    have hAfter := s.own_setNote thread
      { s.notes thread with drawn := none, visited := none, committed := false }
    have hHeld : (s.own thread).held = fun _ => none := congrArg Part.held hOwn
    rw [hHeld] at hAfter
    change (discipline ι settings).Safe thread call (body settings call) (Returned settings call)
      ((s.setNote thread _).own thread)
    rw [hAfter]
    refine safe_body call ?_ rfl rfl
    rw [hNote]
    exact hReserved
  leave := fun ⟨note, hPart, hReserved, _⟩ => ⟨note, hPart, hReserved⟩
  react := by
    rintro elapsed s after hInvariant hReact
    cases hReact
    exact ⟨hInvariant.elsewhere _ _ (Nat.le_add_right _ _), fun _ => rfl⟩

/-- A run of the registry from its creation. -/
def Reaches (settings : Settings) (labels : List (registry ι settings).Label)
    (config : (registry ι settings).Config) : Prop :=
  Machine.run labels (.initial (ShardedBindings.new ι settings)) = some config

theorem Reaches.sound {config : (registry ι settings).Config} (h : Reaches settings labels config) :
    (discipline ι settings).Sound config := by
  refine (discipline_valid settings).run h (.initial (invariant_new settings) fun thread => ?_)
  exact ⟨{}, rfl, rfl⟩

/-- The entries that a step changes are changed by an instruction of a call. -/
theorem step_changes (hSound : (discipline ι settings).Sound config)
    (hStep : Machine.step config label = some next) {key : SessionHash}
    (hKey : next.state.lookup key ≠ config.state.lookup key) :
    ∃ thread choice call instr rest, label = .advance thread choice ∧
      config.threads thread = some ⟨call, .act instr rest⟩ ∧
      Allowed settings thread call instr config.state next.state ∧
      Change settings config.state.clock (config.state.notes thread).drawn call key
        (config.state.lookup key) (next.state.lookup key) := by
  obtain ⟨thread, call, state, -, -, hEnter, rfl⟩ |
    ⟨thread, choice, call, instr, rest, answer, state, rfl, hThread, hPerform, rfl⟩ |
    ⟨thread, call, result, -, -, rfl⟩ | ⟨event, state, -, hReact, rfl⟩ := Machine.step_cases hStep
  · simp only [registry] at hEnter
    split_ifs at hEnter
    cases hEnter
    exact absurd rfl hKey
  · obtain ⟨-, hAllowed, -⟩ := hSound.advance hThread hPerform
    refine ⟨thread, choice, call, instr, rest, rfl, hThread, hAllowed, ?_⟩
    exact (hAllowed.entries key).resolve_left hKey
  · exact absurd rfl hKey
  · cases hReact
    exact absurd rfl hKey

/-- What an instruction of a thread changes, its call may change. -/
theorem step_changes_of_thread (hSound : (discipline ι settings).Sound config) {call : Call}
    {rest : Prog (Result call)} {choice : List SessionHash}
    (hThread : config.threads thread = some ⟨call, rest⟩)
    (hStep : Machine.step config (.advance thread choice) = some next) {key : SessionHash}
    (hKey : next.state.lookup key ≠ config.state.lookup key) :
    Change settings config.state.clock (config.state.notes thread).drawn call key
      (config.state.lookup key) (next.state.lookup key) := by
  obtain ⟨actor, _, acting, instr, after, hLabel, hActor, -, hChange⟩ :=
    step_changes hSound hStep hKey
  cases hLabel
  cases hThread.symm.trans hActor
  exact hChange

omit [DecidableEq ι] [Fintype ι] in
/-- Leases with distinct versions, of which those of a key that are chosen agree in the version. -/
theorem countP_le_one {leases : List Lease} (hNodup : (leases.map Lease.version).Nodup)
    {chosen : Lease → Bool} (h : ∀ a b, a.key = b.key → chosen a = true → chosen b = true →
      a.version = b.version) (key : SessionHash) :
    leases.countP (fun lease => lease.key = key && chosen lease) ≤ 1 := by
  by_cases hNone : ∃ lease : Lease, lease.key = key ∧ chosen lease = true
  · obtain ⟨lease, hKey, hLease⟩ := hNone
    calc leases.countP (fun lease => lease.key = key && chosen lease)
        ≤ leases.countP (fun other => other.version == lease.version) := by
          refine List.countP_mono_left fun other _ hOther => beq_iff_eq.mpr ?_
          obtain ⟨hSame, hOther⟩ := Bool.and_eq_true_iff.mp hOther
          exact h other lease ((of_decide_eq_true hSame).trans hKey.symm) hOther hLease
      _ = (leases.map Lease.version).count lease.version := by
          rw [List.count, List.countP_map]
          rfl
      _ ≤ 1 := List.nodup_iff_count_le_one.mp hNodup lease.version
  · rw [List.countP_eq_zero.mpr fun lease _ hLease => hNone ⟨lease, by simpa using hLease⟩]
    exact Nat.zero_le 1

omit [DecidableEq ι] [Fintype ι] in
theorem Fresh.sessionVersions (h : Fresh s) : (s.sessionLeases.map Lease.version).Nodup := by
  have hAll := h.nodup
  rw [ShardedBindings.leases, List.map_append] at hAll
  exact hAll.of_append_left

omit [DecidableEq ι] [Fintype ι] in
theorem Fresh.continuationVersions (h : Fresh s) :
    (s.continuationLeases.map Lease.version).Nodup := by
  have hAll := h.nodup
  rw [ShardedBindings.leases, List.map_append] at hAll
  exact hAll.of_append_right

/-- What the call of a thread returns, whenever it returns. -/
def Returns (config : (registry ι settings).Config) (thread : ι) (call : Call)
    (property : Result call → Prop) : Prop :=
  ∀ more final result, Machine.run more config = some final →
    (∀ other, .start thread other ∉ more) →
    final.threads thread = some ⟨call, .pure result⟩ → property result

/-- A call that has committed returns what a committed call may. -/
theorem returns_of_committed {config : (registry ι settings).Config} {call : Call}
    {property : Result call → Prop} (hSound : (discipline ι settings).Sound config)
    (hCommitted : (config.state.notes thread).committed = true)
    (h : ∀ result note, Outcome settings call result note → note.committed = true →
      property result) :
    Returns config thread call property := by
  intro more final result hMore hStarts hFinal
  have hLater := committed_run hMore hStarts hCommitted
  obtain ⟨note, hOwn, -, hOutcome⟩ := ((discipline_valid settings).run hMore hSound).returned hFinal
  exact h result note hOutcome (ShardedBindings.own_free hOwn ▸ hLater)

end Any2Api.Runtime.Affinity
