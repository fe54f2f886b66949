import Any2Api.Library.Runs
import Any2Api.Runtime.Domain

/-! The health runtimes of paths. A lookup probes its map under the read lock and, where it finds
nothing, looks again under the write lock; `reconcile_paths` replaces the active paths of both
maps, the second one while it still holds the lock of the first. A step is what happens under
one lock. -/
namespace Any2Api.Runtime.Health

open Function

structure EgressPathKey where
  endpointId : Nat
  endpointConfigVersion : Nat
  proxyId : Nat
  proxyConfigVersion : Nat
  deriving DecidableEq

structure CandidatePathBaseKey extends EgressPathKey where
  targetId : Nat
  credentialId : RoutingCredentialId
  routingGeneration : Nat
  deriving DecidableEq

def CandidatePathBaseKey.egressPath (path : CandidatePathBaseKey) : EgressPathKey :=
  path.toEgressPathKey

structure CandidatePathKey extends CandidatePathBaseKey where
  operation : ProtocolOperation
  deriving DecidableEq

def CandidatePathKey.base (key : CandidatePathKey) : CandidatePathBaseKey :=
  key.toCandidatePathBaseKey

/-- One of the two maps. Runtime objects are numbered as they are created. -/
structure PathHealthState (Key Base : Type) where
  active : Finset Base
  runtimes : Key → Option Nat
  /-- The lookups that have found nothing and wait for the write lock. -/
  missed : List Key
  /-- What the lookups of a key have returned since its path became active. -/
  returned : Key → List Nat

/-- The two parts of a lookup. -/
inductive Lookup (Key : Type) where
  | probe (key : Key)
  | settle (index : Nat)

namespace PathHealthState

variable {Key Base : Type} [DecidableEq Key] [DecidableEq Base] (base : Key → Base)
  (paths : PathHealthState Key Base)

def initial : PathHealthState Key Base := ⟨∅, fun _ => none, [], fun _ => []⟩

def answer (key : Key) (runtime : Nat) : PathHealthState Key Base :=
  { paths with returned := update paths.returned key (runtime :: paths.returned key) }

/-- The key that a part of a lookup is for. -/
def lookedUp : Lookup Key → Option Key
  | .probe key => some key
  | .settle index => paths.missed[index]?

/-- What a lookup does under the write lock; `fresh` is the runtime object it would create. -/
def settle (key : Key) (fresh : Nat) : PathHealthState Key Base :=
  if base key ∉ paths.active then
    paths.answer key fresh
  else
    match paths.runtimes key with
    | some runtime => paths.answer key runtime
    | none =>
      { paths with runtimes := update paths.runtimes key (some fresh) }.answer key fresh

/-- `egress_path` and `candidate_path`. -/
def lookup (fresh : Nat) : Lookup Key → Option (PathHealthState Key Base)
  | .probe key =>
    match paths.runtimes key with
    | some runtime => some (paths.answer key runtime)
    | none => some { paths with missed := paths.missed ++ [key] }
  | .settle index =>
    paths.missed[index]?.map
      ({ paths with missed := paths.missed.eraseIdx index }.settle base · fresh)

/-- What `reconcile_paths` does with one map. -/
def reconcile (active : Finset Base) : PathHealthState Key Base :=
  { paths with
    active
    runtimes := fun key => if base key ∈ active then paths.runtimes key else none
    returned := fun key => if base key ∈ paths.active then paths.returned key else [] }

/-- Only active paths have a runtime, and while a path is active its lookups return the one that
is stored. -/
structure Sound : Prop where
  stored : ∀ key runtime, paths.runtimes key = some runtime → base key ∈ paths.active
  agreed : ∀ key, base key ∈ paths.active →
    ∀ runtime ∈ paths.returned key, paths.runtimes key = some runtime

variable {base paths} {after : PathHealthState Key Base} {fresh : Nat} {part : Lookup Key}
  {key : Key}

omit [DecidableEq Base] in
theorem Sound.answer (h : paths.Sound base) (runtime : Nat)
    (hStored : base key ∈ paths.active → paths.runtimes key = some runtime) :
    (paths.answer key runtime).Sound base := by
  refine ⟨h.stored, fun other hActive found hFound => ?_⟩
  rcases eq_or_ne other key with rfl | hNe
  · simp only [PathHealthState.answer, update_self, List.mem_cons] at hFound
    rcases hFound with rfl | hFound
    · exact hStored hActive
    · exact h.agreed other hActive found hFound
  · simp only [PathHealthState.answer, update_of_ne hNe] at hFound
    exact h.agreed other hActive found hFound

theorem Sound.settle (h : paths.Sound base) : (paths.settle base key fresh).Sound base := by
  unfold PathHealthState.settle
  split
  next hInactive => exact h.answer fresh fun hActive => absurd hActive hInactive
  next hActive =>
    rw [not_not] at hActive
    cases hRuntime : paths.runtimes key with
    | some runtime => exact h.answer runtime fun _ => hRuntime
    | none =>
      refine .answer ⟨fun other runtime hOther => ?_, fun other hOther runtime hMem => ?_⟩ fresh
        fun _ => update_self ..
      · rcases eq_or_ne other key with rfl | hNe
        · exact hActive
        · exact h.stored other runtime ((update_of_ne hNe ..).symm.trans hOther)
      · -- An earlier answer would be stored, and nothing is stored for the key that is inserted.
        have hStored := h.agreed other hOther runtime hMem
        refine (update_of_ne ?_ ..).trans hStored
        rintro rfl
        exact Option.some_ne_none runtime (hStored.symm.trans hRuntime)

omit [DecidableEq Key] in
theorem Sound.reconcile (h : paths.Sound base) (active : Finset Base) :
    (paths.reconcile base active).Sound base := by
  refine ⟨fun key runtime hRuntime => (Option.ite_none_right_eq_some.mp hRuntime).1,
    fun key hActive runtime hMem => ?_⟩
  simp only [PathHealthState.reconcile, List.mem_ite_nil_right] at hMem
  exact (if_pos hActive).trans (h.agreed key hMem.1 runtime hMem.2)

theorem active_settle : (paths.settle base key fresh).active = paths.active := by
  unfold settle
  split
  · rfl
  · cases paths.runtimes key <;> rfl

theorem lookup_spec (h : paths.Sound base) (hLookup : paths.lookup base fresh part = some after) :
    after.Sound base ∧ after.active = paths.active := by
  cases part with
  | probe key =>
    rw [lookup] at hLookup
    cases hRuntime : paths.runtimes key with
    | none => exact Option.some.inj (hRuntime ▸ hLookup) ▸ ⟨⟨h.stored, h.agreed⟩, rfl⟩
    | some runtime =>
      exact Option.some.inj (hRuntime ▸ hLookup) ▸ ⟨h.answer runtime fun _ => hRuntime, rfl⟩
  | settle index =>
    obtain ⟨key, -, rfl⟩ := Option.map_eq_some_iff.mp hLookup
    exact ⟨.settle ⟨h.stored, h.agreed⟩, active_settle⟩

theorem runtimes_lookup (hLookup : paths.lookup base fresh part = some after)
    (hKey : paths.lookedUp part = some key) (hInactive : base key ∉ paths.active) :
    after.runtimes = paths.runtimes := by
  cases part with
  | probe key =>
    rw [lookup] at hLookup
    cases hRuntime : paths.runtimes key with
    | none => exact Option.some.inj (hRuntime ▸ hLookup) ▸ rfl
    | some runtime => exact Option.some.inj (hRuntime ▸ hLookup) ▸ rfl
  | settle index =>
    obtain ⟨found, hFound, rfl⟩ := Option.map_eq_some_iff.mp hLookup
    cases hKey.symm.trans hFound
    rw [settle, if_pos hInactive]
    rfl

end PathHealthState

structure HealthRegistry where
  egressPaths : PathHealthState EgressPathKey EgressPathKey
  candidatePaths : PathHealthState CandidatePathKey CandidatePathBaseKey
  /-- The paths of a `reconcile_paths` that holds the first lock and waits for the second. -/
  reconciling : Option (Finset CandidatePathBaseKey)
  /-- The paths of the last `reconcile_paths`. -/
  reconciled : Finset CandidatePathBaseKey
  created : Nat

namespace HealthRegistry

def initial : HealthRegistry := ⟨.initial, .initial, none, ∅, 0⟩

inductive Label where
  | egressPath (part : Lookup EgressPathKey)
  | candidatePath (part : Lookup CandidatePathKey)
  | reconcileEgressPaths (active : Finset CandidatePathBaseKey)
  | reconcileCandidatePaths

def step (registry : HealthRegistry) : Label → Option HealthRegistry
  | .egressPath part =>
    if registry.reconciling.isSome then
      none
    else
      (registry.egressPaths.lookup id registry.created part).map fun egressPaths =>
        { registry with egressPaths, created := registry.created + 1 }
  | .candidatePath part =>
    (registry.candidatePaths.lookup (·.base) registry.created part).map fun candidatePaths =>
      { registry with candidatePaths, created := registry.created + 1 }
  | .reconcileEgressPaths active =>
    if registry.reconciling.isSome then
      none
    else
      some { registry with
        egressPaths := registry.egressPaths.reconcile id (active.image (·.egressPath))
        reconciling := some active
        reconciled := active }
  | .reconcileCandidatePaths =>
    registry.reconciling.map fun active =>
      { registry with
        candidatePaths := registry.candidatePaths.reconcile (·.base) active
        reconciling := none }

/-- The active paths are those of the last `reconcile_paths`; the second map still has the paths
of the one before while the last one waits for its lock. -/
structure Sound (registry : HealthRegistry) : Prop where
  egress : registry.egressPaths.Sound id
  candidate : registry.candidatePaths.Sound (·.base)
  egressActive : registry.egressPaths.active = registry.reconciled.image (·.egressPath)
  candidateActive : registry.reconciling = none →
    registry.candidatePaths.active = registry.reconciled
  waiting : ∀ active, registry.reconciling = some active → active = registry.reconciled

variable {registry next : HealthRegistry} {label : Label} {labels : List Label}

theorem Sound.step (h : registry.Sound) (hStep : registry.step label = some next) : next.Sound := by
  cases label <;> simp only [HealthRegistry.step, Option.map_eq_some_iff,
    Option.ite_none_left_eq_some, Option.some.injEq] at hStep
  case egressPath part =>
    obtain ⟨-, paths, hPaths, rfl⟩ := hStep
    obtain ⟨hSound, hActive⟩ := PathHealthState.lookup_spec h.egress hPaths
    exact { h with egress := hSound, egressActive := hActive.trans h.egressActive }
  case candidatePath part =>
    obtain ⟨paths, hPaths, rfl⟩ := hStep
    obtain ⟨hSound, hActive⟩ := PathHealthState.lookup_spec h.candidate hPaths
    exact { h with
      candidate := hSound
      candidateActive := fun hNone => hActive.trans (h.candidateActive hNone) }
  case reconcileEgressPaths active =>
    obtain ⟨-, rfl⟩ := hStep
    exact ⟨h.egress.reconcile _, h.candidate, rfl, nofun,
      fun _ hSome => (Option.some.inj hSome).symm⟩
  case reconcileCandidatePaths =>
    obtain ⟨active, hActive, rfl⟩ := hStep
    exact { h with
      candidate := h.candidate.reconcile active
      candidateActive := fun _ => h.waiting active hActive
      waiting := nofun }

/-- In every run only active paths of the last `reconcile_paths` have a runtime, all lookups of a
path return one runtime while it is active, and a lookup for a path that is not active stores
nothing. -/
theorem path_runtimes_of_run (hRun : Runs.run step labels initial = some registry) :
    registry.Sound ∧
      (∀ fresh part key after, registry.egressPaths.lookup id fresh part = some after →
        registry.egressPaths.lookedUp part = some key → key ∉ registry.egressPaths.active →
        after.runtimes = registry.egressPaths.runtimes) ∧
      ∀ fresh part key after, registry.candidatePaths.lookup (·.base) fresh part = some after →
        registry.candidatePaths.lookedUp part = some key →
        key.base ∉ registry.candidatePaths.active →
        after.runtimes = registry.candidatePaths.runtimes := by
  refine ⟨Runs.invariant_of_run (fun _ _ _ h hStep => h.step hStep) ?_ hRun,
    fun _ _ _ _ => PathHealthState.runtimes_lookup, fun _ _ _ _ => PathHealthState.runtimes_lookup⟩
  constructor <;> simp [initial, PathHealthState.initial]
  all_goals constructor <;> simp

def racedPath : CandidatePathBaseKey := ⟨⟨1, 1, 1, 1⟩, 1, .providerCredential 1, 1⟩

/-- Two lookups of a new path, of which neither finds what the other one stores by its probe. -/
def racedLookups : List Label :=
  [.reconcileEgressPaths {racedPath}, .reconcileCandidatePaths,
    .egressPath (.probe racedPath.egressPath), .egressPath (.probe racedPath.egressPath),
    .egressPath (.settle 1), .egressPath (.settle 0)]

/-- Two lookups of one path race and get the same runtime. -/
theorem path_runtimes_of_race :
    ∃ registry, Runs.run step racedLookups initial = some registry ∧
      registry.egressPaths.returned racedPath.egressPath = [2, 2] ∧ registry.Sound := by
  obtain ⟨registry, hRun, hReturned⟩ := (Option.any_eq_true ..).mp
    (show (Runs.run step racedLookups initial).any (fun registry =>
      registry.egressPaths.returned racedPath.egressPath = [2, 2]) = true by decide +kernel)
  exact ⟨registry, hRun, of_decide_eq_true hReturned, (path_runtimes_of_run hRun).1⟩

end HealthRegistry

end Any2Api.Runtime.Health
