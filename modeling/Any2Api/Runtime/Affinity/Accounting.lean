import Mathlib.Algebra.BigOperators.Group.Multiset.Basic
import Mathlib.Algebra.BigOperators.Pi
import Any2Api.Runtime.Affinity.Runs

/-! After every run the two counters are those of the stored entries and of what
calls in progress have reserved. -/
namespace Any2Api.Runtime.Affinity

variable {ι : Type} [DecidableEq ι] [Fintype ι] {settings : Settings} {s : ShardedBindings ι}

omit [DecidableEq ι] [Fintype ι] in
theorem weight_fst (shard : Shard) : (weight shard).1 = shard.entries.card := by
  have hSum := map_multiset_sum (AddMonoidHom.fst Nat Nat)
    (shard.entries.map fun entry => (1, continuationFootprint entry.2))
  rw [Multiset.map_map] at hSum
  exact hSum.trans (by simp)

/-- The bytes that the continuations of a shard take. -/
def footprint (shard : Shard) : Nat :=
  (shard.entries.map fun entry => continuationFootprint entry.2).sum

omit [DecidableEq ι] [Fintype ι] in
theorem weight_snd (shard : Shard) : (weight shard).2 = footprint shard := by
  have hSum := map_multiset_sum (AddMonoidHom.snd Nat Nat)
    (shard.entries.map fun entry => (1, continuationFootprint entry.2))
  rw [Multiset.map_map] at hSum
  exact hSum

omit [DecidableEq ι] in
theorem Balanced.entryCount_eq (h : Balanced settings s) :
    s.entryCount = ∑ shard, (s.entries shard).entries.card +
      ∑ thread, (s.notes thread).reserved.1 := by
  have hEntries := congrArg Prod.fst h.counters
  simpa only [Prod.fst_add, Prod.fst_sum, weight_fst] using hEntries

omit [DecidableEq ι] in
theorem Balanced.continuationBytes_eq (h : Balanced settings s) :
    s.continuationBytes =
      ∑ shard, footprint (s.entries shard) + ∑ thread, (s.notes thread).reserved.2 := by
  have hBytes := congrArg Prod.snd h.counters
  simpa only [Prod.snd_add, Prod.snd_sum, weight_snd] using hBytes

/-- After every run the counters are the number of the stored entries and the
bytes of the stored continuations, with what the calls in progress have
reserved. They stay below their maxima, and what a thread is about to subtract
from a counter is no more than the counter. -/
theorem run_accounts {labels : List (registry ι settings).Label}
    {config : (registry ι settings).Config} (hRun : Reaches settings labels config) :
    config.state.entryCount =
        ∑ shard, (config.state.entries shard).entries.card +
          ∑ thread, (config.state.notes thread).reserved.1 ∧
      config.state.continuationBytes =
        ∑ shard, footprint (config.state.entries shard) +
          ∑ thread, (config.state.notes thread).reserved.2 ∧
      (∀ thread, config.threads thread = none → (config.state.notes thread).reserved = 0) ∧
      config.state.entryCount ≤ settings.maxEntries ∧
      config.state.continuationBytes ≤ settings.maxContinuationBytes ∧
      (∀ thread call count rest,
        config.threads thread = some ⟨call, .act (.releaseEntries count) rest⟩ →
          count ≤ config.state.entryCount) ∧
      ∀ thread call bytes rest,
        config.threads thread = some ⟨call, .act (.releaseBytes bytes) rest⟩ →
          bytes ≤ config.state.continuationBytes := by
  have hSound := hRun.sound
  have hBalanced := hSound.invariant.balanced
  refine ⟨hBalanced.entryCount_eq, hBalanced.continuationBytes_eq, ?_, hBalanced.entries_le,
    hBalanced.bytes_le, ?_, ?_⟩
  · intro thread hThread
    have hIdle := hSound.threads thread
    rw [hThread] at hIdle
    obtain ⟨note, hOwn, hReserved⟩ := hIdle
    rw [ShardedBindings.own_free hOwn]
    exact hReserved
  · intro thread call count rest hThread
    obtain ⟨after, hPerform⟩ : ∃ after, (registry ι settings).perform thread
        ([] : List SessionHash) (.releaseEntries count) config.state = some ((), after) := ⟨_, rfl⟩
    exact (hSound.advance hThread hPerform).2.1.covers
  · intro thread call bytes rest hThread
    obtain ⟨after, hPerform⟩ : ∃ after, (registry ι settings).perform thread
        ([] : List SessionHash) (.releaseBytes bytes) config.state = some ((), after) := ⟨_, rfl⟩
    exact (hSound.advance hThread hPerform).2.1.covers

def sampleHash (byte : UInt8) : SessionHash := ⟨byte :: List.replicate 31 0, by simp⟩

/-- Sessions have even hashes and continuations odd ones. -/
def sampleSettings : Settings where
  hasher := ⟨fun _ routeId _ => sampleHash (2 * UInt8.ofNat routeId),
    fun raw => sampleHash (2 * UInt8.ofNat raw.length + 1)⟩
  maxEntries := 4
  maxContinuationBytes := 2 * maxContinuationStateBytes
  createdAt := 0
  maxEntries_lt := by decide
  maxContinuationBytes_lt := by decide

def sampleTarget : AffinityTarget :=
  ⟨1, 2, .providerCredential 3, "model", .openAiResponses, .openAiResponses⟩

/-- One thread is about to store the session it has room for, and another has
stored a pending continuation meanwhile. -/
def sampleLabels : List (registry Bool sampleSettings).Label :=
  .start false (.beginSession .openAiResponses 1 "s" (seconds 60)) ::
    List.replicate 6 (.advance false []) ++
    .start true (.beginPending "c" sampleTarget (seconds 60) none) ::
    List.replicate 11 (.advance true []) ++ [.finish true]

/-- One entry is stored and another is still reserved; the counter covers both. -/
theorem run_accounts_reserved : ∃ config, Reaches sampleSettings sampleLabels config ∧
    config.state.entryCount = 2 ∧ (config.state.notes false).reserved = (1, 0) ∧
    config.state.entryCount = ∑ shard, (config.state.entries shard).entries.card +
      ∑ thread, (config.state.notes thread).reserved.1 ∧
    config.state.continuationBytes ≤ sampleSettings.maxContinuationBytes := by
  have hSample : (Machine.run sampleLabels (.initial (ShardedBindings.new Bool sampleSettings))).map
      (fun config => (config.state.entryCount, (config.state.notes false).reserved)) =
      some (2, (1, 0)) := by decide +kernel
  obtain ⟨config, hRun, hState⟩ := Option.map_eq_some_iff.mp hSample
  have hAccounts := run_accounts hRun
  exact ⟨config, hRun, congrArg Prod.fst hState, congrArg Prod.snd hState, hAccounts.1,
    hAccounts.2.2.2.2.1⟩

end Any2Api.Runtime.Affinity
