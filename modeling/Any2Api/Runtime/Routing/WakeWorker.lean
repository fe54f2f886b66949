import Any2Api.Library.Runs
import Any2Api.Runtime.Routing.WakeSchedule

/-! The wake worker of the scheduler epoch. A change of the schedule is made
under its lock and published when the lock is free again, so the worker can read
the schedule and go to sleep in between. Draining ends the worker; from then on
nothing is scheduled and no worker is started. -/
namespace Any2Api.Runtime.Routing

open Runs SlotsByDeadline

variable {σ : Type*} [DecidableEq σ]

namespace WakeSchedule

variable {wakes : WakeSchedule σ} {slot : σ} {deadline : Instant}

theorem schedule_cases (wakes : WakeSchedule σ) (slot : σ) (deadline : Instant) :
    (wakes.schedule slot deadline).1 = true ∨ wakes.schedule slot deadline = (false, wakes) := by
  unfold WakeSchedule.schedule
  split
  · exact .inr rfl
  · exact .inl rfl

theorem cancel_cases (wakes : WakeSchedule σ) (slot : σ) :
    (wakes.cancel slot).1 = true ∨ wakes.cancel slot = (false, wakes) := by
  unfold WakeSchedule.cancel
  split
  · exact .inr rfl
  · exact .inl rfl

/-- The first deadline is not later than any other. -/
theorem nextDeadline_le (h : wakes.bySlot slot = some deadline) :
    ∃ first ≤ deadline, wakes.nextDeadline = some first := by
  obtain ⟨found, hFound, -⟩ := (wakes.agree slot deadline).mp h
  have hEntry := OrderedMap.get?_eq_some_iff.mp hFound
  have hSorted := wakes.byDeadline.sorted
  unfold nextDeadline
  cases hEntries : wakes.byDeadline.entries with
  | nil => simp [hEntries] at hEntry
  | cons first rest =>
    rw [hEntries] at hEntry hSorted
    refine ⟨first.1, ?_, rfl⟩
    rcases List.mem_cons.mp hEntry with rfl | hLater
    · exact le_rfl
    · exact ((List.pairwise_cons.mp hSorted).1 _ hLater).le

end WakeSchedule

/-- The worker sees a generation of the changes before it reads the schedule. -/
inductive WorkerPhase where
  | absent
  | looping
  | observed (generation : Nat)
  | waiting (generation : Nat) (next : Option Instant)
  | advancing
  deriving DecidableEq

structure WakeWorker (σ : Type*) [DecidableEq σ] where
  /-- The lifecycle is in the phase `Running`. -/
  running : Bool
  current : Nat
  schedule : WakeSchedule σ
  generation : Nat
  phase : WorkerPhase
  /-- Changes by `schedule` and by `cancel` of which the worker is not notified. -/
  scheduled : Nat
  cancelled : Nat
  /-- Callers of `schedule` that have notified the worker and still ensure it. -/
  ensuring : Nat

inductive WorkerLabel (σ : Type*) where
  | beginDraining
  | cancelWorker
  | prepareSchedule (slot : σ) (deadline : Instant)
  | prepareCancellation (slot : σ)
  | notifySchedule
  | notifyCancellation
  | ensureWakeWorker
  | observe
  | read
  | notice
  | wake (now : Instant)
  | advance

namespace WakeWorker

def initial : WakeWorker σ := ⟨true, 0, .empty, 0, .absent, 0, 0, 0⟩

variable (state : WakeWorker σ)

def step : WorkerLabel σ → Option (WakeWorker σ)
  | .beginDraining => some { state with running := false }
  | .cancelWorker => if state.running then none else some { state with phase := .absent }
  | .prepareSchedule slot deadline =>
    if state.running then
      some { state with
        schedule := (state.schedule.schedule slot deadline).2
        scheduled := state.scheduled + (state.schedule.schedule slot deadline).1.toNat }
    else some state
  | .prepareCancellation slot => some { state with
      schedule := (state.schedule.cancel slot).2
      cancelled := state.cancelled + (state.schedule.cancel slot).1.toNat }
  | .notifySchedule =>
    if 0 < state.scheduled then
      some { state with
        generation := state.generation + 1
        scheduled := state.scheduled - 1, ensuring := state.ensuring + 1 }
    else none
  | .notifyCancellation =>
    if 0 < state.cancelled then
      some { state with generation := state.generation + 1, cancelled := state.cancelled - 1 }
    else none
  | .ensureWakeWorker =>
    if 0 < state.ensuring then
      some { state with
        ensuring := state.ensuring - 1
        phase := if state.running ∧ state.phase = .absent then .looping else state.phase }
    else none
  | .observe =>
    if state.phase = .looping then some { state with phase := .observed state.generation } else none
  | .read =>
    match state.phase with
    | .observed generation =>
      some { state with phase := .waiting generation state.schedule.nextDeadline }
    | _ => none
  | .notice =>
    match state.phase with
    | .waiting generation _ =>
      if generation = state.generation then none else some { state with phase := .looping }
    | _ => none
  | .wake now =>
    match state.phase with
    | .waiting _ (some next) =>
      if next ≤ now then
        some { state with
          schedule := (state.schedule.removeDue now).2
          phase := if (state.schedule.removeDue now).1 then .advancing else .looping }
      else none
    | _ => none
  | .advance =>
    if state.phase = .advancing then
      some { state with current := state.current + 1, phase := .looping }
    else none

/-- A change that the worker has not read is still to be published, or newer than
the generation it has seen. -/
structure Informed : Prop where
  started : state.running = true → state.phase = .absent → ∀ slot deadline,
    state.schedule.bySlot slot = some deadline → 0 < state.scheduled + state.ensuring
  seen : ∀ generation, state.phase = .observed generation → generation ≤ state.generation
  read : ∀ generation next, state.phase = .waiting generation next →
    generation ≤ state.generation ∧ (generation = state.generation →
      state.scheduled + state.cancelled = 0 → next = state.schedule.nextDeadline)

variable {state} {after : WakeWorker σ} {label : WorkerLabel σ}

theorem Informed.initial : (initial : WakeWorker σ).Informed where
  started := fun _ _ _ _ h => by cases h
  seen := fun _ h => by cases h
  read := fun _ _ h => by cases h

/-- A worker that is going to look again has nothing to be told. -/
theorem Informed.of_phase (hPhase : state.phase = .looping ∨ state.phase = .advancing) :
    state.Informed := by
  rcases hPhase with hPhase | hPhase <;> constructor <;> simp [hPhase]

/-- Every change of the schedule is counted until it is published, and its publication makes the
generation newer than the one the worker has seen. -/
theorem Informed.step (h : state.Informed) (hStep : state.step label = some after) :
    after.Informed := by
  cases label with
  | beginDraining =>
    cases hStep
    exact ⟨by simp, h.seen, h.read⟩
  | cancelWorker =>
    obtain ⟨hDraining, hAfter⟩ := Option.ite_none_left_eq_some.mp hStep
    cases hAfter
    exact ⟨fun hRunning => absurd hRunning hDraining, by simp, by simp⟩
  | prepareSchedule slot deadline =>
    rw [WakeWorker.step] at hStep
    split_ifs at hStep <;> cases hStep
    · rcases state.schedule.schedule_cases slot deadline with hChanged | hSame
      · simp only [hChanged, Bool.toNat_true]
        refine ⟨fun _ _ _ _ _ => by dsimp only; omega, h.seen, fun generation next hPhase => ?_⟩
        exact ⟨(h.read generation next hPhase).1, fun _ hNone => by dsimp only at hNone; omega⟩
      · rw [hSame]
        exact h
    · exact h
  | prepareCancellation slot =>
    cases hStep
    rcases state.schedule.cancel_cases slot with hChanged | hSame
    · simp only [hChanged, Bool.toNat_true]
      refine ⟨fun hRunning hPhase other deadline hOther => ?_, h.seen,
        fun generation next hPhase => ?_⟩
      · rw [WakeSchedule.cancel_bySlot, Function.update_apply] at hOther
        exact h.started hRunning hPhase other deadline (Option.ite_none_left_eq_some.mp hOther).2
      · exact ⟨(h.read generation next hPhase).1, fun _ hNone => by dsimp only at hNone; omega⟩
    · rw [hSame]
      exact h
  | notifySchedule | notifyCancellation =>
    obtain ⟨-, hAfter⟩ := Option.ite_none_right_eq_some.mp hStep
    cases hAfter
    refine ⟨fun hRunning hPhase slot deadline hSlot => ?_, fun generation hPhase => ?_,
      fun generation next hPhase => ?_⟩
    · have hSome := h.started hRunning hPhase slot deadline hSlot
      dsimp only
      omega
    · exact Nat.le_succ_of_le (h.seen generation hPhase)
    · have hSeen := (h.read generation next hPhase).1
      exact ⟨Nat.le_succ_of_le hSeen, fun hSame => absurd hSame (Nat.lt_succ_of_le hSeen).ne⟩
  | ensureWakeWorker =>
    obtain ⟨-, hAfter⟩ := Option.ite_none_right_eq_some.mp hStep
    cases hAfter
    by_cases hStart : state.running = true ∧ state.phase = .absent
    · exact .of_phase (.inl (if_pos hStart))
    · simp only [if_neg hStart]
      exact ⟨fun hRunning hPhase => absurd ⟨hRunning, hPhase⟩ hStart, h.seen, h.read⟩
  | observe =>
    obtain ⟨-, hAfter⟩ := Option.ite_none_right_eq_some.mp hStep
    cases hAfter
    exact ⟨by simp, fun generation hPhase => (WorkerPhase.observed.inj hPhase).ge, by simp⟩
  | read =>
    rw [WakeWorker.step] at hStep
    split at hStep
    · next generation hPhase =>
        cases hStep
        refine ⟨by simp, by simp, fun seen next hWait => ?_⟩
        obtain ⟨rfl, rfl⟩ := WorkerPhase.waiting.inj hWait
        exact ⟨h.seen generation hPhase, fun _ _ => rfl⟩
    · cases hStep
  | notice =>
    rw [WakeWorker.step] at hStep
    split at hStep
    · obtain ⟨-, hAfter⟩ := Option.ite_none_left_eq_some.mp hStep
      cases hAfter
      exact .of_phase (.inl rfl)
    · cases hStep
  | wake now =>
    rw [WakeWorker.step] at hStep
    split at hStep
    · obtain ⟨-, hAfter⟩ := Option.ite_none_right_eq_some.mp hStep
      cases hAfter
      exact .of_phase (ite_eq_or_eq ..).symm
    · cases hStep
  | advance =>
    obtain ⟨-, hAfter⟩ := Option.ite_none_right_eq_some.mp hStep
    cases hAfter
    exact .of_phase (.inl rfl)

/-- A worker that waits for the first deadline wakes as soon as one is due. It
removes all that are due and goes on to advance the epoch. -/
theorem wake_of_due {seen : Nat} {slot : σ} {deadline now : Instant}
    (hPhase : state.phase = .waiting seen state.schedule.nextDeadline)
    (hSlot : state.schedule.bySlot slot = some deadline) (hDue : deadline ≤ now) :
    ∃ after, state.step (.wake now) = some after ∧ after.phase = .advancing ∧
      ∀ slot deadline, after.schedule.bySlot slot = some deadline → now < deadline := by
  obtain ⟨first, hFirst, hNext⟩ := WakeSchedule.nextDeadline_le hSlot
  refine ⟨{ state with schedule := (state.schedule.removeDue now).2, phase := .advancing }, ?_, rfl,
    fun other found hOther => (WakeSchedule.removeDue_bySlot.mp hOther).1⟩
  simp [WakeWorker.step, hPhase, hNext, hFirst.trans hDue, WakeSchedule.removeDue_fst hSlot hDue]

/-- No wake-up is lost while the process is running, whatever the order of changes, publications
and steps of the worker. When everything is published and a slot has a deadline, the worker
has been started, and if it waits with all changes seen, it waits for a deadline
that is not later and wakes when that of the slot has passed. -/
theorem run_wake_worker (labels : List (WorkerLabel σ)) (state : WakeWorker σ)
    (hRun : run step labels initial = some state) (hRunning : state.running = true) (slot : σ)
    (deadline : Instant) (hSlot : state.schedule.bySlot slot = some deadline)
    (hPublished : state.scheduled + state.cancelled + state.ensuring = 0) :
    state.phase ≠ .absent ∧
    ∀ next, state.phase = .waiting state.generation next →
      (∃ first ≤ deadline, next = some first) ∧
      ∀ now, deadline ≤ now → ∃ after, state.step (.wake now) = some after ∧
        after.phase = .advancing ∧
        ∀ slot deadline, after.schedule.bySlot slot = some deadline → now < deadline := by
  have h : state.Informed :=
    invariant_of_run (fun _ _ _ h hStep => h.step hStep) Informed.initial hRun
  refine ⟨fun hAbsent => ?_, fun next hWait => ?_⟩
  · exact absurd (h.started hRunning hAbsent slot deadline hSlot) (by omega)
  · have hNext : next = state.schedule.nextDeadline := (h.read _ next hWait).2 rfl (by omega)
    subst hNext
    exact ⟨WakeSchedule.nextDeadline_le hSlot, fun now => wake_of_due hWait hSlot⟩

/-- The second deadline is earlier than the one the worker waits for. -/
def sampleWakes : List (WorkerLabel Nat) :=
  [.prepareSchedule 0 7, .notifySchedule, .ensureWakeWorker, .observe, .read,
    .prepareSchedule 1 5, .notifySchedule, .ensureWakeWorker, .notice, .observe, .read]

/-- The worker waits for the entry scheduled last and advances once it is due. -/
theorem run_wake_worker_sample : ∃ state : WakeWorker Nat,
    run step sampleWakes initial = some state ∧ state.schedule.bySlot 1 = some 5 ∧
      state.phase = .waiting state.generation (some 5) ∧
      ∃ after, state.step (.wake 6) = some after ∧ after.phase = .advancing := by
  have hRun : (run step sampleWakes initial).any (fun state =>
      state.running = true ∧ state.schedule.bySlot 1 = some 5 ∧
        state.scheduled + state.cancelled + state.ensuring = 0 ∧
        state.phase = .waiting state.generation (some 5)) = true := by decide +kernel
  obtain ⟨state, hRun, hState⟩ := (Option.any_eq_true ..).mp hRun
  obtain ⟨hRunning, hSlot, hPublished, hWait⟩ := of_decide_eq_true hState
  obtain ⟨-, hWakes⟩ := run_wake_worker sampleWakes state hRun hRunning 1 5 hSlot hPublished
  obtain ⟨after, hStep, hPhase, -⟩ := (hWakes _ hWait).2 6 (by decide)
  exact ⟨state, hRun, hSlot, hWait, after, hStep, hPhase⟩

end WakeWorker

end Any2Api.Runtime.Routing
