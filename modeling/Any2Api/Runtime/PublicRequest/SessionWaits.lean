import Any2Api.Library.EndlessRuns
import Any2Api.Runtime.PublicRequest.QueueWaits

/-! Session waiters among themselves: the clock stands still, no candidate becomes available,
and no one else changes the routing state. Every one of them holds a ticket of the queue, so that
it is not turned away because the queue is full, and its policy is to wait. Whether they come to
rest depends on how many there are, since every fruitless scan releases a lease and so advances
the epoch. -/
namespace Any2Api.Runtime.PublicRequest.Queue

open Runs Watch Routing

/-- A waiter holds the lease of the key. -/
def leased (queue : Queue) (key : Nat) : Bool :=
  queue.waiters.any fun waiter =>
    match waiter.phase with
    | .scanning _ => decide (waiter.kind = .session key)
    | _ => false

/-- What `begin_session` answers while no binding is committed. -/
def beginSession (queue : Queue) (key : Nat) : CheckResult :=
  if queue.leased key then .unavailable else .created

inductive RateLimitAction where
  | wait
  | reject
  deriving DecidableEq

/-- Why a scan finds no candidate. -/
inductive Shortage where
  | rateLimited
  | temporarilyUnavailable
  | retryDeferred
  deriving DecidableEq

/-- The policy of the queue, and what every request finds as long as nothing changes. -/
structure Scarcity where
  onRateLimited : RateLimitAction
  shortage : Nat → Shortage

/-- A request is rejected when the policy says so, but waits for a deferred retry always. -/
def Scarcity.waits (scarcity : Scarcity) (index : Nat) : Bool :=
  match scarcity.shortage index with
  | .rateLimited | .temporarilyUnavailable => decide (scarcity.onRateLimited = .wait)
  | .retryDeferred => true

/-- The steps of requests that have a ticket already. -/
def quiet (scarcity : Scarcity) (queue : Queue) : QueueLabel → Bool
  | .observe _ | .resume _ | .ensureQueueWait .. | .compare _ | .wake _ | .increment _
  | .publish _ => true
  | .scan index result => scarcity.waits index && decide (result = .unavailable)
  | .check index result =>
    match queue.waiters[index]? with
    | some ⟨.session key, _, _⟩ => decide (result = queue.beginSession key)
    | _ => false
  | .subscribe .. | .arrive _ | .wakeOtherwise _ | .leave _ | .change => false

def quietStep (scarcity : Scarcity) (queue : Queue) (label : QueueLabel) : Option Queue :=
  if quiet scarcity queue label then queue.step label else none

def isScan : QueueLabel → Bool
  | .scan .. => true
  | _ => false

/-- No advance runs. -/
structure Settled (epoch : SchedulerEpoch) : Prop where
  value : epoch.sender.value = epoch.current
  published : ∀ (index : Nat) (advance : Advance), epoch.advances[index]? = some advance →
    advance.published = true

/-- Every request has a ticket, is not rejected, and is about to begin a round of
`select_session`. -/
structure Entered (scarcity : Scarcity) (queue : Queue) : Prop where
  epoch : Settled queue.epoch
  waits : ∀ index < queue.waiters.length, scarcity.waits index = true
  waiters : ∀ (index : Nat) (waiter : Waiter), queue.waiters[index]? = some waiter →
    ∃ key receiver, waiter = ⟨.session key, some receiver, .observing⟩

/-- The epoch after a release of waiter `index` that nothing has interrupted. -/
def advanced (epoch : SchedulerEpoch) (index : Nat) : SchedulerEpoch where
  current := epoch.current + 1
  sender := ⟨epoch.current + 1, epoch.sender.version + 1⟩
  advances := epoch.advances ++ [⟨some index, some (epoch.current + 1), true⟩]

variable {scarcity : Scarcity} {queue next : Queue} {epoch : SchedulerEpoch}
  {waiters : List Waiter} {index other key : Nat} {waiter : Waiter} {receiver : Receiver}
  {check : Check}
  {label : QueueLabel} {later : Waiter} {base after : SchedulerEpoch} {position : Nat}
  {phase : WaiterPhase}

theorem Settled.advanced (h : Settled epoch) : Settled (advanced epoch index) := by
  refine ⟨rfl, fun position advance hAdvance => ?_⟩
  rcases Entries.getElem?_concat_eq_some.mp hAdvance with hOld | ⟨-, rfl⟩
  · exact h.published position advance hOld
  · rfl

/-- The epoch while the advance of a release of waiter `index` has only incremented it. -/
def incremented (epoch : SchedulerEpoch) (index : Nat) : SchedulerEpoch where
  current := epoch.current + 1
  sender := epoch.sender
  advances := epoch.advances ++ [⟨some index, some (epoch.current + 1), false⟩]

theorem increment_change :
    (epoch.change (some index)).increment epoch.advances.length =
      some (incremented epoch index) := by
  simp [SchedulerEpoch.change, SchedulerEpoch.increment, incremented]

theorem publish_incremented (h : Settled epoch) :
    (incremented epoch index).publish epoch.advances.length = some (advanced epoch index) := by
  simp [SchedulerEpoch.publish, incremented, advanced, Channel.sendIfModified, h.value]

theorem step_of_waiterStep (hTarget : target label = some index)
    (hWaiter : waiters[index]? = some waiter)
    (hLater : waiterStep epoch waiter label = some later) :
    step ⟨epoch, waiters⟩ label = some ⟨epoch, waiters.set index later⟩ := by
  have hBind : (do
      let index ← target label
      let waiter ← waiters[index]?
      some (Queue.set ⟨epoch, waiters⟩ index (← waiterStep epoch waiter label))) =
      some ⟨epoch, waiters.set index later⟩ := by
    simp only [hTarget, Option.bind_eq_bind, Option.bind_some, hWaiter, hLater, Queue.set]
  unfold step
  split
  next => cases hTarget
  next => cases hTarget
  next => cases hTarget
  next => cases hTarget
  next => cases hLater
  next => exact hBind

/-- A fruitless scan and the release that follows it, without an interruption. The waiter
blocks on the epoch of its own release. -/
theorem run_release (hSettled : Settled epoch) (hWaits : scarcity.waits index = true)
    (hObserved : check.observed = epoch.current)
    (hWaiter : waiters[index]? = some ⟨.session key, some receiver, .scanning check⟩) :
    run (quietStep scarcity)
      [.scan index .unavailable, .increment epoch.advances.length,
        .publish epoch.advances.length, .resume index,
        .ensureQueueWait index (epoch.sender.version + 1), .compare index] ⟨epoch, waiters⟩ =
      some ⟨advanced epoch index, waiters.set index
        ⟨.session key, some ⟨epoch.sender.version + 1⟩, .blocked check (epoch.current + 1)⟩⟩ := by
  have hLess := (List.getElem?_eq_some_iff.mp hWaiter).1
  have hSet (waiter : Waiter) : (waiters.set index waiter)[index]? = some waiter :=
    List.getElem?_set_self hLess
  have hScan : quietStep scarcity ⟨epoch, waiters⟩ (.scan index .unavailable) =
      some ⟨epoch.change (some index), waiters.set index
        ⟨.session key, some receiver, .releasing check epoch.advances.length⟩⟩ := by
    simp only [quietStep, quiet, hWaits, decide_true, Bool.and_self, if_true, step,
      Option.bind_eq_bind, Option.bind_some, hWaiter, Queue.set]
  have hIncrement (waiters : List Waiter) : quietStep scarcity
      ⟨epoch.change (some index), waiters⟩ (.increment epoch.advances.length) =
        some ⟨incremented epoch index, waiters⟩ := by
    simp only [quietStep, quiet, if_true, step, Option.bind_eq_bind, increment_change,
      Option.bind_some]
  have hPublish (waiters : List Waiter) : quietStep scarcity
      ⟨incremented epoch index, waiters⟩ (.publish epoch.advances.length) =
        some ⟨advanced epoch index, waiters⟩ := by
    simp only [quietStep, quiet, if_true, step, Option.bind_eq_bind, publish_incremented hSettled,
      Option.bind_some]
  have hResume : quietStep scarcity ⟨advanced epoch index, waiters.set index
      ⟨.session key, some receiver, .releasing check epoch.advances.length⟩⟩ (.resume index) =
      some ⟨advanced epoch index, waiters.set index
        ⟨.session key, some receiver, .released check (epoch.current + 1)⟩⟩ := by
    refine (if_pos rfl).trans ((step_of_waiterStep rfl (hSet _) ?_).trans (by rw [List.set_set]))
    simp [waiterStep, advanced]
  have hEnsure : quietStep scarcity ⟨advanced epoch index, waiters.set index
      ⟨.session key, some receiver, .released check (epoch.current + 1)⟩⟩
        (.ensureQueueWait index (epoch.sender.version + 1)) =
      some ⟨advanced epoch index, waiters.set index
        ⟨.session key, some receiver, .comparing check (epoch.current + 1)⟩⟩ :=
    (if_pos rfl).trans ((step_of_waiterStep rfl (hSet _) rfl).trans (by rw [List.set_set]))
  have hCompare : quietStep scarcity ⟨advanced epoch index, waiters.set index
      ⟨.session key, some receiver, .comparing check (epoch.current + 1)⟩⟩ (.compare index) =
      some ⟨advanced epoch index, waiters.set index ⟨.session key,
        some ⟨epoch.sender.version + 1⟩, .blocked check (epoch.current + 1)⟩⟩ := by
    refine (if_pos rfl).trans ((step_of_waiterStep rfl (hSet _) ?_).trans (by rw [List.set_set]))
    simp [waiterStep, compare, releaseObservedExternalChange, advanced, hObserved,
      Channel.borrowAndUpdate, Channel.subscribe]
  exact run_cons_iff.mpr ⟨_, hScan, run_cons_iff.mpr ⟨_, hIncrement _, run_cons_iff.mpr ⟨_,
    hPublish _, run_cons_iff.mpr ⟨_, hResume, run_cons_iff.mpr ⟨_, hEnsure, run_cons_iff.mpr ⟨_,
    hCompare, rfl⟩⟩⟩⟩⟩⟩

/-- No waiter other than `index` holds a lease. -/
def Unleased (waiters : List Waiter) (index : Nat) : Prop :=
  ∀ (position : Nat) (waiter : Waiter), waiters[position]? = some waiter → position ≠ index →
    ∀ check, waiter.phase ≠ .scanning check

theorem Unleased.set (h : Unleased waiters index) (waiter : Waiter) :
    Unleased (waiters.set index waiter) index := by
  intro position found hFound hPosition
  rw [List.getElem?_set_ne hPosition.symm] at hFound
  exact h position found hFound hPosition

/-- Once the holder has given up its lease, any waiter may be the next one. -/
theorem Unleased.change (h : Unleased waiters index)
    (hPhase : ∀ check, waiter.phase ≠ .scanning check)
    (other : Nat) : Unleased (waiters.set index waiter) other := by
  intro position found hFound _
  rcases Entries.getElem?_set_eq_some.mp hFound with ⟨hPosition, hOld⟩ | ⟨-, -, rfl⟩
  · exact h position found hOld hPosition
  · exact hPhase

theorem Unleased.beginSession (h : Unleased waiters index)
    (hWaiter : waiters[index]? = some waiter) (hPhase : ∀ check, waiter.phase ≠ .scanning check) :
    Queue.beginSession ⟨epoch, waiters⟩ key = .created := by
  refine if_neg ?_
  simp only [leased, List.any_eq_true, not_exists, not_and]
  intro found hFound
  obtain ⟨position, hPosition⟩ := List.mem_iff_getElem?.mp hFound
  have hNot : ∀ check, found.phase ≠ .scanning check := by
    by_cases hSame : position = index
    · subst hSame
      rw [← Option.some.inj (hWaiter.symm.trans hPosition)]
      exact hPhase
    · exact h position found hPosition hSame
  split
  next check hScanning => exact absurd hScanning (hNot check)
  next => simp

/-- A waiter at the head of its loop takes the lease of its key. -/
theorem run_lease (scarcity : Scarcity) (hSettled : Settled epoch)
    (hUnleased : Unleased waiters index)
    (hWaiter : waiters[index]? = some ⟨.session key, some receiver, .observing⟩) :
    run (quietStep scarcity) [.observe index, .check index .created] ⟨epoch, waiters⟩ =
      some ⟨epoch, waiters.set index ⟨.session key, some epoch.sender.subscribe,
        .scanning ⟨epoch.current, epoch.advances.length⟩⟩⟩ := by
  have hLess := (List.getElem?_eq_some_iff.mp hWaiter).1
  generalize hChecking : Waiter.mk (.session key) (some epoch.sender.subscribe)
    (.checking ⟨epoch.current, epoch.advances.length⟩) = checking
  have hObserve : quietStep scarcity ⟨epoch, waiters⟩ (.observe index) =
      some ⟨epoch, waiters.set index checking⟩ := by
    refine (if_pos rfl).trans (step_of_waiterStep rfl hWaiter ?_)
    rw [← hChecking, ← hSettled.value]
    rfl
  have hSet : (waiters.set index checking)[index]? = some checking :=
    List.getElem?_set_self hLess
  have hCheck : quietStep scarcity ⟨epoch, waiters.set index checking⟩ (.check index .created) =
      some ⟨epoch, waiters.set index ⟨.session key, some epoch.sender.subscribe,
        .scanning ⟨epoch.current, epoch.advances.length⟩⟩⟩ := by
    subst hChecking
    refine (if_pos ?_).trans ((step_of_waiterStep rfl hSet rfl).trans (by rw [List.set_set]))
    simp only [quiet, hSet, (hUnleased.set _).beginSession hSet (fun _ => nofun), decide_true]
  exact run_cons_iff.mpr ⟨_, hObserve, run_cons_iff.mpr ⟨_, hCheck, rfl⟩⟩

/-- The waiter is at the head of its loop or blocked, and has not seen more than is
published. -/
def Waits (version : Nat) (waiter : Waiter) : Prop :=
  ∃ key receiver, waiter = ⟨.session key, some receiver, .observing⟩ ∨
    ∃ check observed, receiver.seen ≤ version ∧
      waiter = ⟨.session key, some receiver, .blocked check observed⟩

/-- The release of another waiter takes a waiting one to the head of its loop. -/
theorem run_wake (scarcity : Scarcity) (other : Nat) (hWaits : Waits epoch.sender.version waiter)
    (hWaiter : waiters[index]? = some waiter) :
    ∃ labels key receiver, run (quietStep scarcity) labels ⟨advanced epoch other, waiters⟩ =
      some ⟨advanced epoch other, waiters.set index ⟨.session key, some receiver, .observing⟩⟩ := by
  obtain ⟨key, receiver, rfl | ⟨check, observed, hSeen, rfl⟩⟩ := hWaits
  · refine ⟨[], key, receiver, ?_⟩
    obtain ⟨hLess, hSame⟩ := List.getElem?_eq_some_iff.mp hWaiter
    rw [← hSame, List.set_getElem_self]
    rfl
  · refine ⟨[.wake index], key, (advanced epoch other).sender.subscribe,
      run_cons_iff.mpr ⟨_, (if_pos rfl).trans (step_of_waiterStep rfl hWaiter ?_), rfl⟩⟩
    refine if_pos (decide_eq_true ?_)
    simp only [advanced]
    omega

/-- One waiter is about to scan and another one waits. -/
structure Alternates (scarcity : Scarcity) (index other : Nat) (queue : Queue) : Prop where
  epoch : Settled queue.epoch
  distinct : index ≠ other
  waits : scarcity.waits index = true ∧ scarcity.waits other = true
  unleased : Unleased queue.waiters index
  scanning : ∃ key receiver check, check.observed = queue.epoch.current ∧
    queue.waiters[index]? = some ⟨.session key, some receiver, .scanning check⟩
  waiting : ∃ waiter, Waits queue.epoch.sender.version waiter ∧ queue.waiters[other]? = some waiter

/-- The scan of the one makes the other one scan. -/
theorem Alternates.round (h : Alternates scarcity index other queue) :
    ∃ labels next, run (quietStep scarcity) (.scan index .unavailable :: labels) queue = some next ∧
      Alternates scarcity other index next := by
  obtain ⟨epoch, waiters⟩ := queue
  obtain ⟨key, receiver, check, hObserved, hScanning⟩ := h.scanning
  obtain ⟨waiter, hWaits, hWaiting⟩ := h.waiting
  have hRelease := run_release h.epoch h.waits.1 hObserved hScanning
  generalize hBlocked : Waiter.mk (.session key) (some ⟨epoch.sender.version + 1⟩)
    (.blocked check (epoch.current + 1)) = blocked at hRelease
  have hUnleased : Unleased (waiters.set index blocked) other :=
    h.unleased.change (by subst hBlocked; exact fun _ => nofun) other
  have hStill : (waiters.set index blocked)[other]? = some waiter := by
    rw [List.getElem?_set_ne h.distinct]
    exact hWaiting
  obtain ⟨wakes, otherKey, otherReceiver, hWake⟩ := run_wake scarcity index hWaits hStill
  have hLess := (List.getElem?_eq_some_iff.mp hStill).1
  have hAdvanced : Settled (advanced epoch index) := h.epoch.advanced
  have hLease := run_lease scarcity hAdvanced (hUnleased.set _)
    (List.getElem?_set_self (a := ⟨.session otherKey, some otherReceiver, .observing⟩) hLess)
  refine ⟨_, _, run_append_iff.mpr ⟨_, hRelease, run_append_iff.mpr ⟨_, hWake, hLease⟩⟩, ?_⟩
  rw [List.set_set]
  refine ⟨hAdvanced, h.distinct.symm, h.waits.symm, hUnleased.set _,
    ⟨otherKey, _, _, rfl, List.getElem?_set_self hLess⟩, blocked, ?_, ?_⟩
  · exact ⟨key, _, .inr ⟨check, _, le_rfl, hBlocked.symm⟩⟩
  · rw [List.getElem?_set_ne h.distinct.symm,
      List.getElem?_set_self (List.getElem?_eq_some_iff.mp hScanning).1]

/-- Two requests keep each other scanning. -/
theorem Entered.exists_endless (h : queue.Entered scarcity) (hMany : 1 < queue.waiters.length) :
    ∃ states labels, Endless (quietStep scarcity) states labels ∧ states 0 = queue ∧
      {n | isScan (labels n) = true}.Infinite := by
  obtain ⟨epoch, waiters⟩ := queue
  have hSome := Nat.zero_lt_of_lt hMany
  obtain ⟨key, receiver, hFirst⟩ := h.waiters 0 _ (List.getElem?_eq_getElem hSome)
  obtain ⟨otherKey, otherReceiver, hSecond⟩ := h.waiters 1 _ (List.getElem?_eq_getElem hMany)
  have hFree : Unleased waiters 0 := fun position waiter hWaiter _ check => by
    obtain ⟨_, _, rfl⟩ := h.waiters position waiter hWaiter
    exact nofun
  have hLease := run_lease scarcity h.epoch hFree
    ((List.getElem?_eq_getElem hSome).trans (congrArg some hFirst))
  refine Runs.exists_endless (isScan · = true)
    (fun queue => ∃ index other, Alternates scarcity index other queue) (fun queue hQueue => ?_)
    hLease ⟨0, 1, h.epoch, Nat.zero_ne_one, ⟨h.waits 0 hSome, h.waits 1 hMany⟩, hFree.set _,
      ⟨key, _, _, rfl, List.getElem?_set_self hSome⟩, _, ⟨otherKey, otherReceiver, .inl rfl⟩, ?_⟩
  · obtain ⟨index, other, hAlternates⟩ := hQueue
    obtain ⟨labels, next, hRun, hNext⟩ := hAlternates.round
    exact ⟨_, labels, next, rfl, hRun, other, index, hNext⟩
  · rw [List.getElem?_set_ne Nat.zero_ne_one]
    exact (List.getElem?_eq_getElem hMany).trans (congrArg some hSecond)

theorem Settled.increment_eq_none (h : Settled epoch) (position : Nat) :
    epoch.increment position = none := by
  refine Option.eq_none_iff_forall_ne_some.mpr fun after hAfter => ?_
  obtain ⟨author, hAdvance, -⟩ := SchedulerEpoch.increment_cases hAfter
  exact Bool.false_ne_true (h.published position _ hAdvance)

theorem Settled.publish_eq_none (h : Settled epoch) (position : Nat) :
    epoch.publish position = none := by
  refine Option.eq_none_iff_forall_ne_some.mpr fun after hAfter => ?_
  obtain ⟨author, released, hAdvance, -⟩ := SchedulerEpoch.publish_cases hAfter
  exact Bool.false_ne_true (h.published position _ hAdvance)

/-- The stages of the only advance that runs: it has not incremented the epoch, it has, or it
has published it as well. -/
def Advancing (base : SchedulerEpoch) (index : Nat) (epoch : SchedulerEpoch) : Prop :=
  epoch = base.change (some index) ∨ epoch = incremented base index ∨ epoch = advanced base index

theorem Advancing.increment (hBase : Settled base)
    (h : Advancing base index epoch) (hAfter : epoch.increment position = some after) :
    Advancing base index after := by
  rcases h with rfl | rfl | rfl
  · obtain ⟨author, hAdvance, -⟩ := SchedulerEpoch.increment_cases hAfter
    rcases Entries.getElem?_concat_eq_some.mp hAdvance with hOld | ⟨rfl, -⟩
    · exact absurd (hBase.published position _ hOld) Bool.false_ne_true
    · exact .inr (.inl (Option.some.inj (hAfter.symm.trans increment_change)))
  · obtain ⟨author, hAdvance, -⟩ := SchedulerEpoch.increment_cases hAfter
    rcases Entries.getElem?_concat_eq_some.mp hAdvance with hOld | ⟨-, hNew⟩
    · exact absurd (hBase.published position _ hOld) Bool.false_ne_true
    · cases hNew
  · rw [hBase.advanced.increment_eq_none] at hAfter
    cases hAfter

theorem Advancing.publish (hBase : Settled base)
    (h : Advancing base index epoch) (hAfter : epoch.publish position = some after) :
    Advancing base index after := by
  rcases h with rfl | rfl | rfl
  · obtain ⟨author, released, hAdvance, -⟩ := SchedulerEpoch.publish_cases hAfter
    rcases Entries.getElem?_concat_eq_some.mp hAdvance with hOld | ⟨-, hNew⟩
    · exact absurd (hBase.published position _ hOld) Bool.false_ne_true
    · cases hNew
  · obtain ⟨author, released, hAdvance, -⟩ := SchedulerEpoch.publish_cases hAfter
    rcases Entries.getElem?_concat_eq_some.mp hAdvance with hOld | ⟨rfl, -⟩
    · exact absurd (hBase.published position _ hOld) Bool.false_ne_true
    · exact .inr (.inr (Option.some.inj (hAfter.symm.trans (publish_incremented hBase))))
  · rw [hBase.advanced.publish_eq_none] at hAfter
    cases hAfter

/-- A waiter without company: nobody but itself moves the epoch, so that it recognises its
own advance. -/
def Alone (epoch : SchedulerEpoch) (waiter : Waiter) : Prop :=
  match waiter.phase with
  | .observing => Settled epoch
  | .checking check | .scanning check => Settled epoch ∧ check.observed = epoch.current
  | .releasing check position => ∃ base index, Settled base ∧ check.observed = base.current ∧
      position = base.advances.length ∧ Advancing base index epoch
  | .released check released | .comparing check released =>
    Settled epoch ∧ released = check.observed + 1 ∧ released = epoch.current
  | .blocked _ _ => Settled epoch ∧ waiter.receiver = some epoch.sender.subscribe
  | .subscribing | .finished => False

/-- How often a waiter without company still scans. -/
def scansLeft : WaiterPhase → Nat
  | .observing | .checking _ | .scanning _ => 1
  | _ => 0

theorem Alone.advance {after : SchedulerEpoch} (h : Alone epoch waiter)
    (hAfter : epoch.increment position = some after ∨ epoch.publish position = some after) :
    Alone after waiter := by
  have hMoving : ¬Settled epoch := fun hSettled => by
    rw [hSettled.increment_eq_none, hSettled.publish_eq_none] at hAfter
    rcases hAfter with h | h <;> cases h
  obtain ⟨kind, receiver, phase⟩ := waiter
  cases phase with
  | subscribing => exact h.elim
  | observing => exact absurd h hMoving
  | checking check | scanning check => exact absurd h.1 hMoving
  | releasing check position =>
    obtain ⟨base, index, hBase, hObserved, hPosition, hAdvancing⟩ := h
    refine ⟨base, index, hBase, hObserved, hPosition, ?_⟩
    rcases hAfter with hAfter | hAfter
    · exact hAdvancing.increment hBase hAfter
    · exact hAdvancing.publish hBase hAfter
  | released check released | comparing check released | blocked check observed =>
    exact absurd h.1 hMoving
  | finished => exact h.elim

theorem Alone.resume {position released : Nat} {author : Option Nat}
    (h : Alone epoch ⟨.session key, some receiver, .releasing check position⟩)
    (hAdvance : epoch.advances[position]? = some ⟨author, some released, true⟩) :
    Alone epoch ⟨.session key, some receiver, .released check released⟩ := by
  obtain ⟨base, index, hBase, hObserved, rfl, rfl | rfl | rfl⟩ := h
  · simp [SchedulerEpoch.change] at hAdvance
  · simp [incremented] at hAdvance
  · have hReleased : base.current + 1 = released := by
      have hSame : some index = author ∧ base.current + 1 = released := by
        simpa [advanced] using hAdvance
      exact hSame.2
    exact ⟨hBase.advanced, hObserved ▸ hReleased.symm, hReleased.symm⟩

theorem Alone.compare {released : Nat}
    (h : Alone epoch ⟨.session key, some receiver, .comparing check released⟩)
    (hLater : Queue.compare epoch ⟨.session key, some receiver, .comparing check released⟩ check
      released = some later) :
    (∃ subscribed reached, later = ⟨.session key, some subscribed, reached⟩) ∧
      Alone epoch later ∧ scansLeft later.phase = 0 := by
  obtain ⟨hSettled, hReleased, hCurrent⟩ := h
  cases hLater
  have hOwn : releaseObservedExternalChange epoch.sender.value check.observed released = false := by
    simp [releaseObservedExternalChange, hReleased, hSettled.value, ← hCurrent]
  simp only [hOwn]
  exact ⟨⟨_, _, rfl⟩, ⟨hSettled, rfl⟩, rfl⟩

theorem Alone.waiterStep (h : Alone epoch ⟨.session key, some receiver, phase⟩)
    (hCheck : ∀ index result, label = .check index result → result = .created)
    (hScan : ∀ index result, label = .scan index result → result = .unavailable)
    (hLeave : ∀ index, label ≠ .leave index ∧ label ≠ .wakeOtherwise index)
    (hLater : Queue.waiterStep epoch ⟨.session key, some receiver, phase⟩ label = some later) :
    (∃ subscribed reached, later = ⟨.session key, some subscribed, reached⟩) ∧
      Alone epoch later ∧ scansLeft later.phase ≤ scansLeft phase := by
  cases label
  case scan index result =>
    rw [hScan index result rfl] at hLater
    cases hLater
  case wakeOtherwise index => exact absurd rfl (hLeave index).2
  case leave index => exact absurd rfl (hLeave index).1
  all_goals cases phase <;> try cases hLater
  case subscribe.subscribing => exact h.elim
  case observe.observing => exact ⟨⟨_, _, rfl⟩, ⟨h, h.value⟩, le_rfl⟩
  case check.checking index result check =>
    rw [hCheck index result rfl] at hLater
    exact Option.some.inj hLater ▸ ⟨⟨_, _, rfl⟩, h, le_rfl⟩
  case resume.releasing check position =>
    unfold Queue.waiterStep at hLater
    dsimp only at hLater
    split at hLater
    next author released hAdvance =>
      exact Option.some.inj hLater ▸ ⟨⟨_, _, rfl⟩, h.resume hAdvance, le_rfl⟩
    next => cases hLater
  case ensureQueueWait.released check released => exact ⟨⟨_, _, rfl⟩, h, le_rfl⟩
  case compare.comparing check released =>
    obtain ⟨hForm, hAlone, hLeft⟩ := h.compare rfl
    exact ⟨hForm, hAlone, hLeft.le⟩
  case wake.blocked check observed =>
    -- It has seen the current version.
    obtain ⟨hChanged, -⟩ := Option.ite_none_right_eq_some.mp hLater
    rw [show some receiver = _ from h.2] at hChanged
    simp [Channel.hasChanged, Channel.subscribe] at hChanged

/-- At most one waiter, without company. -/
def Lone (queue : Queue) : Prop :=
  queue.waiters = [] ∧ Settled queue.epoch ∨
    ∃ key receiver phase, queue.waiters = [⟨.session key, some receiver, phase⟩] ∧
      Alone queue.epoch ⟨.session key, some receiver, phase⟩

/-- The bound on the scans that `queue` still makes. -/
def potential (queue : Queue) : Nat := (queue.waiters.map (scansLeft ·.phase)).sum

theorem quiet_check {result : CheckResult}
    (hWaiters : queue.waiters = [⟨.session key, some receiver, phase⟩])
    (hPhase : ∀ check, phase ≠ .scanning check)
    (h : quiet scarcity queue (.check index result) = true) : result = .created := by
  obtain ⟨epoch, waiters⟩ := queue
  dsimp only at hWaiters
  subst hWaiters
  have hUnleased : Unleased [⟨.session key, some receiver, phase⟩] 0 := by
    rintro (_ | position) waiter hWaiter hPosition
    · exact absurd rfl hPosition
    · cases hWaiter
  cases index with
  | zero => exact (of_decide_eq_true h).trans (hUnleased.beginSession rfl hPhase)
  | succ index => cases h

/-- A step of a lone waiter. It scans at most once, and then waits. -/
theorem Lone.step (h : queue.Lone) (hStep : quietStep scarcity queue label = some next) :
    next.Lone ∧ next.potential + (if isScan label then 1 else 0) ≤ queue.potential := by
  obtain ⟨hQuiet, hStep⟩ := Option.ite_none_right_eq_some.mp hStep
  obtain ⟨epoch, waiters⟩ := queue
  rcases h with ⟨rfl, hSettled⟩ | ⟨key, receiver, phase, rfl, hAlone⟩
  · cases steps_of_step hStep with
    | arrive | change => cases hQuiet
    | increment hAfter =>
      rw [hSettled.increment_eq_none] at hAfter
      cases hAfter
    | publish hAfter =>
      rw [hSettled.publish_eq_none] at hAfter
      cases hAfter
    | release hWaiter | waiterStep hWaiter => cases hWaiter
  · have hOnly : ∀ (index : Nat) (waiter : Waiter),
        [(⟨.session key, some receiver, phase⟩ : Waiter)][index]? = some waiter →
          index = 0 ∧ waiter = ⟨.session key, some receiver, phase⟩ := by
      rintro (_ | index) waiter hWaiter
      · exact ⟨rfl, (Option.some.inj hWaiter).symm⟩
      · cases hWaiter
    cases steps_of_step hStep with
    | arrive | change => cases hQuiet
    | increment hAfter =>
      exact ⟨.inr ⟨key, receiver, phase, rfl, hAlone.advance (.inl hAfter)⟩, le_rfl⟩
    | publish hAfter =>
      exact ⟨.inr ⟨key, receiver, phase, rfl, hAlone.advance (.inr hAfter)⟩, le_rfl⟩
    | release hWaiter hPhase =>
      obtain ⟨rfl, rfl⟩ := hOnly _ _ hWaiter
      subst hPhase
      exact ⟨.inr ⟨key, receiver, _, rfl, epoch, 0, hAlone.1, hAlone.2, rfl, .inl rfl⟩, le_rfl⟩
    | @waiterStep _ _ _ later hWaiter hLater =>
      obtain ⟨rfl, rfl⟩ := hOnly _ _ hWaiter
      have hScan : ∀ index result, label = .scan index result → result = .unavailable := by
        rintro index result rfl
        exact of_decide_eq_true (Bool.and_eq_true_iff.mp hQuiet).2
      have hNoScan : isScan label = false := by
        cases label with
        | scan index result =>
          rw [hScan index result rfl] at hLater
          cases hLater
        | _ => rfl
      have hCheck : ∀ index result, label = .check index result → result = .created := by
        rintro index result rfl
        refine quiet_check rfl (fun check hPhase => ?_) hQuiet
        rw [hPhase] at hLater
        cases hLater
      have hLeave : ∀ index, label ≠ .leave index ∧ label ≠ .wakeOtherwise index :=
        fun index => by constructor <;> rintro rfl <;> cases hQuiet
      obtain ⟨⟨subscribed, reached, rfl⟩, hLone, hLeft⟩ :=
        hAlone.waiterStep hCheck hScan hLeave hLater
      refine ⟨.inr ⟨key, subscribed, reached, rfl, hLone⟩, ?_⟩
      simpa [hNoScan, potential, Queue.set] using hLeft

theorem Entered.lone (h : queue.Entered scarcity) (hFew : queue.waiters.length ≤ 1) :
    queue.Lone := by
  obtain ⟨epoch, waiters⟩ := queue
  match waiters, hFew with
  | [], _ => exact .inl ⟨rfl, h.epoch⟩
  | [waiter], _ =>
    obtain ⟨key, receiver, rfl⟩ := h.waiters 0 waiter rfl
    exact .inr ⟨key, receiver, .observing, rfl, h.epoch⟩

theorem Lone.run_scans {labels : List QueueLabel} (h : queue.Lone)
    (hRun : run (quietStep scarcity) labels queue = some next) :
    next.potential + labels.countP isScan ≤ queue.potential := by
  induction labels generalizing queue with
  | nil =>
    rw [← Option.some.inj hRun]
    exact le_rfl
  | cons label labels ih =>
    obtain ⟨middle, hStep, hRest⟩ := run_cons_iff.mp hRun
    obtain ⟨hMiddle, hDrop⟩ := h.step hStep
    have hScans := ih hMiddle hRest
    rw [List.countP_cons]
    omega

/-- In every interleaving the requests make finitely many scans. -/
def ScansFinitely (scarcity : Scarcity) (queue : Queue) : Prop :=
  (∃ bound, ∀ labels final, run (quietStep scarcity) labels queue = some final →
    labels.countP isScan ≤ bound) ∧
  ∀ states labels, Endless (quietStep scarcity) states labels → states 0 = queue →
    {n | isScan (labels n) = true}.Finite

/-- Requests that hold tickets and are not rejected come to rest if and only if there is at most
one of them: two or more can keep each other scanning for ever, with the clock standing still and
no change from outside. -/
theorem scansFinitely_iff (h : queue.Entered scarcity) :
    queue.ScansFinitely scarcity ↔ queue.waiters.length ≤ 1 := by
  constructor
  · intro hFinite
    by_contra hMany
    obtain ⟨states, labels, hEndless, hStart, hInfinite⟩ :=
      h.exists_endless (Nat.lt_of_not_le hMany)
    exact hInfinite (hFinite.2 states labels hEndless hStart)
  · intro hFew
    refine ⟨⟨queue.potential, fun labels final hRun =>
      (Nat.le_add_left ..).trans ((h.lone hFew).run_scans hRun)⟩, ?_⟩
    intro states labels hEndless hStart
    have hLone : ∀ n, (states n).Lone :=
      hEndless.invariant (fun _ _ _ hLone hStep => (hLone.step hStep).1) (hStart ▸ h.lone hFew)
    have hStep (n : Nat) := ((hLone n).step (hEndless n)).2
    refine finite_of_potential (isScan · = true) potential
      (fun n => (Nat.le_add_right ..).trans (hStep n)) fun n hScan => ?_
    have hDrop := hStep n
    rw [if_pos hScan] at hDrop
    exact hDrop

/-- All candidates are rate limited, and the policy is to wait. -/
def rateLimitedWait : Scarcity := ⟨.wait, fun _ => .rateLimited⟩

/-- A lone waiter of a session scans finitely often. -/
theorem scansFinitely_one :
    ScansFinitely rateLimitedWait ⟨SchedulerEpoch.new, [⟨.session 0, some ⟨0⟩, .observing⟩]⟩ := by
  refine (scansFinitely_iff ⟨⟨rfl, by simp [SchedulerEpoch.new]⟩, fun _ _ => rfl, ?_⟩).mpr le_rfl
  rintro (_ | index) waiter hWaiter
  · exact ⟨0, ⟨0⟩, (Option.some.inj hWaiter).symm⟩
  · cases hWaiter

theorem entered_two (first second : Nat) :
    Entered rateLimitedWait ⟨SchedulerEpoch.new,
      [⟨.session first, some ⟨0⟩, .observing⟩, ⟨.session second, some ⟨0⟩, .observing⟩]⟩ := by
  refine ⟨⟨rfl, by simp [SchedulerEpoch.new]⟩, fun _ _ => rfl, ?_⟩
  rintro (_ | _ | index) waiter hWaiter
  · exact ⟨first, ⟨0⟩, (Option.some.inj hWaiter).symm⟩
  · exact ⟨second, ⟨0⟩, (Option.some.inj hWaiter).symm⟩
  · cases hWaiter

/-- Two requests scan for ever, be it for two sessions or for the same one. -/
theorem two_requests_scan_for_ever :
    (∃ states labels, Endless (quietStep rateLimitedWait) states labels ∧
      states 0 = ⟨SchedulerEpoch.new,
        [⟨.session 0, some ⟨0⟩, .observing⟩, ⟨.session 1, some ⟨0⟩, .observing⟩]⟩ ∧
      {n | isScan (labels n) = true}.Infinite) ∧
    ∃ states labels, Endless (quietStep rateLimitedWait) states labels ∧
      states 0 = ⟨SchedulerEpoch.new,
        [⟨.session 0, some ⟨0⟩, .observing⟩, ⟨.session 0, some ⟨0⟩, .observing⟩]⟩ ∧
      {n | isScan (labels n) = true}.Infinite :=
  ⟨(entered_two 0 1).exists_endless Nat.one_lt_two, (entered_two 0 0).exists_endless Nat.one_lt_two⟩

end Any2Api.Runtime.PublicRequest.Queue
