import Any2Api.Library.Runs
import Any2Api.Runtime.Routing.Epoch

/-! The loops in which requests wait for the epoch: for any candidate, for a fixed candidate,
and for a session. A session waiter that finds no candidate releases its lease, which
advances the epoch, and has to tell its own advance from those of others. -/
namespace Any2Api.Runtime.PublicRequest

open Runs Watch Routing

inductive WaiterKind where
  | generation
  | fixed
  | session (key : Nat)
  deriving DecidableEq

/-- A selection check: the epoch observed before it, and how many changes had taken effect. -/
structure Check where
  observed : Nat
  start : Nat
  deriving DecidableEq

inductive WaiterPhase where
  | subscribing
  /-- At the head of the loop. -/
  | observing
  /-- `try_select` of a waiter without a lease, or `begin_session`. -/
  | checking (check : Check)
  /-- `try_select` of a session waiter that holds the lease of its key. -/
  | scanning (check : Check)
  /-- The lease is released and its advance runs. -/
  | releasing (check : Check) (advance : Nat)
  /-- The release has returned an epoch. -/
  | released (check : Check) (epoch : Nat)
  /-- `release_observed_external_change` is next. -/
  | comparing (check : Check) (epoch : Nat)
  /-- Blocked on the channel, with the epoch last observed. -/
  | blocked (check : Check) (observed : Nat)
  | finished
  deriving DecidableEq

structure Waiter where
  kind : WaiterKind
  receiver : Option Receiver
  phase : WaiterPhase
  deriving DecidableEq

structure Queue where
  epoch : SchedulerEpoch
  waiters : List Waiter
  deriving DecidableEq

/-- What a check or a scan finds. -/
inductive CheckResult where
  /-- There is no candidate now, or another request creates the binding. -/
  | unavailable
  /-- The request has created the binding of its session. -/
  | created
  /-- The session is bound; the request goes on with its candidate. -/
  | bound
  /-- A candidate was acquired, or the request fails. -/
  | done
  deriving DecidableEq

inductive QueueLabel where
  /-- A request starts to wait. -/
  | arrive (kind : WaiterKind)
  /-- The receiver is a clone of that of the queue ticket, which may be old. -/
  | subscribe (waiter seen : Nat)
  | observe (waiter : Nat)
  | check (waiter : Nat) (result : CheckResult)
  | scan (waiter : Nat) (result : CheckResult)
  | resume (waiter : Nat)
  | ensureQueueWait (waiter seen : Nat)
  | compare (waiter : Nat)
  | wake (waiter : Nat)
  /-- A timer or the channel of a credential. -/
  | wakeOtherwise (waiter : Nat)
  /-- A timeout, an error, or the request is dropped. -/
  | leave (waiter : Nat)
  /-- A change from outside takes effect. -/
  | change
  | increment (advance : Nat)
  | publish (advance : Nat)
  deriving DecidableEq

namespace Queue

def new (epoch : SchedulerEpoch) : Queue := ⟨epoch, []⟩

def set (queue : Queue) (index : Nat) (waiter : Waiter) : Queue :=
  { queue with waiters := queue.waiters.set index waiter }

/-- A waiter for a candidate has checked once before it waits; a session waiter has not. -/
def firstPhase : WaiterKind → WaiterPhase
  | .generation | .fixed => .subscribing
  | .session _ => .observing

/-- Look at the epoch: on the channel if there is a subscription, else at the counter. -/
def observe (epoch : SchedulerEpoch) (waiter : Waiter) : Option Waiter :=
  let check (observed : Nat) : Check := ⟨observed, epoch.advances.length⟩
  match waiter.receiver, waiter.kind with
  | some receiver, _ =>
    let (observed, receiver) := epoch.sender.borrowAndUpdate receiver
    some { waiter with receiver := some receiver, phase := .checking (check observed) }
  | none, .session _ => some { waiter with phase := .checking (check epoch.current) }
  | none, _ => none

/-- After a check without a candidate. A session waiter that is not subscribed yet
subscribes and checks again. -/
def await (waiter : Waiter) (check : Check) : Waiter :=
  match waiter.receiver with
  | some _ => { waiter with phase := .blocked check check.observed }
  | none => { waiter with phase := .subscribing }

def finishCheck (waiter : Waiter) (check : Check) : CheckResult → Option Waiter
  | .unavailable => some (await waiter check)
  | .created =>
    match waiter.kind with
    | .session _ => some { waiter with phase := .scanning check }
    | _ => none
  | .bound =>
    match waiter.kind with
    | .session _ => some ⟨.fixed, none, .subscribing⟩
    | _ => none
  | .done => some { waiter with phase := .finished }

def releaseObservedExternalChange (current observed released : Nat) : Bool :=
  decide (observed + 1 ≠ released) || decide (released < current)

def compare (epoch : SchedulerEpoch) (waiter : Waiter) (check : Check) (released : Nat) :
    Option Waiter := do
  let receiver ← waiter.receiver
  let (current, receiver) := epoch.sender.borrowAndUpdate receiver
  let phase :=
    if releaseObservedExternalChange current check.observed released then .observing
    else .blocked check current
  some { waiter with receiver := some receiver, phase }

def subscribe (epoch : SchedulerEpoch) (seen : Nat) : Option Receiver :=
  if seen ≤ epoch.sender.version then some ⟨seen⟩ else none

/-- A step of one waiter that takes nothing but a look at the epoch. -/
def waiterStep (epoch : SchedulerEpoch) (waiter : Waiter) : QueueLabel → Option Waiter
  | .subscribe _ seen =>
    match waiter.phase with
    | .subscribing => do
        some { waiter with receiver := some (← subscribe epoch seen), phase := .observing }
    | _ => none
  | .observe _ =>
    match waiter.phase with
    | .observing => observe epoch waiter
    | _ => none
  | .check _ result =>
    match waiter.phase with
    | .checking check => finishCheck waiter check result
    | _ => none
  | .scan _ .done =>
    match waiter.phase with
    | .scanning _ => some { waiter with phase := .finished }
    | _ => none
  | .resume _ =>
    match waiter.phase with
    | .releasing check advance =>
      match epoch.advances[advance]? with
      | some ⟨_, some next, true⟩ => some { waiter with phase := .released check next }
      | _ => none
    | _ => none
  | .ensureQueueWait _ seen =>
    match waiter.phase, waiter.receiver with
    | .released check released, some _ =>
      some { waiter with phase := .comparing check released }
    | .released check released, none => do
        some { waiter with
          receiver := some (← subscribe epoch seen), phase := .comparing check released }
    | _, _ => none
  | .compare _ =>
    match waiter.phase with
    | .comparing check released => compare epoch waiter check released
    | _ => none
  | .wake _ =>
    match waiter.phase with
    | .blocked .. =>
      if waiter.receiver.any epoch.sender.hasChanged then
        some { waiter with receiver := some epoch.sender.subscribe, phase := .observing }
      else
        none
    | _ => none
  | .wakeOtherwise _ =>
    match waiter.phase with
    | .blocked .. => some { waiter with phase := .observing }
    | _ => none
  | .leave _ => some { waiter with phase := .finished }
  | _ => none

/-- The waiter that a label is about. -/
def target : QueueLabel → Option Nat
  | .subscribe waiter _ | .observe waiter | .check waiter _ | .scan waiter _ | .resume waiter
  | .ensureQueueWait waiter _ | .compare waiter | .wake waiter | .wakeOtherwise waiter
  | .leave waiter => some waiter
  | _ => none

def step (queue : Queue) : QueueLabel → Option Queue
  | .arrive kind =>
    some { queue with waiters := queue.waiters ++ [⟨kind, none, firstPhase kind⟩] }
  | .change => some { queue with epoch := queue.epoch.change none }
  | .increment advance => do some { queue with epoch := ← queue.epoch.increment advance }
  | .publish advance => do some { queue with epoch := ← queue.epoch.publish advance }
  | .scan index .unavailable => do
      -- `release_for_wait` removes the lease, which is a change, and advances.
      let waiter ← queue.waiters[index]?
      match waiter.phase with
      | .scanning check =>
        some ({ queue with epoch := queue.epoch.change (some index) }.set index
          { waiter with phase := .releasing check queue.epoch.advances.length })
      | _ => none
  | label => do
      let index ← target label
      let waiter ← queue.waiters[index]?
      some (queue.set index (← waiterStep queue.epoch waiter label))

variable {epoch after : SchedulerEpoch} {start bound index : Nat} {counts : Option Nat → Prop}
  {waiter later : Waiter} {check : Check} {label : QueueLabel} {queue next : Queue}

/-- The changes since `start` that count advance to epochs above `bound`. -/
def AdvancesAbove (epoch : SchedulerEpoch) (start bound : Nat)
    (counts : Option Nat → Prop) : Prop :=
  ∀ (index : Nat) (advance : Advance) (next : Nat), epoch.advances[index]? = some advance →
    start ≤ index → counts advance.author → advance.next = some next → bound < next

theorem AdvancesAbove.extends (h : AdvancesAbove epoch start bound counts)
    (hBound : bound ≤ epoch.current) (hExtends : epoch.Extends after) :
    AdvancesAbove after start bound counts := by
  intro index later next hLater hStart hCounts hNext
  rcases hExtends.fresh index later next hLater hNext with ⟨advance, hOld, hAuthor, hSame⟩ | hFresh
  · exact h index advance next hOld hStart (hAuthor ▸ hCounts) hSame
  · exact hBound.trans_lt hFresh

/-- No change has come since a check that begins now. -/
theorem advancesAbove_length : AdvancesAbove epoch epoch.advances.length bound counts := by
  intro index advance next hAdvance hStart
  rw [List.getElem?_eq_none hStart] at hAdvance
  cases hAdvance

/-- The changes since the check began, its waiter's own release among them, advance above
what it observed. -/
structure CheckHolds (epoch : SchedulerEpoch) (check : Check) : Prop where
  observed : check.observed ≤ epoch.current
  above : AdvancesAbove epoch check.start check.observed fun _ => True

theorem CheckHolds.extends (h : CheckHolds epoch check) (hExtends : epoch.Extends after) :
    CheckHolds after check :=
  ⟨h.observed.trans hExtends.current, h.above.extends h.observed hExtends⟩

/-- A subscribed waiter last saw the epoch of its check on the channel. -/
def Subscribed (epoch : SchedulerEpoch) (waiter : Waiter) (observed : Nat) : Prop :=
  ∀ receiver, waiter.receiver = some receiver → epoch.sender.Saw receiver observed

/-- A release of waiter `index` whose advance has returned `released`. -/
def Released (epoch : SchedulerEpoch) (index released : Nat) : Prop :=
  ∃ (position : Nat) (advance : Advance), epoch.advances[position]? = some advance ∧
    advance.author = some index ∧ advance.next = some released ∧ advance.published = true

/-- The waiter has not missed a change. While it is blocked, its own release is the only
change since its check that need not wake it. -/
structure Attentive (epoch : SchedulerEpoch) (index : Nat) (waiter : Waiter) (check : Check)
    (observed : Nat) : Prop where
  holds : CheckHolds epoch check
  current : observed ≤ epoch.current
  above : AdvancesAbove epoch check.start observed (· ≠ some index)
  receiver : ∃ receiver, waiter.receiver = some receiver ∧ epoch.sender.Saw receiver observed

def WaiterHolds (epoch : SchedulerEpoch) (index : Nat) (waiter : Waiter) : Prop :=
  match waiter.phase with
  | .subscribing | .observing | .finished => True
  | .checking check | .scanning check =>
    CheckHolds epoch check ∧ Subscribed epoch waiter check.observed
  | .releasing check position =>
    CheckHolds epoch check ∧
      ∃ advance, epoch.advances[position]? = some advance ∧ advance.author = some index
  | .released check released | .comparing check released =>
    CheckHolds epoch check ∧ Released epoch index released
  | .blocked check observed => Attentive epoch index waiter check observed

theorem Released.extends {released : Nat} (h : Released epoch index released)
    (hExtends : epoch.Extends after) : Released after index released := by
  obtain ⟨position, advance, hAdvance, hAuthor, hNext, hPublished⟩ := h
  obtain ⟨later, hLater, hSame, hKept, hStays⟩ := hExtends.kept position advance hAdvance
  exact ⟨position, later, hLater, hSame.trans hAuthor, (hKept (by simp [hNext])).trans hNext,
    hStays hPublished⟩

theorem Attentive.extends {observed : Nat} (h : Attentive epoch index waiter check observed)
    (hExtends : epoch.Extends after) : Attentive after index waiter check observed where
  holds := h.holds.extends hExtends
  current := h.current.trans hExtends.current
  above := h.above.extends h.current hExtends
  receiver := by
    obtain ⟨receiver, hReceiver, hSaw⟩ := h.receiver
    exact ⟨receiver, hReceiver, hSaw.grows hExtends.sender⟩

/-- What holds of a waiter goes on to hold while the epoch advances. -/
theorem WaiterHolds.extends (h : WaiterHolds epoch index waiter) (hExtends : epoch.Extends after) :
    WaiterHolds after index waiter := by
  obtain ⟨kind, receiver, phase⟩ := waiter
  cases phase with
  | subscribing | observing | finished => trivial
  | checking check | scanning check =>
    exact ⟨h.1.extends hExtends, fun receiver hReceiver =>
      (h.2 receiver hReceiver).grows hExtends.sender⟩
  | releasing check position =>
    obtain ⟨hCheck, advance, hAdvance, hAuthor⟩ := h
    obtain ⟨later, hLater, hSame, -⟩ := hExtends.kept position advance hAdvance
    exact ⟨hCheck.extends hExtends, later, hLater, hSame.trans hAuthor⟩
  | released check released | comparing check released =>
    exact ⟨h.1.extends hExtends, h.2.extends hExtends⟩
  | blocked check observed => exact .extends h hExtends

theorem observe_holds (hSound : epoch.Sound) (h : observe epoch waiter = some later) :
    WaiterHolds epoch index later := by
  unfold observe at h
  split at h
  next receiver _ _ _ =>
    rw [← Option.some.inj h]
    refine ⟨⟨hSound.sender, advancesAbove_length⟩, fun found hFound => ?_⟩
    rw [← Option.some.inj hFound]
    exact Channel.saw_subscribe
  next hReceiver _ =>
    rw [← Option.some.inj h]
    refine ⟨⟨le_rfl, advancesAbove_length⟩, fun found hFound => ?_⟩
    exact absurd (hReceiver.symm.trans hFound) (by simp)
  next => cases h

theorem await_holds (hCheck : CheckHolds epoch check)
    (hSubscribed : Subscribed epoch waiter check.observed) :
    WaiterHolds epoch index (await waiter check) := by
  obtain ⟨kind, receiver, phase⟩ := waiter
  cases receiver with
  | none => trivial
  | some receiver =>
    exact ⟨hCheck, hCheck.observed,
      fun position advance next hAdvance hStart _ =>
        hCheck.above position advance next hAdvance hStart trivial,
      receiver, rfl, hSubscribed receiver rfl⟩

theorem finishCheck_holds {result : CheckResult} (hCheck : CheckHolds epoch check)
    (hSubscribed : Subscribed epoch waiter check.observed)
    (h : finishCheck waiter check result = some later) : WaiterHolds epoch index later := by
  obtain ⟨kind, receiver, phase⟩ := waiter
  cases result with
  | unavailable => exact Option.some.inj h ▸ await_holds hCheck hSubscribed
  | created =>
    cases kind with
    | generation | fixed => cases h
    | session key => exact Option.some.inj h ▸ ⟨hCheck, hSubscribed⟩
  | bound =>
    cases kind with
    | generation | fixed => cases h
    | session key => exact Option.some.inj h ▸ trivial
  | done => exact Option.some.inj h ▸ trivial

/-- The epoch that a waiter blocks with is that of its own release, and no other change has
this epoch. -/
theorem compare_holds {released : Nat} (hSound : epoch.Sound) (hCheck : CheckHolds epoch check)
    (hReleased : Released epoch index released)
    (h : compare epoch waiter check released = some later) : WaiterHolds epoch index later := by
  obtain ⟨receiver, hReceiver, hRest⟩ := Option.bind_eq_some_iff.mp h
  rw [← Option.some.inj hRest]
  obtain ⟨position, advance, hAdvance, hAuthor, hNext, hPublished⟩ := hReleased
  obtain ⟨same, hSame, hLe⟩ := hSound.announced position advance hAdvance hPublished
  cases Option.some.inj (hNext.symm.trans hSame)
  by_cases hChange : releaseObservedExternalChange epoch.sender.value check.observed released
  · rw [if_pos hChange]
    trivial
  · rw [if_neg hChange]
    have hExact : check.observed + 1 = released ∧ epoch.sender.value ≤ released := by
      simpa [releaseObservedExternalChange] using hChange
    have hValue : epoch.sender.value = released := le_antisymm hExact.2 hLe
    refine ⟨hCheck, hSound.sender, fun other another next hAnother hStart hOther hAbove => ?_,
      _, rfl, Channel.saw_subscribe⟩
    have hObserved := hCheck.above other another next hAnother hStart trivial hAbove
    have hDistinct : next ≠ released := by
      rintro rfl
      have hPosition := hSound.unique other position another advance next hAnother hAdvance
        hAbove hNext
      subst hPosition
      cases Option.some.inj (hAnother.symm.trans hAdvance)
      exact hOther hAuthor
    omega

theorem waiterStep_holds (hSound : epoch.Sound) (hWaiter : WaiterHolds epoch index waiter)
    (h : waiterStep epoch waiter label = some later) : WaiterHolds epoch index later := by
  obtain ⟨kind, receiver, phase⟩ := waiter
  cases label
  case scan result =>
    cases result <;> cases phase <;> cases h
    trivial
  all_goals cases phase <;> try cases h
  case subscribe.subscribing =>
    obtain ⟨receiver, -, hLater⟩ := Option.bind_eq_some_iff.mp h
    exact Option.some.inj hLater ▸ trivial
  case observe.observing => exact observe_holds hSound h
  case check.checking => exact finishCheck_holds hWaiter.1 hWaiter.2 h
  case resume.releasing check position =>
    obtain ⟨hCheck, advance, hAdvance, hAuthor⟩ := hWaiter
    unfold waiterStep at h
    dsimp only at h
    split at h
    next author released hFound =>
      rw [← Option.some.inj h]
      cases Option.some.inj (hFound.symm.trans hAdvance)
      exact ⟨hCheck, position, _, hFound, hAuthor, rfl, rfl⟩
    next => cases h
  case ensureQueueWait.released =>
    cases receiver with
    | some receiver => exact Option.some.inj h ▸ hWaiter
    | none =>
      obtain ⟨receiver, -, hLater⟩ := Option.bind_eq_some_iff.mp h
      exact Option.some.inj hLater ▸ hWaiter
  case compare.comparing => exact compare_holds hSound hWaiter.1 hWaiter.2 h
  case wake.blocked =>
    obtain ⟨-, hLater⟩ := Option.ite_none_right_eq_some.mp h
    exact Option.some.inj hLater ▸ trivial
  all_goals trivial

structure Valid (queue : Queue) : Prop where
  epoch : queue.epoch.Sound
  waiters : ∀ (index : Nat) (waiter : Waiter), queue.waiters[index]? = some waiter →
    WaiterHolds queue.epoch index waiter

theorem Valid.new : (Queue.new SchedulerEpoch.new).Valid := ⟨.new, by simp [Queue.new]⟩

theorem Valid.withEpoch (h : queue.Valid) (hSound : after.Sound)
    (hExtends : queue.epoch.Extends after) : Valid { queue with epoch := after } :=
  ⟨hSound, fun index waiter hWaiter => (h.waiters index waiter hWaiter).extends hExtends⟩

theorem Valid.set (h : queue.Valid) (hWaiter : WaiterHolds queue.epoch index waiter) :
    (queue.set index waiter).Valid := by
  refine ⟨h.epoch, fun position found hFound => ?_⟩
  rcases Entries.getElem?_set_eq_some.mp hFound with ⟨-, hOld⟩ | ⟨rfl, -, rfl⟩
  · exact h.waiters position found hOld
  · exact hWaiter

/-- The lease is removed and the advance of the release begins. -/
theorem Valid.release (h : queue.Valid) (hWaiter : queue.waiters[index]? = some waiter)
    (hPhase : waiter.phase = .scanning check) :
    (Queue.set { queue with epoch := queue.epoch.change (some index) } index
      { waiter with phase := .releasing check queue.epoch.advances.length }).Valid := by
  have hExtends : queue.epoch.Extends (queue.epoch.change (some index)) :=
    SchedulerEpoch.extends_change _
  refine (h.withEpoch (h.epoch.change _) hExtends).set ?_
  have hHolds := h.waiters index waiter hWaiter
  unfold WaiterHolds at hHolds
  rw [hPhase] at hHolds
  exact ⟨hHolds.1.extends hExtends, _,
    Entries.getElem?_concat_eq_some.mpr (.inr ⟨rfl, rfl⟩), rfl⟩

/-- What a step can do. -/
inductive Steps (queue : Queue) : QueueLabel → Queue → Prop where
  | arrive (kind : WaiterKind) : Steps queue (.arrive kind)
      { queue with waiters := queue.waiters ++ [⟨kind, none, firstPhase kind⟩] }
  | change : Steps queue .change { queue with epoch := queue.epoch.change none }
  | increment {position : Nat} {after : SchedulerEpoch} :
      queue.epoch.increment position = some after →
      Steps queue (.increment position) { queue with epoch := after }
  | publish {position : Nat} {after : SchedulerEpoch} :
      queue.epoch.publish position = some after →
      Steps queue (.publish position) { queue with epoch := after }
  | release {index : Nat} {waiter : Waiter} {check : Check} :
      queue.waiters[index]? = some waiter → waiter.phase = .scanning check →
      Steps queue (.scan index .unavailable)
        (Queue.set { queue with epoch := queue.epoch.change (some index) } index
          { waiter with phase := .releasing check queue.epoch.advances.length })
  | waiterStep {label : QueueLabel} {index : Nat} {waiter later : Waiter} :
      queue.waiters[index]? = some waiter → waiterStep queue.epoch waiter label = some later →
      Steps queue label (queue.set index later)

theorem steps_of_step (h : queue.step label = some next) : Steps queue label next := by
  unfold Queue.step at h
  split at h
  next kind => exact Option.some.inj h ▸ .arrive kind
  next => exact Option.some.inj h ▸ .change
  next position =>
    obtain ⟨after, hAfter, hNext⟩ := Option.bind_eq_some_iff.mp h
    exact Option.some.inj hNext ▸ .increment hAfter
  next position =>
    obtain ⟨after, hAfter, hNext⟩ := Option.bind_eq_some_iff.mp h
    exact Option.some.inj hNext ▸ .publish hAfter
  next index =>
    obtain ⟨waiter, hWaiter, hRest⟩ := Option.bind_eq_some_iff.mp h
    split at hRest
    next check hPhase => exact Option.some.inj hRest ▸ .release hWaiter hPhase
    next => cases hRest
  next =>
    obtain ⟨index, -, hRest⟩ := Option.bind_eq_some_iff.mp h
    obtain ⟨waiter, hWaiter, hLast⟩ := Option.bind_eq_some_iff.mp hRest
    obtain ⟨later, hLater, hNext⟩ := Option.bind_eq_some_iff.mp hLast
    exact Option.some.inj hNext ▸ .waiterStep hWaiter hLater

theorem Valid.step (h : queue.Valid) (hStep : queue.step label = some next) : next.Valid := by
  cases steps_of_step hStep with
  | arrive kind =>
    refine ⟨h.epoch, fun index waiter hWaiter => ?_⟩
    rcases Entries.getElem?_concat_eq_some.mp hWaiter with hOld | ⟨-, rfl⟩
    · exact h.waiters index waiter hOld
    · cases kind <;> trivial
  | change => exact h.withEpoch (h.epoch.change none) (SchedulerEpoch.extends_change none)
  | increment hAfter =>
    exact h.withEpoch (h.epoch.increment hAfter) (SchedulerEpoch.extends_increment hAfter)
  | publish hAfter =>
    exact h.withEpoch (h.epoch.publish hAfter) (SchedulerEpoch.extends_publish hAfter)
  | release hWaiter hPhase => exact h.release hWaiter hPhase
  | waiterStep hWaiter hLater =>
    exact h.set (waiterStep_holds h.epoch (h.waiters _ _ hWaiter) hLater)

/-- A newer epoch than `observed` is published, or the advance will publish one. -/
def Announces (epoch : SchedulerEpoch) (observed : Nat) (advance : Advance) : Prop :=
  observed < epoch.sender.value ∨
    advance.published = false ∧ ∀ next, advance.next = some next → observed < next

theorem announces_of_above {position : Nat} {advance : Advance} {observed : Nat}
    (hSound : epoch.Sound) (hAbove : AdvancesAbove epoch start observed counts)
    (hAdvance : epoch.advances[position]? = some advance) (hStart : start ≤ position)
    (hCounts : counts advance.author) : Announces epoch observed advance := by
  cases hPublished : advance.published with
  | false =>
    exact .inr ⟨hPublished, fun next hNext =>
      hAbove position advance next hAdvance hStart hCounts hNext⟩
  | true =>
    obtain ⟨next, hNext, hLe⟩ := hSound.announced position advance hAdvance hPublished
    exact .inl ((hAbove position advance next hAdvance hStart hCounts hNext).trans_le hLe)

/-- No wakeup is lost. Every change since a blocked waiter's check began publishes an epoch
newer than the one its check observed. The waiter's own release apart, it is also newer than
the last one the waiter saw on the channel, and the waiter is woken once one is published. -/
theorem run_announces {labels : List QueueLabel} {waiter : Waiter} {observed position : Nat}
    {advance : Advance}
    (hRun : run step labels (Queue.new SchedulerEpoch.new) = some queue)
    (hWaiter : queue.waiters[index]? = some waiter)
    (hPhase : waiter.phase = .blocked check observed)
    (hAdvance : queue.epoch.advances[position]? = some advance) (hStart : check.start ≤ position) :
    Announces queue.epoch check.observed advance ∧
      (advance.author ≠ some index → Announces queue.epoch observed advance) ∧
      (observed < queue.epoch.sender.value →
        waiter.receiver.any queue.epoch.sender.hasChanged = true) := by
  have hValid : queue.Valid :=
    invariant_of_run (fun _ _ _ h hStep => h.step hStep) .new hRun
  have hAttentive := hValid.waiters index waiter hWaiter
  unfold WaiterHolds at hAttentive
  rw [hPhase] at hAttentive
  refine ⟨announces_of_above hValid.epoch hAttentive.holds.above hAdvance hStart trivial,
    announces_of_above hValid.epoch hAttentive.above hAdvance hStart, fun hNew => ?_⟩
  obtain ⟨receiver, hReceiver, hSaw⟩ := hAttentive.receiver
  rw [hReceiver]
  exact hSaw.hasChanged hNew

/-- A change from outside is incremented after the release of a session waiter, which blocks
on its own epoch and is told of the newer one. -/
theorem run_announces_after_release :
    let labels : List QueueLabel :=
      [.arrive (.session 0), .observe 0, .check 0 .created, .scan 0 .unavailable, .change,
        .increment 0, .increment 1, .publish 0, .resume 0, .ensureQueueWait 0 0, .compare 0]
    ∃ queue, run step labels (Queue.new SchedulerEpoch.new) = some queue ∧
      queue.waiters = [⟨.session 0, some ⟨1⟩, .blocked ⟨0, 0⟩ 1⟩] ∧
      Announces queue.epoch 1 ⟨none, some 2, false⟩ := by
  intro labels
  have hObserved : (run step labels (.new .new)).map
      (fun queue => (queue.waiters, queue.epoch.advances[1]?)) =
      some ([⟨.session 0, some ⟨1⟩, .blocked ⟨0, 0⟩ 1⟩], some ⟨none, some 2, false⟩) := by
    decide +kernel
  obtain ⟨queue, hRun, hQueue⟩ := Option.map_eq_some_iff.mp hObserved
  obtain ⟨hWaiters, hAdvance⟩ := Prod.mk.inj hQueue
  have hWaiter : queue.waiters[0]? = some ⟨.session 0, some ⟨1⟩, .blocked ⟨0, 0⟩ 1⟩ := by
    rw [hWaiters]
    rfl
  have hAnnounced := run_announces hRun hWaiter rfl hAdvance (Nat.zero_le 1)
  exact ⟨queue, hRun, hWaiters, hAnnounced.2.1 (by decide)⟩

end Queue

end Any2Api.Runtime.PublicRequest
