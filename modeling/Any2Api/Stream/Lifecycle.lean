import Any2Api.Stream.Turns

/-! The life of a streaming body as its owner and the outside world drive it:
it is created, primed, handed off, polled and dropped, with upstream input,
deadlines and changes of the shared world at any point in between. Every run
settles each resource once and delivers a well-formed item sequence. -/
namespace Any2Api.Stream

open GuardedBody

inductive Phase where
  | created
  /-- Inside the priming loop. -/
  | priming
  /-- The priming loop waits for the upstream. -/
  | awaiting
  | primed
  /-- The staged continuation is published. -/
  | published
  /-- A failure before the handoff was reported to the owner. -/
  | failed
  | idle
  /-- Inside a poll. -/
  | polling
  /-- A poll reads the upstream. -/
  | reading
  | dropped
  deriving DecidableEq

/-- The phases after the handoff. -/
def Phase.handedOff : Phase → Bool
  | .idle | .polling | .reading => true
  | _ => false

/-- The body with what its owner has seen of it. -/
structure Machine (ω σ κ : Type) where
  phase : Phase
  body : GuardedBody ω σ κ
  primeResult : Option (Except StreamPrimeFailure Unit)
  yielded : List StreamItem

/-- `primeInput` and `pollInput` bring the upstream's next item or the lack of
one. `timeOut` marks the attempt as timed out, and `interfere` is a change of
the shared world by someone else. -/
inductive Action (ω : Type) where
  | prime
  | primeTurn
  | primeInput (item : Option UpstreamItem)
  | failBeforeHandoff (errorClass : ErrorClass) (message : String)
  | publish
  | handOff
  | poll
  | pollTurn
  | pollInput (item : Option UpstreamItem) (idleElapsed : Bool)
  | timeOut
  | interfere (world : ω)
  | drop

def Action.isHandOff {ω : Type} : Action ω → Bool
  | .handOff => true
  | _ => false

namespace Machine

section Machine

variable {ω σ κ : Type} (env : Environment ω σ κ) {action : Action ω} {next : Machine ω σ κ}
  {less : Bool} {primeResult : Option (Except StreamPrimeFailure Unit)}

def start (world : ω) (session : σ) (health quotaActivity : Bool) (recorder : AttemptRecorder)
    (maxBytes maxDuration : Nat) : Machine ω σ κ where
  phase := .created
  body := GuardedBody.new world session (Guards.new health quotaActivity recorder)
    (PrecommitBudget.new maxBytes maxDuration)
  primeResult := none
  yielded := []

/-- Leave the priming loop. -/
def endPrime (machine : Machine ω σ κ) (body : GuardedBody ω σ κ) : Machine ω σ κ :=
  match primeEnd env body with
  | (.ok (), body) => { machine with phase := .primed, body, primeResult := some (.ok ()) }
  | (.error failure, body) =>
    { machine with phase := .failed, body, primeResult := some (.error failure) }

def afterPrimeTurn (machine : Machine ω σ κ) : PrimeTurn × GuardedBody ω σ κ → Machine ω σ κ
  | (.again, body) => { machine with phase := .priming, body }
  | (.await, body) => { machine with phase := .awaiting, body }
  | (.stop, body) => endPrime env machine body

def afterPublish (machine : Machine ω σ κ) :
    Except PublicError Unit × GuardedBody ω σ κ → Machine ω σ κ
  | (.ok (), body) => { machine with phase := .published, body }
  | (.error _, body) => { machine with phase := .failed, body }

def afterPoll (machine : Machine ω σ κ) : PollTurn × GuardedBody ω σ κ → Machine ω σ κ
  | (.ready item, body) =>
    { machine with phase := .idle, body, yielded := machine.yielded ++ item.toList }
  | (.pending, body) => { machine with phase := .idle, body }
  | (.again, body) => { machine with phase := .polling, body }
  | (.readUpstream, body) => { machine with phase := .reading, body }

/-- One action. The owner may drop the body at any point; an action that the
phase does not allow is no step. -/
def step (machine : Machine ω σ κ) (action : Action ω) : Option (Machine ω σ κ) :=
  let body := machine.body
  match action, machine.phase with
  | .timeOut, _ => some { machine with body := body.withGuards Guards.markTimedOut }
  | .interfere world, _ =>
    some { machine with body := { body with pipeline := { body.pipeline with world } } }
  | .drop, .dropped => none
  | .drop, _ => some { machine with phase := .dropped, body := finish env .cancelled body }
  | .prime, .created => some { machine with phase := .priming, body := startPrime env body }
  | .primeTurn, .priming => some (machine.afterPrimeTurn env (primeTurn env body))
  | .primeInput item, .awaiting =>
    some { machine with phase := .priming, body := primeInput env item body }
  | .failBeforeHandoff errorClass message, .primed =>
    some { machine with
      phase := .failed
      body := failBeforeHandoff env errorClass message body }
  | .publish, .primed =>
    some (machine.afterPublish (commitPrecommitContinuation env body.precommitDeadline body))
  | .handOff, .published => some { machine with phase := .idle, body := intoStream body }
  | .poll, .idle => some { machine with phase := .polling }
  | .pollTurn, .polling => some (machine.afterPoll (pollTurn env body))
  | .pollInput item idleElapsed, .reading =>
    some (machine.afterPoll (pollInput env item idleElapsed body))
  | _, _ => none

def run (machine : Machine ω σ κ) : List (Action ω) → Option (Machine ω σ κ)
  | [] => some machine
  | action :: actions => (machine.step env action).bind fun next => run next actions

/-- The steps, one constructor for each. -/
inductive Move (machine : Machine ω σ κ) : Action ω → Machine ω σ κ → Prop where
  | timeOut : Move machine .timeOut
      { machine with body := machine.body.withGuards Guards.markTimedOut }
  | interfere (world : ω) : Move machine (.interfere world)
      { machine with body :=
        { machine.body with pipeline := { machine.body.pipeline with world } } }
  | drop : Move machine .drop
      { machine with phase := .dropped, body := finish env .cancelled machine.body }
  | prime (hPhase : machine.phase = .created) : Move machine .prime
      { machine with phase := .priming, body := startPrime env machine.body }
  | primeTurn (hPhase : machine.phase = .priming) : Move machine .primeTurn
      (machine.afterPrimeTurn env (GuardedBody.primeTurn env machine.body))
  | primeInput (item : Option UpstreamItem) (hPhase : machine.phase = .awaiting) :
      Move machine (.primeInput item)
        { machine with phase := .priming, body := GuardedBody.primeInput env item machine.body }
  | failBeforeHandoff (errorClass : ErrorClass) (message : String)
      (hPhase : machine.phase = .primed) : Move machine (.failBeforeHandoff errorClass message)
        { machine with
          phase := .failed
          body := GuardedBody.failBeforeHandoff env errorClass message machine.body }
  | publish (hPhase : machine.phase = .primed) : Move machine .publish
      (machine.afterPublish
        (commitPrecommitContinuation env machine.body.precommitDeadline machine.body))
  | handOff (hPhase : machine.phase = .published) : Move machine .handOff
      { machine with phase := .idle, body := intoStream machine.body }
  | poll (hPhase : machine.phase = .idle) : Move machine .poll { machine with phase := .polling }
  | pollTurn (hPhase : machine.phase = .polling) : Move machine .pollTurn
      (machine.afterPoll (GuardedBody.pollTurn env machine.body))
  | pollInput (item : Option UpstreamItem) (idleElapsed : Bool)
      (hPhase : machine.phase = .reading) : Move machine (.pollInput item idleElapsed)
        (machine.afterPoll (GuardedBody.pollInput env item idleElapsed machine.body))

theorem move_of_step {machine : Machine ω σ κ}
    (hStep : machine.step env action = some next) : Move env machine action next := by
  unfold step at hStep
  dsimp only at hStep
  split at hStep <;> cases hStep
  · exact .timeOut
  · exact .interfere _
  · exact .drop
  · exact .prime ‹_›
  · exact .primeTurn ‹_›
  · exact .primeInput _ ‹_›
  · exact .failBeforeHandoff _ _ ‹_›
  · exact .publish ‹_›
  · exact .handOff ‹_›
  · exact .poll ‹_›
  · exact .pollTurn ‹_›
  · exact .pollInput _ _ ‹_›

/-- The budget is known to be committed. -/
def committed (machine : Machine ω σ κ) : Bool :=
  machine.phase = .primed || machine.phase = .published || machine.body.ownsRequestCompletion

/-- Nothing has left the body yet. -/
structure Unsent (machine : Machine ω σ κ) : Prop where
  owns : machine.body.ownsRequestCompletion = false
  finishes : machine.body.requestFinishes = []
  yielded : machine.yielded = []

/-- The body is open and everything it yielded lets the stream go on. -/
structure Live (machine : Machine ω σ κ) : Prop where
  running : machine.body.state ≠ .finished
  finishes : machine.body.requestFinishes = []
  yielded : ∀ item ∈ machine.yielded, item.continues

/-- The body is closed; only its last item may have ended the stream. -/
structure Over (machine : Machine ω σ κ) : Prop where
  closed : machine.body.Closed
  finishes : machine.body.requestFinishes.length = machine.body.ownsRequestCompletion.toNat
  yielded : ∀ item ∈ machine.yielded.dropLast, item.continues

/-- Where a machine stands in each phase. -/
def Standing (machine : Machine ω σ κ) : Prop :=
  match machine.phase with
  | .created | .priming | .awaiting | .primed | .published =>
    machine.Unsent ∧ machine.body.state ≠ .finished
  | .failed => machine.Unsent ∧ machine.body.Closed
  | .idle | .polling =>
    machine.body.ownsRequestCompletion = true ∧ (machine.Live ∨ machine.Over)
  | .reading => machine.body.ownsRequestCompletion = true ∧ machine.Live
  | .dropped => machine.Over

/-- The invariant of the life of a body. -/
structure Holds (origin : Origin σ) (machine : Machine ω σ κ) : Prop where
  sound : Sound env origin machine.committed machine.body.pipeline
  genuine : ∀ item ∈ machine.yielded, item.Genuine env origin.session
  failed : ∀ failure, machine.primeResult = some (.error failure) →
    (machine.phase = .failed ∨ machine.phase = .dropped) ∧ machine.yielded = []
  standing : machine.Standing

variable {env} {origin : Origin σ} {machine : Machine ω σ κ}

theorem Standing.live_or_over (h : machine.Standing) : machine.Live ∨ machine.Over := by
  have hUnsent : machine.Unsent → machine.body.state ≠ .finished → machine.Live :=
    fun hUnsent hOpen => ⟨hOpen, hUnsent.finishes, by simp [hUnsent.yielded]⟩
  have hFailed : machine.Unsent → machine.body.Closed → machine.Over := fun hUnsent hClosed =>
    ⟨hClosed, by simp [hUnsent.finishes, hUnsent.owns], by simp [hUnsent.yielded]⟩
  unfold Standing at h
  split at h
  · exact .inl (hUnsent h.1 h.2)
  · exact .inl (hUnsent h.1 h.2)
  · exact .inl (hUnsent h.1 h.2)
  · exact .inl (hUnsent h.1 h.2)
  · exact .inl (hUnsent h.1 h.2)
  · exact .inr (hFailed h.1 h.2)
  · exact h.2
  · exact h.2
  · exact .inl h.2
  · exact .inr h

theorem start_holds (env : Environment ω σ κ) (world : ω) (session : σ)
    (health quotaActivity : Bool) (recorder : AttemptRecorder) (maxBytes maxDuration : Nat) :
    (start world session health quotaActivity recorder maxBytes maxDuration :
      Machine ω σ κ).Holds env ⟨⟨health, quotaActivity, !recorder.finished⟩, session⟩ := by
  refine ⟨⟨rfl, .start, ?_, ?_, ?_⟩, ?_, ?_, ⟨⟨rfl, rfl, rfl⟩, ?_⟩⟩ <;>
    simp [start, GuardedBody.new, Guards.new, committed]

/-- A change that touches neither the state nor the requests keeps the
standing. -/
theorem Standing.of_same {next : GuardedBody ω σ κ} (h : machine.Standing)
    (hState : next.state = machine.body.state)
    (hOwns : next.ownsRequestCompletion = machine.body.ownsRequestCompletion)
    (hFinishes : next.requestFinishes = machine.body.requestFinishes)
    (hSettled : machine.body.guards.Settled → next.guards.Settled) :
    ({ machine with body := next } : Machine ω σ κ).Standing := by
  obtain ⟨phase, body, primeResult, yielded⟩ := machine
  have hOpen : body.state ≠ .finished → next.state ≠ .finished := by simp [hState]
  have hClosed : body.Closed → next.Closed := fun h =>
    ⟨hState.trans h.finished, hSettled h.settled⟩
  have hUnsent : Unsent ⟨phase, body, primeResult, yielded⟩ →
      Unsent ⟨phase, next, primeResult, yielded⟩ :=
    fun h => ⟨hOwns.trans h.owns, hFinishes.trans h.finishes, h.yielded⟩
  have hLive : Live ⟨phase, body, primeResult, yielded⟩ →
      Live ⟨phase, next, primeResult, yielded⟩ :=
    fun h => ⟨hOpen h.running, hFinishes.trans h.finishes, h.yielded⟩
  have hOver : Over ⟨phase, body, primeResult, yielded⟩ →
      Over ⟨phase, next, primeResult, yielded⟩ :=
    fun h => ⟨hClosed h.closed, by simpa [hFinishes, hOwns] using h.finishes, h.yielded⟩
  cases phase with
  | created | priming | awaiting | primed | published => exact h.imp hUnsent hOpen
  | failed => exact h.imp hUnsent hClosed
  | idle | polling => exact h.imp hOwns.trans (Or.imp hLive hOver)
  | reading => exact h.imp hOwns.trans hLive
  | dropped => exact hOver h

theorem Holds.timeOut (h : machine.Holds env origin) :
    Holds env origin { machine with body := machine.body.withGuards Guards.markTimedOut } := by
  refine ⟨h.sound.of_same rfl rfl, h.genuine, h.failed,
    h.standing.of_same rfl rfl rfl ?_⟩
  rintro ⟨hPermit, hHealth, hQuota, hRecorder, hLease⟩
  exact ⟨hPermit, hHealth, hQuota, by simp [Guards.markTimedOut, hRecorder], hLease⟩

theorem Holds.interfere (world : ω) (h : machine.Holds env origin) :
    Holds env origin { machine with body :=
      { machine.body with pipeline := { machine.body.pipeline with world } } } :=
  ⟨h.sound.of_same rfl rfl, h.genuine, h.failed, h.standing.of_same rfl rfl rfl id⟩

theorem Holds.drop (h : machine.Holds env origin) : Holds env origin
      { machine with phase := .dropped, body := finish env .cancelled machine.body } := by
  have hFailed : ∀ failure, machine.primeResult = some (.error failure) → machine.yielded = [] :=
    fun failure hFailure => (h.failed failure hFailure).2
  rcases h.standing.live_or_over with hLive | hOver
  · have hSettles := (Stays.refl h.sound hLive.running).finish .cancelled
    refine ⟨hSettles.sound.mono ?_, h.genuine, fun failure hFailure =>
      ⟨.inr rfl, hFailed failure hFailure⟩, hSettles.closed, ?_, fun item hItem =>
        hLive.yielded item (List.dropLast_subset _ hItem)⟩
    · simp +contextual [committed, hSettles.owns]
    · simp [hSettles.finishes, hSettles.owns, hLive.finishes]
  · rw [finish_of_finished _ hOver.closed.finished]
    refine ⟨h.sound.mono ?_, h.genuine, fun failure hFailure =>
      ⟨.inr rfl, hFailed failure hFailure⟩, hOver.closed, hOver.finishes, hOver.yielded⟩
    simp +contextual [committed]

theorem Holds.prime_ok {phase : Phase} (h : machine.Holds env origin)
    (hPhase : machine.phase = phase) (hOpen : phase ≠ .failed ∧ phase ≠ .dropped)
    (failure : StreamPrimeFailure) : machine.primeResult ≠ some (.error failure) := fun hResult =>
  (h.failed failure hResult).1.elim (hPhase ▸ hOpen.1) (hPhase ▸ hOpen.2)

/-- Before the handoff, a step that leaves the body open. -/
theorem Holds.stays {next : GuardedBody ω σ κ} {phase : Phase}
    (hUnsent : machine.Unsent) (hOk : ∀ failure, primeResult ≠ some (.error failure))
    (hNext : Stays env origin less machine.body next)
    (hPhase : phase = .priming ∨ phase = .awaiting ∨
      (less = true ∧ (phase = .primed ∨ phase = .published))) :
    Holds env origin { machine with phase, body := next, primeResult } := by
  have hOwns := hNext.owns.trans hUnsent.owns
  have hStill : ({ machine with phase, body := next, primeResult } : Machine ω σ κ).Unsent :=
    ⟨hOwns, hNext.finishes.trans hUnsent.finishes, hUnsent.yielded⟩
  refine ⟨hNext.sound.mono ?_, by simp [hUnsent.yielded], fun failure hResult =>
    absurd hResult (hOk failure), ?_⟩
  · rcases hPhase with rfl | rfl | ⟨rfl, _⟩ <;> simp [committed, hOwns]
  · rcases hPhase with rfl | rfl | ⟨_, rfl | rfl⟩ <;> exact ⟨hStill, hNext.running⟩

/-- Before the handoff, a step that releases the body. -/
theorem Holds.releases {next : GuardedBody ω σ κ} (hUnsent : machine.Unsent)
    (hNext : Releases env origin less machine.body next) :
    Holds env origin { machine with phase := .failed, body := next, primeResult } := by
  have hOwns := hNext.owns.trans hUnsent.owns
  refine ⟨hNext.sound.mono ?_, by simp [hUnsent.yielded], fun _ _ => ⟨.inl rfl, hUnsent.yielded⟩,
    ⟨hOwns, hNext.finishes.trans hUnsent.finishes, hUnsent.yielded⟩, hNext.closed⟩
  simp [committed, hOwns]

theorem Holds.endPrime {next : GuardedBody ω σ κ} (hUnsent : machine.Unsent)
    (hNext : Stays env origin less machine.body next) :
    Holds env origin (machine.endPrime env next) := by
  unfold Machine.endPrime
  rcases primeEnd_spec hNext.sound hNext.running with ⟨hOk, hStays⟩ | ⟨failure, hError, hReleases⟩
  · split
    · next hEnd =>
        rw [hEnd] at hStays
        exact .stays hUnsent (by simp) (hNext.trans hStays) (.inr (.inr ⟨rfl, .inl rfl⟩))
    · next hEnd => simp [hEnd] at hOk
  · split
    · next hEnd => simp [hEnd] at hError
    · next hEnd =>
        rw [hEnd] at hReleases
        exact .releases hUnsent (hNext.trans_releases hReleases)

section

variable (h : machine.Holds env origin)
include h

theorem Holds.primeTurn (hPhase : machine.phase = .priming) :
    Holds env origin (machine.afterPrimeTurn env (GuardedBody.primeTurn env machine.body)) := by
  have hStanding := h.standing
  simp only [Standing, hPhase] at hStanding
  obtain ⟨hUnsent, hOpen⟩ := hStanding
  have hOk := h.prime_ok hPhase (by decide)
  have hNext := primeTurn_stays h.sound hOpen
  generalize GuardedBody.primeTurn env machine.body = result at hNext
  obtain ⟨turn, next⟩ := result
  cases turn with
  | again => exact .stays hUnsent hOk hNext (.inl rfl)
  | await => exact .stays hUnsent hOk hNext (.inr (.inl rfl))
  | stop => exact .endPrime hUnsent hNext

theorem Holds.publish (hPhase : machine.phase = .primed) : Holds env origin (machine.afterPublish
      (commitPrecommitContinuation env machine.body.precommitDeadline machine.body)) := by
  have hStanding := h.standing
  simp only [Standing, hPhase] at hStanding
  obtain ⟨hUnsent, hOpen⟩ := hStanding
  have hOk := h.prime_ok hPhase (by decide)
  have hSpec := commitPrecommitContinuation_spec h.sound hOpen machine.body.precommitDeadline
  generalize commitPrecommitContinuation env _ machine.body = result at hSpec
  obtain ⟨outcome, next⟩ := result
  rcases hSpec with ⟨rfl, hStays⟩ | ⟨error, rfl, hReleases⟩
  · exact .stays hUnsent hOk hStays (.inr (.inr ⟨by simp [committed, hPhase], .inr rfl⟩))
  · exact .releases hUnsent hReleases

theorem Holds.handOff (hPhase : machine.phase = .published) :
    Holds env origin { machine with phase := .idle, body := intoStream machine.body } := by
  have hStanding := h.standing
  simp only [Standing, hPhase] at hStanding
  obtain ⟨hUnsent, hOpen⟩ := hStanding
  have hOk := h.prime_ok hPhase (by decide)
  refine ⟨h.sound.mono fun _ => by simp [committed, hPhase], h.genuine,
    fun failure hResult => absurd hResult (hOk failure), rfl, .inl ⟨hOpen, hUnsent.finishes, ?_⟩⟩
  simp [hUnsent.yielded]

/-- Starting a poll, and polling a body that is over, change nothing else. -/
theorem Holds.betweenPolls {phase : Phase}
    (hOk : ∀ failure, machine.primeResult ≠ some (.error failure))
    (hOwns : machine.body.ownsRequestCompletion = true) (hStanding : machine.Live ∨ machine.Over)
    (hPhase : phase = .idle ∨ phase = .polling) : Holds env origin { machine with phase } := by
  have hSame : Live { machine with phase } ∨ Over { machine with phase } :=
    hStanding.imp (fun hLive => ⟨hLive.running, hLive.finishes, hLive.yielded⟩)
      (fun hOver => ⟨hOver.closed, hOver.finishes, hOver.yielded⟩)
  refine ⟨h.sound.mono fun _ => by simp [committed, hOwns], h.genuine,
    fun failure hResult => absurd hResult (hOk failure), ?_⟩
  rcases hPhase with rfl | rfl <;> exact ⟨hOwns, hSame⟩

end

private theorem forall_mem_yielded {property : StreamItem → Prop} {yielded : List StreamItem}
    {item : Option StreamItem} (h : ∀ old ∈ yielded, property old)
    (hItem : ∀ new ∈ item, property new) : ∀ any ∈ yielded ++ item.toList, property any := by
  intro any hAny
  rcases List.mem_append.mp hAny with hOld | hNew
  · exact h any hOld
  · exact hItem any (Option.mem_toList.mp hNew)

/-- A poll of a live body. -/
theorem Holds.afterPoll {result : PollTurn × GuardedBody ω σ κ} (h : machine.Holds env origin)
    (hOk : ∀ failure, machine.primeResult ≠ some (.error failure))
    (hOwns : machine.body.ownsRequestCompletion = true) (hLive : machine.Live)
    (hResult : PollOutcome env origin machine.committed machine.body result) :
    Holds env origin (machine.afterPoll result) := by
  have hCommitted : machine.committed = true := by simp [committed, hOwns]
  cases hResult with
  | goesOn hTurn hNext =>
    next turn next =>
    have hStill : ∀ phase, Live { machine with phase, body := next } := fun _ =>
      ⟨hNext.running, hNext.finishes.trans hLive.finishes, hLive.yielded⟩
    cases turn with
    | ready item => exact absurd rfl (hTurn item)
    | pending | again =>
      exact ⟨hNext.sound.mono fun _ => hCommitted, h.genuine,
        fun failure hResult => absurd hResult (hOk failure), hNext.owns.trans hOwns,
        .inl (hStill _)⟩
    | readUpstream =>
      exact ⟨hNext.sound.mono fun _ => hCommitted, h.genuine,
        fun failure hResult => absurd hResult (hOk failure), hNext.owns.trans hOwns, hStill _⟩
  | yields hItem hGenuine hNext =>
    refine ⟨hNext.sound.mono fun _ => hCommitted, ?_,
      fun failure hResult => absurd hResult (hOk failure), hNext.owns.trans hOwns,
      .inl ⟨hNext.running, hNext.finishes.trans hLive.finishes, ?_⟩⟩
    · exact forall_mem_yielded h.genuine (by simpa using hGenuine)
    · exact forall_mem_yielded hLive.yielded (by simpa using hItem)
  | ends hGenuine hNext =>
    next item next =>
    have hDone : ∀ item' ∈ (machine.yielded ++ item.toList).dropLast, item'.continues := by
      intro item' hItem
      cases item with
      | none =>
        rw [Option.toList_none, List.append_nil] at hItem
        exact hLive.yielded item' (List.dropLast_subset _ hItem)
      | some last =>
        rw [Option.toList_some, List.dropLast_concat] at hItem
        exact hLive.yielded item' hItem
    refine ⟨hNext.sound.mono fun _ => hCommitted, forall_mem_yielded h.genuine hGenuine,
      fun failure hResult => absurd hResult (hOk failure), hNext.owns.trans hOwns,
      .inr ⟨hNext.closed, ?_, hDone⟩⟩
    change next.requestFinishes.length = next.ownsRequestCompletion.toNat
    rw [hNext.finishes, hNext.owns, hLive.finishes]
    simp

/-- Every step keeps the invariant. -/
theorem Holds.step (h : machine.Holds env origin)
    (hStep : machine.step env action = some next) : next.Holds env origin := by
  have hStanding := h.standing
  cases move_of_step env hStep with
  | timeOut => exact h.timeOut
  | interfere world => exact h.interfere world
  | drop => exact h.drop
  | prime hPhase =>
    simp only [Standing, hPhase] at hStanding
    exact .stays hStanding.1 (h.prime_ok hPhase (by decide))
      (startPrime_stays h.sound hStanding.2) (.inl rfl)
  | primeTurn hPhase => exact h.primeTurn hPhase
  | primeInput item hPhase =>
    simp only [Standing, hPhase] at hStanding
    exact .stays hStanding.1 (h.prime_ok hPhase (by decide))
      (primeInput_stays h.sound hStanding.2 item) (.inl rfl)
  | failBeforeHandoff errorClass message hPhase =>
    simp only [Standing, hPhase] at hStanding
    refine Holds.releases hStanding.1 (((Stays.refl h.sound hStanding.2).withGuards
      (takesAllowed_settleAttempt _ _ ?_)).releaseGuards (by simp))
    decide
  | publish hPhase => exact h.publish hPhase
  | handOff hPhase => exact h.handOff hPhase
  | poll hPhase =>
    simp only [Standing, hPhase] at hStanding
    exact h.betweenPolls (h.prime_ok hPhase (by decide)) hStanding.1 hStanding.2 (.inr rfl)
  | pollTurn hPhase =>
    simp only [Standing, hPhase] at hStanding
    have hOk := h.prime_ok hPhase (by decide)
    rcases hStanding.2 with hLive | hOver
    · exact h.afterPoll hOk hStanding.1 hLive (pollTurn_outcome h.sound hLive.running)
    · rw [pollTurn_of_finished hOver.closed.finished]
      simpa [Machine.afterPoll] using h.betweenPolls hOk hStanding.1 (.inr hOver) (.inl rfl)
  | pollInput item idleElapsed hPhase =>
    simp only [Standing, hPhase] at hStanding
    exact h.afterPoll (h.prime_ok hPhase (by decide)) hStanding.1 hStanding.2
      (pollInput_outcome h.sound hStanding.2.running item idleElapsed)

/-- Every run keeps the invariant. -/
theorem Holds.run {actions : List (Action ω)}
    (h : machine.Holds env origin) (hRun : machine.run env actions = some next) :
    next.Holds env origin := by
  induction actions generalizing machine with
  | nil =>
    cases hRun
    exact h
  | cons action actions ih =>
    obtain ⟨middle, hStep, hRest⟩ := Option.bind_eq_some_iff.mp hRun
    exact ih (h.step hStep) hRest

/-- Each thing the body was given or began was taken exactly once, the attempt
has one outcome unless recording is off, and the request is finished once if
the body was handed off. -/
structure SettledOnce (given : Gift) (handedOff : Bool) (body : GuardedBody ω σ κ) : Prop where
  permit : body.guards.takes .permit = 1
  health : body.guards.takes .health = given.health.toNat
  quotaActivity : body.guards.takes .quotaActivity = given.quotaActivity.toNat
  attemptRecorder : body.guards.takes .attemptRecorder = 1
  lease : ∀ number, body.guards.takes (.lease number) =
    if number < body.guards.leasesBegun then 1 else 0
  attempts : body.guards.attempts.length = given.recording.toNat
  requests : body.requestFinishes.length = handedOff.toNat

theorem Holds.settledOnce (h : machine.Holds env origin) (hOver : machine.Over) :
    SettledOnce origin.toGift machine.body.ownsRequestCompletion machine.body := by
  have hTakes := hOver.closed.settled.takes
  have hGiven : machine.body.guards.given = origin.toGift := h.sound.given
  have hAttempts := machine.body.guards.balanced.attempts
  refine ⟨hTakes .permit, ?_, ?_, hTakes .attemptRecorder, fun number => hTakes (.lease number),
    ?_, hOver.finishes⟩
  · rw [hTakes, GuardFields.owned, hGiven]
  · rw [hTakes, GuardFields.owned, hGiven]
  · rw [hAttempts, hTakes, hGiven]
    cases origin.recording <;> rfl

theorem Standing.owns (h : machine.Standing) (hPhase : machine.phase ≠ .dropped) :
    machine.body.ownsRequestCompletion = machine.phase.handedOff := by
  unfold Standing at h
  split at h <;> simp_all only [Phase.handedOff, ne_eq, not_true_eq_false]
  all_goals exact h.1.owns

theorem finish_owns (env : Environment ω σ κ) (outcome : StreamOutcome) (body : GuardedBody ω σ κ) :
    (finish env outcome body).ownsRequestCompletion = body.ownsRequestCompletion := by
  by_cases hFinished : body.state = .finished
  · rw [finish_of_finished _ hFinished]
  · exact (finish_closed env outcome hFinished).2.1

theorem afterPrimeTurn_phase (env : Environment ω σ κ) (machine : Machine ω σ κ)
    (result : PrimeTurn × GuardedBody ω σ κ) :
    (machine.afterPrimeTurn env result).phase ≠ .dropped ∧
    (machine.afterPrimeTurn env result).phase.handedOff = false := by
  unfold afterPrimeTurn endPrime
  split
  · exact ⟨nofun, rfl⟩
  · exact ⟨nofun, rfl⟩
  · split <;> exact ⟨nofun, rfl⟩

theorem afterPublish_phase (machine : Machine ω σ κ)
    (result : Except PublicError Unit × GuardedBody ω σ κ) :
    (machine.afterPublish result).phase ≠ .dropped ∧
    (machine.afterPublish result).phase.handedOff = false := by
  unfold afterPublish
  split <;> exact ⟨nofun, rfl⟩

theorem afterPoll_phase (machine : Machine ω σ κ) (result : PollTurn × GuardedBody ω σ κ) :
    (machine.afterPoll result).phase ≠ .dropped ∧
    (machine.afterPoll result).phase.handedOff = true := by
  unfold afterPoll
  split <;> exact ⟨nofun, rfl⟩

/-- Only the handoff changes whether the body is handed off. -/
theorem step_phase (hStep : machine.step env action = some next) : (action.isHandOff = false ∧
      next.body.ownsRequestCompletion = machine.body.ownsRequestCompletion) ∨
    (machine.phase ≠ .dropped ∧ next.phase ≠ .dropped ∧
      next.phase.handedOff = (machine.phase.handedOff || action.isHandOff)) := by
  cases move_of_step env hStep with
  | timeOut | interfere world => exact .inl ⟨rfl, rfl⟩
  | drop => exact .inl ⟨rfl, finish_owns env _ _⟩
  | prime hPhase =>
    exact .inr ⟨by simp [hPhase], nofun, by rw [hPhase]; rfl⟩
  | primeTurn hPhase =>
    obtain ⟨hNext, hHanded⟩ := afterPrimeTurn_phase env machine (primeTurn env machine.body)
    exact .inr ⟨by simp [hPhase], hNext, by rw [hHanded, hPhase]; rfl⟩
  | primeInput item hPhase | failBeforeHandoff errorClass message hPhase =>
    exact .inr ⟨by simp [hPhase], nofun, by rw [hPhase]; rfl⟩
  | publish hPhase =>
    obtain ⟨hNext, hHanded⟩ := afterPublish_phase machine
      (commitPrecommitContinuation env machine.body.precommitDeadline machine.body)
    exact .inr ⟨by simp [hPhase], hNext, by rw [hHanded, hPhase]; rfl⟩
  | handOff hPhase | poll hPhase =>
    exact .inr ⟨by simp [hPhase], nofun, by rw [hPhase]; rfl⟩
  | pollTurn hPhase =>
    obtain ⟨hNext, hHanded⟩ := afterPoll_phase machine (pollTurn env machine.body)
    exact .inr ⟨by simp [hPhase], hNext, by rw [hHanded, hPhase]; rfl⟩
  | pollInput item idleElapsed hPhase =>
    obtain ⟨hNext, hHanded⟩ := afterPoll_phase machine
      (pollInput env item idleElapsed machine.body)
    exact .inr ⟨by simp [hPhase], hNext, by rw [hHanded, hPhase]; rfl⟩

theorem run_owns {actions : List (Action ω)}
    (h : machine.Holds env origin) (hRun : machine.run env actions = some next) :
    next.body.ownsRequestCompletion =
      (machine.body.ownsRequestCompletion || actions.any Action.isHandOff) := by
  induction actions generalizing machine with
  | nil =>
    cases hRun
    simp
  | cons action actions ih =>
    obtain ⟨middle, hStep, hRest⟩ := Option.bind_eq_some_iff.mp hRun
    have hMiddle := h.step hStep
    have hOwns : middle.body.ownsRequestCompletion =
        (machine.body.ownsRequestCompletion || action.isHandOff) := by
      rcases step_phase hStep with ⟨hAction, hSame⟩ | ⟨hPhase, hNext, hHanded⟩
      · simp [hAction, hSame]
      · rw [h.standing.owns hPhase, hMiddle.standing.owns hNext, hHanded]
    rw [ih hMiddle hRest, hOwns, List.any_cons, Bool.or_assoc]

end Machine

end Machine

end Any2Api.Stream
