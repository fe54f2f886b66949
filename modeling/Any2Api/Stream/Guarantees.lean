import Any2Api.Stream.Lifecycle

/-! What every run of a streaming body guarantees: each resource is settled
once, and the client sees encoded events up to one terminal event or error. -/
namespace Any2Api.Stream

open GuardedBody Any2Api.Stream.Machine

variable {ω σ κ : Type} {env : Environment ω σ κ} {machine next : Machine ω σ κ}

theorem GuardFields.owned_le_one (fields : GuardFields) (resource : Resource) :
    fields.owned resource ≤ 1 := by
  cases resource with
  | permit => exact le_rfl
  | health | quotaActivity => exact Bool.toNat_le _
  | attemptRecorder => exact le_rfl
  | lease number =>
    change (if number < fields.leasesBegun then 1 else 0) ≤ 1
    split <;> omega

/-- In every run a resource is taken at most once and only by a function that
may take it. A body that is over, and a dropped body always is, took each
resource exactly once, recorded one attempt outcome, and finished the request
exactly if it was handed off. -/
theorem run_settles_each_resource_once (env : Environment ω σ κ) (world : ω) (session : σ)
    (health quotaActivity : Bool) (recorder : AttemptRecorder) (maxBytes maxDuration : Nat)
    (actions : List (Action ω)) (machine : Machine ω σ κ)
    (hRun : (start world session health quotaActivity recorder maxBytes maxDuration).run env
      actions = some machine) :
    (∀ entry ∈ machine.body.guards.taken, entry.2 ∈ entry.1.takers) ∧
    (∀ resource, machine.body.guards.takes resource ≤ 1) ∧
    machine.body.guards.attempts.length ≤ 1 ∧
    machine.body.requestFinishes.length ≤ (actions.any Action.isHandOff).toNat ∧
    (machine.body.state = .finished →
      SettledOnce ⟨health, quotaActivity, !recorder.finished⟩ (actions.any Action.isHandOff)
        machine.body) ∧
    (machine.phase = .dropped → machine.body.state = .finished) ∧
    (machine.phase ≠ .dropped →
      ∃ next, machine.step env .drop = some next ∧ next.phase = .dropped) := by
  have hStart := start_holds env world session health quotaActivity recorder maxBytes maxDuration
  have hHolds := hStart.run hRun
  have hOwns : machine.body.ownsRequestCompletion = actions.any Action.isHandOff := by
    simpa [start, GuardedBody.new] using run_owns hStart hRun
  have hTakes : ∀ resource, machine.body.guards.takes resource ≤ 1 := fun resource =>
    (machine.body.guards.takes_le_owned resource).trans (GuardFields.owned_le_one _ resource)
  refine ⟨hHolds.sound.takers, hTakes, ?_, ?_, ?_, ?_, ?_⟩
  · rw [machine.body.guards.balanced.attempts]
    have := hTakes .attemptRecorder
    split <;> omega
  · rcases hHolds.standing.live_or_over with hLive | hOver
    · simp [hLive.finishes]
    · rw [hOver.finishes, hOwns]
  · intro hFinished
    rcases hHolds.standing.live_or_over with hLive | hOver
    · exact absurd hFinished hLive.running
    · exact hOwns ▸ hHolds.settledOnce hOver
  · intro hPhase
    have hStanding := hHolds.standing
    simp only [Standing, hPhase] at hStanding
    exact hStanding.closed.finished
  · intro hPhase
    refine ⟨{ machine with phase := .dropped, body := finish env .cancelled machine.body }, ?_, rfl⟩
    unfold Machine.step
    split <;> simp_all

/-- An exchange that passes every frame on as one completed event with the
response identity `resp_1`. -/
def passThrough : Environment Unit Unit Unit where
  publicModel := "model"
  statusCode := 200
  now := fun world => (0, world)
  beginPending := fun _ _ world => (.ok ⟨0⟩, world)
  leaseReady := fun _ _ _ world => (.ok (), world)
  leaseDrop := fun _ world => world
  bindReady := fun _ _ _ world => (.ok (), world)
  decodeUpstreamEvent := fun frame session =>
    (.ok [⟨frame, .empty, ⟨⟨none, none, none, none⟩, none, true, false⟩, .completed, none⟩],
      session)
  finishUpstreamEvents := fun session => (.ok [], session)
  encodeEgressEvent := fun _ event _ => .ok event.bytes
  continuationIdFromEvent := fun _ _ => .ok (some "resp_1")
  bridgeContinuationState := fun _ => .stateless
  streamCompletionPolicy := fun _ => .eofAllowed
  classifyError := fun _ => ⟨.unknown, .ambiguous⟩
  responseSpeedTier := fun tier => tier

/-- A whole life: one frame is primed, handed off, polled and the body dropped. -/
def wholeLife : List (Action Unit) :=
  [.prime, .primeTurn, .primeInput (some (.chunk [10, 10])), .primeTurn, .publish, .handOff,
    .poll, .pollTurn, .drop]

def passThroughStart : Machine Unit Unit Unit :=
  start () () true true ⟨false, false⟩ 1024 10

/-- A body that is primed, polled to its end and dropped has settled every guard once. -/
theorem run_settles_each_resource_once_whole_life :
    ∃ machine, passThroughStart.run passThrough wholeLife = some machine ∧
      machine.phase = .dropped ∧ SettledOnce ⟨true, true, true⟩ true machine.body := by
  have hPhase : (passThroughStart.run passThrough wholeLife).map Machine.phase = some .dropped := by
    decide +kernel
  obtain ⟨machine, hRun, hDropped⟩ := Option.map_eq_some_iff.mp hPhase
  obtain ⟨_, _, _, _, hSettled, hFinished, _⟩ := run_settles_each_resource_once passThrough () ()
    true true ⟨false, false⟩ 1024 10 wholeLife machine hRun
  exact ⟨machine, hRun, hDropped, hSettled (hFinished hDropped)⟩

/-- The lease of that life is taken by the publication of the continuation, by
none of the settling functions. -/
theorem lease_taken_by_publication :
    ∃ machine, passThroughStart.run passThrough wholeLife = some machine ∧
      machine.phase = .dropped ∧ machine.body.guards.leasesBegun = 1 ∧
      machine.body.guards.taken.filter (·.1 = .lease 0) =
        [(.lease 0, .finalizePrecommitContinuation)] := by
  have hLife : (passThroughStart.run passThrough wholeLife).map (fun machine => (machine.phase,
      machine.body.guards.leasesBegun, machine.body.guards.taken.filter (·.1 = .lease 0))) =
      some (.dropped, 1, [(.lease 0, .finalizePrecommitContinuation)]) := by decide +kernel
  obtain ⟨machine, hRun, hMachine⟩ := Option.map_eq_some_iff.mp hLife
  simp only [Prod.mk.injEq] at hMachine
  exact ⟨machine, hRun, hMachine⟩

theorem Machine.afterPoll_yielded (machine : Machine ω σ κ)
    (result : PollTurn × GuardedBody ω σ κ) :
    (machine.afterPoll result).yielded = machine.yielded ∨
    ∃ item, (machine.afterPoll result).yielded = machine.yielded ++ [item] := by
  unfold Machine.afterPoll
  split
  · next item _ =>
      cases item with
      | none => exact .inl (List.append_nil _)
      | some item => exact .inr ⟨item, rfl⟩
  · exact .inl rfl
  · exact .inl rfl
  · exact .inl rfl

theorem Machine.afterPrimeTurn_yielded (env : Environment ω σ κ) (machine : Machine ω σ κ)
    (result : PrimeTurn × GuardedBody ω σ κ) :
    (machine.afterPrimeTurn env result).yielded = machine.yielded := by
  unfold Machine.afterPrimeTurn Machine.endPrime
  split
  · rfl
  · rfl
  · split <;> rfl

/-- A step yields nothing, or one item after the handoff. -/
theorem Machine.step_yielded {action : Action ω} (hStep : machine.step env action = some next) :
    next.yielded = machine.yielded ∨
    (machine.phase.handedOff = true ∧ ∃ item, next.yielded = machine.yielded ++ [item]) := by
  cases move_of_step env hStep with
  | primeTurn hPhase => exact .inl (machine.afterPrimeTurn_yielded env _)
  | publish hPhase =>
    left
    unfold Machine.afterPublish
    split <;> rfl
  | pollTurn hPhase | pollInput item idleElapsed hPhase =>
    exact (machine.afterPoll_yielded _).imp_right fun hItem => ⟨by rw [hPhase]; rfl, hItem⟩
  | _ => exact .inl rfl

/-- A failed priming stays failed. -/
theorem Machine.run_primeResult {origin : Origin σ}
    {actions : List (Action ω)} {failure : StreamPrimeFailure}
    (h : machine.Holds env origin) (hFailure : machine.primeResult = some (.error failure))
    (hRun : machine.run env actions = some next) :
    next.primeResult = some (.error failure) := by
  induction actions generalizing machine with
  | nil =>
    cases hRun
    exact hFailure
  | cons action actions ih =>
    obtain ⟨middle, hStep, hRest⟩ := Option.bind_eq_some_iff.mp hRun
    refine ih (h.step hStep) ?_ hRest
    obtain ⟨hPhase, -⟩ := h.failed failure hFailure
    cases move_of_step env hStep with
    | timeOut | interfere world | drop => exact hFailure
    | _ => simp_all

/-- The client sees encoded events, of which only the last may be terminal,
and at most one error after them. Nothing is yielded before the held-back
frames are committed, and nothing at all once priming has failed. -/
theorem run_yields_events_until_end (env : Environment ω σ κ) (world : ω) (session : σ)
    (health quotaActivity : Bool) (recorder : AttemptRecorder) (maxBytes maxDuration : Nat)
    (actions : List (Action ω)) (machine : Machine ω σ κ)
    (hRun : (start world session health quotaActivity recorder maxBytes maxDuration).run env
      actions = some machine) :
    (∀ item ∈ machine.yielded, item.Genuine env session) ∧
    (∀ item ∈ machine.yielded.dropLast, item.continues) ∧
    (∀ action next, machine.step env action = some next → next.yielded ≠ machine.yielded →
      machine.body.ownsRequestCompletion = true ∧
      machine.body.pipeline.precommitBudget.committed = true) ∧
    (∀ failure, machine.primeResult = some (.error failure) →
      ∀ later next, machine.run env later = some next → next.yielded = []) := by
  have hStart := start_holds env world session health quotaActivity recorder maxBytes maxDuration
  have hHolds := hStart.run hRun
  refine ⟨hHolds.genuine, ?_, ?_, ?_⟩
  · rcases hHolds.standing.live_or_over with hLive | hOver
    · exact fun item hItem => hLive.yielded item (List.dropLast_subset _ hItem)
    · exact hOver.yielded
  · intro action next hStep hYielded
    rcases step_yielded hStep with hSame | ⟨hHanded, _⟩
    · exact absurd hSame hYielded
    · have hPhase : machine.phase ≠ .dropped := by
        intro hDropped
        simp [hDropped, Phase.handedOff] at hHanded
      have hOwns := (hHolds.standing.owns hPhase).trans hHanded
      exact ⟨hOwns, hHolds.sound.commit (by simp [committed, hOwns])⟩
  · intro failure hFailure later next hLater
    have hFailed := run_primeResult hHolds hFailure hLater
    exact ((hHolds.run hLater).failed failure hFailed).2

/-- The same body yields the one frame of its exchange. -/
theorem run_yields_events_until_end_whole_life :
    ∃ machine, passThroughStart.run passThrough wholeLife = some machine ∧
      machine.yielded = [.frame [10, 10] .completed] ∧
      (∀ item ∈ machine.yielded, item.Genuine passThrough ()) := by
  have hYielded : (passThroughStart.run passThrough wholeLife).map Machine.yielded =
      some [.frame [10, 10] .completed] := by decide +kernel
  obtain ⟨machine, hRun, hItems⟩ := Option.map_eq_some_iff.mp hYielded
  exact ⟨machine, hRun, hItems, (run_yields_events_until_end passThrough () () true true
    ⟨false, false⟩ 1024 10 wholeLife machine hRun).1⟩

end Any2Api.Stream
