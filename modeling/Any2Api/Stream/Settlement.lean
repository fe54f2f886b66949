import Any2Api.Stream.PipelineInvariant

/-! The functions that end a body: each one closes it, leaves nothing held and
keeps the pipeline invariant. They differ in whether the request recorder is
finished as well. -/
namespace Any2Api.Stream.GuardedBody

open StateRules

section Settlement

variable {ω σ κ : Type} {env : Environment ω σ κ} {origin : Origin σ} {committed : Bool}
  {body : GuardedBody ω σ κ}

/-- The body is over and everything it owned was taken. -/
structure Closed (body : GuardedBody ω σ κ) : Prop where
  finished : body.state = .finished
  settled : body.guards.Settled

@[simp] theorem withGuards_fields (body : GuardedBody ω σ κ) (update : Guards → Guards) :
    (body.withGuards update).state = body.state ∧
    (body.withGuards update).ownsRequestCompletion = body.ownsRequestCompletion ∧
    (body.withGuards update).requestFinishes = body.requestFinishes ∧
    (body.withGuards update).guards = update body.guards := ⟨rfl, rfl, rfl, rfl⟩

@[simp] theorem dropStagedContinuation_fields (body : GuardedBody ω σ κ) :
    body.dropStagedContinuation.state = body.state ∧
    body.dropStagedContinuation.ownsRequestCompletion = body.ownsRequestCompletion ∧
    body.dropStagedContinuation.requestFinishes = body.requestFinishes ∧
    body.dropStagedContinuation.guards = body.guards := ⟨rfl, rfl, rfl, rfl⟩

@[simp] theorem close_fields (body : GuardedBody ω σ κ) :
    body.close.state = .finished ∧
    body.close.ownsRequestCompletion = body.ownsRequestCompletion ∧
    body.close.requestFinishes = body.requestFinishes ∧
    body.close.guards = body.guards := ⟨rfl, rfl, rfl, rfl⟩

@[simp] theorem dropLease_fields (taker : Taker) (body : GuardedBody ω σ κ) :
    (dropLease env taker body).state = body.state ∧
    (dropLease env taker body).ownsRequestCompletion = body.ownsRequestCompletion ∧
    (dropLease env taker body).requestFinishes = body.requestFinishes ∧
    (dropLease env taker body).guards.permit = body.guards.permit ∧
    (dropLease env taker body).guards.health = body.guards.health ∧
    (dropLease env taker body).guards.quotaActivity = body.guards.quotaActivity ∧
    (dropLease env taker body).guards.attemptRecorder = body.guards.attemptRecorder ∧
    (dropLease env taker body).guards.continuationLease = none := by
  unfold dropLease
  split
  · next hNone => simp [guards, hNone]
  · simp [guards]

/-- An observation changes nothing but the log of observations. -/
@[simp] theorem observeCancel_fields (outcome : StreamOutcome) (body : GuardedBody ω σ κ) :
    (observeCancel outcome body).state = body.state ∧
    (observeCancel outcome body).ownsRequestCompletion = body.ownsRequestCompletion ∧
    (observeCancel outcome body).requestFinishes = body.requestFinishes ∧
    (observeCancel outcome body).guards = body.guards := by
  unfold observeCancel
  split
  · refine ⟨rfl, rfl, rfl, ?_⟩
    change (if _ then _ else _ : FramePipeline ω σ κ).guards = _
    split <;> rfl
  · exact ⟨rfl, rfl, rfl, rfl⟩

@[simp] theorem finishRequest_fields (outcome : StreamOutcome) (body : GuardedBody ω σ κ) :
    (finishRequest env outcome body).state = body.state ∧
    (finishRequest env outcome body).ownsRequestCompletion = body.ownsRequestCompletion ∧
    (finishRequest env outcome body).guards = body.guards ∧
    (finishRequest env outcome body).requestFinishes.length =
      body.requestFinishes.length + body.ownsRequestCompletion.toNat := by
  unfold finishRequest
  split
  · next hOwns => simp [guards, hOwns]
  · next hOwns => simp [hOwns]

/-- The first `finish` closes the body and finishes the request it owns. -/
theorem finish_closed (env : Environment ω σ κ) (outcome : StreamOutcome)
    (h : body.state ≠ .finished) :
    (finish env outcome body).Closed ∧
    (finish env outcome body).ownsRequestCompletion = body.ownsRequestCompletion ∧
    (finish env outcome body).requestFinishes.length =
      body.requestFinishes.length + body.ownsRequestCompletion.toNat := by
  unfold finish
  rw [if_neg h]
  refine ⟨⟨by simp, by simp [Guards.Settled]⟩, by simp, by simp⟩

variable (outcome : StreamOutcome)

/-- A later `finish` does nothing. -/
theorem finish_of_finished (h : body.state = .finished) : finish env outcome body = body := if_pos h

section

variable (h : Sound env origin committed body.pipeline)
include h

theorem sound_withGuards {update : Guards → Guards}
    (hUpdate : TakesAllowed body.guards (update body.guards)) :
    Sound env origin committed (body.withGuards update).pipeline := h.of_taken hUpdate rfl

theorem observeCancel_sound : Sound env origin committed (observeCancel outcome body).pipeline := by
  unfold observeCancel
  split
  · exact observeAttempt_keeps _ _ h
  · exact h

theorem finishRequest_sound :
    Sound env origin committed (finishRequest env outcome body).pipeline := by
  unfold finishRequest
  split <;> exact h

/-- Closing a body drops its lease and its staged continuation. -/
theorem closed_lease_sound {taker : Taker}
    (hTaker : ∀ number, taker ∈ (Resource.lease number).takers) :
    Sound env origin committed
      (dropStagedContinuation (dropLease env taker body.close)).pipeline := by
  have hClosed : Sound env origin committed body.close.pipeline := h
  refine .of_same (?_ : Sound env origin committed (dropLease env taker body.close).pipeline)
    rfl rfl
  unfold dropLease
  split
  · exact hClosed
  · exact hClosed.of_taken (takesAllowed_take _ (hTaker _)) rfl

theorem finish_sound : Sound env origin committed (finish env outcome body).pipeline := by
  unfold finish
  split
  · exact h
  · have hDropped := closed_lease_sound h fun _ => (by simp [Resource.takers] :
      Taker.finish ∈ _)
    refine sound_withGuards (finishRequest_sound outcome (sound_withGuards
      (observeCancel_sound outcome hDropped) ?_)) ?_
    · exact (takesAllowed_settleHealth _ _ (by decide)).trans
        (takesAllowed_settleAttempt _ _ (by decide))
    · exact (takesAllowed_take _ (by simp [GuardFields.resource, Resource.takers])).trans
        (takesAllowed_take _ (by simp [GuardFields.resource, Resource.takers]))

theorem releaseGuards_sound : Sound env origin committed (releaseGuards env body).pipeline := by
  have hDropped := closed_lease_sound h fun _ => (by simp [Resource.takers] :
    Taker.releaseGuards ∈ _)
  refine sound_withGuards hDropped (.trans (takesAllowed_settleHealth _ _ ?_)
    (.trans (takesAllowed_take _ ?_) (takesAllowed_take _ ?_))) <;>
      simp [GuardFields.resource, Resource.takers]

end

end Settlement

end Any2Api.Stream.GuardedBody
