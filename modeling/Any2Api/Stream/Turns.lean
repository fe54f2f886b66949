import Any2Api.Stream.Settlement

/-! What one turn of the priming loop or of the polling loop does to an open
body: it leaves the body open, ends the stream, or releases everything before
the handoff. -/
namespace Any2Api.Stream.GuardedBody

open StateRules

section Turns

variable {ω σ κ : Type} (env : Environment ω σ κ) (origin : Origin σ) (committed : Bool)

/-- A step that leaves the body open and the request unfinished. -/
structure Stays (body next : GuardedBody ω σ κ) : Prop where
  sound : Sound env origin committed next.pipeline
  running : next.state ≠ .finished
  owns : next.ownsRequestCompletion = body.ownsRequestCompletion
  finishes : next.requestFinishes = body.requestFinishes

/-- A step that ends the stream: it finishes the request the body owns. -/
structure Settles (body next : GuardedBody ω σ κ) : Prop where
  sound : Sound env origin committed next.pipeline
  closed : next.Closed
  owns : next.ownsRequestCompletion = body.ownsRequestCompletion
  finishes : next.requestFinishes.length =
    body.requestFinishes.length + body.ownsRequestCompletion.toNat

/-- A step that releases a body before it is handed off. -/
structure Releases (body next : GuardedBody ω σ κ) : Prop where
  sound : Sound env origin committed next.pipeline
  closed : next.Closed
  owns : next.ownsRequestCompletion = body.ownsRequestCompletion
  finishes : next.requestFinishes = body.requestFinishes

variable {env origin committed} {body next : GuardedBody ω σ κ} {last : GuardedBody ω σ κ}

theorem Stays.refl (h : Sound env origin committed body.pipeline) (hOpen : body.state ≠ .finished) :
    Stays env origin committed body body := ⟨h, hOpen, rfl, rfl⟩

theorem Stays.trans {more : Bool}
    (h : Stays env origin committed body next) (h' : Stays env origin more next last) :
    Stays env origin more body last :=
  ⟨h'.sound, h'.running, h'.owns.trans h.owns, h'.finishes.trans h.finishes⟩

theorem Stays.trans_releases {more : Bool}
    (h : Stays env origin committed body next) (h' : Releases env origin more next last) :
    Releases env origin more body last :=
  ⟨h'.sound, h'.closed, h'.owns.trans h.owns, h'.finishes.trans h.finishes⟩

/-- Pipeline work does not touch the state of the body. -/
theorem Stays.runPipeline {α : Type} {action : PipelineM ω σ κ α}
    (hAction : Keeps (Sound env origin committed) action)
    (h : Stays env origin committed body next) :
    Stays env origin committed body (runPipeline action next).2 :=
  ⟨hAction _ h.sound, h.running, h.owns, h.finishes⟩

theorem Stays.advance {action : PipelineM ω σ κ Unit}
    (hAction : Keeps (Sound env origin committed) action)
    (h : Stays env origin committed body next) :
    Stays env origin committed body (advance action next) := h.runPipeline hAction

theorem Stays.ite (condition : Prop) [Decidable condition] {yes no : GuardedBody ω σ κ}
    (hYes : Stays env origin committed body yes) (hNo : Stays env origin committed body no) :
    Stays env origin committed body (if condition then yes else no) := by
  split
  · exact hYes
  · exact hNo

theorem Stays.finish (outcome : StreamOutcome) (h : Stays env origin committed body next) :
    Settles env origin committed body (finish env outcome next) := by
  obtain ⟨hClosed, hOwns, hFinishes⟩ := finish_closed env outcome h.running
  exact ⟨finish_sound outcome h.sound, hClosed, hOwns.trans h.owns, by
    rw [hFinishes, h.finishes, h.owns]⟩

section

variable (h : Stays env origin committed body next)
include h

theorem Stays.withGuards {update : Guards → Guards}
    (hUpdate : TakesAllowed next.guards (update next.guards)) :
    Stays env origin committed body (next.withGuards update) :=
  ⟨sound_withGuards h.sound hUpdate, h.running, h.owns, h.finishes⟩

theorem Stays.releaseGuards (hRecorder : next.guards.attemptRecorder = none) :
    Releases env origin committed body (releaseGuards env next) := by
  refine ⟨releaseGuards_sound h.sound, ⟨?_, ?_⟩, ?_, ?_⟩
  · simp [GuardedBody.releaseGuards]
  · simp [GuardedBody.releaseGuards, Guards.Settled, hRecorder]
  · simpa [GuardedBody.releaseGuards] using h.owns
  · simpa [GuardedBody.releaseGuards] using h.finishes

theorem Stays.finishPrecommitFailure :
    Releases env origin committed body (finishPrecommitFailure env next).2 := by
  have hCleared : Stays env origin committed body
      { next with pipeline := { next.pipeline with pendingError := none } } :=
    ⟨h.sound.of_same rfl rfl, h.running, h.owns, h.finishes⟩
  exact (hCleared.withGuards ((takesAllowed_settleHealth _ _ (by decide)).trans
    (takesAllowed_settleAttempt _ _ (by decide)))).releaseGuards (by simp)

end

theorem Stays.finishPrecommitUpstreamFailure (error : UpstreamError)
    (h : Stays env origin committed body next) :
    Releases env origin committed body (finishPrecommitUpstreamFailure env error next) :=
  (h.withGuards ((takesAllowed_settleHealth _ _ (by decide)).trans
    (takesAllowed_settleAttempt _ _ (by decide)))).releaseGuards (by simp)

theorem runPipeline_ensures {post : FramePipeline ω σ κ → Prop} {action : FallibleM ω σ κ Unit}
    (h : Ensures post action) (hRun : runPipeline action.run body = (.ok (), next)) :
    post next.pipeline := by
  obtain ⟨hOk, rfl⟩ := Prod.ext_iff.mp hRun
  exact h body.pipeline () _ (Prod.ext hOk rfl)

/-- A frame after which the stream goes on. -/
def StreamItem.continues : StreamItem → Bool
  | .frame _ termination => !termination.isTerminal
  | .error _ => false

/-- A yielded frame is an encoded event of the exchange that started with
`first`. -/
def StreamItem.Genuine (env : Environment ω σ κ) (first : σ) : StreamItem → Prop
  | .frame bytes termination => Encoded env first bytes termination
  | .error _ => True

theorem finishPendingTermination_settles (h : Stays env origin committed body next) :
    Settles env origin committed body (finishPendingTermination env next) := by
  have hCleared : Stays env origin committed body { next with pendingTermination := .none } :=
    ⟨h.sound, h.running, h.owns, h.finishes⟩
  unfold finishPendingTermination
  dsimp only
  split
  · next error _ =>
      have hTaken : Stays env origin committed body
          { next with pendingTermination := .none, pendingUpstreamError := none } :=
        ⟨h.sound, h.running, h.owns, h.finishes⟩
      exact hTaken.finish _
  · exact hCleared.finish _
  · exact hCleared.finish _

/-- What a turn of the polling loop does to an open body. -/
inductive PollOutcome (env : Environment ω σ κ) (origin : Origin σ) (committed : Bool)
    (body : GuardedBody ω σ κ) : PollTurn × GuardedBody ω σ κ → Prop where
  | goesOn {turn : PollTurn} {next : GuardedBody ω σ κ} (hTurn : ∀ item, turn ≠ .ready item)
      (hNext : Stays env origin committed body next) :
      PollOutcome env origin committed body (turn, next)
  | yields {item : StreamItem} {next : GuardedBody ω σ κ} (hItem : item.continues)
      (hGenuine : item.Genuine env origin.session) (hNext : Stays env origin committed body next) :
      PollOutcome env origin committed body (.ready (some item), next)
  | ends {item : Option StreamItem} {next : GuardedBody ω σ κ}
      (hGenuine : ∀ last ∈ item, last.Genuine env origin.session)
      (hNext : Settles env origin committed body next) :
      PollOutcome env origin committed body (.ready item, next)

/-- The first frame of the queue goes out. -/
theorem yieldFrame_outcome {frame : PendingFrame κ} {rest : List (PendingFrame κ)}
    (h : Sound env origin committed body.pipeline)
    (hPending : body.pipeline.pending = frame :: rest) :
    PollOutcome env origin committed body
      (.ready (some (.frame frame.bytes frame.termination)), yieldFrame env frame rest body) := by
  have hFrames := h.encoded
  rw [hPending] at hFrames
  obtain ⟨hFrame, hRest⟩ := List.forall_mem_cons.mp hFrames
  have hPopped : Stays env origin committed body { body with
      state := .transportCommitted
      pipeline := { body.pipeline with pending := rest } } :=
    ⟨{ h with encoded := hRest }, nofun, rfl, rfl⟩
  have hBytes := Stays.ite (frame.bytes = []) hPopped
    (hPopped.advance (observeAttempt_keeps .firstDownstreamByte))
  have hToken := Stays.ite frame.hasContentDelta
    (hBytes.advance (observe_keeps .firstToken)) hBytes
  unfold yieldFrame
  dsimp only
  split
  · refine .ends (by simpa [StreamItem.Genuine] using hFrame) ?_
    exact finishPendingTermination_settles ⟨hToken.sound, hToken.running, hToken.owns,
      hToken.finishes⟩
  · next hTerminal =>
      refine .yields (by simpa [StreamItem.continues] using hTerminal) hFrame ?_
      exact ⟨hToken.sound, hToken.running, hToken.owns, hToken.finishes⟩

/-- The part of a turn after the buffered input is used up. -/
theorem pollEnd_outcome (h : Stays env origin committed body next) :
    PollOutcome env origin committed body
      (if next.pipeline.upstreamDone && (!next.pipeline.decoderFinished ||
          !next.pipeline.pending.isEmpty || next.pipeline.pendingError.isSome) then (.again, next)
      else if next.pipeline.upstreamDone || next.cancelled then
        (.ready none, finish env .success next)
      else (.readUpstream, next)) := by
  split
  · exact .goesOn (by simp) h
  · split
    · exact .ends (by simp) (h.finish _)
    · exact .goesOn (by simp) h

theorem pollTurn_of_finished (h : body.state = .finished) :
    pollTurn env body = (.ready none, body) := if_pos h

section

variable (h : Sound env origin committed body.pipeline) (hOpen : body.state ≠ .finished)
include h hOpen

theorem startPrime_stays : Stays env origin committed body (startPrime env body) :=
  ⟨readClock_keeps _ h, hOpen, rfl, rfl⟩

/-- Priming keeps the body open. -/
theorem primeTurn_stays : Stays env origin committed body (primeTurn env body).2 := by
  have hStart := Stays.refl h hOpen
  have hHandled := hStart.runPipeline (processBufferedFrame_keeps body.precommitDeadline)
  unfold primeTurn
  split
  · exact hStart
  · dsimp only
    split
    · exact hHandled
    · split
      · exact hHandled.advance (finishDecoder_keeps _)
      · have hClock := hHandled.runPipeline readClock_keeps
        split
        · exact hClock.advance (setPendingError_keeps _)
        · exact hClock

theorem primeInput_stays (item : Option UpstreamItem) :
    Stays env origin committed body (primeInput env item body) := by
  have hStart := Stays.refl h hOpen
  unfold primeInput
  split
  · exact hStart.advance (processChunk_keeps _ _)
  · exact hStart.advance (setPendingError_keeps _)
  · exact hStart.advance (processEof_keeps _)
  · exact hStart.advance (setPendingError_keeps _)

/-- Priming ends with a committed budget or with everything released. -/
theorem primeEnd_spec :
    ((primeEnd env body).1 = .ok () ∧ Stays env origin true body (primeEnd env body).2) ∨
    (∃ failure, (primeEnd env body).1 = .error failure ∧
      Releases env origin committed body (primeEnd env body).2) := by
  have hStart := Stays.refl h hOpen
  unfold primeEnd
  split
  · next failure _ =>
      have hTaken : Stays env origin committed body { body with pipeline :=
          { body.pipeline with precommitUpstreamFailure := none } } :=
        ⟨h.of_same rfl rfl, hOpen, rfl, rfl⟩
      exact .inr ⟨_, rfl, hTaken.finishPrecommitUpstreamFailure failure.error⟩
  · split
    · exact .inr ⟨_, rfl, hStart.finishPrecommitFailure⟩
    · have hKeeps : Maintains (Sound env origin committed)
          (commitPrecommitFrames env body.precommitDeadline) := commitPrecommitFrames_maintains _
      have hCommit := hStart.runPipeline hKeeps
      split
      · next after hRun =>
          rw [hRun] at hCommit
          have hBudget := runPipeline_ensures (commitPrecommitFrames_ensures _) hRun
          exact .inl ⟨rfl, ⟨hCommit.sound.commit_of hBudget, hCommit.running, hCommit.owns,
            hCommit.finishes⟩⟩
      · next error after hRun =>
          rw [hRun] at hCommit
          exact .inr ⟨_, rfl,
            (hCommit.advance (setPendingError_keeps error)).finishPrecommitFailure⟩

/-- Publishing the continuation keeps a committed body or releases it. -/
theorem commitPrecommitContinuation_spec (deadline : Option Nat) :
    ((commitPrecommitContinuation env deadline body).1 = .ok () ∧
      Stays env origin committed body (commitPrecommitContinuation env deadline body).2) ∨
    (∃ error, (commitPrecommitContinuation env deadline body).1 = .error error ∧
      Releases env origin committed body (commitPrecommitContinuation env deadline body).2) := by
  have hKeeps : Maintains (Sound env origin committed)
    (finalizePrecommitContinuation env deadline) := finalizePrecommitContinuation_maintains _
  have hFinal := (Stays.refl h hOpen).runPipeline hKeeps
  unfold commitPrecommitContinuation
  split
  · next hRun =>
      rw [hRun] at hFinal
      exact .inl ⟨rfl, hFinal⟩
  · next error after hRun =>
      rw [hRun] at hFinal
      exact .inr ⟨_, rfl, (hFinal.advance (setPendingError_keeps error)).finishPrecommitFailure⟩

/-- A turn goes on, yields or ends. -/
theorem pollTurn_outcome : PollOutcome env origin committed body (pollTurn env body) := by
  have hStart := Stays.refl h hOpen
  unfold pollTurn
  rw [if_neg hOpen]
  split
  · exact .ends (by simp) (finishPendingTermination_settles hStart)
  · split
    · next hPending => exact yieldFrame_outcome h hPending
    · next error _ _ =>
        have hTaken : Stays env origin committed body
            { body with pipeline := { body.pipeline with pendingError := none } } :=
          ⟨h.of_same rfl rfl, hOpen, rfl, rfl⟩
        exact .ends (by simp [StreamItem.Genuine]) (hTaken.finish _)
    · have hHandled := hStart.runPipeline (processBufferedFrame_keeps none)
      have hDone := Stays.ite
        (runPipeline (processBufferedFrame env none) body).2.pipeline.upstreamDone
        (hHandled.advance (finishDecoder_keeps none)) hHandled
      dsimp only
      split
      · exact .goesOn (by simp) hHandled
      · exact pollEnd_outcome hDone

/-- So does a turn that reads from upstream. -/
theorem pollInput_outcome (item : Option UpstreamItem) (idleElapsed : Bool) :
    PollOutcome env origin committed body (pollInput env item idleElapsed body) := by
  have hStart := Stays.refl h hOpen
  unfold pollInput
  split
  · have hArmed : Stays env origin committed body { body with idleTimer := true } :=
      ⟨h, hOpen, rfl, rfl⟩
    exact .goesOn (by simp) (hArmed.advance (processChunk_keeps _ _))
  · exact .goesOn (by simp) (hStart.advance (setPendingError_keeps _))
  · exact .goesOn (by simp) (hStart.advance (processEof_keeps _))
  · split
    · exact .goesOn (by simp) (hStart.advance (setPendingError_keeps _))
    · exact .goesOn (by simp) hStart

end

end Turns

end Any2Api.Stream.GuardedBody
