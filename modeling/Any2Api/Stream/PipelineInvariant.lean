import Any2Api.Library.Entries
import Any2Api.Sse.GatewayLoop
import Any2Api.Stream.GuardedBody

/-! What every step of the frame pipeline keeps: queued frames are encoded
events, a resource is only ever taken by the functions that own its
settlement, and a committed budget stays committed. -/
namespace Any2Api.Stream

open StateRules Any2Api.Sse

/-- The functions that may take a resource. -/
def Resource.takers : Resource → List Taker
  | .permit | .quotaActivity => [.finish, .releaseGuards]
  | .health =>
    [.finish, .releaseGuards, .finishPrecommitFailure, .finishPrecommitUpstreamFailure]
  | .attemptRecorder =>
    [.finish, .finishPrecommitFailure, .finishPrecommitUpstreamFailure, .failBeforeHandoff]
  | .lease _ => [.finish, .releaseGuards, .finalizePrecommitContinuation, .commitContinuationState]

/-- Nothing but taking happened on the way from `before` to `after`, and each
resource was taken by a function that may take it. -/
structure TakesAllowed (before after : Guards) : Prop where
  given : after.given = before.given
  taken : ∀ entry ∈ after.taken, entry ∈ before.taken ∨ entry.2 ∈ entry.1.takers

theorem TakesAllowed.trans {first second third : Guards} (h : TakesAllowed first second)
    (h' : TakesAllowed second third) : TakesAllowed first third := by
  refine ⟨h'.given.trans h.given, ?_⟩
  intro entry hEntry
  rcases h'.taken entry hEntry with hOld | hAllowed
  · exact h.taken entry hOld
  · exact .inr hAllowed

variable {taker : Taker}

variable (guards : Guards)

/-- Taking a resource from its field. -/
theorem takesAllowed_take {slot : Slot}
    (h : taker ∈ (guards.resource slot).takers) : TakesAllowed guards (guards.take slot taker) := by
  refine ⟨by simp, ?_⟩
  intro entry hEntry
  rcases Guards.mem_take hEntry with hOld | rfl
  · exact .inl hOld
  · exact .inr h

theorem takesAllowed_settleHealth (outcome : HealthOutcome) (h : taker ∈ Resource.health.takers) :
    TakesAllowed guards (guards.settleHealth taker outcome) := by
  refine ⟨by simp, ?_⟩
  intro entry hEntry
  rcases Guards.mem_settleHealth hEntry with hOld | rfl
  · exact .inl hOld
  · exact .inr h

theorem takesAllowed_settleAttempt (record : AttemptRecord)
    (h : taker ∈ Resource.attemptRecorder.takers) :
    TakesAllowed guards (guards.settleAttempt taker record) := by
  refine ⟨by simp, ?_⟩
  intro entry hEntry
  rcases Guards.mem_settleAttempt hEntry with hOld | rfl
  · exact .inl hOld
  · exact .inr h

section Invariant

variable {ω σ κ : Type} (env : Environment ω σ κ)

/-- The sessions that an exchange goes through. Decoding a frame and finishing
change the session whether or not they succeed. -/
inductive Reached (first : σ) : σ → Prop where
  | start : Reached first first
  | decode {session : σ} (frame : Bytes) (h : Reached first session) :
      Reached first (env.decodeUpstreamEvent frame session).2
  | finish {session : σ} (h : Reached first session) :
      Reached first (env.finishUpstreamEvents session).2

/-- An event that the exchange decodes from a frame or delivers at its end. -/
def Delivered (first : σ) (event : AdapterEvent) : Prop :=
  ∃ session events, Reached env first session ∧ event ∈ events ∧
    ((∃ frame, (env.decodeUpstreamEvent frame session).1 = .ok events) ∨
      (env.finishUpstreamEvents session).1 = .ok events)

/-- The bytes are the encoding of an event of the exchange, with its
termination. -/
def Encoded (first : σ) (bytes : Bytes) (termination : StreamTermination) : Prop :=
  ∃ session event, Reached env first session ∧ Delivered env first event ∧
    env.encodeEgressEvent session event env.publicModel = .ok bytes ∧
    event.termination = termination

/-- What a body starts with. -/
structure Origin (σ : Type) extends Gift where
  session : σ

/-- The pipeline invariant; `committed` is the part of it that priming has yet
to establish. -/
structure Sound (origin : Origin σ) (committed : Bool) (body : FramePipeline ω σ κ) : Prop where
  given : body.guards.given = origin.toGift
  session : Reached env origin.session body.session
  encoded : ∀ frame ∈ body.pending, Encoded env origin.session frame.bytes frame.termination
  takers : ∀ entry ∈ body.guards.taken, entry.2 ∈ entry.1.takers
  commit : committed = true → body.precommitBudget.committed = true

/-- The fields of the invariant that no resource belongs to. -/
def FramePipeline.progress (body : FramePipeline ω σ κ) : σ × List (PendingFrame κ) × Bool :=
  (body.session, body.pending, body.precommitBudget.committed)

variable {env} {origin : Origin σ} {committed : Bool} {body next body : FramePipeline ω σ κ}

/-- Taking resources in an allowed way keeps the invariant. -/
theorem Sound.of_taken (h : Sound env origin committed body)
    (hGuards : TakesAllowed body.guards next.guards) (hRest : next.progress = body.progress) :
    Sound env origin committed next := by
  simp only [FramePipeline.progress, Prod.mk.injEq] at hRest
  obtain ⟨hSession, hPending, hBudget⟩ := hRest
  exact ⟨hGuards.given.trans h.given, hSession ▸ h.session, hPending ▸ h.encoded,
    fun entry hEntry => (hGuards.taken entry hEntry).elim (h.takers entry) id, hBudget ▸ h.commit⟩

/-- So do updates of fields it does not read. -/
theorem Sound.of_same (h : Sound env origin committed body)
    (hGuards : (next.guards.given, next.guards.taken) = (body.guards.given, body.guards.taken))
    (hRest : next.progress = body.progress) : Sound env origin committed next := by
  obtain ⟨hGiven, hTaken⟩ := Prod.mk.inj hGuards
  exact h.of_taken ⟨hGiven, fun _ hEntry => .inl (hTaken ▸ hEntry)⟩ hRest

/-- Priming establishes the rest of the invariant once the budget is committed. -/
theorem Sound.commit_of (h : Sound env origin committed body)
    (hBudget : body.precommitBudget.committed = true) : Sound env origin true body :=
  { h with commit := fun _ => hBudget }

theorem Sound.mono {less : Bool} (h : Sound env origin committed body)
    (hLess : less = true → committed = true) : Sound env origin less body :=
  { h with commit := fun hCommit => h.commit (hLess hCommit) }

variable (observation : Observation)

theorem observe_keeps :
    Keeps (Sound env origin committed) (observe observation : PipelineM ω σ κ Unit) :=
  fun _ h => h.of_same rfl rfl

theorem observeAttempt_keeps :
    Keeps (Sound env origin committed) (observeAttempt observation : PipelineM ω σ κ Unit) := by
  refine .modify fun body h => ?_
  split
  · exact h.of_same rfl rfl
  · exact h

/-- An observation is no part of the budget. -/
theorem observeAttempt_budget (body : FramePipeline ω σ κ) :
    ((observeAttempt observation : PipelineM ω σ κ Unit).run body).2.precommitBudget =
      body.precommitBudget := by
  change (if _ then _ else _ : FramePipeline ω σ κ).precommitBudget = _
  split <;> rfl

theorem setPendingError_keeps (error : PendingStreamError) :
    Keeps (Sound env origin committed) (setPendingError error : PipelineM ω σ κ Unit) :=
  fun _ h => h.of_same rfl rfl

theorem readClock_keeps : Keeps (Sound env origin committed) (readClock env) :=
  fun _ h => h.of_same rfl rfl

theorem orFail_maintains {α : Type} (result : Except ProtocolError α) (error : PendingStreamError) :
    Maintains (Sound env origin committed) (orFail result error : FallibleM ω σ κ α) := by
  unfold orFail
  split
  · exact .pure _
  · exact .throw _

/-- The rest of a block after `orFail` runs on the value of the result. -/
theorem orFail_bind_maintains {α β : Type} {result : Except ProtocolError α}
    {error : PendingStreamError} {next : α → FallibleM ω σ κ β}
    (h : ∀ value, result = .ok value → Maintains (Sound env origin committed) (next value)) :
    Maintains (Sound env origin committed) (orFail result error >>= next) := by
  cases result with
  | ok value => exact h value rfl
  | error _ => exact fun _ h => h

theorem failIf_maintains (condition : Bool) (error : PendingStreamError) :
    Maintains (Sound env origin committed) (failIf condition error : FallibleM ω σ κ Unit) :=
  .ite (.throw _) (.pure _)

theorem checkDeadline_maintains (check : Bool) (deadline : Option Nat) :
    Maintains (Sound env origin committed) (checkDeadline env check deadline) := by
  unfold checkDeadline
  split
  · exact .bind (.lift readClock_keeps) fun _ => failIf_maintains _ _
  · exact .pure _

variable (id : String)

/-- A lease that is begun is no resource taken. -/
theorem beginLease_maintains (deadline : Option Nat) :
    Maintains (Sound env origin committed) (beginLease env id deadline) := by
  refine .withState fun body h => ?_
  split
  · exact h
  · split
    · exact h.of_same rfl rfl
    · exact h.of_same rfl rfl

/-- The lease is taken once its binding is ready. -/
theorem readyLease_maintains (lease : ContinuationLease) (state : Option κ) (deadline : Option Nat)
    (hTaker : ∀ number, taker ∈ (Resource.lease number).takers) :
    Maintains (Sound env origin committed) (readyLease env lease state deadline taker) := by
  refine .withState fun body h => ?_
  split
  · exact h.of_same rfl rfl
  · exact h.of_taken (takesAllowed_take _ (hTaker _)) rfl

theorem bindReady_maintains (state : Option κ) (deadline : Option Nat) :
    Maintains (Sound env origin committed) (bindReady env id state deadline) := by
  refine .withState fun body h => ?_
  split <;> exact h.of_same rfl rfl

theorem setContinuationId_maintains :
    Maintains (Sound env origin committed) (setContinuationId id : FallibleM ω σ κ Unit) :=
  .modify fun _ h => h.of_same rfl rfl

variable (continuationId : Option String)

theorem validateDeferredContinuationId_maintains :
    Maintains (Sound env origin committed)
      (validateDeferredContinuationId continuationId : FallibleM ω σ κ Unit) := by
  unfold validateDeferredContinuationId
  split
  · exact .pure _
  · exact .bind .get fun _ => failIf_maintains _ _

/-- After the commit the lease is taken by the event that makes it ready. -/
theorem commitContinuationState_maintains
    (state : BridgeContinuationState κ) (deadline : Option Nat) :
    Maintains (Sound env origin committed)
      (commitContinuationState env continuationId state deadline) := by
  refine .bind .get fun body => .bind (failIf_maintains _ _) fun _ => ?_
  split
  · exact .pure _
  · exact .bind (bindReady_maintains _ _ _) fun _ => setContinuationId_maintains _
  · exact .pure _
  · exact beginLease_maintains _ _
  · split
    · exact readyLease_maintains _ _ _ fun _ => by simp [Resource.takers]
    · exact .bind (bindReady_maintains _ _ _) fun _ => setContinuationId_maintains _
    · exact failIf_maintains _ _

theorem stageContinuation_maintains (next : PrecommitContinuation κ) (deadline : Option Nat) :
    Maintains (Sound env origin committed)
      (stageContinuation env continuationId next deadline) := by
  refine .bind ?_ fun _ => .bind .get fun _ =>
    .bind (failIf_maintains _ _) fun _ =>
      .modify fun _ h => h.of_same rfl rfl
  cases continuationId with
  | none => exact .pure _
  | some id => exact beginLease_maintains id deadline

/-- Before the commit nothing is taken: a lease is only begun. -/
theorem stagePrecommitContinuationState_maintains
    (state : BridgeContinuationState κ) (deadline : Option Nat) :
    Maintains (Sound env origin committed)
      (stagePrecommitContinuationState env continuationId state deadline) := by
  refine .bind .get fun body => .bind (failIf_maintains _ _) fun _ => ?_
  split
  · exact .pure _
  · exact .pure _
  · exact .throw _
  · dsimp only
    split
    · exact .pure _
    · exact .pure _
    · exact stageContinuation_maintains _ _ _
    · exact stageContinuation_maintains _ _ _
    · exact stageContinuation_maintains _ _ _
    · exact .throw _

variable (deadline : Option Nat) {frame : PendingFrame κ}

/-- The publication takes the lease of a staged continuation that is ready. -/
theorem finalizePrecommitContinuation_maintains :
    Maintains (Sound env origin committed) (finalizePrecommitContinuation env deadline) := by
  refine .bind .get fun body => .bind (.modify fun _ h => h.of_same rfl rfl) fun _ => ?_
  split
  · exact .pure _
  · exact .pure _
  · split
    · exact .throw _
    · exact readyLease_maintains _ _ _ fun _ => by simp [Resource.takers]

/-- A charge does not undo the commit. -/
theorem chargeBudget_maintains (bytes : Nat) :
    Maintains (Sound env origin committed) (chargeBudget bytes : FallibleM ω σ κ Unit) := by
  refine .withState fun body h => ?_
  split
  · exact h
  · next budget hBudget =>
      refine h.of_same rfl (congrArg (fun committed => (body.session, body.pending, committed)) ?_)
      simp only [PrecommitBudget.observeFrame] at hBudget
      split at hBudget
      · cases hBudget
        rfl
      · split at hBudget <;> cases hBudget
        rfl

theorem observeEvent_maintains (check : Bool) (continuationId : Option String)
    (state : BridgeContinuationState κ) (usage : TokenUsage) (tier : Option RequestSpeedTier) :
    Maintains (Sound env origin committed)
      (observeEvent env check continuationId state usage tier) :=
  .ite (validateDeferredContinuationId_maintains _)
    (Maintains.bind (commitContinuationState_maintains _ _ _) fun _ =>
      Maintains.bind (Maintains.lift (observe_keeps _)) fun _ => Maintains.lift (observe_keeps _))

/-- A queued frame has to be an encoded event. -/
theorem Sound.queueFrame (h : Sound env origin committed body) (check : Bool) (event : AdapterEvent)
    (failure : Option (UpstreamError × ProtocolRetryDelayBasis))
    (hFrame : Encoded env origin.session frame.bytes frame.termination) :
    Sound env origin committed (Stream.queueFrame check event failure frame body) :=
  { h with encoded := Entries.forall_mem_concat h.encoded hFrame }

/-- The queued frame is encoded in the session of the moment. -/
theorem pushEvent_maintains {event : AdapterEvent} (hEvent : Delivered env origin.session event)
    (deadline : Option Nat) :
    Maintains (Sound env origin committed) (pushEvent env event deadline) := by
  refine .withState fun body hBody => ?_
  refine Maintains.bind (checkDeadline_maintains _ _)
    (fun _ => .bind (orFail_maintains _ _) fun id => .bind (failIf_maintains _ _)
    fun _ => orFail_bind_maintains fun frame hFrame => ?_) body hBody
  exact .bind (checkDeadline_maintains _ _) fun _ =>
    .bind (chargeBudget_maintains _) fun _ =>
      .bind (observeEvent_maintains _ _ _ _ _) fun _ =>
        .modify fun _ h => h.queueFrame _ _ _
          ⟨body.session, event, hBody.session, hEvent, hFrame, rfl⟩

/-- The events of a frame, up to a terminal one. -/
theorem pushEvents_maintains {events : List AdapterEvent}
    (hEvents : ∀ event ∈ events, Delivered env origin.session event) :
    Maintains (Sound env origin committed) (pushEvents env deadline events) := by
  induction events with
  | nil => exact .pure _
  | cons event events ih =>
    obtain ⟨hEvent, hRest⟩ := List.forall_mem_cons.mp hEvents
    exact .bind (pushEvent_maintains hEvent deadline) fun _ =>
      .bind .get fun _ => .ite (.pure _) (ih hRest)

/-- The events that a frame is decoded to are events of the exchange. -/
theorem pushFrame_maintains (frame : Bytes) (deadline : Option Nat) :
    Maintains (Sound env origin committed) (pushFrame env frame deadline) := by
  refine .bind .get fun _ => .bind (checkDeadline_maintains _ _) fun _ => ?_
  rw [decodeFrame, bind_assoc]
  refine .withState fun body hBody => ?_
  rw [bind_assoc]
  have hSession := hBody.session
  refine Maintains.bind (.modify fun _ h => ?_) (fun _ => orFail_bind_maintains
    fun events hEvents => pushEvents_maintains deadline fun event hEvent =>
      ⟨body.session, events, hSession, hEvent, .inl ⟨frame, hEvents⟩⟩) body hBody
  exact { h with session := .decode frame h.session }

/-- A failed step keeps what the invariant says of the state it has reached. -/
theorem recordFailure_keeps {action : FallibleM ω σ κ Unit}
    (h : Maintains (Sound env origin committed) action) :
    Keeps (Sound env origin committed) (recordFailure action) := by
  refine .bind h fun result => ?_
  cases result with
  | ok _ => exact .pure _
  | error error => exact setPendingError_keeps error

/-- A turn of the frame loop that goes on. -/
theorem bufferedTurn_next
    (h : Sound env origin committed body) (hTurn : bufferedTurn env deadline body = .inl next) :
    Sound env origin committed next := by
  unfold bufferedTurn at hTurn
  split at hTurn
  · cases hTurn
  · cases hTurn
  · split at hTurn
    · cases hTurn
    · split at hTurn
      · cases hTurn
      · cases hTurn
        exact h.of_same rfl rfl

/-- A turn of the frame loop that handles a frame or an error, or runs out of input. -/
theorem bufferedTurn_exit {result : Bool × FramePipeline ω σ κ}
    (h : Sound env origin committed body)
    (hTurn : bufferedTurn env deadline body = .inr result) :
    Sound env origin committed result.2 := by
  unfold bufferedTurn at hTurn
  split at hTurn
  · cases hTurn
    exact setPendingError_keeps _ _ h
  · next frame decoder _ =>
      cases hTurn
      have hHandle : Keeps (Sound env origin committed) (do
          observeAttempt .firstUpstreamFrame
          recordFailure (pushFrame env frame deadline) : PipelineM ω σ κ Unit) :=
        .bind (observeAttempt_keeps _) fun _ => recordFailure_keeps (pushFrame_maintains _ _)
      exact hHandle _ (h.of_same rfl rfl)
  · split at hTurn
    · cases hTurn
      exact h.of_same rfl rfl
    · split at hTurn
      · cases hTurn
        exact setPendingError_keeps _ _ (h.of_same rfl rfl)
      · cases hTurn

/-- The measure of the frame loop: a waiting decoder counts more than a ready
one. -/
def bufferedSize (body : FramePipeline ω σ κ) : Nat :=
  (!body.decoder.frameReady).toNat + (body.bufferedChunk.map fun chunk => chunk.length + 1).getD 0

/-- A turn that goes on has pushed a part of the chunk or made a frame ready. -/
theorem bufferedTurn_shrinks (hTurn : bufferedTurn env deadline body = .inl next) :
    bufferedSize next < bufferedSize body := by
  unfold bufferedTurn at hTurn
  split at hTurn
  · cases hTurn
  · cases hTurn
  · next decoder hFrame =>
      obtain ⟨hReady, rfl⟩ : body.decoder.frameReady = false ∧ decoder = body.decoder := by
        rcases body.decoder.nextFrame_cases with ⟨_, h⟩ | ⟨_, _, h⟩ | ⟨_, hReady, h⟩ <;>
          simp_all
      split at hTurn
      · cases hTurn
      · next chunk hChunk =>
          split at hTurn
          · cases hTurn
          · next consumed decoder hPush =>
              cases hTurn
              simp only [bufferedSize, hReady, hChunk]
              by_cases hRest : chunk.drop consumed = []
              · simp [hRest]
                have := Bool.toNat_le (!decoder.frameReady)
                omega
              · have hInput : chunk.take (min body.decoder.nextInputLimit chunk.length) ≠ [] := by
                  have hLimit : 0 < body.decoder.nextInputLimit := by
                    simp [SseDecoder.nextInputLimit, hReady]
                  have hLong : chunk ≠ [] := fun hNil => hRest (by simp [hNil])
                  simp [hLong, Nat.pos_iff_ne_zero.mp hLimit]
                rcases SseDecoder.push_progress hReady hInput hPush with hMore | hDone
                · have := Bool.toNat_le (!decoder.frameReady)
                  have := List.length_pos_iff.mpr hRest
                  simp [hRest]
                  simp at this
                  omega
                · simp [hRest, hDone]
                  omega

/-- The frame loop always comes to an end. -/
theorem bufferedTurn_run (env : Environment ω σ κ) (deadline : Option Nat)
    (body : FramePipeline ω σ κ) :
    ∃ result, Loop.run (bufferedTurn env deadline) (bufferedFuel body) body = some result := by
  have hFuel : bufferedSize body < bufferedFuel body := by
    have := Bool.toNat_le (!body.decoder.frameReady)
    unfold bufferedSize bufferedFuel
    cases body.bufferedChunk <;> simp <;> omega
  obtain ⟨result, hRun, _⟩ := Loop.run_total bufferedSize (fun _ => True) (fun _ _ => True)
    (fun _ _ _ hTurn => ⟨trivial, bufferedTurn_shrinks deadline hTurn, fun _ _ => trivial⟩)
    (fun _ _ _ _ => trivial) _ body trivial hFuel
  exact ⟨result, hRun⟩

/-- The invariant of the loop, which has enough fuel. -/
theorem processBufferedFrame_keeps :
    Keeps (Sound env origin committed) (processBufferedFrame env deadline) := by
  intro body h
  obtain ⟨result, hRun⟩ := bufferedTurn_run env deadline body
  show Sound env origin committed
    ((Loop.run (bufferedTurn env deadline) (bufferedFuel body) body).getD (false, body)).2
  rw [hRun]
  exact Loop.run_invariant (fun _ _ hState hTurn => bufferedTurn_next deadline hState hTurn)
    (fun _ _ hState hTurn => bufferedTurn_exit deadline hState hTurn) h hRun

theorem processChunk_keeps (chunk : Bytes) (deadline : Option Nat) :
    Keeps (Sound env origin committed) (processChunk env chunk deadline) := by
  refine .bind (.modify fun body h => ?_) fun _ =>
    .bind (processBufferedFrame_keeps deadline) fun _ => .pure _
  split
  · exact h
  · exact h.of_same rfl rfl

theorem finishLastFrame_keeps :
    Keeps (Sound env origin committed) (finishLastFrame env deadline) := by
  refine .bind .get fun body => ?_
  split
  · exact setPendingError_keeps _
  · refine .bind (.modify fun _ h => h.of_same rfl rfl) fun _ => ?_
    split
    · exact .pure _
    · exact recordFailure_keeps (pushFrame_maintains _ _)

/-- The events at the end of the input are events of the exchange, too. -/
theorem finishEvents_keeps : Keeps (Sound env origin committed) (finishEvents env deadline) := by
  refine .withState fun body hBody => ?_
  have hSession := hBody.session
  refine Keeps.bind (.modify fun _ h => ?_) (fun _ => ?_) body hBody
  · exact { h with session := .finish h.session }
  · split
    · next events hEvents =>
        exact recordFailure_keeps (pushEvents_maintains _ fun event hEvent =>
          ⟨body.session, events, hSession, hEvent, .inr hEvents⟩)
    · exact setPendingError_keeps _

theorem unlessFailed_keeps {action : PipelineM ω σ κ Unit}
    (h : Keeps (Sound env origin committed) action) :
    Keeps (Sound env origin committed) (unlessFailed action) :=
  .bind .get fun _ => .ite h (.pure _)

theorem requireTerminalEvent_keeps :
    Keeps (Sound env origin committed) (requireTerminalEvent env) :=
  .bind .get fun _ => .ite (setPendingError_keeps _) (.pure _)

theorem finishDecoder_keeps : Keeps (Sound env origin committed) (finishDecoder env deadline) :=
  .bind .get fun _ => .ite (.pure _) <|
    Keeps.bind (Keeps.modify fun _ h => h.of_same rfl rfl) fun _ =>
      Keeps.bind (finishLastFrame_keeps deadline) fun _ =>
        Keeps.bind (unlessFailed_keeps (finishEvents_keeps deadline)) fun _ =>
          unlessFailed_keeps requireTerminalEvent_keeps

theorem processEof_keeps : Keeps (Sound env origin committed) (processEof env deadline) :=
  .bind (.modify fun _ h => h.of_same rfl rfl) fun _ =>
    Keeps.bind (processBufferedFrame_keeps deadline) fun _ =>
      Keeps.ite (Keeps.pure _) (finishDecoder_keeps deadline)

/-- Committing puts back exactly the frames that were held back. -/
theorem commitFrame_maintains (hFrame : Encoded env origin.session frame.bytes frame.termination) :
    Maintains (Sound env origin committed) (commitFrame env deadline frame) := by
  refine .bind (stagePrecommitContinuationState_maintains _ _ _) fun _ =>
    .bind (.lift (observe_keeps _)) fun _ =>
      .bind (.lift (observe_keeps _)) fun _ => .modify fun body h => ?_
  exact { h with encoded := Entries.forall_mem_concat h.encoded hFrame }

/-- The held-back frames are put back one by one, and the budget is committed at the end. -/
theorem commitPrecommitFrames_maintains :
    Maintains (Sound env origin committed) (commitPrecommitFrames env deadline) := by
  refine .withState fun body h => ?_
  have hFrames := h.encoded
  refine Maintains.bind (Maintains.modify fun _ h => ?_) (fun _ => Maintains.bind
    (.forM fun frame hFrame => commitFrame_maintains deadline (hFrames frame hFrame))
      fun _ => .bind (.modify fun _ h => ?_) fun _ =>
        .lift (observeAttempt_keeps _)) body h
  · exact { h with encoded := by simp }
  · exact { h with commit := fun _ => rfl }

/-- Success of the commit means that the budget is committed. -/
theorem commitPrecommitFrames_ensures :
    Ensures (fun body : FramePipeline ω σ κ => body.precommitBudget.committed = true)
      (commitPrecommitFrames env deadline) := by
  refine .bind fun body => .bind fun _ => .bind fun _ => ?_
  rintro before _ after hRun
  cases hRun
  exact congrArg PrecommitBudget.committed (observeAttempt_budget .streamCommit _)

end Invariant

end Any2Api.Stream
