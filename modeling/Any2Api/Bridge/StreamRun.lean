import Any2Api.Bridge.Deltas

/-! Whole streams: every event is pushed, and at the end the stream is
finished. -/
namespace Any2Api.Bridge

open Any2Api.Json Any2Api.Stream Any2Api.Sse OpenAiChat Multiplex

namespace ChatToResponsesStream

/-- Push every event, then finish; the result has all events that were
emitted. -/
def translate (platform : Platform) : List AdapterEvent → ChatToResponsesStream →
    Except ProtocolError (List (Nat × StreamEvent) × ChatToResponsesStream)
  | [], stream => do
      let (step, stream) ← finish platform stream
      pure (step.events, stream)
  | event :: events, stream => do
      let (step, stream) ← push platform event stream
      let (later, stream) ← translate platform events stream
      pure (step.events ++ later, stream)

variable {platform : Platform} {stream next : ChatToResponsesStream}
  {events : List (Nat × ItemEvent)} {source : List StreamEvent} {value : Value}
  {emitted more : List (Nat × StreamEvent)} {step : StreamUpdate}

/-! The steps of a chunk. -/

theorem sequenceEvents_eq_ok {first last : Nat}
    {numbered : List (Nat × StreamEvent)} (h : sequenceEvents first source = .ok (numbered, last)) :
    numbered.map Prod.fst = List.range' first source.length ∧ numbered.map Prod.snd = source ∧
      last = first + source.length := by
  induction source generalizing first numbered with
  | nil =>
    cases h
    simp
  | cons event source ih =>
    unfold sequenceEvents at h
    split_ifs at h
    obtain ⟨⟨rest, final⟩, hRest, h⟩ := Except.of_bind h
    cases h
    obtain ⟨hNumbers, hEvents, rfl⟩ := ih hRest
    refine ⟨?_, by simp [hEvents], by simp; omega⟩
    simp [hNumbers, List.range'_succ]

/-- Numbering goes on where it stopped. -/
theorem update_eq_ok {message : Option Value}
    (h : update source message stream = .ok (step, next)) :
    step.events.map Prod.snd = source ∧
      step.events.map Prod.fst = List.range' stream.nextSequenceNumber source.length ∧
      next.view = stream.view ∧ next.status = { stream.status with
        following := stream.nextSequenceNumber + source.length } := by
  obtain ⟨⟨numbered, last⟩, hNumbered, h⟩ := Except.of_bind h
  cases h
  obtain ⟨hNumbers, hEvents, rfl⟩ := sequenceEvents_eq_ok hNumbered
  exact ⟨hEvents, hNumbers, rfl, rfl⟩

theorem numbered_append (hEmitted : emitted.map Prod.fst = List.range emitted.length)
    (hMore : more.map Prod.fst = List.range' emitted.length source.length)
    (hSource : more.map Prod.snd = source) :
    (emitted ++ more).map Prod.fst = List.range (emitted ++ more).length := by
  have hLength : more.length = source.length := by
    rw [← hSource, List.length_map]
  have hSplit := @List.range'_append_1 0 emitted.length source.length
  rw [Nat.zero_add] at hSplit
  rw [List.map_append, hEmitted, hMore, List.length_append, hLength, List.range_eq_range',
    List.range_eq_range', hSplit]

/-- The opening events are there after `ensure_started`. -/
theorem ensureStarted_spec (stream : ChatToResponsesStream) :
    stream.ensureStarted.2.view = stream.view ∧
      stream.ensureStarted.2.status = { stream.status with started := true } ∧
      (stream.started ∧ stream.ensureStarted.1 = [] ∨ stream.started = false ∧
        ∃ opening, stream.ensureStarted.1 = [.created opening, .inProgress opening]) := by
  unfold ensureStarted
  split_ifs with hStarted
  · refine ⟨rfl, ?_, .inl ⟨hStarted, rfl⟩⟩
    rw [← hStarted]
    rfl
  · exact ⟨rfl, rfl, .inr ⟨by simpa using hStarted, _, rfl⟩⟩

/-- A chunk, in the steps that the translator takes: its metadata are kept, the
stream is opened, and its choices fill items. -/
theorem pushChunk_eq_ok (h : pushChunk platform value stream = .ok (step, next)) :
    ∃ observed events after, Fills stream [] observed ∧
      Fills observed.ensureStarted.2 events after ∧
      update (observed.ensureStarted.1 ++ itemEvents events) none after = .ok (step, next) := by
  obtain ⟨observed, hObserved, h⟩ := Except.of_bind h
  have hFills := observeMetadata_fills hObserved
  dsimp only at h
  split at h
  · obtain ⟨⟨items, after⟩, hItems, h⟩ := Except.of_bind h
    obtain ⟨_, -, h⟩ := Except.of_bind h
    exact ⟨observed, items, after, hFills, applyChoices_fills hItems, h⟩
  · split_ifs at h
    refine ⟨observed, [], observed.ensureStarted.2, hFills, .of_view rfl rfl, ?_⟩
    rw [itemEvents, List.map_nil, List.append_nil]
    exact h
  · cases h

/-! The invariant of a run. -/

/-- What was emitted before the end: the two opening events come with the first
chunk, and the events of items follow. -/
def Shown (started : Bool) (emitted : List (Nat × StreamEvent))
    (items : List (Nat × ItemEvent)) : Prop :=
  (started = false ∧ emitted = [] ∧ items = []) ∨ (started ∧
    ∃ opening, emitted.map Prod.snd = .created opening :: .inProgress opening :: itemEvents items)

/-- A stream that is not finished. Its items are open, each with an index of
its own. -/
structure Running (emitted : List (Nat × StreamEvent)) (stream : ChatToResponsesStream) :
    Prop where
  numbered : emitted.map Prod.fst = List.range emitted.length
  status : stream.status = ⟨stream.started, false, emitted.length⟩
  shown : ∃ order items, Tracked stream.view order items [] ∧
    Shown stream.started emitted items

theorem new_running (response : ResponseProjection) (profile : CompletionsProfile)
    (projection : ToolProjection) (bytes : Nat) :
    Running [] (new response profile projection bytes) :=
  ⟨rfl, rfl, [], [], new_tracked response profile projection bytes, .inl ⟨rfl, rfl, rfl⟩⟩

/-- The events of a running stream after another step. -/
theorem Shown.append {items : List (Nat × ItemEvent)} {opening : List StreamEvent}
    {started : Bool} (h : Shown started emitted items)
    (hOpening : started ∧ opening = [] ∨ started = false ∧
      ∃ response, opening = [.created response, .inProgress response]) :
    ∃ response, emitted.map Prod.snd ++ (opening ++ itemEvents events) =
      .created response :: .inProgress response :: itemEvents (items ++ events) := by
  rcases h with ⟨rfl, rfl, rfl⟩ | ⟨rfl, response, hEvents⟩
  · obtain ⟨response, rfl⟩ := (hOpening.resolve_left (by simp)).2
    exact ⟨response, rfl⟩
  · rw [(hOpening.resolve_right (by simp)).2, hEvents]
    exact ⟨response, by simp [itemEvents]⟩

namespace Running

variable (h : Running emitted stream)
include h

theorem completed : stream.completed = false := congrArg Status.completed h.status

theorem following : stream.nextSequenceNumber = emitted.length :=
  congrArg Status.following h.status

/-- A step without events keeps the stream running. -/
theorem of_fills (hFills : Fills stream [] next) : Running emitted next := by
  have hStarted : next.started = stream.started := congrArg Status.started hFills.status
  obtain ⟨order, items, hTracked, hShown⟩ := h.shown
  obtain ⟨later, hLater⟩ := hFills.tracked hTracked
  rw [List.append_nil] at hLater
  refine ⟨h.numbered, ?_, later, items, hLater, ?_⟩
  · rw [hFills.status, hStarted]
    exact h.status
  · rw [hStarted]
    exact hShown

/-- A chunk keeps the stream running. -/
theorem pushChunk (hPush : pushChunk platform value stream = .ok (step, next)) :
    Running (emitted ++ step.events) next := by
  obtain ⟨observed, events, after, hObserved, hFills, hUpdate⟩ := pushChunk_eq_ok hPush
  have hRunning := h.of_fills hObserved
  obtain ⟨order, items, hTracked, hShown⟩ := hRunning.shown
  obtain ⟨hStartedView, hStartedStatus, hOpening⟩ := ensureStarted_spec observed
  obtain ⟨hEvents, hNumbers, hNextView, hNextStatus⟩ := update_eq_ok hUpdate
  rw [← hStartedView] at hTracked
  obtain ⟨later, hLater⟩ := hFills.tracked hTracked
  have hAfter : after.status = ⟨true, false, emitted.length⟩ := by
    rw [hFills.status, hStartedStatus, hRunning.status]
  have hFirst : after.nextSequenceNumber = emitted.length := congrArg Status.following hAfter
  rw [hFirst] at hNumbers hNextStatus
  rw [hAfter] at hNextStatus
  have hStart : next.started = true := congrArg Status.started hNextStatus
  obtain ⟨opening, hAll⟩ := hShown.append hOpening
  refine ⟨numbered_append h.numbered hNumbers hEvents, ?_, later, items ++ events, ?_,
    .inr ⟨hStart, opening, ?_⟩⟩
  · rw [hNextStatus, hStart, ← hEvents, List.length_map, List.length_append]
  · rw [hNextView]
    exact hLater
  · rw [List.map_append, hEvents]
    exact hAll

end Running

/-! The end of a run. -/

theorem finishTools_status {keys : List Nat}
    (h : finishTools platform keys stream = .ok (events, next)) : next.status = stream.status := by
  induction keys generalizing stream events with
  | nil =>
    cases h
    rfl
  | cons key keys ih =>
    unfold finishTools at h
    split at h
    · cases h
    · next state _ =>
        obtain ⟨⟨first, middle⟩, hFirst, h⟩ := Except.of_bind h
        obtain ⟨⟨rest, last⟩, hRest, h⟩ := Except.of_bind h
        cases h
        have hMiddle : middle.status = stream.status := by
          cases hDone : state.done with
          | true =>
            rw [finishTool, if_pos hDone] at hFirst
            cases hFirst
            rfl
          | false =>
            obtain ⟨_, _, _, _, _, _, _, _, _, _, -, -, -, -, -, -, -, -, rfl⟩ :=
              finishTool_eq_ok hFirst hDone
            rfl
        exact (ih hRest).trans hMiddle

theorem finishItems_status (h : finishItems platform stream = .ok (events, next)) :
    next.status = stream.status := by
  have hReasoning : stream.finishReasoning.2.status = stream.status := rfl
  have hMessage : stream.finishReasoning.2.finishMessage.2.status =
      stream.finishReasoning.2.status := rfl
  unfold finishItems at h
  dsimp only at h
  generalize stream.finishReasoning.2.finishMessage.2 = closed at h hMessage
  obtain ⟨⟨rest, last⟩, hRest, h⟩ := Except.of_bind h
  cases h
  exact (finishTools_status hRest).trans (hMessage.trans hReasoning)

/-- The end of a stream, in the steps that the translator takes. -/
theorem finish_eq_ok (h : finish platform stream = .ok (step, next))
    (hRunning : stream.completed = false) :
    ∃ reason items after usage numbered,
      finishItems platform stream.ensureStarted.2 = .ok (items, after) ∧
      update (stream.ensureStarted.1 ++ itemEvents items ++ [after.terminalEvent reason usage])
        (some after.assistantMessage) after = .ok (step, numbered) ∧
      next = { numbered with completed := true } := by
  unfold finish at h
  rw [hRunning, if_neg Bool.false_ne_true] at h
  obtain ⟨_, -, h⟩ := Except.of_bind h
  obtain ⟨reason, -, h⟩ := Except.of_bind h
  obtain ⟨⟨items, after⟩, hItems, h⟩ := Except.of_bind h
  obtain ⟨usage, -, h⟩ := Except.of_bind h
  obtain ⟨⟨found, numbered⟩, hUpdate, h⟩ := Except.of_bind h
  cases h
  exact ⟨reason, items, after, usage, numbered, hItems, hUpdate, rfl⟩

theorem convertFailure_eq_ok {failure : Option ProtocolUpstreamFailureEvidence}
    {event : StreamEvent} (h : convertFailure value failure = .ok event) :
    ∃ code message param, event = .failed code message param failure := by
  unfold convertFailure at h
  split at h
  · cases h
  · obtain ⟨found, -, h⟩ := Except.of_bind h
    cases found with
    | none => cases h
    | some message =>
      obtain ⟨code, -, h⟩ := Except.of_bind h
      obtain ⟨kind, -, h⟩ := Except.of_bind h
      obtain ⟨param, -, h⟩ := Except.of_bind h
      cases h
      exact ⟨_, message, param, rfl⟩

/-- A stream that was running when it was finished. -/
def Ended (platform : Platform) (emitted : List (Nat × StreamEvent))
    (stream : ChatToResponsesStream) : Prop :=
  ∃ last earlier step, Running earlier last ∧ finish platform last = .ok (step, stream) ∧
    emitted = earlier ++ step.events

/-- A stream that was running when the target reported a failure: an error
event is the last one, and the items stay open. -/
def Failed (emitted : List (Nat × StreamEvent)) : Prop :=
  ∃ last earlier code message param failure, Running earlier last ∧
    emitted = earlier ++ [(earlier.length, .failed code message param failure)]

theorem Ended.completed (h : Ended platform emitted stream) : stream.completed = true := by
  obtain ⟨last, earlier, step, hRunning, hFinish, -⟩ := h
  obtain ⟨_, _, _, _, _, -, -, rfl⟩ := finish_eq_ok hFinish hRunning.completed
  rfl

theorem Running.pushFailure {failure : Option ProtocolUpstreamFailureEvidence}
    (h : Running emitted stream)
    (hPush : pushFailure value failure stream = .ok (step, next)) :
    next.completed = true ∧ Failed (emitted ++ step.events) := by
  obtain ⟨event, hEvent, hPush⟩ := Except.of_bind hPush
  obtain ⟨⟨found, numbered⟩, hUpdate, hPush⟩ := Except.of_bind hPush
  cases hPush
  obtain ⟨code, message, param, rfl⟩ := convertFailure_eq_ok hEvent
  obtain ⟨hEvents, hNumbers, -, -⟩ := update_eq_ok hUpdate
  have hStep : step.events = [(emitted.length, .failed code message param failure)] := by
    rw [← List.zip_unzip step.events, List.unzip_eq_map, hEvents, hNumbers, h.following]
    rfl
  exact ⟨rfl, stream, emitted, code, message, param, failure, h, by rw [hStep]⟩

/-- The target has answered with a failure. -/
def ReportsFailure (event : AdapterEvent) : Prop :=
  event.termination = .failed ∧ ∃ data, event.payload = .json data

/-- An event goes on with the stream, finishes it, or reports a failure. -/
theorem push_phase {event : AdapterEvent} (h : Running emitted stream)
    (hPush : push platform event stream = .ok (step, next)) :
    (¬ReportsFailure event ∧ (Running (emitted ++ step.events) next ∨
        Ended platform (emitted ++ step.events) next)) ∨
      (ReportsFailure event ∧ next.completed = true ∧ Failed (emitted ++ step.events)) := by
  unfold push at hPush
  rw [if_neg (by simp [h.completed])] at hPush
  have hMerged : Running emitted
      { stream with usage := mergeUsage stream.usage event.telemetry.tokenUsage } :=
    h.of_fills (.of_view rfl rfl)
  cases hPayload : event.payload with
  | empty =>
    rw [hPayload] at hPush
    cases hPush
    exact .inl ⟨by simp [ReportsFailure, hPayload], .inl (by simpa using hMerged)⟩
  | done =>
    rw [hPayload] at hPush
    exact .inl ⟨by simp [ReportsFailure, hPayload],
      .inr ⟨_, emitted, step, hMerged, hPush, rfl⟩⟩
  | nonJson =>
    rw [hPayload] at hPush
    cases hPush
  | json data =>
    rw [hPayload] at hPush
    dsimp only at hPush
    cases hValue : eventValue platform data.data with
    | none =>
      rw [hValue] at hPush
      cases hPush
    | some value =>
      rw [hValue] at hPush
      obtain ⟨counted, hCounted, hPush⟩ := Except.of_bind hPush
      have hRunning := hMerged.of_fills (observeUsage_fills hCounted)
      split_ifs at hPush with hFailed
      · exact .inr ⟨⟨hFailed, data, hPayload⟩, hRunning.pushFailure hPush⟩
      · exact .inl ⟨fun hReported => hFailed hReported.1, .inl (hRunning.pushChunk hPush)⟩

/-- After the end nothing more is pushed, and finishing again changes nothing. -/
theorem translate_completed {source : List AdapterEvent} (hDone : stream.completed = true)
    (h : translate platform source stream = .ok (more, next)) :
    source = [] ∧ more = [] ∧ next = stream := by
  cases source with
  | nil =>
    obtain ⟨⟨again, same⟩, hFinish, h⟩ := Except.of_bind h
    rw [finish, if_pos hDone] at hFinish
    cases hFinish
    cases h
    exact ⟨rfl, rfl, rfl⟩
  | cons event source =>
    obtain ⟨_, hPush, -⟩ := Except.of_bind h
    rw [push, if_pos hDone] at hPush
    cases hPush

/-- Every stream that is translated is finished once, unless a failure was
reported and has ended it. -/
theorem translate_ended {source : List AdapterEvent} (h : Running emitted stream)
    (hRun : translate platform source stream = .ok (more, next)) :
    ((∀ event ∈ source, ¬ReportsFailure event) ∧ Ended platform (emitted ++ more) next) ∨
      ((∃ event ∈ source, ReportsFailure event) ∧ Failed (emitted ++ more)) := by
  induction source generalizing stream emitted more with
  | nil =>
    obtain ⟨⟨step, last⟩, hFinish, hRun⟩ := Except.of_bind hRun
    cases hRun
    exact .inl ⟨List.forall_mem_nil _, stream, emitted, step, h, hFinish, rfl⟩
  | cons event source ih =>
    obtain ⟨⟨step, middle⟩, hPush, hRun⟩ := Except.of_bind hRun
    obtain ⟨⟨later, last⟩, hLater, hRun⟩ := Except.of_bind hRun
    cases hRun
    rw [← List.append_assoc]
    rcases push_phase h hPush with ⟨hQuiet, hRunning | hEnded⟩ | ⟨hReported, hDone, hFailed⟩
    · refine (ih hRunning hLater).imp (And.imp_left fun hRest => ?_) (And.imp_left fun hOther => ?_)
      · exact List.forall_mem_cons.mpr ⟨hQuiet, hRest⟩
      · exact List.exists_mem_cons_of_exists hOther
    · obtain ⟨rfl, rfl, rfl⟩ := translate_completed hEnded.completed hLater
      exact .inl ⟨by simpa using hQuiet, by simpa using hEnded⟩
    · obtain ⟨-, rfl, -⟩ := translate_completed hDone hLater
      exact .inr ⟨⟨event, List.mem_cons_self, hReported⟩, by simpa using hFailed⟩

end ChatToResponsesStream

end Any2Api.Bridge
