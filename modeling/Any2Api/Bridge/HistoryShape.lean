import Any2Api.Bridge.Assembly

/-! What an accepted input does to the conversation. The regular messages are
those of an assembler that never defers: it emits each message where its item
stands. The calls and outputs are added one for one. -/
namespace Any2Api.Bridge

open Any2Api.Json OpenAiChat ConversationLedger

/-! The assembler without deferral. -/

variable (profile : CompletionsProfile)

/-- The message of reasoning that goes with nothing else. -/
def reasoningMessages (reasoning : String) : Except ProtocolError (List Value) :=
  if reasoning = "" then .ok []
  else do return [← insertReasoning profile (plainMessage "assistant" .null) reasoning]

/-- The messages of a message item after some reasoning. -/
def messageRegulars (reasoning : String) (object : Object) : Except ProtocolError (List Value) := do
  let role ← InputAssembler.messageRole profile object
  if role = "assistant" then do
    let content ← InputAssembler.messageContent profile object role
    let message ← InputAssembler.attachReasoning profile reasoning (plainMessage role content)
    pure [message]
  else do
    let before ← reasoningMessages profile reasoning
    let content ← InputAssembler.messageContent profile object role
    pure (before ++ [plainMessage role content])

def textRegulars (reasoning : String) (object : Object) : Except ProtocolError (List Value) := do
  let before ← reasoningMessages profile reasoning
  let text ← requiredString (object.get? "text") "input_text.text"
  pure (before ++ [plainMessage "user" (.string text)])

/-- The regular messages of an item that is not a call, and the reasoning that
is collected after it. -/
def itemRegulars (reasoning : String) (item : Value)
    (object : Object) : Except ProtocolError (List Value × String) :=
  match itemType object, outputKind (itemType object) with
  | _, some _ => .ok ([], reasoning)
  | kind, none =>
    if (kind = some "message" ∨ kind = none) ∧ object.containsKey "role" then do
      return (← messageRegulars profile reasoning object, "")
    else
      match kind with
      | some "input_text" => do return (← textRegulars profile reasoning object, "")
      | some "reasoning" => .ok ([], reasoning ++ reasoningText item)
      | some kind => .error (.unsupportedValue "input item type" kind)
      | none => .error (invalid "Responses input item type is required")

/-- The regular messages of the input, in its order. Reasoning before a call
goes into the message of the call, so it is dropped here once the calls are
`buffered`. -/
def regularMessages (profile : CompletionsProfile) :
    (reasoning : String) → (buffered : Bool) → List Value → Except ProtocolError (List Value)
  | reasoning, buffered, [] => reasoningMessages profile (if buffered then "" else reasoning)
  | reasoning, buffered, item :: rest =>
    match item.asObject with
    | none => .error (invalid "input items must be objects")
    | some object =>
      match callKind (itemType object) with
      | some _ => regularMessages profile reasoning true rest
      | none => do
          let (new, reasoning) ← itemRegulars profile (if buffered then "" else reasoning)
            item object
          return new ++ (← regularMessages profile reasoning false rest)

/-- The call items of the input. -/
def callItem (item : Value) : Option (Object × SourceCallKind) :=
  item.asObject.bind fun object => (callKind (itemType object)).map (object, ·)

def outputItem (item : Value) : Option (Object × SourceCallKind) :=
  item.asObject.bind fun object => (outputKind (itemType object)).map (object, ·)

variable {platform : Platform} {profile : CompletionsProfile} {projection : ToolProjection}

theorem messageRole_ne_tool {object : Object} {role : String}
    (h : InputAssembler.messageRole profile object = .ok role) : role ≠ "tool" := by
  unfold InputAssembler.messageRole at h
  split at h
  · cases h
  · next found hFound =>
      split_ifs at h with hSystem hUser
      · cases h
        cases profile.instructionRole <;> decide
      · cases h
        rcases hUser with rfl | rfl <;> decide

theorem outputKind_of_callKind {kind : Option String} {call : SourceCallKind}
    (h : callKind kind = some call) : outputKind kind = none := by
  unfold callKind at h
  split at h <;> first | rfl | cases h

namespace InputAssembler

variable {assembler next : InputAssembler} {object : Object} {flushed : ConversationLedger}

/-- The regular messages of an operation are added, and the collected
reasoning is spent. -/
def Emits (before after : InputAssembler) (regulars : Except ProtocolError (List Value)) : Prop :=
  ∃ new, regulars = .ok new ∧ after.Flushed ∧ before.Advances after [] [] new ∧
    after.pendingReasoning = ""

theorem flushReasoning_flushed (h : assembler.Flushed)
    (hFlush : flushReasoning profile assembler = .ok next) :
    assembler.Emits next (reasoningMessages profile assembler.pendingReasoning) := by
  unfold flushReasoning at hFlush
  unfold reasoningMessages
  split_ifs at hFlush ⊢ with hNone
  · cases hFlush
    exact ⟨[], rfl, h, .refl _, hNone⟩
  · obtain ⟨message, hMessage, hNext⟩ := Except.of_bind hFlush
    cases hNext
    have hPlain := insertReasoning_plain hMessage (isPlain_plainMessage (by decide) _)
    obtain ⟨hFlushed, hAdvances⟩ := appendRegular_flushed (h.withReasoning "") hPlain
    refine ⟨[message], ?_, hFlushed, ?_, appendRegular_pendingReasoning _ _⟩
    · rw [hMessage]
      rfl
    · exact (Advances.withReasoning assembler "").trans hAdvances

theorem appendMessage_flushed (h : assembler.Flushed)
    (hAppend : appendMessage profile object assembler = .ok next) :
    assembler.Emits next (messageRegulars profile assembler.pendingReasoning object) := by
  obtain ⟨role, hRole, hAppend⟩ := Except.of_bind hAppend
  have hTool := messageRole_ne_tool hRole
  unfold messageRegulars
  rw [hRole, Except.ok_bind]
  split_ifs at hAppend ⊢ with hAssistant
  · obtain ⟨content, hContent, hAppend⟩ := Except.of_bind hAppend
    obtain ⟨message, hMessage, hAppend⟩ := Except.of_bind hAppend
    cases hAppend
    have hPlain := attachReasoning_plain hMessage (isPlain_plainMessage hTool _)
    obtain ⟨hFlushed, hAdvances⟩ := appendRegular_flushed (h.withReasoning "") hPlain
    refine ⟨[message], ?_, hFlushed, ?_, appendRegular_pendingReasoning _ _⟩
    · simp [hContent, hMessage]
    · exact (Advances.withReasoning assembler "").trans hAdvances
  · obtain ⟨flushed, hFlush, hAppend⟩ := Except.of_bind hAppend
    obtain ⟨content, hContent, hAppend⟩ := Except.of_bind hAppend
    cases hAppend
    obtain ⟨before, hBefore, hFlushed, hAdvances, hReasoning⟩ := flushReasoning_flushed h hFlush
    obtain ⟨hLater, hMore⟩ := appendRegular_flushed hFlushed (isPlain_plainMessage hTool content)
    refine ⟨before ++ [plainMessage role content], ?_, hLater, hAdvances.trans hMore, ?_⟩
    · simp [hContent, hBefore]
    · rw [appendRegular_pendingReasoning, hReasoning]

theorem appendInputText_flushed (h : assembler.Flushed)
    (hAppend : appendInputText profile object assembler = .ok next) :
    assembler.Emits next (textRegulars profile assembler.pendingReasoning object) := by
  obtain ⟨flushed, hFlush, hAppend⟩ := Except.of_bind hAppend
  obtain ⟨text, hText, hAppend⟩ := Except.of_bind hAppend
  cases hAppend
  obtain ⟨before, hBefore, hFlushed, hAdvances, hReasoning⟩ := flushReasoning_flushed h hFlush
  obtain ⟨hLater, hMore⟩ := appendRegular_flushed hFlushed
    (isPlain_plainMessage (by decide : "user" ≠ "tool") (.string text))
  refine ⟨before ++ [plainMessage "user" (.string text)], ?_, hLater, hAdvances.trans hMore, ?_⟩
  · simp [textRegulars, hText, hBefore]
  · rw [appendRegular_pendingReasoning, hReasoning]

/-- An item that is not a call: an output adds its tool message, any other
item the regular messages it stands for. -/
theorem appendOther_flushed {item : Value} (h : assembler.Flushed)
    (hAppend : appendOther platform profile item object assembler = .ok next) :
    ∃ outputs new, itemRegulars profile assembler.pendingReasoning item object =
        .ok (new, next.pendingReasoning) ∧
      next.Flushed ∧ assembler.Advances next [] outputs new ∧
      List.Forall₂ (OutputOf platform)
        ((outputKind (itemType object)).map (object, ·)).toList outputs := by
  unfold appendOther at hAppend
  cases hOutput : outputKind (itemType object) with
  | some kind =>
    simp only [hOutput] at hAppend
    obtain ⟨message, hFlushed, hAdvances, hMessage, hReasoning⟩ :=
      appendOutput_flushed h hAppend
    exact ⟨[message], [], by simp [itemRegulars, hOutput, hReasoning], hFlushed, hAdvances,
      by simpa using hMessage⟩
  | none =>
    simp only [hOutput] at hAppend
    split_ifs at hAppend with hMessage
    · obtain ⟨new, hNew, hFlushed, hAdvances, hReasoning⟩ := appendMessage_flushed h hAppend
      refine ⟨[], new, ?_, hFlushed, hAdvances, by simp⟩
      simp [itemRegulars, hOutput, hMessage, hNew, hReasoning]
    · split at hAppend
      · next hType =>
          obtain ⟨new, hNew, hFlushed, hAdvances, hReasoning⟩ :=
            appendInputText_flushed h hAppend
          refine ⟨[], new, ?_, hFlushed, hAdvances, by simp⟩
          simp [itemRegulars, hType, outputKind, hNew, hReasoning]
      · next hType =>
          cases hAppend
          refine ⟨[], [], ?_, h.withReasoning _, .withReasoning assembler _, by simp⟩
          simp [itemRegulars, hType, outputKind]
      · cases hAppend
      · cases hAppend

theorem Flushed.buffered_eq (h : assembler.Flushed) : assembler.buffered = false := by
  simp [buffered, h.empty]

/-- One item: the invariant holds again, and the rest of the input finds the
state that the assembler without deferral would be in. -/
theorem append_tracked {item : Value} (h : assembler.Tracked flushed)
    (hAppend : append platform profile assembler item = .ok next) :
    ∃ later calls outputs new, next.Tracked later ∧ assembler.Advances next calls outputs new ∧
      List.Forall₂ (CallOf platform next.projection) (callItem item).toList calls ∧
      List.Forall₂ (OutputOf platform) (outputItem item).toList outputs ∧
      ∀ rest regulars,
        regularMessages profile next.pendingReasoning next.buffered rest = .ok regulars →
        regularMessages profile assembler.pendingReasoning assembler.buffered (item :: rest) =
          .ok (new ++ regulars) := by
  unfold append at hAppend
  cases hObject : item.asObject with
  | none =>
    rw [hObject] at hAppend
    cases hAppend
  | some object =>
    simp only [hObject] at hAppend
    cases hCall : callKind (itemType object) with
    | some kind =>
      simp only [hCall] at hAppend
      obtain ⟨call, hTracked, hAdvances, hOf, hPending, hReasoning⟩ :=
        appendCall_tracked h hAppend
      refine ⟨flushed, [call], [], [], hTracked, hAdvances, ?_, ?_, ?_⟩
      · simpa [callItem, hObject, hCall] using hOf
      · simp [outputItem, hObject, outputKind_of_callKind hCall]
      · intro rest regulars hRest
        simp only [buffered, hPending, ne_eq, not_false_eq_true, decide_true] at hRest
        simpa [regularMessages, hObject, hCall, hReasoning] using hRest
    | none =>
      simp only [hCall] at hAppend
      obtain ⟨middle, hFlush, hOther⟩ := Except.of_bind hAppend
      obtain ⟨hFlushed, hFirst, hReasoning⟩ := flushCalls_tracked h hFlush
      obtain ⟨outputs, new, hNew, hNext, hSecond, hOf⟩ := appendOther_flushed hFlushed hOther
      refine ⟨_, [], outputs, new, hNext.tracked, hFirst.trans hSecond, ?_, ?_, ?_⟩
      · simp [callItem, hObject, hCall]
      · simpa [outputItem, hObject] using hOf
      · intro rest regulars hRest
        rw [hNext.buffered_eq] at hRest
        rw [hReasoning] at hNew
        simp only [looseReasoning] at hNew
        simp [regularMessages, hObject, hCall, hNew, hRest]

/-- The end of the input. -/
theorem finish_tracked (h : assembler.Tracked flushed)
    (hFinish : finish profile assembler = .ok next) :
    ∃ new, next.Flushed ∧ next.ledger.isSettled ∧ assembler.Advances next [] [] new ∧
      regularMessages profile assembler.pendingReasoning assembler.buffered [] = .ok new := by
  obtain ⟨first, hFlush, hFinish⟩ := Except.of_bind hFinish
  obtain ⟨second, hReason, hFinish⟩ := Except.of_bind hFinish
  obtain ⟨hFirst, hFlushAdvances, hReasoning⟩ := flushCalls_tracked h hFlush
  obtain ⟨new, hNew, hSecond, hAdvances, -⟩ := flushReasoning_flushed hFirst hReason
  rw [hReasoning] at hNew
  split_ifs at hFinish with hOpen
  have hSettled : second.ledger.isSettled := by simpa using hOpen
  rw [flushDeferred_eq (hSecond.tracked.deferred hSettled)] at hFinish
  cases hFinish
  exact ⟨new, hSecond, hSettled, hFlushAdvances.trans hAdvances, hNew⟩

private theorem forall₂_filterMap_cons {α β γ : Type} {relation : β → γ → Prop}
    {select : α → Option β} {item : α} {items : List α} {first rest : List γ}
    (hFirst : List.Forall₂ relation (select item).toList first)
    (hRest : List.Forall₂ relation (items.filterMap select) rest) :
    List.Forall₂ relation ((item :: items).filterMap select) (first ++ rest) := by
  have hSplit : (item :: items).filterMap select =
      (select item).toList ++ items.filterMap select := by
    cases h : select item <;> simp [h]
  rw [hSplit]
  exact List.rel_append hFirst hRest

/-- The whole input, by induction over its items. -/
theorem run_tracked {items : List Value} {last : InputAssembler} (h : assembler.Tracked flushed)
    (hRun : items.foldlM (append platform profile) assembler = .ok next)
    (hFinish : finish profile next = .ok last) :
    ∃ calls outputs regulars, last.Flushed ∧ last.ledger.isSettled ∧
      assembler.Advances last calls outputs regulars ∧
      List.Forall₂ (CallOf platform last.projection) (items.filterMap callItem) calls ∧
      List.Forall₂ (OutputOf platform) (items.filterMap outputItem) outputs ∧
      regularMessages profile assembler.pendingReasoning assembler.buffered items =
        .ok regulars := by
  induction items generalizing assembler flushed with
  | nil =>
    cases hRun
    obtain ⟨new, hFlushed, hSettled, hAdvances, hNew⟩ := finish_tracked h hFinish
    exact ⟨[], [], new, hFlushed, hSettled, hAdvances, by simp, by simp, hNew⟩
  | cons item items ih =>
    rw [List.foldlM_cons] at hRun
    obtain ⟨middle, hItem, hRest⟩ := Except.of_bind hRun
    obtain ⟨later, calls, outputs, new, hTracked, hFirst, hCalls, hOutputs, hRegular⟩ :=
      append_tracked h hItem
    obtain ⟨calls', outputs', regulars, hFlushed, hSettled, hSecond, hCalls', hOutputs', hNew⟩ :=
      ih hTracked hRest
    refine ⟨calls ++ calls', outputs ++ outputs', new ++ regulars, hFlushed, hSettled,
      hFirst.trans hSecond, ?_, ?_, hRegular items regulars hNew⟩
    · exact forall₂_filterMap_cons (hCalls.imp fun _ _ => .grows hSecond.grows) hCalls'
    · exact forall₂_filterMap_cons hOutputs hOutputs'

end InputAssembler

/-- An accepted input leaves a conversation in which every batch of calls is
followed at once by its outputs, one for each call. Every call item becomes
one call and every output item one tool message, in the order of the input,
and the regular messages stand in the order of the input as well. -/
theorem appendItems_well_formed {items stored result : List Value} {next : ToolProjection}
    (hConsistent : projection.Consistent)
    (h : appendItems platform profile items stored projection = .ok (result, next)) :
    CallBatches.Settled (result.map messageEntry) ∧
      (∃ calls, result.flatMap messageCalls = stored.flatMap messageCalls ++ calls ∧
        List.Forall₂ (CallOf platform next) (items.filterMap callItem) calls) ∧
      (∃ outputs, result.filter isToolMessage = stored.filter isToolMessage ++ outputs ∧
        List.Forall₂ (OutputOf platform) (items.filterMap outputItem) outputs) ∧
      ∃ regulars, result.filter isRegular = stored.filter isRegular ++ regulars ∧
        regularMessages profile "" false items = .ok regulars := by
  obtain ⟨ids, -, h⟩ := Except.of_bind h
  obtain ⟨ledger, hLedger, h⟩ := Except.of_bind h
  obtain ⟨middle, hRun, h⟩ := Except.of_bind h
  obtain ⟨last, hFinish, h⟩ := Except.of_bind h
  cases h
  obtain ⟨calls, outputs, regulars, hFlushed, hSettled, hAdvances, hCalls, hOutputs, hRegulars⟩ :=
    InputAssembler.run_tracked (InputAssembler.new_tracked hConsistent hLedger) hRun hFinish
  have hDeferred := hFlushed.tracked.deferred hSettled
  refine ⟨fromMessages_settled hFlushed.tracked.scan hSettled, ⟨calls, ?_, hCalls⟩,
    ⟨outputs, ?_, hOutputs⟩, regulars, ?_, hRegulars⟩
  · simpa [InputAssembler.calls, InputAssembler.new, hFlushed.empty] using hAdvances.calls_eq
  · simpa [InputAssembler.outputs, InputAssembler.new] using hAdvances.outputs_eq
  · simpa [InputAssembler.regulars, InputAssembler.new, hDeferred] using hAdvances.regulars_eq

/-- The projection of a request that declares one function. -/
def declaredProjection : Except ProtocolError ToolProjection :=
  (ToolProjection.new .currentOpenAi none).configure plainPlatform
    (some (.array [.obj [("type", .string "function"), ("name", .string "f")]]))

/-- A conversation that waits for the output of a call. -/
def waitingConversation : List Value :=
  [plainMessage "user" (.string "question"),
    callMessage [(functionCall "f" "{}").set "id" (.string "c1")]]

/-- A second call joins the open one, and a message has to wait for both. -/
def joiningInput : List Value :=
  [.obj [("type", .string "function_call"), ("call_id", .string "c2"), ("name", .string "f"),
      ("arguments", .string "{}")],
    .obj [("role", .string "user"), ("content", .string "later")],
    .obj [("type", .string "function_call_output"), ("call_id", .string "c2"),
      ("output", .string "2")],
    .obj [("type", .string "function_call_output"), ("call_id", .string "c1"),
      ("output", .string "1")]]

def joinedConversation : List Value :=
  [plainMessage "user" (.string "question"),
    callMessage [(functionCall "f" "{}").set "id" (.string "c1"),
      (functionCall "f" "{}").set "id" (.string "c2")],
    toolMessage "c2" "2", toolMessage "c1" "1", plainMessage "user" (.string "later")]

theorem declaredProjection_consistent
    (h : declaredProjection = .ok projection) : projection.Consistent :=
  (ToolProjection.configure_changes h).grows.consistent
    (ToolProjection.fresh_consistent .currentOpenAi)

/-- Both calls are answered before the message that had to wait. -/
theorem appendItems_well_formed_joined :
    ∃ projection next, declaredProjection = .ok projection ∧ projection.Consistent ∧
      appendItems plainPlatform .currentOpenAi joiningInput waitingConversation projection =
        .ok (joinedConversation, next) ∧
      CallBatches.Settled (joinedConversation.map messageEntry) := by
  have hRun : (do
      let projection ← declaredProjection
      let (result, _) ← appendItems plainPlatform .currentOpenAi joiningInput waitingConversation
        projection
      pure result) = .ok joinedConversation := by decide +kernel
  obtain ⟨projection, hProjection, hRun⟩ := Except.of_bind hRun
  obtain ⟨⟨result, next⟩, hAppend, hResult⟩ := Except.of_bind hRun
  cases hResult
  have hConsistent := declaredProjection_consistent hProjection
  exact ⟨projection, next, hProjection, hConsistent, hAppend,
    (appendItems_well_formed hConsistent hAppend).1⟩

end Any2Api.Bridge
