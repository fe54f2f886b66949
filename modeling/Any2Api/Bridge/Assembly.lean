import Any2Api.Bridge.LedgerScan

/-! The invariant of the input assembler. Its ledger is always what a scan of
the messages and the buffered calls would give, and the calls, outputs and
regular messages it has taken are all still there, in order. -/
namespace Any2Api.Bridge

open Any2Api.Json OpenAiChat ConversationLedger

/-- A message that neither carries calls nor answers one. -/
def IsPlain (message : Value) : Prop :=
  ∃ role, message.get? "role" = some (.string role) ∧ role ≠ "tool" ∧
    message.get? "tool_calls" = none

theorem isPlain_plainMessage {role : String} (h : role ≠ "tool") (content : Value) :
    IsPlain (plainMessage role content) := ⟨role, by simp [plainMessage], h, by simp [plainMessage]⟩

variable {message : Value} {profile : CompletionsProfile} {projection : ToolProjection}
  {ledger : ConversationLedger} {messages : List Value} {flushed : ConversationLedger}
  {platform : Platform}

theorem IsPlain.tool (h : IsPlain message) : isToolMessage message = false := by
  obtain ⟨role, hRole, hTool, -⟩ := h
  simpa [isToolMessage, hRole] using hTool

theorem IsPlain.calls (h : IsPlain message) : messageCalls message = [] := by
  obtain ⟨-, -, -, hCalls⟩ := h
  simp [messageCalls, hCalls]

theorem IsPlain.regular (h : IsPlain message) : isRegular message = true := by
  simp [isRegular, h.tool, h.calls]

theorem insertReasoning_get? {result : Value}
    {reasoning key : String} (h : insertReasoning profile message reasoning = .ok result)
    (hKey : key ∉ ["reasoning_content", "reasoning"]) : result.get? key = message.get? key := by
  obtain ⟨field, hField, h⟩ := Except.of_bind h
  have hOther : key ≠ field := by
    rintro rfl
    unfold reasoningField at hField
    split at hField <;> cases hField <;> simp at hKey
  cases h
  split <;> exact Value.get?_set_of_ne message _ hOther

theorem insertReasoning_plain {result : Value}
    {reasoning : String} (h : insertReasoning profile message reasoning = .ok result)
    (hPlain : IsPlain message) : IsPlain result := by
  obtain ⟨role, hRole, hTool, hCalls⟩ := hPlain
  exact ⟨role, by rw [insertReasoning_get? h (by decide), hRole], hTool,
    by rw [insertReasoning_get? h (by decide), hCalls]⟩

theorem isAssistant_tool (h : isToolMessage message) : isAssistant message = false := by
  simp [isAssistant, of_decide_eq_true h]

theorem messageCalls_tool (h : isToolMessage message) : messageCalls message = [] := by
  simp [messageCalls, isAssistant_tool h]

theorem isToolMessage_assistant (h : isAssistant message) : isToolMessage message = false := by
  simp [isToolMessage, of_decide_eq_true h]

theorem messageCalls_assistant {calls : List Value} (h : isAssistant message)
    (hCalls : message.get? "tool_calls" = some (.array calls)) : messageCalls message = calls := by
  simp [messageCalls, h, hCalls, Value.asArray]

/-- A plain message passes the ledger when no call is open. -/
theorem IsPlain.scan (h : IsPlain message) (hSettled : ledger.isSettled) :
    scanMessage projection ledger message = .ok ledger := by
  obtain ⟨role, hRole, hTool, hCalls⟩ := h
  exact scanMessage_regular hSettled hRole hTool hCalls

theorem scanMessages_plain (h : ∀ message ∈ messages, IsPlain message)
    (hSettled : ledger.isSettled) :
    messages.foldlM (scanMessage projection) ledger = .ok ledger := by
  induction messages with
  | nil => rfl
  | cons message messages ih =>
    obtain ⟨hMessage, hRest⟩ := List.forall_mem_cons.mp h
    rw [List.foldlM_cons, hMessage.scan hSettled]
    exact ih hRest

theorem lastIndex?_append_of_not {α : Type} {test : α → Bool} {items : List α} {item : α}
    (h : test item = false) : lastIndex? test (items ++ [item]) = lastIndex? test items := by
  cases hFound : items.reverse.findIdx? test with
  | none => simp [lastIndex?, List.findIdx?_cons, h, hFound]
  | some index =>
    simp only [lastIndex?, List.reverse_append, List.reverse_singleton, List.singleton_append,
      List.findIdx?_cons, h, hFound, List.length_append, List.length_singleton]
    simp only [Bool.false_eq_true, if_false, Option.map_some, Option.some.injEq]
    omega

namespace InputAssembler

variable {assembler next : InputAssembler} {result : Value} {reasoning : String}

/-- The calls taken so far. -/
def calls (assembler : InputAssembler) : List Value :=
  assembler.messages.flatMap messageCalls ++ assembler.pendingCalls

def outputs (assembler : InputAssembler) : List Value :=
  assembler.messages.filter isToolMessage

/-- The regular messages taken so far, deferred ones included. -/
def regulars (assembler : InputAssembler) : List Value :=
  assembler.messages.filter isRegular ++ assembler.deferredMessages

/-- The ledger is the one of the messages with the buffered calls added. A
call message is open exactly while a call in the messages lacks its output,
and only then messages are deferred. -/
structure Tracked (assembler : InputAssembler) (flushed : ConversationLedger) : Prop where
  scan : fromMessages assembler.projection assembler.messages = .ok flushed
  pending : assembler.pendingCalls.foldlM (scanCall assembler.projection) flushed =
    .ok assembler.ledger
  index : assembler.callMessageIndex =
    if flushed.isSettled then none else lastIndex? isAssistant assembler.messages
  deferred : flushed.isSettled → assembler.deferredMessages = []
  plain : ∀ message ∈ assembler.deferredMessages, IsPlain message
  consistent : assembler.projection.Consistent

/-- What an operation adds. -/
structure Advances (before after : InputAssembler) (calls outputs regulars : List Value) :
    Prop where
  calls_eq : after.calls = before.calls ++ calls
  outputs_eq : after.outputs = before.outputs ++ outputs
  regulars_eq : after.regulars = before.regulars ++ regulars
  grows : before.projection.Grows after.projection

theorem Advances.refl (assembler : InputAssembler) : assembler.Advances assembler [] [] [] :=
  ⟨by simp, by simp, by simp, .refl _⟩

theorem Advances.trans {first second third : InputAssembler}
    {calls calls' outputs outputs' regulars regulars' : List Value}
    (h : first.Advances second calls outputs regulars)
    (h' : second.Advances third calls' outputs' regulars') :
    first.Advances third (calls ++ calls') (outputs ++ outputs') (regulars ++ regulars') :=
  ⟨by rw [h'.calls_eq, h.calls_eq, List.append_assoc],
    by rw [h'.outputs_eq, h.outputs_eq, List.append_assoc],
    by rw [h'.regulars_eq, h.regulars_eq, List.append_assoc], h.grows.trans h'.grows⟩

theorem new_tracked {outputCallIds : OrderedMap String SourceCallKind}
    (hConsistent : projection.Consistent) (h : fromMessages projection messages = .ok ledger) :
    (new messages outputCallIds ledger projection).Tracked ledger :=
  ⟨h, rfl, rfl, fun _ => rfl, by simp [new], hConsistent⟩

/-- With no buffered calls the ledger is the one of the messages. -/
theorem Tracked.flushed_eq
    (h : assembler.Tracked flushed) (hPending : assembler.pendingCalls = []) :
    flushed = assembler.ledger := by
  have hScan := h.pending
  rw [hPending] at hScan
  exact Except.ok.inj hScan

/-- Every call that was buffered is open. -/
theorem Tracked.settled (h : assembler.Tracked flushed) (hSettled : assembler.ledger.isSettled) :
    assembler.pendingCalls = [] := by
  obtain ⟨ids, hIds, -, -, -, hDomain⟩ := scanCalls_ids h.pending
  rw [isSettled_iff.mp hSettled, eq_comm, Finset.union_eq_empty] at hDomain
  cases hCalls : assembler.pendingCalls with
  | nil => rfl
  | cons call calls =>
    rw [(List.toFinset_eq_empty_iff ids).mp hDomain.2, hCalls] at hIds
    simp [List.mapM_cons, Option.bind_eq_some_iff] at hIds

/-- An assembler with no buffered calls, as it is before anything but a call
is taken. -/
structure Flushed (assembler : InputAssembler) : Prop where
  tracked : assembler.Tracked assembler.ledger
  empty : assembler.pendingCalls = []

/-- A regular message goes to the messages, or waits while a call is open. -/
theorem appendRegular_flushed (h : assembler.Flushed) (hPlain : IsPlain message) :
    (appendRegular message assembler).Flushed ∧
      assembler.Advances (appendRegular message assembler) [] [] [message] := by
  obtain ⟨h, hPending⟩ := h
  unfold appendRegular
  split_ifs with hSettled
  · have hNone := h.deferred hSettled
    constructor
    · refine ⟨⟨?_, h.pending, ?_, h.deferred, h.plain, h.consistent⟩, hPending⟩
      · rw [fromMessages_append h.scan, List.foldlM_cons, hPlain.scan hSettled]
        rfl
      · simpa [hSettled] using h.index
    · refine ⟨?_, ?_, ?_, .refl _⟩ <;>
        simp [calls, outputs, regulars, hPlain.calls, hPlain.tool, hPlain.regular, hNone]
  · constructor
    · exact ⟨⟨h.scan, h.pending, h.index, fun hNow => absurd hNow hSettled,
        Entries.forall_mem_concat h.plain hPlain, h.consistent⟩, hPending⟩
    · refine ⟨?_, ?_, ?_, .refl _⟩ <;> simp [calls, outputs, regulars]

theorem attachReasoning_get? {key : String}
    (h : attachReasoning profile reasoning message = .ok result)
    (hKey : key ∉ ["reasoning_content", "reasoning"]) : result.get? key = message.get? key := by
  unfold attachReasoning at h
  split_ifs at h
  · cases h
    rfl
  · exact insertReasoning_get? h hKey

theorem attachReasoning_plain
    (h : attachReasoning profile reasoning message = .ok result) (hPlain : IsPlain message) :
    IsPlain result := by
  unfold attachReasoning at h
  split_ifs at h
  · cases h
    exact hPlain
  · exact insertReasoning_plain h hPlain

/-- The message that receives the buffered calls. -/
theorem attachCalls_spec {existing added : List Value} (hAssistant : isAssistant message)
    (hCalls : message.get? "tool_calls" = some (.array existing))
    (h : attachReasoning profile reasoning (appendCalls message added) = .ok result) :
    isAssistant result ∧ result.get? "tool_calls" = some (.array (existing ++ added)) := by
  have hObject : message.isObject = true := by
    cases message with
    | object fields => rfl
    | _ => cases hCalls
  constructor
  · unfold isAssistant
    rw [attachReasoning_get? h (by decide)]
    simp only [appendCalls, hCalls]
    rw [Value.get?_set_of_ne _ _ (by decide)]
    exact hAssistant
  · rw [attachReasoning_get? h (by decide)]
    simp only [appendCalls, hCalls]
    exact Value.get?_set_self _ _ hObject

theorem flatMap_tool (h : ∀ message ∈ messages, isToolMessage message) :
    messages.flatMap messageCalls = [] := by
  rw [List.flatMap_eq_nil_iff]
  exact fun message hMessage => messageCalls_tool (h message hMessage)

/-- Buffered calls that join the open message. -/
theorem joined_tracked (h : assembler.Tracked flushed)
    (batch : OpenBatch assembler.projection assembler.messages flushed)
    (hAssistant : isAssistant message)
    (hCalls : message.get? "tool_calls" = some (.array (batch.calls ++ assembler.pendingCalls)))
    (hOpen : ¬assembler.ledger.isSettled) :
    let next := { assembler with
      messages := batch.front ++ message :: batch.answers
      callMessageIndex := some batch.front.length
      pendingCalls := []
      pendingReasoning := reasoning }
    next.Tracked assembler.ledger ∧ assembler.Advances next [] [] [] := by
  intro next
  have hMessage := messageCalls_assistant hAssistant hCalls
  have hOld := messageCalls_assistant batch.assistant batch.calls_eq
  constructor
  · refine ⟨batch.join h.pending hAssistant hCalls, rfl, ?_, fun hNow => absurd hNow hOpen, h.plain,
      h.consistent⟩
    rw [if_neg hOpen]
    exact (lastIndex?_append hAssistant fun answer hAnswer =>
      isAssistant_tool (batch.answers_tool answer hAnswer)).symm
  · have hEq := batch.messages_eq
    refine ⟨?_, ?_, ?_, .refl _⟩
    · simp [calls, next, hEq, hMessage, hOld, flatMap_tool batch.answers_tool]
    · simp [outputs, next, hEq, isToolMessage_assistant hAssistant,
        isToolMessage_assistant batch.assistant]
    · simp [regulars, next, hEq, isRegular, hMessage, hOld, batch.calls_nonempty]

/-- Buffered calls that get a message of their own. -/
theorem opened_tracked (h : assembler.Tracked flushed) (hSettled : flushed.isSettled)
    (hAssistant : isAssistant message)
    (hCalls : message.get? "tool_calls" = some (.array assembler.pendingCalls))
    (hPending : assembler.pendingCalls ≠ []) (hOpen : ¬assembler.ledger.isSettled) :
    let next := { assembler with
      messages := assembler.messages ++ [message]
      callMessageIndex := some assembler.messages.length
      pendingCalls := []
      pendingReasoning := reasoning }
    next.Tracked assembler.ledger ∧ assembler.Advances next [] [] [] := by
  intro next
  have hMessage := messageCalls_assistant hAssistant hCalls
  constructor
  · refine ⟨?_, rfl, ?_, fun hNow => absurd hNow hOpen, h.plain, h.consistent⟩
    · rw [fromMessages_append h.scan, List.foldlM_cons,
        scanMessage_calls hSettled hAssistant hCalls, h.pending]
      rfl
    · rw [if_neg hOpen]
      exact (lastIndex?_append hAssistant (by simp)).symm
  · refine ⟨?_, ?_, ?_, .refl _⟩
    · simp [calls, next, hMessage]
    · simp [outputs, next, isToolMessage_assistant hAssistant]
    · simp [regulars, next, isRegular, hMessage, hPending]

/-- Whether calls are buffered. -/
def buffered (assembler : InputAssembler) : Bool := assembler.pendingCalls ≠ []

/-- The reasoning that is left after buffered calls took theirs along. -/
def looseReasoning (assembler : InputAssembler) : String :=
  if assembler.buffered then "" else assembler.pendingReasoning

/-- Flushing leaves the ledger alone and takes the reasoning along. -/
theorem flushCalls_tracked
    (h : assembler.Tracked flushed) (hFlush : flushCalls profile assembler = .ok next) :
    next.Flushed ∧ assembler.Advances next [] [] [] ∧
      next.pendingReasoning = assembler.looseReasoning := by
  unfold flushCalls at hFlush
  split_ifs at hFlush with hPending
  · cases hFlush
    refine ⟨⟨?_, hPending⟩, .refl _, by simp [looseReasoning, buffered, hPending]⟩
    rwa [← h.flushed_eq hPending]
  · have hOpen : ¬assembler.ledger.isSettled := fun hSettled => hPending (h.settled hSettled)
    have hLoose : assembler.looseReasoning = "" := by simp [looseReasoning, buffered, hPending]
    by_cases hSettled : flushed.isSettled
    · have hIndex : assembler.callMessageIndex = none := by simpa [hSettled] using h.index
      simp only [hIndex] at hFlush
      obtain ⟨message, hMessage, hNext⟩ := Except.of_bind hFlush
      cases hNext
      have hNew : (assembler.messages ++ [callMessage []]).getD assembler.messages.length .null =
          callMessage [] := by simp
      rw [hNew] at hMessage
      obtain ⟨hAssistant, hCalls⟩ := attachCalls_spec (by simp [isAssistant, callMessage])
        (by simp [callMessage]; rfl) hMessage
      obtain ⟨hTracked, hAdvances⟩ := opened_tracked h hSettled hAssistant hCalls hPending hOpen
      simp only [List.set_append_right _ _ (Nat.le_refl _), Nat.sub_self, List.set_cons_zero]
      exact ⟨⟨hTracked, rfl⟩, hAdvances, hLoose.symm⟩
    · obtain ⟨batch⟩ := openBatch_of_unsettled h.scan hSettled
      have hIndex : assembler.callMessageIndex = some batch.front.length := by
        rw [h.index, if_neg hSettled, batch.lastIndex]
      simp only [hIndex] at hFlush
      obtain ⟨message, hMessage, hNext⟩ := Except.of_bind hFlush
      cases hNext
      have hOld : assembler.messages.getD batch.front.length .null = batch.message :=
        (congrArg (·.getD batch.front.length .null) batch.messages_eq).trans (by simp)
      have hSet : assembler.messages.set batch.front.length message =
          batch.front ++ message :: batch.answers :=
        (congrArg (·.set batch.front.length message) batch.messages_eq).trans (by simp)
      rw [hOld] at hMessage
      obtain ⟨hAssistant, hCalls⟩ := attachCalls_spec batch.assistant batch.calls_eq hMessage
      obtain ⟨hTracked, hAdvances⟩ := joined_tracked h batch hAssistant hCalls hOpen
      simp only [hSet]
      exact ⟨⟨hTracked, rfl⟩, hAdvances, hLoose.symm⟩

/-- The collected reasoning plays no part in the invariant. -/
theorem Flushed.withReasoning (h : assembler.Flushed)
    (reasoning : String) : { assembler with pendingReasoning := reasoning }.Flushed :=
  ⟨⟨h.tracked.scan, h.tracked.pending, h.tracked.index, h.tracked.deferred, h.tracked.plain,
    h.tracked.consistent⟩, h.empty⟩

theorem Advances.withReasoning (assembler : InputAssembler) (reasoning : String) :
    assembler.Advances { assembler with pendingReasoning := reasoning } [] [] [] :=
  ⟨by simp [calls], by simp [outputs], by simp [regulars], .refl _⟩

theorem appendRegular_pendingReasoning (message : Value) (assembler : InputAssembler) :
    (appendRegular message assembler).pendingReasoning = assembler.pendingReasoning := by
  unfold appendRegular
  split <;> rfl

end InputAssembler

/-- The Chat call of a call item: the tool under its projected name, the
arguments or input, and the id of the item. -/
def CallOf (platform : Platform) (projection : ToolProjection) (item : Object × SourceCallKind)
    (call : Value) : Prop :=
  ∃ callId identity name base, item.1.get? "call_id" = some (.string callId) ∧
    sourceIdentity item.1 item.2 = .ok identity ∧
    projection.originalToChat.get? identity = some name ∧
    chatCall platform projection.profile item.1 item.2 identity name = .ok base ∧
    call = base.set "id" (.string callId)

theorem CallOf.grows {earlier later : ToolProjection}
    (hGrows : earlier.Grows later) {item : Object × SourceCallKind} {call : Value}
    (h : CallOf platform earlier item call) : CallOf platform later item call := by
  obtain ⟨callId, identity, name, base, hId, hIdentity, hName, hBase, rfl⟩ := h
  rw [← hGrows.profile] at hBase
  exact ⟨callId, identity, name, base, hId, hIdentity, hGrows.names _ _ hName, hBase, rfl⟩

/-- The text of an output. -/
def outputText (platform : Platform) (object : Object) (kind : SourceCallKind) :
    Except ProtocolError String :=
  match kind with
  | .function | .custom =>
    match object.get? "output" with
    | none => .error (invalid "tool call output.output is required")
    | some output => textValue platform output
  | .toolSearch => do toolSearchOutput platform object (← toolSearchTools object)

/-- The tool message of an output item. -/
def OutputOf (platform : Platform) (item : Object × SourceCallKind) (message : Value) : Prop :=
  ∃ callId content, item.1.get? "call_id" = some (.string callId) ∧
    outputText platform item.1 item.2 = .ok content ∧ message = toolMessage callId content

theorem isToolMessage_toolMessage (callId content : String) :
    isToolMessage (toolMessage callId content) = true := by
  simp [isToolMessage, toolMessage]

namespace InputAssembler

variable {content callId : String} {object : Object} {kind : SourceCallKind}
  {assembler next : InputAssembler}

theorem outputContent_spec {next : ToolProjection}
    (h : outputContent platform object kind projection = .ok (content, next)) :
    outputText platform object kind = .ok content ∧ projection.Grows next := by
  cases kind with
  | toolSearch =>
    obtain ⟨tools, hTools, h⟩ := Except.of_bind h
    obtain ⟨loaded, hLoaded, h⟩ := Except.of_bind h
    obtain ⟨text, hText, h⟩ := Except.of_bind h
    cases h
    exact ⟨Except.bind_eq_ok_iff.mpr ⟨tools, hTools, hText⟩,
      (ToolProjection.activateLoadedTools_changes hLoaded).grows⟩
  | _ =>
    simp only [outputContent, outputText] at h ⊢
    cases hOutput : object.get? "output" with
    | none =>
      rw [hOutput] at h
      cases h
    | some output =>
      rw [hOutput] at h
      obtain ⟨text, hText, h⟩ := Except.of_bind h
      cases h
      exact ⟨hText, .refl _⟩

theorem appendCall_tracked (h : assembler.Tracked flushed)
    (hAppend : appendCall platform object kind assembler = .ok next) :
    ∃ call, next.Tracked flushed ∧ assembler.Advances next [call] [] [] ∧
      CallOf platform next.projection (object, kind) call ∧ next.pendingCalls ≠ [] ∧
      next.pendingReasoning = assembler.pendingReasoning := by
  obtain ⟨id, hId, hAppend⟩ := Except.of_bind hAppend
  obtain ⟨hId, hNonempty⟩ := requiredString_eq_ok.mp hId
  split_ifs at hAppend
  obtain ⟨projected, hProjected, hAppend⟩ := Except.of_bind hAppend
  obtain ⟨ledger, hLedger, hAppend⟩ := Except.of_bind hAppend
  cases hAppend
  obtain ⟨hGrows, hIdentity, name, hName, hCall⟩ := projectSourceCall_eq_ok hProjected
  obtain ⟨hNew, rfl⟩ := addCall_eq_ok.mp hLedger
  have hConsistent := hGrows.consistent h.consistent
  have hRead := readCall_chatCall hConsistent hIdentity hName hCall hNonempty
  refine ⟨projected.chatCall.set "id" (.string id), ?_, ?_,
    ⟨id, _, name, _, hId, hIdentity, hName, hCall, rfl⟩, by simp, rfl⟩
  · refine ⟨fromMessages_grows hGrows h.scan, ?_, h.index, h.deferred, h.plain, hConsistent⟩
    rw [List.foldlM_append, Except.foldlM_mono (fun _ _ _ => scanCall_grows hGrows) h.pending]
    simpa [List.foldlM_cons] using scanCall_of_read hRead hNew
  · exact ⟨by simp [calls], by simp [outputs], by simp [regulars], hGrows⟩

/-- The output of an open call. -/
theorem settle_eq_ok {ledger after : ConversationLedger}
    {identity : ToolIdentity} (h : ledger.settle callId kind = .ok (identity, after)) :
    ledger.outstanding.get? callId = some identity ∧ after = ledger.complete callId := by
  unfold settle at h
  split at h
  · cases h
  · next hOpen =>
      split_ifs at h
      cases h
      exact ⟨hOpen, rfl⟩

theorem flushDeferred_eq {assembler : InputAssembler} (h : assembler.deferredMessages = []) :
    flushDeferred assembler = assembler := by
  obtain ⟨messages, projection, pendingCalls, index, reasoning, ids, ledger, deferred⟩ := assembler
  cases h
  simp [flushDeferred]

/-- The assembler after an output, before deferred messages are released. -/
def withOutput (assembler : InputAssembler) (projection : ToolProjection)
    (callId content : String) : InputAssembler :=
  { assembler with
    ledger := assembler.ledger.complete callId
    projection
    messages := assembler.messages ++ [toolMessage callId content] }

section Output

variable (h : assembler.Flushed) (hGrows : assembler.projection.Grows projection)
  (hNonempty : callId ≠ "") (hOpen : callId ∈ assembler.ledger.outstanding.domain)
include h hGrows hNonempty hOpen

theorem withOutput_scan :
    fromMessages projection (assembler.messages ++ [toolMessage callId content]) =
      .ok (assembler.ledger.complete callId) := by
  have hScan := fromMessages_grows hGrows h.tracked.scan
  rw [fromMessages_append hScan, List.foldlM_cons,
    scanMessage_answer (isToolMessage_toolMessage _ _) (by simp [toolMessage]) hNonempty hOpen]
  rfl

/-- As long as other calls are open, the batch stays open. -/
theorem withOutput_open (hWait : ¬(assembler.ledger.complete callId).isSettled) :
    (assembler.withOutput projection callId content).Flushed ∧
      assembler.Advances (assembler.withOutput projection callId content) []
        [toolMessage callId content] [] := by
  have hTool := isToolMessage_toolMessage callId content
  have hBefore : ¬assembler.ledger.isSettled := by
    rw [isSettled_iff]
    exact Finset.ne_empty_of_mem hOpen
  constructor
  · refine ⟨⟨withOutput_scan h hGrows hNonempty hOpen, ?_, ?_, fun hNow => absurd hNow hWait,
      h.tracked.plain, hGrows.consistent h.tracked.consistent⟩, h.empty⟩
    · simp [withOutput, h.empty]
    · have hIndex := h.tracked.index
      rw [if_neg hBefore] at hIndex
      simp only [withOutput, hWait, lastIndex?_append_of_not (isAssistant_tool hTool), hIndex]
      rfl
  · refine ⟨?_, ?_, ?_, hGrows⟩ <;>
      simp [calls, outputs, regulars, withOutput, messageCalls_tool hTool, hTool, isRegular]

/-- The last output closes the batch and releases the deferred messages. -/
theorem withOutput_closed (hSettled : (assembler.ledger.complete callId).isSettled) :
    let after := flushDeferred
      { assembler.withOutput projection callId content with callMessageIndex := none }
    after.Flushed ∧ assembler.Advances after [] [toolMessage callId content] [] := by
  intro after
  have hTool := isToolMessage_toolMessage callId content
  have hPlain := h.tracked.plain
  have hCalls : assembler.deferredMessages.flatMap messageCalls = [] :=
    List.flatMap_eq_nil_iff.mpr fun message hMessage => (hPlain message hMessage).calls
  have hTools : assembler.deferredMessages.filter isToolMessage = [] :=
    List.filter_eq_nil_iff.mpr fun message hMessage => by simp [(hPlain message hMessage).tool]
  have hRegular : assembler.deferredMessages.filter isRegular = assembler.deferredMessages :=
    List.filter_eq_self.mpr fun message hMessage => (hPlain message hMessage).regular
  constructor
  · refine ⟨⟨?_, ?_, ?_, fun _ => rfl, by simp [after, flushDeferred],
      hGrows.consistent h.tracked.consistent⟩, h.empty⟩
    · simp only [after, flushDeferred, withOutput]
      rw [fromMessages_append (withOutput_scan h hGrows hNonempty hOpen)]
      exact scanMessages_plain hPlain hSettled
    · simp [after, flushDeferred, withOutput, h.empty]
    · simp [after, flushDeferred, withOutput, hSettled]
  · refine ⟨?_, ?_, ?_, hGrows⟩
    · simp [calls, after, flushDeferred, withOutput, messageCalls_tool hTool, hCalls]
    · simp [outputs, after, flushDeferred, withOutput, hTool, hTools]
    · simp [regulars, after, flushDeferred, withOutput, hRegular, isRegular, hTool]

end Output

theorem appendOutput_flushed (h : assembler.Flushed)
    (hAppend : appendOutput platform object kind assembler = .ok next) :
    ∃ message, next.Flushed ∧ assembler.Advances next [] [message] [] ∧
      OutputOf platform (object, kind) message ∧
      next.pendingReasoning = assembler.pendingReasoning := by
  obtain ⟨callId, hId, hAppend⟩ := Except.of_bind hAppend
  obtain ⟨hId, hNonempty⟩ := requiredString_eq_ok.mp hId
  obtain ⟨⟨identity, ledger⟩, hSettle, hAppend⟩ := Except.of_bind hAppend
  obtain ⟨_, -, hAppend⟩ := Except.of_bind hAppend
  obtain ⟨⟨content, projection⟩, hContent, hAppend⟩ := Except.of_bind hAppend
  obtain ⟨hOpen, rfl⟩ := settle_eq_ok hSettle
  obtain ⟨hText, hGrows⟩ := outputContent_spec hContent
  have hDomain : callId ∈ assembler.ledger.outstanding.domain := by
    rw [OrderedMap.mem_domain, hOpen]
    rfl
  have hOutput : OutputOf platform (object, kind) (toolMessage callId content) :=
    ⟨callId, content, hId, hText, rfl⟩
  refine ⟨toolMessage callId content, ?_⟩
  cases hAppend
  split_ifs with hSettled
  · obtain ⟨hFlushed, hAdvances⟩ := withOutput_closed h hGrows hNonempty hDomain hSettled
    exact ⟨hFlushed, hAdvances, hOutput, rfl⟩
  · obtain ⟨hFlushed, hAdvances⟩ := withOutput_open h hGrows hNonempty hDomain hSettled
    exact ⟨hFlushed, hAdvances, hOutput, rfl⟩

end InputAssembler

end Any2Api.Bridge
