import Any2Api.Bridge.ItemSteps

/-! How output items are closed. -/
namespace Any2Api.Bridge

open Any2Api.Json OpenAiChat Multiplex

/-! The announced and the completed item. -/

variable (channel : TextChannel) {platform : Platform} {projection : ToolProjection}
  {restored : RestoredToolCall} {identity : ToolIdentity} {key : Nat}

theorem TextChannel.announces (responseId text : String) :
    Announces (channel.openItem responseId) (channel.item responseId text) := by
  intro field hField
  cases channel <;> simp_all [openItem, item, messageItem, reasoningItem]

theorem TextChannel.item_id (responseId text : String) :
    (channel.item responseId text).get? "id" = some (.string (channel.itemId responseId)) := by
  cases channel <;> simp [item, itemId, messageItem, reasoningItem]

theorem TextChannel.item_content (responseId text : String) :
    (channel.item responseId text).get? channel.listField = some (.array [channel.part text]) := by
  cases channel <;> simp [item, listField, part, messageItem, reasoningItem]

theorem restoreIdentity_toolSearch {payload : String}
    (h : restoreIdentity platform projection .toolSearch payload = .ok restored) :
    ∃ arguments, restored = .toolSearch arguments := by
  unfold restoreIdentity at h
  dsimp only at h
  split at h
  · cases h
    exact ⟨_, rfl⟩
  · cases h

/-- The item that a call is announced with is the one it ends with, but for
its content and its status. -/
theorem addedItem_announces {state : ToolState} {payload responseId callId : String}
    {first : Value} (hFirst : state.addedItem = .ok first)
    (hIdentity : state.identity = some identity) (hCallId : state.callId = some callId)
    (hRestored : restoreIdentity platform projection identity payload = .ok restored)
    (hId : ToolState.itemIdOf responseId key (some identity) = .ok state.itemId) :
    Announces first (restoredCallItem responseId (toString key) callId restored "completed") := by
  simp only [ToolState.addedItem, hIdentity, hCallId, Except.ok.injEq] at hFirst
  rw [← hFirst]
  generalize state.itemId = itemId at hId
  intro field hField
  simp only [List.mem_cons, List.not_mem_nil, or_false, not_or] at hField
  -- Up to its id the announced item is the completed one with another content.
  cases identity with
  | function | namespaceFunction =>
    cases hRestored
    cases hId
    by_cases hSame : field = "id" <;>
      simp [restoredCallItem, ToolState.initialCall, withNamespace, Value.set_obj, hField, hSame]
  | custom | namespaceCustom =>
    obtain ⟨input, -, hRestored⟩ := Except.of_bind hRestored
    cases hRestored
    cases hId
    by_cases hSame : field = "id" <;>
      simp [restoredCallItem, ToolState.initialCall, withNamespace, Value.set_obj, hField, hSame]
  | toolSearch =>
    obtain ⟨arguments, rfl⟩ := restoreIdentity_toolSearch hRestored
    cases hId
    by_cases hSame : field = "id" <;>
      simp [restoredCallItem, ToolState.initialCall, Value.set_obj, hField, hSame]

namespace ChatToResponsesStream

variable {platform : Platform} {view : ItemView} {order : List Owner} {log : List (Nat × ItemEvent)}
  {closed : List Owner} {stream next : ChatToResponsesStream} {events : List (Nat × ItemEvent)}
  {state : ToolState} {name : String} {projection : ToolProjection} {kind : ChatToolKind}
  {announced final : ToolState} {added deltas : List (Nat × ItemEvent)}

/-! Texts. -/

/-- The owner of a text, if the text has an item. -/
def textOwner (view : ItemView) (channel : TextChannel) : List Owner :=
  if (view.texts channel).outputIndex.isSome then [.text channel] else []

theorem closeText_tracked (h : Tracked view order log closed) {channel : TextChannel}
    (hOpen : .text channel ∉ closed) {items : List (Nat × Value)} {state : TextState}
    (hClose : closeText channel view.responseId (view.texts channel) = (events, items, state)) :
    Tracked (view.withText channel state view.next items) order (log ++ events)
      (closed ++ textOwner view channel) ∧
      state.outputIndex = (view.texts channel).outputIndex := by
  have hText : OpenText channel view.responseId (view.texts channel) _ := h.isOpen _ hOpen
  rcases place_of_slot h (.text channel) with ⟨index, hSlot, hPlace⟩ | ⟨hSlot, -⟩
  · have hIndex : (view.texts channel).outputIndex = some index := hSlot
    obtain ⟨-, hId, deltas, hJoin, hEvents⟩ := hText.opened (by rw [hIndex]; rfl)
    simp only [closeText, hIndex, hText.notDone, Bool.false_eq_true, if_false,
      Prod.mk.injEq] at hClose
    obtain ⟨rfl, rfl, rfl⟩ := hClose
    refine ⟨?_, hIndex.symm⟩
    rw [textOwner, hIndex, Option.isSome_some, if_pos rfl]
    apply h.close hOpen (view.sameElse_withText channel _ _ _)
      (h.slots.writes hPlace [.contentDone (.text channel) (view.texts channel).itemId
          (view.texts channel).text, .partDone channel (view.texts channel).itemId
          (channel.part (view.texts channel).text),
        .done (channel.item view.responseId (view.texts channel).text)])
    · rw [ItemView.slot_withText_self]
    · exact hPlace.idxOf?_self
    · exact h.next
    · rfl
    · rw [hEvents, hId, ← hJoin]
      exact .text (channel.announces _ _) (channel.item_id _ _) (channel.item_content _ _)
  · have hNone : (view.texts channel).outputIndex = none := hSlot
    simp only [closeText, hNone, Prod.mk.injEq] at hClose
    obtain ⟨rfl, rfl, rfl⟩ := hClose
    refine ⟨?_, rfl⟩
    have hSame : view.withText channel (view.texts channel) view.next [] = view := by
      simp [ItemView.withText]
    rw [textOwner, hNone, Option.isSome_none, if_neg Bool.false_ne_true, List.append_nil,
      List.append_nil, hSame]
    exact h

/-! Calls. -/

theorem finishTool_eq_ok
    (h : finishTool platform key state stream = .ok (events, next)) (hDone : state.done = false) :
    ∃ kind callId name restored added announced following deltas final index,
      state.kind = some kind ∧ state.callId = some callId ∧ state.name = some name ∧
      restore platform stream.projection kind name state.payload = .ok restored ∧
      announce true key state stream = .ok (added, announced, following) ∧
      announced.emitPayloadDelta = (deltas, final) ∧ final.outputIndex = some index ∧
      events = added ++ deltas ++ (envelopeDelta kind index final.itemId restored ++
        contentDone index final.itemId restored ++
        [(index, .done (restoredCallItem stream.response.responseId (toString key) callId restored
          "completed"))]) ∧
      next = { stream with
        tools := stream.tools.insert key { final with done := true }
        nextOutputIndex := following
        completedItems := stream.completedItems ++ [(index,
          restoredCallItem stream.response.responseId (toString key) callId restored
            "completed")] } := by
  unfold finishTool at h
  rw [if_neg (by simp [hDone])] at h
  split at h
  · cases h
  · cases h
  · cases h
  · next kind callId name hKind hId hName =>
      obtain ⟨restored, hRestored, h⟩ := Except.of_bind h
      obtain ⟨⟨added, announced, following⟩, hAnnounce, h⟩ := Except.of_bind h
      cases hEmit : announced.emitPayloadDelta with
      | mk deltas final =>
        simp only [hEmit] at h
        cases hIndex : final.outputIndex with
        | none =>
          rw [hIndex] at h
          cases h
        | some index =>
          rw [hIndex] at h
          cases h
          exact ⟨kind, callId, name, restored, added, announced, following, deltas, final, index,
            hKind, hId, hName, hRestored, hAnnounce, hEmit, hIndex, by simp, by rw [hIndex]⟩

theorem activeIdentity_kind (h : projection.activeIdentity kind name = .ok identity) :
    identity.chatKind projection.profile = kind := by
  unfold ToolProjection.activeIdentity at h
  split_ifs at h with hActive
  split at h
  · next found hFound =>
      cases h
      exact projection.coherent.active_kind hActive hFound
  · cases h

/-- A complete call is restored from the identity that was looked up for it. -/
theorem restored_identity (hResolved : Resolved projection state)
    (hKind : state.kind = some kind) (hName : state.name = some name)
    (h : restore platform projection kind name state.payload = .ok restored) :
    ∃ identity, state.identity = some identity ∧ identity.chatKind projection.profile = kind ∧
      restoreIdentity platform projection identity state.payload = .ok restored := by
  obtain ⟨identity, hIdentity⟩ := Option.isSome_iff_exists.mp
    (hResolved.known (by rw [hKind]; rfl) (by rw [hName]; rfl))
  obtain ⟨found, other, hFound, hOther, hActive⟩ := hResolved.active identity hIdentity
  rw [hKind, Option.some.injEq] at hFound
  rw [hName, Option.some.injEq] at hOther
  subst hFound hOther
  have hRestore : restore platform projection kind name state.payload =
      restoreCall platform projection kind name state.payload := by cases kind <;> rfl
  rw [hRestore, restoreCall, hActive, Except.ok_bind] at h
  exact ⟨identity, hIdentity, activeIdentity_kind hActive, h⟩

section Closing

variable {responseId callId itemId : String}

/-- A tool the target knows as a custom tool gets its input as it is. -/
theorem customInput_eq_ok (hChat : identity.chatKind projection.profile = .custom)
    (payload : String) : customInput platform projection payload = .ok payload := by
  have hNative : projection.profile.customTools = .native := by
    by_contra hOther
    rw [ToolIdentity.chatKind_envelope hOther] at hChat
    cases hChat
  rw [customInput, if_pos hNative]

variable (index : Nat)

/-- The input of an envelope is sent in one piece, if there is any. -/
theorem envelopeDelta_eq (itemId name : String) (space : Option String) (input : String) :
    ∃ deltas, String.join deltas = input ∧
      envelopeDelta .function index itemId (.custom name space input) =
        under index (deltas.map (.delta .custom itemId)) := by
  by_cases hEmpty : input = ""
  · exact ⟨[], by simp [hEmpty], by simp [envelopeDelta, hEmpty, under]⟩
  · exact ⟨[input], by simp [String.join_cons], by simp [envelopeDelta, hEmpty, under]⟩

section

variable (hIdentity : state.identity = some identity) (hKind : state.kind = some kind)
  (hRestored : restoreIdentity platform projection identity state.payload = .ok restored)
  (hId : ToolState.itemIdOf responseId key (some identity) = .ok itemId)
include hIdentity hKind hRestored hId

/-- The end of an item whose payload was sent as it came. -/
theorem closing_streamed (callId : String)
    (hChat : identity.chatKind projection.profile = kind) {channel : Channel}
    (hChannel : state.channel = some channel) :
    (channel = .function ∨ channel = .custom) ∧
      envelopeDelta kind index itemId restored ++ contentDone index itemId restored =
        [(index, .contentDone channel itemId state.payload)] ∧
      (restoredCallItem responseId (toString key) callId restored "completed").get? "id" =
        some (.string itemId) ∧
      (restoredCallItem responseId (toString key) callId restored "completed").get?
        channel.contentField = some (.string state.payload) := by
  rw [ToolState.channel, hIdentity] at hChannel
  cases identity with
  | function | namespaceFunction =>
    cases hChannel
    cases hRestored
    cases hId
    simp [envelopeDelta, contentDone, restoredCallItem, withNamespace, Value.set_obj,
      Channel.contentField]
  | toolSearch => cases hChannel
  | custom | namespaceCustom =>
    dsimp only at hChannel
    split_ifs at hChannel with hCustom
    cases hChannel
    obtain ⟨input, hInput, hRestored⟩ := Except.of_bind hRestored
    rw [hKind, Option.some.injEq] at hCustom
    rw [customInput_eq_ok (hChat.trans hCustom)] at hInput
    cases hInput
    cases hRestored
    cases hId
    simp [envelopeDelta, contentDone, restoredCallItem, withNamespace, Value.set_obj,
      Channel.contentField, hCustom]

/-- The end of an item that is only sent when the call is complete. -/
theorem closing_unstreamed (hChannel : state.channel = none) {first : Value} (hFirst : Announces
      first (restoredCallItem responseId (toString key) callId restored "completed")) :
    ∃ more, envelopeDelta kind index itemId restored ++ contentDone index itemId restored =
        under index more ∧
      ItemStream (restoredCallItem responseId (toString key) callId restored "completed")
        ([.added first] ++ more ++
          [.done (restoredCallItem responseId (toString key) callId restored "completed")]) := by
  rw [ToolState.channel, hIdentity] at hChannel
  cases identity with
  | function | namespaceFunction => cases hChannel
  | toolSearch =>
    obtain ⟨arguments, rfl⟩ := restoreIdentity_toolSearch hRestored
    exact ⟨[], rfl, .toolSearch hFirst (by simp [restoredCallItem])⟩
  | custom | namespaceCustom =>
    dsimp only at hChannel
    split_ifs at hChannel with hCustom
    obtain ⟨input, hInput, hRestored⟩ := Except.of_bind hRestored
    cases hRestored
    cases hId
    cases kind with
    | custom => exact absurd hKind hCustom
    | function =>
      obtain ⟨deltas, rfl, hDeltas⟩ := envelopeDelta_eq index
        (customCallItemId responseId (toString key)) _ _ input
      rw [hDeltas]
      refine ⟨deltas.map (.delta .custom (customCallItemId responseId (toString key))) ++
        [.contentDone .custom (customCallItemId responseId (toString key))
          (String.join deltas)], by simp [under, contentDone], ?_⟩
      have hStream : ItemStream _ ([.added first] ++
          deltas.map (.delta .custom (customCallItemId responseId (toString key))) ++ _) :=
        .call (.inr rfl) hFirst (by simp [restoredCallItem, withNamespace, Value.set_obj])
          (by simp [restoredCallItem, withNamespace, Value.set_obj, Channel.contentField])
      simpa using hStream

end

/-- The item of a call that could not be streamed is announced at the end. -/
theorem announce_unstreamed (h : Tracked stream.view order log closed) {following : Nat}
    (hSlot : stream.view.slot (.tool key) = state.outputIndex)
    (hNone : state.outputIndex = none) (hChannel : state.channel = none)
    (hAnnounce : announce true key state stream = .ok (added, announced, following))
    (hEmit : announced.emitPayloadDelta = (deltas, final)) :
    ∃ first, Place order (.tool key) stream.nextOutputIndex (order ++ [.tool key]) ∧
      following = (order ++ [Owner.tool key]).length ∧
      added ++ deltas = under stream.nextOutputIndex [.added first] ∧
      (∃ itemId emitted, final = { state with
        outputIndex := some stream.nextOutputIndex
        itemId
        emittedPayload := emitted }) ∧
      ToolState.itemIdOf stream.response.responseId key state.identity = .ok final.itemId ∧
      final.addedItem = .ok first := by
  have hPlace := (place_of_slot h (.tool key)).resolve_left fun ⟨index, hIndex, _⟩ => by
    rw [hSlot, hNone] at hIndex
    cases hIndex
  simp only [announce, hNone, Option.isNone_none, Bool.and_self, if_true] at hAnnounce
  obtain ⟨⟨_, opened⟩, hAllocate, hAnnounce⟩ := Except.of_bind hAnnounce
  cases hAnnounce
  obtain ⟨itemId, first, hId, rfl, hFirst, rfl⟩ := ToolState.allocate_eq_ok hAllocate
  refine ⟨first, hPlace.2, by simp [← h.next], ?_⟩
  have hSilent : ToolState.channel
      { state with outputIndex := some stream.nextOutputIndex, itemId } = none := hChannel
  simp only [ToolState.emitPayloadDelta, hSilent] at hEmit
  split_ifs at hEmit
  · cases hEmit
    exact ⟨by simp, ⟨itemId, _, rfl⟩, hId, hFirst⟩
  · cases hEmit
    exact ⟨by simp, ⟨itemId, _, rfl⟩, hId, hFirst⟩

end Closing

section

variable (h : Tracked stream.view order log closed)
include h

/-- The events that close a call complete its item. -/
theorem finish_events {key index : Nat}
    {following : Nat} (hSlot : stream.view.slot (.tool key) = state.outputIndex)
    (hTool : OpenTool stream.projection stream.response.responseId key state
      (trace order log (.tool key))) {callId : String}
    (hKind : state.kind = some kind) (hId : state.callId = some callId)
    (hName : state.name = some name)
    (hRestored : restore platform stream.projection kind name state.payload = .ok restored)
    (hAnnounce : announce true key state stream = .ok (added, announced, following))
    (hEmit : announced.emitPayloadDelta = (deltas, final))
    (hIndex : final.outputIndex = some index) {item : Value}
    (hItem : restoredCallItem stream.response.responseId (toString key) callId restored
      "completed" = item) :
    ∃ later more, Place order (.tool key) index later ∧ following = later.length ∧
      added ++ deltas ++ (envelopeDelta kind index final.itemId restored ++
        contentDone index final.itemId restored ++ [(index, .done item)]) = under index more ∧
      ItemStream item (trace order log (.tool key) ++ more) := by
  obtain ⟨identity, hIdentity, hChat, hRestore⟩ :=
    restored_identity hTool.resolved hKind hName hRestored
  cases hChannel : state.channel with
  | some channel =>
    obtain ⟨found, later, more, itemId, hPlace, hFollowing, hMore, rfl, hShows⟩ :=
      announce_shows h hSlot hChannel (fun hNone => (hTool.unopened hNone).1)
        (fun hSome => ⟨_, (hTool.opened hSome).2⟩) hAnnounce hEmit
    cases hIndex
    obtain ⟨_, first, sent, hSame, hFirst, hJoin, hEvents⟩ := hShows.deltas
    cases hChannel.symm.trans hSame
    have hItemId := hShows.itemId
    rw [hIdentity] at hItemId
    have hSent : String.join sent = state.payload := by
      apply String.toList_inj.mp
      exact hJoin.trans (List.take_of_length_le (String.length_toList).le)
    have hAnnounces := addedItem_announces hFirst hIdentity hId hRestore hItemId
    obtain ⟨hChannels, hDone, hSameId, hContent⟩ := closing_streamed index hIdentity hKind
      hRestore hItemId callId hChat hChannel
    rw [hItem] at hAnnounces hSameId hContent
    refine ⟨later, more ++ [.contentDone channel itemId state.payload, .done item], hPlace,
      hFollowing, ?_, ?_⟩
    · rw [hMore, hDone]
      simp [under]
    · rw [← List.append_assoc, hEvents, ← hSent]
      exact .call hChannels hAnnounces hSameId (hSent ▸ hContent)
  | none =>
    have hNone : state.outputIndex = none := by
      by_contra hSome
      obtain ⟨channel, -, -, hFound, -⟩ :=
        (hTool.opened (Option.isSome_iff_ne_none.mpr hSome)).2.deltas
      rw [hChannel] at hFound
      cases hFound
    obtain ⟨first, hPlace, hFollowing, hAdded, ⟨itemId, emitted, rfl⟩, hItemId, hFirst⟩ :=
      announce_unstreamed h hSlot hNone hChannel hAnnounce hEmit
    cases hIndex
    rw [hIdentity] at hItemId
    obtain ⟨more, hMore, hStream⟩ := closing_unstreamed stream.nextOutputIndex hIdentity hKind
      hRestore hItemId hChannel (addedItem_announces hFirst hIdentity hId hRestore hItemId)
    rw [hItem] at hStream
    refine ⟨_, [.added first] ++ more ++ [.done item], hPlace, hFollowing, ?_, ?_⟩
    · rw [hAdded, hMore]
      simp [under]
    · rw [trace_of_none ((h.slot _).symm.trans (hSlot.trans hNone))]
      exact hStream

/-- One call is closed. -/
theorem finishTool_tracked (hState : stream.tools.get? key = some state)
    (hOpen : .tool key ∉ closed)
    (hFinish : finishTool platform key state stream = .ok (events, next)) :
    Tracked next.view (enter order (.tool key)) (log ++ events) (closed ++ [.tool key]) ∧
      next.texts = stream.texts ∧ ∃ final, next.tools = stream.tools.insert key final := by
  have hTool : OpenTool stream.projection stream.response.responseId key state _ :=
    h.isOpen _ hOpen state hState
  have hSlot : stream.view.slot (.tool key) = state.outputIndex := by
    simp [ItemView.slot, hState]
  obtain ⟨kind, callId, name, restored, added, announced, following, deltas, final, index, hKind,
    hId, hName, hRestored, hAnnounce, hEmit, hIndex, rfl, rfl⟩ :=
    finishTool_eq_ok hFinish hTool.notDone
  obtain ⟨later, more, hPlace, hFollowing, hMore, hStream⟩ :=
    finish_events h hSlot hTool hKind hId hName hRestored hAnnounce hEmit hIndex rfl
  refine ⟨?_, rfl, _, rfl⟩
  rw [hMore, ← hPlace.eq_enter]
  apply h.close hOpen (stream.view.sameElse_withTool key following [(index, _)] _)
    (h.slots.writes hPlace more)
  · rw [ItemView.slot_withTool_self]
    exact hIndex
  · exact hPlace.idxOf?_self
  · exact hFollowing
  · rfl
  · exact hStream

/-- The calls are closed one after the other. -/
theorem finishTools_tracked {keys : List Nat}
    (hKeys : keys.Nodup) (hOpen : ∀ key ∈ keys, .tool key ∉ closed)
    (hFinish : finishTools platform keys stream = .ok (events, next)) :
    Tracked next.view (keys.foldl (fun order key => enter order (.tool key)) order)
        (log ++ events) (closed ++ keys.map .tool) ∧
      next.texts = stream.texts ∧
      ∀ key, (next.tools.get? key).isSome = (stream.tools.get? key).isSome := by
  induction keys generalizing stream order log closed events with
  | nil =>
    cases hFinish
    simpa using h
  | cons key keys ih =>
    obtain ⟨hNew, hRest⟩ := List.nodup_cons.mp hKeys
    unfold finishTools at hFinish
    cases hState : stream.tools.get? key with
    | none =>
      rw [hState] at hFinish
      cases hFinish
    | some state =>
      rw [hState] at hFinish
      obtain ⟨⟨first, middle⟩, hFirst, hFinish⟩ := Except.of_bind hFinish
      obtain ⟨⟨rest, last⟩, hLast, hFinish⟩ := Except.of_bind hFinish
      cases hFinish
      obtain ⟨hTracked, hTexts, final, hTools⟩ :=
        finishTool_tracked h hState (hOpen key List.mem_cons_self) hFirst
      have hStill : ∀ other ∈ keys, .tool other ∉ closed ++ [.tool key] := by
        intro other hOther hMem
        rcases List.mem_append.mp hMem with hClosed | hSame
        · exact hOpen other (List.mem_cons_of_mem _ hOther) hClosed
        · cases List.mem_singleton.mp hSame
          exact hNew hOther
      obtain ⟨hDone, hLastTexts, hSame⟩ := ih hTracked hRest hStill hLast
      refine ⟨by simpa using hDone, hLastTexts.trans hTexts, fun other => ?_⟩
      rw [hSame other, hTools, OrderedMap.get?_insert]
      split_ifs with hOther
      · rw [hOther, hState, Option.isSome_some, Option.isSome_some]
      · rfl

/-! All items. -/

theorem finishReasoning_tracked (hOpen : .text .reasoning ∉ closed)
    (hFinish : stream.finishReasoning = (events, next)) :
    Tracked next.view order (log ++ events) (closed ++ textOwner stream.view .reasoning) ∧
      next.reasoning.outputIndex = stream.reasoning.outputIndex := by
  cases hClose : closeText .reasoning stream.response.responseId stream.reasoning with
  | mk closing rest =>
    obtain ⟨items, state⟩ := rest
    simp only [finishReasoning, hClose, Prod.mk.injEq] at hFinish
    obtain ⟨rfl, rfl⟩ := hFinish
    obtain ⟨hTracked, hIndex⟩ := closeText_tracked h hOpen hClose
    refine ⟨?_, hIndex⟩
    have hView : .withText stream.view .reasoning state stream.view.next items =
        ChatToResponsesStream.view { stream with
          reasoning := state
          completedItems := stream.completedItems ++ items } := by
      simp only [ItemView.withText, view, ItemView.mk.injEq, and_true, true_and]
      funext channel
      cases channel <;> simp [texts]
    rw [← hView]
    exact hTracked

theorem finishMessage_tracked (hOpen : .text .message ∉ closed)
    (hFinish : stream.finishMessage = (events, next)) :
    Tracked next.view order (log ++ events) (closed ++ textOwner stream.view .message) ∧
      next.reasoning = stream.reasoning ∧
      next.message.outputIndex = stream.message.outputIndex := by
  cases hClose : closeText .message stream.response.responseId stream.message with
  | mk closing rest =>
    obtain ⟨items, state⟩ := rest
    simp only [finishMessage, hClose, Prod.mk.injEq] at hFinish
    obtain ⟨rfl, rfl⟩ := hFinish
    obtain ⟨hTracked, hIndex⟩ := closeText_tracked h hOpen hClose
    refine ⟨?_, rfl, hIndex⟩
    have hView : .withText stream.view .message state stream.view.next items =
        ChatToResponsesStream.view { stream with
          message := state
          completedItems := stream.completedItems ++ items } := by
      simp only [ItemView.withText, view, ItemView.mk.injEq, and_true, true_and]
      funext channel
      cases channel <;> simp [texts]
    rw [← hView]
    exact hTracked

end

/-- Closing all items closes each of them once. -/
theorem finishItems_tracked (h : Tracked stream.view order log [])
    (hFinish : finishItems platform stream = .ok (events, next)) :
    ∃ later closed, Tracked next.view later (log ++ events) closed ∧ closed.Perm later := by
  cases hReasoning : stream.finishReasoning with
  | mk first afterReasoning =>
  cases hMessage : afterReasoning.finishMessage with
  | mk second afterMessage =>
  simp only [finishItems, hReasoning, hMessage] at hFinish
  obtain ⟨⟨rest, last⟩, hTools, hFinish⟩ := Except.of_bind hFinish
  cases hFinish
  obtain ⟨hFirst, hReasoningIndex⟩ := finishReasoning_tracked h (by simp) hReasoning
  have hMessageOpen : .text .message ∉ [] ++ textOwner stream.view .reasoning := by
    rw [textOwner]
    split_ifs <;> simp
  obtain ⟨hSecond, hSameReasoning, hMessageIndex⟩ :=
    finishMessage_tracked hFirst hMessageOpen hMessage
  have hToolsOpen : ∀ key ∈ afterMessage.tools.keys, .tool key ∉ [] ++
      textOwner stream.view .reasoning ++ textOwner afterReasoning.view .message := by
    intro key _
    rw [textOwner, textOwner]
    split_ifs <;> simp
  obtain ⟨hThird, hTexts, hKept⟩ := finishTools_tracked hSecond
    afterMessage.tools.keys_sorted.nodup hToolsOpen hTools
  have hLog : log ++ first ++ second ++ rest = log ++ (first ++ second ++ rest) := by simp
  rw [hLog] at hThird
  refine ⟨_, _, hThird, (List.perm_ext_iff_of_nodup hThird.nodup hThird.slots.nodup).mpr ?_⟩
  intro owner
  refine ⟨hThird.mem_order_of_closed, fun hOwner => ?_⟩
  have hSlot : (last.view.slot owner).isSome := by
    rw [hThird.slot]
    exact List.isSome_idxOf?.mpr hOwner
  cases owner with
  | text channel =>
    have hIndex : ((last.texts channel).outputIndex).isSome := hSlot
    rw [hTexts] at hIndex
    apply List.mem_append_left
    cases channel with
    | message =>
      have hBefore : (afterReasoning.view.texts .message).outputIndex.isSome := by
        change afterReasoning.message.outputIndex.isSome
        rw [← hMessageIndex]
        exact hIndex
      exact List.mem_append_right _ (by rw [textOwner, if_pos hBefore]; exact List.mem_cons_self)
    | reasoning =>
      have hBefore : (stream.view.texts .reasoning).outputIndex.isSome := by
        change stream.reasoning.outputIndex.isSome
        rw [← hReasoningIndex, ← hSameReasoning]
        exact hIndex
      exact List.mem_append_left _ (by rw [textOwner, if_pos hBefore]; exact List.mem_cons_self)
  | tool key =>
    have hSome : (last.tools.get? key).isSome := Option.isSome_of_isSome_bind hSlot
    rw [hKept] at hSome
    apply List.mem_append_right
    exact List.mem_map_of_mem (OrderedMap.mem_keys.mpr hSome)

end ChatToResponsesStream

end Any2Api.Bridge
