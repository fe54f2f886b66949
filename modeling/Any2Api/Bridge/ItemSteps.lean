import Any2Api.Bridge.ToolStates

/-! What the operations of the translator do to the output items. -/
namespace Any2Api.Bridge

open Any2Api.Json OpenAiChat Multiplex

namespace ItemView

/-- The view with another text. -/
def withText (view : ItemView) (channel : TextChannel) (state : TextState) (next : Nat)
    (items : List (Nat × Value)) : ItemView :=
  { view with
    texts := Function.update view.texts channel state
    next
    completed := view.completed ++ items }

/-- The view with another call. -/
def withTool (view : ItemView) (key : Nat) (state : ToolState) (next : Nat)
    (items : List (Nat × Value)) : ItemView :=
  { view with
    tools := view.tools.insert key state
    next
    completed := view.completed ++ items }

variable (view : ItemView) (channel : TextChannel) (key next : Nat) (items : List (Nat × Value))

theorem sameElse_withText (state : TextState) :
    view.SameElse (.text channel) (view.withText channel state next items) := by
  refine ⟨rfl, rfl, fun other hOther => ?_, fun _ _ => rfl⟩
  exact Function.update_of_ne (fun h => hOther (congrArg Owner.text h)) _ _

theorem sameElse_withTool (state : ToolState) :
    view.SameElse (.tool key) (view.withTool key state next items) := by
  refine ⟨rfl, rfl, fun _ _ => rfl, fun other hOther => ?_⟩
  rw [withTool, OrderedMap.get?_insert, if_neg fun h => hOther (congrArg Owner.tool h)]

@[simp] theorem slot_withText_self (state : TextState) :
    (view.withText channel state next items).slot (.text channel) = state.outputIndex := by
  simp [slot, withText]

@[simp] theorem slot_withTool_self (state : ToolState) :
    (view.withTool key state next items).slot (.tool key) = state.outputIndex := by
  simp [slot, withTool]

@[simp] theorem open_withText_self (state : TextState) (events : List ItemEvent) :
    (view.withText channel state next items).Open (.text channel) events ↔
      OpenText channel view.responseId state events := by
  simp [Open, withText]

@[simp] theorem open_withTool_self (state : ToolState) (events : List ItemEvent) :
    (view.withTool key state next items).Open (.tool key) events ↔
      OpenTool view.projection view.responseId key state events := by
  simp [Open, withTool]

end ItemView

namespace ChatToResponsesStream

variable {platform : Platform} {view : ItemView} {order : List Owner} {log : List (Nat × ItemEvent)}
  {closed : List Owner} {delta : String} {stream : ChatToResponsesStream}

/-! Texts. -/

/-- The next index after an owner was placed. -/
theorem place_of_slot (h : Tracked view order log closed) (owner : Owner) :
    (∃ index, view.slot owner = some index ∧ Place order owner index order) ∨
      (view.slot owner = none ∧ Place order owner view.next (order ++ [owner])) := by
  cases hSlot : view.slot owner with
  | none =>
    rw [h.next]
    exact .inr ⟨rfl, .first ((h.slot owner).symm.trans hSlot)⟩
  | some index => exact .inl ⟨index, rfl, .again ((h.slot owner).symm.trans hSlot)⟩

theorem addText_tracked (h : Tracked view order log closed) {channel : TextChannel}
    (hOpen : .text channel ∉ closed) (hDelta : delta ≠ "")
    {events : List (Nat × ItemEvent)} {state : TextState}
    (hAdd : addText channel view.responseId delta view.next (view.texts channel) =
      (events, state)) :
    Tracked (view.withText channel state (nextAfterText (view.texts channel) view.next) [])
      (enter order (.text channel)) (log ++ events) closed := by
  have hText : OpenText channel view.responseId (view.texts channel) _ := h.isOpen _ hOpen
  have hLonger : ∀ text : String, text ++ delta ≠ "" := by
    intro text hEmpty
    exact hDelta (String.append_eq_empty_iff.mp hEmpty).2
  rcases place_of_slot h (.text channel) with ⟨index, hSlot, hPlace⟩ | ⟨hSlot, hPlace⟩
  · have hIndex : (view.texts channel).outputIndex = some index := hSlot
    obtain ⟨-, hId, deltas, hJoin, hEvents⟩ := hText.opened (by simp [hIndex])
    simp only [addText, hIndex, Prod.mk.injEq] at hAdd
    obtain ⟨rfl, rfl⟩ := hAdd
    rw [← hPlace.eq_enter]
    refine h.write hOpen (view.sameElse_withText channel _ _ _)
      (h.slots.writes hPlace [.delta (.text channel) (view.texts channel).itemId delta]) ?_ ?_ ?_ ?_
    · simp [hPlace.idxOf?_self]
    · simp [ItemView.withText, nextAfterText, hIndex, h.next]
    · simp [ItemView.withText]
    · rw [ItemView.open_withText_self]
      refine ⟨hText.notDone, by simp, fun _ => ⟨hLonger _, hId, deltas ++ [delta], ?_, ?_⟩⟩
      · simp [String.join_append, hJoin]
      · rw [hEvents, hId]
        simp [openTextEvents]
  · have hNone : (view.texts channel).outputIndex = none := hSlot
    simp only [addText, hNone, Prod.mk.injEq] at hAdd
    obtain ⟨rfl, rfl⟩ := hAdd
    rw [← hPlace.eq_enter]
    refine h.write hOpen (view.sameElse_withText channel _ _ _)
      (h.slots.writes hPlace (openTextEvents channel view.responseId [delta])) ?_ ?_ ?_ ?_
    · simp [hPlace.idxOf?_self]
    · simp [ItemView.withText, nextAfterText, hNone, h.next]
    · simp [ItemView.withText]
    · rw [ItemView.open_withText_self, trace_of_none ((h.slot _).symm.trans hSlot)]
      refine ⟨hText.notDone, by simp, fun _ => ⟨hLonger _, rfl, [delta], ?_, rfl⟩⟩
      simp [hText.unopened hNone, String.join_cons]

theorem view_pushText (message : TextState) (next bytes : Nat) :
    ({ stream with message, nextOutputIndex := next, continuationBytes := bytes } :
      ChatToResponsesStream).view = stream.view.withText .message message next [] := by
  simp only [view, ItemView.withText, List.append_nil, ItemView.mk.injEq, and_true, true_and]
  funext channel
  cases channel <;> simp [texts]

theorem view_pushReasoning (reasoning : TextState) (next bytes : Nat) :
    ({ stream with reasoning, nextOutputIndex := next, continuationBytes := bytes } :
      ChatToResponsesStream).view = stream.view.withText .reasoning reasoning next [] := by
  simp only [view, ItemView.withText, List.append_nil, ItemView.mk.injEq, and_true, true_and]
  funext channel
  cases channel <;> simp [texts]

variable {stream next : ChatToResponsesStream} {events : List (Nat × ItemEvent)}

theorem pushText_tracked (h : Tracked stream.view order log [])
    (hPush : pushText platform delta stream = .ok (events, next)) :
    ∃ later, Tracked next.view later (log ++ events) [] := by
  unfold pushText at hPush
  split_ifs at hPush with hEmpty
  · cases hPush
    exact ⟨order, by simpa using h⟩
  · obtain ⟨bytes, -, hPush⟩ := Except.of_bind hPush
    cases hPush
    rw [view_pushText]
    exact ⟨_, addText_tracked h (by simp) hEmpty rfl⟩

theorem pushReasoning_tracked (h : Tracked stream.view order log [])
    (hPush : pushReasoning platform delta stream = .ok (events, next)) :
    ∃ later, Tracked next.view later (log ++ events) [] := by
  unfold pushReasoning at hPush
  split_ifs at hPush with hEmpty
  · cases hPush
    exact ⟨order, by simpa using h⟩
  · obtain ⟨bytes, -, hPush⟩ := Except.of_bind hPush
    cases hPush
    rw [view_pushReasoning]
    exact ⟨_, addText_tracked h (by simp) hEmpty rfl⟩

/-! Calls. -/

theorem pushTool_eq_ok {call : Value} (h : pushTool platform call stream = .ok (events, next)) :
    ∃ object index bytes observed rest added announced following deltas state,
      ((stream.tools.get? index).getD .default).observe platform stream.projection object
        bytes = .ok (observed, rest) ∧
      announce observed.streamable index observed stream = .ok (added, announced, following) ∧
      announced.emitPayloadDelta = (deltas, state) ∧ events = added ++ deltas ∧
      next = { stream with
        tools := stream.tools.insert index state
        nextOutputIndex := following
        continuationBytes := rest } := by
  unfold pushTool at h
  cases hObject : call.asObject with
  | none =>
    rw [hObject] at h
    cases h
  | some object =>
    rw [hObject] at h
    dsimp only at h
    cases hIndex : (object.get? "index").bind Value.asU64 with
    | none =>
      rw [hIndex] at h
      cases h
    | some index =>
      rw [hIndex] at h
      obtain ⟨bytes, -, h⟩ := Except.of_bind h
      obtain ⟨⟨observed, rest⟩, hObserved, h⟩ := Except.of_bind h
      obtain ⟨⟨added, announced, following⟩, hAdded, h⟩ := Except.of_bind h
      cases h
      exact ⟨object, index.toNat, bytes, observed, rest, added, announced, following, _, _,
        hObserved, hAdded, rfl, rfl, rfl⟩

/-- A call that was not seen before is open and empty. -/
theorem openTool_getD (h : Tracked view order log closed) {key : Nat} (hOpen : .tool key ∉ closed) :
    OpenTool view.projection view.responseId key ((view.tools.get? key).getD .default)
      (trace order log (.tool key)) := by
  have hTool : ∀ state, view.tools.get? key = some state → OpenTool _ _ key state _ :=
    h.isOpen _ hOpen
  cases hState : view.tools.get? key with
  | some state => exact hTool state hState
  | none =>
    have hSlot : order.idxOf? (.tool key) = none := by
      rw [← h.slot, ItemView.slot, hState]
      rfl
    rw [trace_of_none hSlot]
    exact ToolState.default_open _ _ key

theorem slot_getD (view : ItemView) (key : Nat) :
    view.slot (.tool key) = ((view.tools.get? key).getD .default).outputIndex := by
  rw [ItemView.slot]
  cases view.tools.get? key <;> rfl

section Fragment

variable {key following : Nat} {observed announced state : ToolState}
  {added deltas : List (Nat × ItemEvent)}

/-- The item of a call that can be streamed: it is announced if it was not, and
shows the whole payload. -/
theorem announce_shows (h : Tracked stream.view order log closed) {channel : Channel}
    (hSlot : stream.view.slot (.tool key) = observed.outputIndex)
    (hChannel : observed.channel = some channel)
    (hNew : observed.outputIndex = none → observed.emittedPayload = 0)
    (hOld : observed.outputIndex.isSome →
      ∃ shown, Shows stream.response.responseId key observed (trace order log (.tool key)) shown)
    (hAnnounce : announce true key observed stream = .ok (added, announced, following))
    (hEmit : announced.emitPayloadDelta = (deltas, state)) :
    ∃ index later more itemId, Place order (.tool key) index later ∧ following = later.length ∧
      added ++ deltas = under index more ∧
      state = { observed with
        outputIndex := some index
        itemId
        emittedPayload := observed.payload.length } ∧
      Shows stream.response.responseId key state (trace order log (.tool key) ++ more)
        state.payload.length := by
  rcases place_of_slot h (.tool key) with ⟨index, hPlaced, hPlace⟩ | ⟨hPlaced, hPlace⟩
  · have hIndex : observed.outputIndex = some index := hSlot.symm.trans hPlaced
    simp only [announce, hIndex, Option.isNone_some, Bool.and_false, Bool.false_eq_true, if_false,
      Except.ok.injEq, Prod.mk.injEq] at hAnnounce
    obtain ⟨rfl, rfl, rfl⟩ := hAnnounce
    obtain ⟨shown, hShows⟩ := hOld (by rw [hIndex]; rfl)
    obtain ⟨more, hMore, hAll⟩ := ToolState.emitPayloadDelta_shows hShows hIndex
    rw [hMore, Prod.mk.injEq] at hEmit
    obtain ⟨rfl, rfl⟩ := hEmit
    exact ⟨index, order, more, observed.itemId, hPlace, h.next, rfl, by rw [hIndex], hAll⟩
  · have hNone : observed.outputIndex = none := hSlot.symm.trans hPlaced
    simp only [announce, hNone, Option.isNone_none, Bool.and_self, if_true] at hAnnounce
    obtain ⟨⟨first, opened⟩, hAllocate, hAnnounce⟩ := Except.of_bind hAnnounce
    cases hAnnounce
    obtain ⟨item, rfl, hShows⟩ := ToolState.allocate_shows hAllocate hChannel (hNew hNone)
    obtain ⟨itemId, _, -, rfl, -, -⟩ := ToolState.allocate_eq_ok hAllocate
    obtain ⟨more, hMore, hAll⟩ := ToolState.emitPayloadDelta_shows hShows rfl
    rw [hMore, Prod.mk.injEq] at hEmit
    obtain ⟨rfl, rfl⟩ := hEmit
    refine ⟨_, _, .added item :: more, itemId, hPlace, by simp [← h.next], rfl, rfl, ?_⟩
    rw [trace_of_none ((h.slot _).symm.trans hPlaced)]
    exact hAll

/-- The state of a call and the events of its item after a fragment. -/
theorem observed_tracked (h : Tracked stream.view order log closed) (hOpen : .tool key ∉ closed)
    (hObserved : ToolState.Observed ((stream.tools.get? key).getD .default) observed)
    (hResolved : Resolved stream.projection observed)
    (hAnnounce : announce observed.streamable key observed stream =
      .ok (added, announced, following))
    (hEmit : announced.emitPayloadDelta = (deltas, state)) :
    ∃ later, Tracked (stream.view.withTool key state following []) later
      (log ++ (added ++ deltas)) closed := by
  have hTool := openTool_getD h hOpen
  have hSlot : stream.view.slot (.tool key) = observed.outputIndex :=
    (slot_getD stream.view key).trans hObserved.outputIndex.symm
  have hDone : observed.done = false := hObserved.done.trans hTool.notDone
  have hOld : observed.outputIndex.isSome → observed.streamable ∧
      ∃ shown, Shows stream.response.responseId key observed (trace order log (.tool key))
        shown := by
    intro hIndex
    rw [hObserved.outputIndex] at hIndex
    obtain ⟨hId, hShows⟩ := hTool.opened hIndex
    obtain ⟨channel, -, -, hChannel, -⟩ := hShows.deltas
    exact ⟨hObserved.streamable (ToolState.streamable_iff.mpr ⟨hId, channel, hChannel⟩), _,
      hObserved.shows hShows⟩
  have hNew : observed.outputIndex = none → observed.emittedPayload = 0 := by
    intro hNone
    rw [hObserved.outputIndex] at hNone
    exact hObserved.emitted.trans (hTool.unopened hNone).1
  cases hReady : observed.streamable with
  | true =>
    obtain ⟨hId, channel, hChannel⟩ := ToolState.streamable_iff.mp hReady
    rw [hReady] at hAnnounce
    obtain ⟨index, later, more, itemId, hPlace, hFollowing, hMore, rfl, hShows⟩ :=
      announce_shows h hSlot hChannel hNew (fun hSome => (hOld hSome).2) hAnnounce hEmit
    rw [hMore]
    refine ⟨later, ?_⟩
    apply h.write hOpen (stream.view.sameElse_withTool key following [] _)
      (h.slots.writes hPlace more)
    · rw [ItemView.slot_withTool_self, hPlace.idxOf?_self]
    · exact hFollowing
    · simp [ItemView.withTool]
    · rw [ItemView.open_withTool_self]
      exact ⟨hDone, ⟨hResolved.known, hResolved.active⟩, by simp, fun _ => ⟨hId, hShows⟩⟩
  | false =>
    have hNone : observed.outputIndex = none := by
      by_contra hSome
      have := (hOld (Option.isSome_iff_ne_none.mpr hSome)).1
      simp [hReady] at this
    simp only [announce, hReady, Bool.false_and, Bool.false_eq_true, if_false,
      Except.ok.injEq, Prod.mk.injEq] at hAnnounce
    obtain ⟨rfl, rfl, rfl⟩ := hAnnounce
    simp only [ToolState.emitPayloadDelta, hNone, Prod.mk.injEq] at hEmit
    obtain ⟨rfl, rfl⟩ := hEmit
    rw [List.append_nil, List.append_nil]
    refine ⟨order, ?_⟩
    apply h.write hOpen (stream.view.sameElse_withTool key _ [] _) (h.slots.writes_nil (.tool key))
    · rw [ItemView.slot_withTool_self, ← h.slot, hSlot]
    · exact h.next
    · simp [ItemView.withTool]
    · rw [ItemView.open_withTool_self]
      exact ⟨hDone, hResolved, fun _ => ⟨hNew hNone, hReady⟩, by simp [hNone]⟩

end Fragment

theorem view_pushTool {key : Nat} (state : ToolState) (following bytes : Nat) :
    ({ stream with
        tools := stream.tools.insert key state
        nextOutputIndex := following
        continuationBytes := bytes } : ChatToResponsesStream).view =
      stream.view.withTool key state following [] := by
  simp [view, ItemView.withTool, texts, funext_iff]

/-- One fragment. -/
theorem pushTool_tracked (h : Tracked stream.view order log []) {call : Value}
    (hPush : pushTool platform call stream = .ok (events, next)) :
    ∃ later, Tracked next.view later (log ++ events) [] := by
  obtain ⟨object, index, bytes, observed, rest, added, announced, following, deltas, state,
    hObserved, hAnnounce, hEmit, rfl, rfl⟩ := pushTool_eq_ok hPush
  rw [view_pushTool]
  exact observed_tracked h (by simp) (ToolState.observe_observed hObserved)
    (ToolState.observe_resolved hObserved (openTool_getD h (by simp)).resolved) hAnnounce hEmit

end ChatToResponsesStream

end Any2Api.Bridge
