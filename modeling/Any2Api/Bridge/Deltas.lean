import Any2Api.Bridge.ItemEnds

/-! What a chunk does to the items. A delta adds reasoning, text and fragments
of calls; each of them opens an item or adds to an open one, and leaves the
state of the stream as a whole alone. -/
namespace Any2Api.Bridge

open Any2Api.Json OpenAiChat Multiplex

namespace ChatToResponsesStream

/-- The part of the translator state that is about the stream as a whole. -/
structure Status where
  started : Bool
  completed : Bool
  following : Nat

def status (stream : ChatToResponsesStream) : Status where
  started := stream.started
  completed := stream.completed
  following := stream.nextSequenceNumber

/-- A step that emits events of open items and changes nothing but the items. -/
structure Fills (stream : ChatToResponsesStream) (events : List (Nat × ItemEvent))
    (next : ChatToResponsesStream) : Prop where
  status : next.status = stream.status
  tracked : ∀ {order : List Owner} {log : List (Nat × ItemEvent)},
    Tracked stream.view order log [] → ∃ later, Tracked next.view later (log ++ events) []

variable {platform : Platform} {stream middle next : ChatToResponsesStream}
  {events more : List (Nat × ItemEvent)} {delta choice : Object} {value : Value}

namespace Fills

/-- What is only kept for the response, or about the whole stream, fills nothing. -/
theorem of_view (hView : next.view = stream.view) (hStatus : next.status = stream.status) :
    Fills stream [] next :=
  ⟨hStatus, fun h => ⟨_, by rw [hView, List.append_nil]; exact h⟩⟩

/-- Steps add up. -/
theorem trans (h : Fills stream events middle) (hMore : Fills middle more next) :
    Fills stream (events ++ more) next := by
  refine ⟨hMore.status.trans h.status, fun hTracked => ?_⟩
  obtain ⟨later, hLater⟩ := h.tracked hTracked
  rw [← List.append_assoc]
  exact hMore.tracked hLater

end Fills

theorem pushReasoning_fills {text : String}
    (h : pushReasoning platform text stream = .ok (events, next)) : Fills stream events next := by
  refine ⟨?_, fun hTracked => pushReasoning_tracked hTracked h⟩
  rw [pushReasoning] at h
  split_ifs at h
  · cases h
    rfl
  · obtain ⟨bytes, -, h⟩ := Except.of_bind h
    cases h
    rfl

theorem pushText_fills {text : String}
    (h : pushText platform text stream = .ok (events, next)) : Fills stream events next := by
  refine ⟨?_, fun hTracked => pushText_tracked hTracked h⟩
  rw [pushText] at h
  split_ifs at h
  · cases h
    rfl
  · obtain ⟨bytes, -, h⟩ := Except.of_bind h
    cases h
    rfl

theorem pushTool_fills {call : Value} (h : pushTool platform call stream = .ok (events, next)) :
    Fills stream events next := by
  refine ⟨?_, fun hTracked => pushTool_tracked hTracked h⟩
  obtain ⟨_, _, _, _, _, _, _, _, _, _, -, -, -, -, rfl⟩ := pushTool_eq_ok h
  rfl

theorem applyReasoning_fills (h : applyReasoning platform delta stream = .ok (events, next)) :
    Fills stream events next := by
  obtain ⟨found, -, h⟩ := Except.of_bind h
  cases found with
  | none =>
    cases h
    exact .of_view rfl rfl
  | some text => exact pushReasoning_fills h

theorem applyContent_fills (h : applyContent platform delta stream = .ok (events, next)) :
    Fills stream events next := by
  unfold applyContent at h
  split at h
  · cases h
    exact .of_view rfl rfl
  · cases h
    exact .of_view rfl rfl
  · exact pushText_fills h
  · cases h

/-- The fragments of a chunk, one after the other. -/
theorem pushTools_fills {calls : List Value}
    (h : pushTools platform calls stream = .ok (events, next)) : Fills stream events next := by
  induction calls generalizing stream events with
  | nil =>
    cases h
    exact .of_view rfl rfl
  | cons call calls ih =>
    obtain ⟨⟨first, middle⟩, hFirst, h⟩ := Except.of_bind h
    obtain ⟨⟨rest, last⟩, hRest, h⟩ := Except.of_bind h
    cases h
    exact (pushTool_fills hFirst).trans (ih hRest)

theorem applyToolCalls_fills (h : applyToolCalls platform delta stream = .ok (events, next)) :
    Fills stream events next := by
  unfold applyToolCalls at h
  split at h
  · cases h
    exact .of_view rfl rfl
  · cases h
    exact .of_view rfl rfl
  · exact pushTools_fills h
  · cases h

theorem validateRole_fills {role : Option Value} (h : validateRole role stream = .ok next) :
    Fills stream [] next := by
  unfold validateRole at h
  cases role with
  | none =>
    cases h
    exact .of_view rfl rfl
  | some role =>
    dsimp only at h
    split_ifs at h
    cases h
    exact .of_view rfl rfl

theorem applyFinishReason_fills {reason : Option Value}
    (h : applyFinishReason reason stream = .ok next) : Fills stream [] next := by
  unfold applyFinishReason at h
  split at h
  · cases h
    exact .of_view rfl rfl
  · cases h
    exact .of_view rfl rfl
  · obtain ⟨_, -, h⟩ := Except.of_bind h
    cases h
    exact .of_view rfl rfl
  · cases h

/-- A delta fills items with its reasoning, its text and its calls. -/
theorem applyDelta_fills (h : applyDelta platform delta stream = .ok (events, next)) :
    Fills stream events next := by
  obtain ⟨identified, hRole, h⟩ := Except.of_bind h
  split_ifs at h
  obtain ⟨⟨reasoning, first⟩, hReasoning, h⟩ := Except.of_bind h
  obtain ⟨⟨content, second⟩, hContent, h⟩ := Except.of_bind h
  obtain ⟨⟨calls, third⟩, hCalls, h⟩ := Except.of_bind h
  cases h
  exact ((validateRole_fills hRole).trans (applyReasoning_fills hReasoning)).trans
    (applyContent_fills hContent) |>.trans (applyToolCalls_fills hCalls)

theorem applyChoices_fills {choices : List Value}
    (h : applyChoices platform choices stream = .ok (events, next)) : Fills stream events next := by
  unfold applyChoices at h
  split at h
  · cases h
    exact .of_view rfl rfl
  · split_ifs at h
    split at h
    · cases h
    · obtain ⟨delta, -, h⟩ := Except.of_bind h
      obtain ⟨⟨items, middle⟩, hItems, h⟩ := Except.of_bind h
      obtain ⟨last, hLast, h⟩ := Except.of_bind h
      cases h
      simpa using (applyDelta_fills hItems).trans (applyFinishReason_fills hLast)
  · cases h

/-- The metadata of a chunk are only kept for the response. -/
theorem observeMetadata_fills (h : observeMetadata value stream = .ok next) :
    Fills stream [] next := by
  obtain ⟨-, -, h⟩ := Except.of_bind h
  obtain ⟨middle, hCreated, hModel⟩ := Except.of_bind h
  have hMiddle : Fills stream [] middle := by
    unfold observeCreated at hCreated
    split at hCreated
    · cases hCreated
      exact .of_view rfl rfl
    · split at hCreated
      · cases hCreated
      · split_ifs at hCreated
        cases hCreated
        exact .of_view rfl rfl
  refine hMiddle.trans ?_
  unfold observeModel at hModel
  split at hModel
  · cases hModel
    exact .of_view rfl rfl
  · split at hModel
    · cases hModel
    · split_ifs at hModel
      cases hModel
      exact .of_view rfl rfl

theorem observeUsage_fills (h : observeUsage value stream = .ok next) : Fills stream [] next := by
  unfold observeUsage at h
  split at h
  · cases h
    exact .of_view rfl rfl
  · obtain ⟨_, -, h⟩ := Except.of_bind h
    obtain ⟨tokens, -, h⟩ := Except.of_bind h
    cases h
    exact .of_view rfl rfl

/-- A new translator has no items. -/
theorem new_tracked (response : ResponseProjection) (profile : CompletionsProfile)
    (projection : ToolProjection) (bytes : Nat) :
    Tracked (new response profile projection bytes).view [] [] [] := by
  refine ⟨.empty, ?_, rfl, ?_, List.nodup_nil, .nil⟩
  · intro owner
    cases owner with
    | text channel => cases channel <;> rfl
    | tool key => rfl
  · intro owner _
    cases owner with
    | text channel =>
      cases channel <;> exact ⟨rfl, fun _ => rfl, fun h => by cases h⟩
    | tool key =>
      intro state hState
      cases hState

end ChatToResponsesStream

end Any2Api.Bridge
