import Any2Api.Bridge.ItemStreams

/-! What a fragment can change about a streamed call, and what the item of the
call shows after it. -/
namespace Any2Api.Bridge

open Any2Api.Json OpenAiChat Multiplex

namespace ToolState

variable {platform : Platform} {projection : ToolProjection} {object : Object}
  {state before after : ToolState} {bytes rest : Nat} {target result : Option String}
  {value : Option Value} {responseId : String} {key shown index : Nat} {events : List ItemEvent}
  {added : List (Nat × ItemEvent)}

/-- What was known stays. -/
theorem setOnce_keeps {field text : String}
    (h : setOnce platform target value field bytes = .ok (result, rest))
    (hTarget : target = some text) : result = some text := by
  subst hTarget
  unfold setOnce at h
  cases value with
  | none =>
    cases h
    rfl
  | some value =>
    dsimp only at h
    cases hText : value.asStr with
    | none =>
      rw [hText] at h
      cases h
    | some other =>
      rw [hText] at h
      dsimp only at h
      split_ifs at h
      cases h
      rfl

theorem observeKind_eq_ok (h : observeKind platform object before bytes = .ok (after, rest)) :
    ∃ kind, after = { before with kind := before.kind.or kind } := by
  obtain ⟨explicit, -, h⟩ := Except.of_bind h
  obtain ⟨inferred, -, h⟩ := Except.of_bind h
  split_ifs at h
  refine ⟨explicit.or inferred, ?_⟩
  generalize explicit.or inferred = observed at h ⊢
  cases observed with
  | none =>
    cases h
    simp
  | some observed =>
    cases hKind : before.kind with
    | none =>
      rw [hKind] at h
      obtain ⟨_, -, h⟩ := Except.of_bind h
      cases h
      simp
    | some existing =>
      rw [hKind] at h
      dsimp only at h
      split_ifs at h
      cases h
      rw [Option.some_or, ← hKind]

/-- What a fragment leaves alone, and what it can add. -/
structure Observed (before after : ToolState) : Prop where
  outputIndex : after.outputIndex = before.outputIndex
  itemId : after.itemId = before.itemId
  emitted : after.emittedPayload = before.emittedPayload
  done : after.done = before.done
  payload : ∃ text, after.payload = before.payload ++ text
  kind : ∀ kind, before.kind = some kind → after.kind = some kind
  callId : ∀ callId, before.callId = some callId → after.callId = some callId
  name : ∀ name, before.name = some name → after.name = some name
  identity : ∀ identity, before.identity = some identity → after.identity = some identity

theorem Observed.trans {middle : ToolState} (h : Observed before middle)
    (hLater : Observed middle after) : Observed before after where
  outputIndex := hLater.outputIndex.trans h.outputIndex
  itemId := hLater.itemId.trans h.itemId
  emitted := hLater.emitted.trans h.emitted
  done := hLater.done.trans h.done
  payload := by
    obtain ⟨first, hFirst⟩ := h.payload
    obtain ⟨second, hSecond⟩ := hLater.payload
    exact ⟨first ++ second, by rw [hSecond, hFirst, String.append_assoc]⟩
  kind kind hKind := hLater.kind kind (h.kind kind hKind)
  callId callId hId := hLater.callId callId (h.callId callId hId)
  name name hName := hLater.name name (h.name name hName)
  identity identity hIdentity := hLater.identity identity (h.identity identity hIdentity)

theorem appendPayload_eq_ok {payload : Object}
    (h : appendPayload platform payload before bytes = .ok (after, rest)) :
    ∃ text, after = { before with payload := before.payload ++ text } := by
  unfold appendPayload at h
  cases hKind : before.kind with
  | none =>
    rw [hKind] at h
    cases h
    exact ⟨"", by rw [String.append_empty, ← hKind]⟩
  | some kind =>
    rw [hKind] at h
    dsimp only at h
    cases hField : payload.get? (payloadField kind) with
    | none =>
      rw [hField] at h
      cases h
      exact ⟨"", by rw [String.append_empty, ← hKind]⟩
    | some value =>
      rw [hField] at h
      dsimp only at h
      cases hText : value.asStr with
      | none =>
        rw [hText] at h
        cases h
      | some text =>
        rw [hText] at h
        obtain ⟨_, -, h⟩ := Except.of_bind h
        cases h
        exact ⟨text, rfl⟩

/-- The payload object of a fragment, if it has one, adds a name and a piece
of the payload. -/
theorem observePayload_eq_ok (h : observePayload platform object before bytes = .ok (after, rest)) :
    after = before ∨ ∃ found name text spent,
      setOnce platform before.name found "streamed tool call name" bytes = .ok (name, spent) ∧
      after = { before with name, payload := before.payload ++ text } := by
  obtain ⟨found, -, h⟩ := Except.of_bind h
  cases found with
  | none =>
    cases h
    exact .inl rfl
  | some payload =>
    obtain ⟨⟨name, spent⟩, hName, h⟩ := Except.of_bind h
    obtain ⟨text, rfl⟩ := appendPayload_eq_ok h
    exact .inr ⟨_, name, text, spent, hName, rfl⟩

theorem resolveIdentity_eq_ok (h : resolveIdentity projection before = .ok after) :
    (after = before ∧ (before.identity.isSome ∨ before.kind = none ∨ before.name = none)) ∨
      ∃ kind name identity, before.identity = none ∧ before.kind = some kind ∧
        before.name = some name ∧ projection.activeIdentity kind name = .ok identity ∧
        after = { before with identity := some identity } := by
  unfold resolveIdentity at h
  split at h
  next hIdentity hKind hName =>
    obtain ⟨identity, hActive, h⟩ := Except.of_bind h
    cases h
    exact .inr ⟨_, _, identity, hIdentity, hKind, hName, hActive, rfl⟩
  next hOther =>
    cases h
    refine .inl ⟨rfl, ?_⟩
    cases hIdentity : before.identity with
    | some _ => exact .inl rfl
    | none =>
      cases hKind : before.kind with
      | none => exact .inr (.inl rfl)
      | some kind =>
        cases hName : before.name with
        | none => exact .inr (.inr rfl)
        | some name => exact absurd hName (hOther kind name hIdentity hKind)

/-- A fragment is read in four steps. -/
theorem observe_eq_ok (h : observe platform projection object before bytes = .ok (after, rest)) :
    ∃ known callId full spent paid, observeKind platform object before bytes = .ok (known, spent) ∧
      setOnce platform known.callId (object.get? "id") "streamed tool call id" spent =
        .ok (callId, paid) ∧
      observePayload platform object { known with callId } paid = .ok (full, rest) ∧
      resolveIdentity projection full = .ok after := by
  obtain ⟨⟨known, spent⟩, hKind, h⟩ := Except.of_bind h
  obtain ⟨⟨callId, paid⟩, hId, h⟩ := Except.of_bind h
  obtain ⟨⟨full, left⟩, hPayload, h⟩ := Except.of_bind h
  obtain ⟨resolved, hResolved, h⟩ := Except.of_bind h
  cases h
  exact ⟨known, callId, full, spent, paid, hKind, hId, hPayload, hResolved⟩

theorem observeKind_observed (h : observeKind platform object before bytes = .ok (after, rest)) :
    Observed before after ∧ after.identity = before.identity := by
  obtain ⟨_, rfl⟩ := observeKind_eq_ok h
  refine ⟨⟨rfl, rfl, rfl, rfl, ⟨"", by simp⟩, fun kind hKind => ?_, fun _ h => h, fun _ h => h,
    fun _ h => h⟩, rfl⟩
  simp [hKind]

theorem observePayload_observed
    (h : observePayload platform object before bytes = .ok (after, rest)) :
    Observed before after ∧ after.identity = before.identity := by
  rcases observePayload_eq_ok h with rfl | ⟨_, name, text, spent, hName, rfl⟩
  · exact ⟨⟨rfl, rfl, rfl, rfl, ⟨"", by simp⟩, fun _ h => h, fun _ h => h, fun _ h => h,
      fun _ h => h⟩, rfl⟩
  · exact ⟨⟨rfl, rfl, rfl, rfl, ⟨text, rfl⟩, fun _ h => h, fun _ h => h,
      fun _ hOld => setOnce_keeps hName hOld, fun _ h => h⟩, rfl⟩

section

variable (h : observe platform projection object before bytes = .ok (after, rest))
include h

/-- The part of a call that is read before its identity is looked up. -/
theorem observe_steps :
    ∃ full, Observed before full ∧ full.identity = before.identity ∧
      resolveIdentity projection full = .ok after := by
  obtain ⟨known, callId, full, spent, paid, hKind, hId, hPayload, hResolved⟩ := observe_eq_ok h
  obtain ⟨hKnown, hSame⟩ := observeKind_observed hKind
  obtain ⟨hFull, hSameFull⟩ := observePayload_observed hPayload
  have hCallId : Observed known { known with callId } :=
    ⟨rfl, rfl, rfl, rfl, ⟨"", by simp⟩, fun _ h => h, fun _ hOld => setOnce_keeps hId hOld,
      fun _ h => h, fun _ h => h⟩
  exact ⟨full, (hKnown.trans hCallId).trans hFull, hSameFull.trans hSame, hResolved⟩

theorem observe_observed : Observed before after := by
  obtain ⟨full, hFull, -, hResolved⟩ := observe_steps h
  rcases resolveIdentity_eq_ok hResolved with
    ⟨rfl, -⟩ | ⟨kind, name, identity, hNone, -, -, -, rfl⟩
  · exact hFull
  · refine hFull.trans ⟨rfl, rfl, rfl, rfl, ⟨"", by simp⟩, fun _ h => h, fun _ h => h,
      fun _ h => h, fun _ hOld => ?_⟩
    rw [hNone] at hOld
    cases hOld

theorem observe_resolved (hBefore : Resolved projection before) : Resolved projection after := by
  obtain ⟨full, hFull, hSame, hResolved⟩ := observe_steps h
  rcases resolveIdentity_eq_ok hResolved with
    ⟨rfl, hKnown⟩ | ⟨kind, name, identity, -, hKind, hName, hActive, rfl⟩
  · refine ⟨fun hKind hName => ?_, fun identity hIdentity => ?_⟩
    · rcases hKnown with hIdentity | hNone | hNone
      · exact hIdentity
      · simp [hNone] at hKind
      · simp [hNone] at hName
    · rw [hSame] at hIdentity
      obtain ⟨kind, name, hKind, hName, hActive⟩ := hBefore.active identity hIdentity
      exact ⟨kind, name, hFull.kind kind hKind, hFull.name name hName, hActive⟩
  · refine ⟨fun _ _ => rfl, fun found hFound => ?_⟩
    cases hFound
    exact ⟨kind, name, hKind, hName, hActive⟩

end

/-! The item of a call. -/

theorem Observed.channel (h : Observed before after) {channel : Channel}
    (hChannel : before.channel = some channel) : after.channel = some channel := by
  unfold ToolState.channel at hChannel ⊢
  cases hIdentity : before.identity with
  | none => simp [hIdentity] at hChannel
  | some identity =>
    rw [h.identity identity hIdentity]
    rw [hIdentity] at hChannel
    cases identity with
    | function | namespaceFunction | toolSearch => exact hChannel
    | custom | namespaceCustom =>
      dsimp only at hChannel ⊢
      split_ifs at hChannel with hKind
      rw [if_pos (h.kind _ hKind)]
      exact hChannel

theorem Observed.addedItem (h : Observed before after) {first : Value}
    (hFirst : before.addedItem = .ok first) : after.addedItem = .ok first := by
  unfold ToolState.addedItem at hFirst ⊢
  cases hIdentity : before.identity with
  | none => simp [hIdentity] at hFirst
  | some identity =>
    cases hId : before.callId with
    | none => simp [hIdentity, hId] at hFirst
    | some callId =>
      rw [hIdentity, hId] at hFirst
      rw [h.identity identity hIdentity, h.callId callId hId, h.itemId]
      exact hFirst

/-- A fragment leaves the item as it is; the payload may be ahead of it. -/
theorem Observed.shows (h : Observed before after)
    (hShows : Shows responseId key before events shown) :
    Shows responseId key after events shown := by
  obtain ⟨text, hPayload⟩ := h.payload
  obtain ⟨channel, first, deltas, hChannel, hFirst, hJoin, hEvents⟩ := hShows.deltas
  have hIdentity : after.identity = before.identity := by
    cases hKnown : before.identity with
    | none => simp [ToolState.channel, hKnown] at hChannel
    | some identity => exact h.identity identity hKnown
  refine ⟨by rw [hIdentity, h.itemId]; exact hShows.itemId, h.emitted.trans hShows.emitted, ?_,
    channel, first, deltas, h.channel hChannel, h.addedItem hFirst, ?_, by rw [h.itemId, hEvents]⟩
  · rw [hPayload, String.length_append]
    exact Nat.le_add_right_of_le hShows.bounded
  · rw [hJoin, hPayload, String.toList_append, List.take_append_of_le_length]
    rw [String.length_toList]
    exact hShows.bounded

/-- Sending the rest of the payload. -/
theorem emitPayloadDelta_shows (hShows : Shows responseId key state events shown)
    (hIndex : state.outputIndex = some index) :
    ∃ more, state.emitPayloadDelta = (under index more,
        { state with emittedPayload := state.payload.length }) ∧
      Shows responseId key { state with emittedPayload := state.payload.length } (events ++ more)
        state.payload.length := by
  obtain ⟨channel, first, deltas, hChannel, hFirst, hJoin, hEvents⟩ := hShows.deltas
  by_cases hAll : state.payload.length ≤ state.emittedPayload
  · have hShown : shown = state.payload.length :=
      Nat.le_antisymm hShows.bounded (hShows.emitted ▸ hAll)
    have hState : { state with emittedPayload := state.payload.length } = state := by
      rw [← hShown, ← hShows.emitted]
    refine ⟨[], ?_, ?_⟩
    · rw [hState]
      simp [emitPayloadDelta, hIndex, hAll, under]
    · rw [hState, List.append_nil, ← hShown]
      exact hShows
  · refine ⟨[.delta channel state.itemId
      (String.ofList (state.payload.toList.drop state.emittedPayload))], ?_, hShows.itemId, rfl,
      Nat.le_refl _, channel, first, deltas ++ [_], hChannel, hFirst, ?_, by simp [hEvents]; rfl⟩
    · simp [emitPayloadDelta, hIndex, hAll, hChannel, under]
    · rw [String.join_append, String.toList_append, hJoin, ← hShows.emitted]
      simp [String.join_cons, String.length_toList]

theorem allocate_eq_ok {next : Nat} (h : allocate responseId key next state = .ok (added, after)) :
    ∃ itemId first, itemIdOf responseId key state.identity = .ok itemId ∧
      after = { state with outputIndex := some next, itemId } ∧ after.addedItem = .ok first ∧
      added = under next [.added first] := by
  obtain ⟨itemId, hId, h⟩ := Except.of_bind h
  obtain ⟨first, hFirst, h⟩ := Except.of_bind h
  cases h
  exact ⟨itemId, first, hId, rfl, hFirst, rfl⟩

/-- An item that was just announced shows nothing of the payload. -/
theorem allocate_shows {next : Nat} {channel : Channel}
    (h : allocate responseId key next state = .ok (added, after))
    (hChannel : state.channel = some channel) (hEmitted : state.emittedPayload = 0) :
    ∃ first, added = under next [.added first] ∧ Shows responseId key after [.added first] 0 := by
  obtain ⟨itemId, first, hId, rfl, hFirst, hAdded⟩ := allocate_eq_ok h
  exact ⟨first, hAdded, hId, hEmitted, Nat.zero_le _, channel, first, [], hChannel, hFirst, by simp,
    rfl⟩

theorem streamable_iff : state.streamable ↔
    state.callId.any (· ≠ "") ∧ ∃ channel, state.channel = some channel := by
  rw [streamable, Bool.and_eq_true, Option.isSome_iff_exists]

/-- A call that could be streamed still can be. -/
theorem Observed.streamable (h : Observed before after) (hBefore : before.streamable) :
    after.streamable := by
  rw [streamable_iff] at hBefore ⊢
  obtain ⟨hId, channel, hChannel⟩ := hBefore
  refine ⟨?_, channel, h.channel hChannel⟩
  cases hCallId : before.callId with
  | none => simp [hCallId] at hId
  | some callId =>
    rw [h.callId callId hCallId, ← hCallId]
    exact hId

theorem default_open (projection : ToolProjection) (responseId : String) (key : Nat) :
    OpenTool projection responseId key default [] :=
  ⟨rfl, ⟨by simp [default], by simp [default]⟩, fun _ => ⟨rfl, rfl⟩, by simp [default]⟩

end ToolState

end Any2Api.Bridge
