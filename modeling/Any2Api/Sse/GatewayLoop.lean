import Any2Api.Library.Loop
import Any2Api.Sse.FrameCutting

/-! The gateway's frame loop over a chunked input. It is the loop of
`process_buffered_frame` and `finish_decoder` with the frame handler left out:
frames are collected instead of being parsed. -/
namespace Any2Api.Sse

/-- The decoder, the rest of the chunk being pushed, the chunks still to
arrive and the frames taken so far. -/
structure LoopState where
  decoder : SseDecoder
  chunk : Bytes
  later : List Bytes
  frames : List Bytes

/-- The frames of a run and how it ended: a remainder or the first error. -/
abbrev LoopResult := List Bytes × Except ProtocolError (Option Bytes)

namespace LoopState

/-- The input a run has not yet turned into frames. -/
def pending (state : LoopState) : Bytes :=
  state.decoder.buffer.contents ++ (state.chunk ++ state.later.flatten)

/-- The part of a chunk that goes to `push`, and what stays buffered. -/
def pushChunk (state : LoopState) : LoopState ⊕ LoopResult :=
  let take := min state.decoder.nextInputLimit state.chunk.length
  match state.decoder.push (state.chunk.take take) with
  | .error error => .inr (state.frames, .error error)
  | .ok (consumed, decoder) =>
    .inl { state with decoder, chunk := state.chunk.drop consumed }

/-- One turn: a ready frame first, then the current chunk, then the next
chunk, and `finish` once the input is exhausted. -/
def turn (state : LoopState) : LoopState ⊕ LoopResult :=
  match state.decoder.nextFrame with
  | .error error => .inr (state.frames, .error error)
  | .ok (some frame, decoder) =>
    .inl { state with decoder, frames := state.frames ++ [frame] }
  | .ok (none, _) =>
    if state.chunk ≠ [] then state.pushChunk
    else
      match state.later with
      | chunk :: later => .inl { state with chunk, later }
      | [] => .inr (state.frames, state.decoder.finish.map Prod.fst)

end LoopState

def gatewayLoop (fuel maxFrameBytes : Nat) (chunks : List Bytes) : Option LoopResult :=
  Loop.run LoopState.turn fuel ⟨SseDecoder.new maxFrameBytes, [], chunks, []⟩

namespace SseDecoder

variable (decoder : SseDecoder)

/-- Everything `nextFrame` can do. -/
theorem nextFrame_cases :
    (decoder.maxFrameBytes < decoder.buffer.contents.length ∧
      decoder.nextFrame = .error frameLimitError) ∨
    (decoder.buffer.contents.length ≤ decoder.maxFrameBytes ∧ decoder.frameReady = true ∧
      decoder.nextFrame = .ok (some decoder.buffer.contents, decoder.takeBuffer.2)) ∨
    (decoder.buffer.contents.length ≤ decoder.maxFrameBytes ∧ decoder.frameReady = false ∧
      decoder.nextFrame = .ok (none, decoder)) := by
  unfold nextFrame checkBufferLimit PayloadBuffer.len
  by_cases hLong : decoder.maxFrameBytes < decoder.buffer.contents.length
  · simp [hLong]
  · cases hReady : decoder.frameReady <;> simp [hLong, takeBuffer, not_lt.mp hLong]

theorem finish_ok (hFits : decoder.buffer.contents.length ≤ decoder.maxFrameBytes) :
    decoder.finish.map Prod.fst = .ok (remainder decoder.buffer.contents) := by
  unfold finish checkBufferLimit remainder PayloadBuffer.len
  by_cases hEmpty : decoder.buffer.contents = []
  · simp [PayloadBuffer.isEmpty, hEmpty, Except.map]
  · simp [PayloadBuffer.isEmpty, hEmpty, not_lt.mpr hFits, takeBuffer, Except.map]

/-- A push inside the input limit never fails while the decoder has room. -/
theorem push_ok (input : Bytes) (hReady : decoder.frameReady = false)
    (hInput : input ≠ []) (hRoom : decoder.buffer.contents.length ≤ decoder.maxFrameBytes)
    (hLimit : input.length ≤ decoder.nextInputLimit) :
    let stop := eventEndAfterAppend decoder.buffer.contents input
    ∃ next, decoder.push input = .ok (stop.getD input.length, next) ∧
      next.maxFrameBytes = decoder.maxFrameBytes ∧ next.frameReady = stop.isSome ∧
      next.buffer.contents = decoder.buffer.contents ++ input.take (stop.getD input.length) := by
  intro stop
  have hTake : input.take (min decoder.nextInputLimit input.length) = input := by
    rw [Nat.min_eq_right hLimit, List.take_length]
  have hSpace : decoder.buffer.contents.length +
      (input.take (stop.getD input.length)).length ≤ decoder.buffer.maxLen := by
    simp only [nextInputLimit, hReady, PayloadBuffer.len, Bool.false_eq_true, ↓reduceIte] at hLimit
    rw [decoder.limit, List.length_take]
    omega
  have hStored := decoder.buffer.extendFromSlice_ok _ hSpace
  unfold push
  rw [if_neg (by simp [hInput, hReady])]
  dsimp only
  split
  · next hFailed =>
      rw [hTake, hStored] at hFailed
      cases hFailed
  · next buffer hOk =>
      rw [hTake, hStored] at hOk
      cases hOk
      simp only [hTake]
      exact ⟨_, rfl, rfl, rfl, rfl⟩

/-- A push of a non-empty slice to a waiting decoder either consumes a byte or
completes a frame. -/
theorem push_progress {decoder next : SseDecoder} {input : Bytes} {consumed : Nat}
    (hReady : decoder.frameReady = false) (hInput : input ≠ [])
    (h : decoder.push input = .ok (consumed, next)) : 0 < consumed ∨ next.frameReady = true := by
  unfold push at h
  rw [if_neg (by simp [hInput, hReady])] at h
  dsimp only at h
  split at h
  · cases h
  · cases h
    dsimp only
    cases hStop : eventEndAfterAppend decoder.buffer.contents
        (input.take (min decoder.nextInputLimit input.length)) with
    | none =>
      left
      have : 0 < input.length := List.length_pos_iff.mpr hInput
      simp [nextInputLimit, hReady]
      omega
    | some stop => exact .inr rfl

/-- A push stops at the first blank-line end it can see. -/
theorem push_spec (input : Bytes) (hReady : decoder.frameReady = false)
    (hInput : input ≠ []) (hRoom : decoder.buffer.contents.length ≤ decoder.maxFrameBytes)
    (hLimit : input.length ≤ decoder.nextInputLimit)
    (hScan : scanEnd decoder.buffer.contents = none) :
    ∃ consumed next, decoder.push input = .ok (consumed, next) ∧ consumed ≤ input.length ∧
      next.maxFrameBytes = decoder.maxFrameBytes ∧
      next.buffer.contents = decoder.buffer.contents ++ input.take consumed ∧
      ((next.frameReady = false ∧ consumed = input.length ∧
          scanEnd (decoder.buffer.contents ++ input) = none) ∨
        (next.frameReady = true ∧ scanEnd (decoder.buffer.contents ++ input) =
          some (decoder.buffer.contents.length + consumed))) := by
  obtain ⟨next, hPush, hMax, hNext, hContents⟩ := decoder.push_ok input hReady hInput hRoom hLimit
  refine ⟨_, next, hPush, ?_⟩
  rw [eventEndAfterAppend_eq _ _ hScan] at hNext hContents ⊢
  cases hStop : scanEnd (decoder.buffer.contents ++ input) with
  | none =>
    simp only [hStop, Option.map_none, Option.getD_none, Option.isSome_none] at hNext hContents ⊢
    exact ⟨le_rfl, hMax, hContents, .inl ⟨hNext, trivial, trivial⟩⟩
  | some stop =>
    simp only [hStop, Option.map_some, Option.getD_some, Option.isSome_some] at hNext hContents ⊢
    have hLower := scanEnd_append_none hScan hStop
    have hUpper := scanEnd_bounds hStop
    rw [List.length_append] at hUpper
    refine ⟨by omega, hMax, hContents, .inr ⟨hNext, ?_⟩⟩
    rw [Nat.add_sub_cancel' hLower]

end SseDecoder

namespace LoopState

/-- A decoder waiting for input holds no blank-line end; a ready one holds
exactly the bytes up to the first one. -/
def Valid (state : LoopState) : Prop :=
  if state.decoder.frameReady then
    scanEnd state.pending = some state.decoder.buffer.contents.length
  else scanEnd state.decoder.buffer.contents = none

/-- A waiting decoder with buffered bytes weighs more than a ready one, since
a push may complete its frame without consuming anything. -/
def weight (state : LoopState) : Nat :=
  if state.decoder.frameReady then 1 else if state.decoder.buffer.contents = [] then 0 else 2

/-- The measure that every turn of the loop lowers. -/
def size (state : LoopState) : Nat :=
  3 * (state.chunk.length + state.later.flatten.length) + state.later.length + state.weight

theorem weight_le (state : LoopState) : state.weight ≤ 2 := by
  unfold weight
  split
  · omega
  · split <;> omega

/-- A result that continues the frames of `state` with a cut of its pending
input. -/
def Completes (limit : Nat) (state : LoopState) (result : LoopResult) : Prop :=
  ∃ frames, result.1 = state.frames ++ frames ∧
    Cut BlankLineEnd limit state.pending frames result.2

/-- A chunk that is not empty is pushed in full or up to the first blank-line
end, and the remaining input is the same. -/
theorem pushChunk_spec (state : LoopState) (hReady : state.decoder.frameReady = false)
    (hValid : scanEnd state.decoder.buffer.contents = none) (hChunk : state.chunk ≠ [])
    (hRoom : state.decoder.buffer.contents.length ≤ state.decoder.maxFrameBytes) :
    ∃ next, state.pushChunk = .inl next ∧ next.pending = state.pending ∧
      next.frames = state.frames ∧ next.Valid ∧ next.size < state.size ∧
      next.decoder.maxFrameBytes = state.decoder.maxFrameBytes ∧
      (next.chunk.length < state.chunk.length ∨ next.decoder.frameReady = true) := by
  have hLimit : 0 < state.decoder.nextInputLimit := by simp [SseDecoder.nextInputLimit, hReady]
  have hLength : 0 < state.chunk.length := List.length_pos_iff.mpr hChunk
  generalize hInput :
    state.chunk.take (min state.decoder.nextInputLimit state.chunk.length) = input
  have hInputLength : input.length = min state.decoder.nextInputLimit state.chunk.length := by
    simp [← hInput]
  have hSplit : state.chunk = input ++ state.chunk.drop input.length := by
    rw [hInputLength, ← hInput, List.take_append_drop]
  obtain ⟨consumed, decoder, hPush, hConsumed, hMax, hContents, hEnd⟩ :=
    state.decoder.push_spec input hReady (List.length_pos_iff.mp (by omega)) hRoom (by omega) hValid
  have hTake : state.chunk.take consumed = input.take consumed := by
    rw [hSplit, List.take_append_of_le_length hConsumed]
  have hPending : decoder.buffer.contents ++ (state.chunk.drop consumed ++ state.later.flatten) =
      state.pending := by
    rw [hContents, ← hTake, List.append_assoc, ← List.append_assoc (state.chunk.take consumed),
      List.take_append_drop, pending]
  refine ⟨{ state with decoder, chunk := state.chunk.drop consumed }, ?_, hPending, rfl, ?_, ?_,
    hMax, ?_⟩
  · simp [pushChunk, hInput, hPush]
  · rcases hEnd with ⟨hWait, rfl, hNone⟩ | ⟨hFound, hStop⟩
    · simpa [Valid, hWait, hContents] using hNone
    · have hSeen := scanEnd_append hStop (state.chunk.drop input.length ++ state.later.flatten)
      rw [List.append_assoc, ← List.append_assoc input, ← hSplit] at hSeen
      have hStored : decoder.buffer.contents.length =
          state.decoder.buffer.contents.length + consumed := by
        rw [hContents, List.length_append, List.length_take, Nat.min_eq_left hConsumed]
      simp only [Valid, hFound, if_true]
      rw [hStored, ← hSeen]
      exact congrArg scanEnd hPending
  · have hWeight := weight_le { state with decoder, chunk := state.chunk.drop consumed }
    rcases Nat.eq_zero_or_pos consumed with rfl | hPositive
    · -- Consuming nothing completes a frame that was already buffered.
      rcases hEnd with ⟨_, hNothing, _⟩ | ⟨hFound, hStop⟩
      · omega
      · have hBounds := scanEnd_bounds hStop
        have hBuffered : state.decoder.buffer.contents ≠ [] := by
          intro hEmpty
          rw [hEmpty] at hBounds
          simp at hBounds
        simp [size, weight, hReady, hFound, hBuffered]
    · simp only [size, List.length_drop] at hWeight ⊢
      omega
  · rcases hEnd with ⟨hWait, rfl, hNone⟩ | ⟨hFound, hStop⟩
    · left
      rw [List.length_drop]
      omega
    · exact .inr hFound

variable {state : LoopState}

theorem pending_of_ready (hValid : state.Valid) (hReady : state.decoder.frameReady = true) :
    scanEnd state.pending = some state.decoder.buffer.contents.length := by
  simpa [Valid, hReady] using hValid

theorem scanEnd_of_waiting (hValid : state.Valid) (hReady : state.decoder.frameReady = false) :
    scanEnd state.decoder.buffer.contents = none := by
  simpa [Valid, hReady] using hValid

/-- More buffered bytes than a frame may have are a limit error of the whole
input, whether or not a blank line still follows. -/
theorem cut_of_oversized (hValid : state.Valid)
    (hLong : state.decoder.maxFrameBytes < state.decoder.buffer.contents.length) :
    Cut BlankLineEnd state.decoder.maxFrameBytes state.pending []
      (.error SseDecoder.frameLimitError) := by
  cases hReady : state.decoder.frameReady with
  | true => exact .oversized (isLeast_of_scanEnd (pending_of_ready hValid hReady)) hLong
  | false =>
    have hScan := scanEnd_of_waiting hValid hReady
    cases hStop : scanEnd state.pending with
    | some stop =>
      have := scanEnd_append_none hScan hStop
      exact .oversized (isLeast_of_scanEnd hStop) (by omega)
    | none =>
      refine .overflow (not_blankLineEnd_of_scanEnd hStop) ?_
      rw [pending, List.length_append]
      omega

/-- Everything a turn can do. -/
theorem turn_cases (state : LoopState) :
    (state.turn = .inr (state.frames, .error SseDecoder.frameLimitError) ∧
      state.decoder.maxFrameBytes < state.decoder.buffer.contents.length) ∨
    (state.turn = .inl { state with
        decoder := state.decoder.takeBuffer.2
        frames := state.frames ++ [state.decoder.buffer.contents] } ∧
      state.decoder.frameReady = true ∧
      state.decoder.buffer.contents.length ≤ state.decoder.maxFrameBytes) ∨
    (state.turn = state.pushChunk ∧ state.decoder.frameReady = false ∧ state.chunk ≠ [] ∧
      state.decoder.buffer.contents.length ≤ state.decoder.maxFrameBytes) ∨
    (∃ chunk later, state.later = chunk :: later ∧
      state.turn = .inl { state with chunk, later } ∧
      state.decoder.frameReady = false ∧ state.chunk = []) ∨
    (state.turn = .inr (state.frames, .ok (remainder state.decoder.buffer.contents)) ∧
      state.decoder.frameReady = false ∧ state.chunk = [] ∧ state.later = [] ∧
      state.decoder.buffer.contents.length ≤ state.decoder.maxFrameBytes) := by
  unfold turn
  rcases state.decoder.nextFrame_cases with
    ⟨hLong, hNext⟩ | ⟨hFits, hReady, hNext⟩ | ⟨hFits, hReady, hNext⟩
  · exact .inl ⟨by rw [hNext], hLong⟩
  · exact .inr (.inl ⟨by rw [hNext], hReady, hFits⟩)
  · rw [hNext]
    by_cases hChunk : state.chunk = []
    · rw [if_neg (by simpa using hChunk)]
      cases hLater : state.later with
      | cons chunk later => exact .inr (.inr (.inr (.inl ⟨chunk, later, rfl, rfl, hReady, hChunk⟩)))
      | nil =>
        refine .inr (.inr (.inr (.inr ⟨?_, hReady, hChunk, rfl, hFits⟩)))
        rw [state.decoder.finish_ok hFits]
    · exact .inr (.inr (.inl ⟨if_pos hChunk, hReady, hChunk, hFits⟩))

/-- One turn keeps the invariant, lowers the measure and takes at most one
frame off the input. -/
theorem turn_step {limit : Nat} {state next : LoopState} (hValid : state.Valid)
    (hLimit : state.decoder.maxFrameBytes = limit) (hTurn : state.turn = .inl next) :
    (next.Valid ∧ next.decoder.maxFrameBytes = limit) ∧ next.size < state.size ∧
      ∀ result, Completes limit next result → Completes limit state result := by
  rcases state.turn_cases with ⟨h, _⟩ | ⟨h, hReady, hFits⟩ | ⟨h, hReady, hChunk, hFits⟩ |
    ⟨chunk, later, hLater, h, hReady, hChunk⟩ | ⟨h, _⟩
  · rw [h] at hTurn
    cases hTurn
  · rw [h] at hTurn
    cases hTurn
    refine ⟨⟨by simp [Valid, SseDecoder.takeBuffer, SseDecoder.emptyBuffer, scanEnd], hLimit⟩,
      by simp [size, weight, SseDecoder.takeBuffer, SseDecoder.emptyBuffer, hReady], ?_⟩
    rintro ⟨taken, last⟩ ⟨frames, hTaken, hCut⟩
    refine ⟨state.decoder.buffer.contents :: frames, by simpa using hTaken, ?_⟩
    have hFirst : state.pending.take state.decoder.buffer.contents.length =
        state.decoder.buffer.contents := by simp [pending]
    have hRest : state.pending.drop state.decoder.buffer.contents.length =
        state.chunk ++ state.later.flatten := by simp [pending]
    have hCutRest : Cut BlankLineEnd limit (state.pending.drop state.decoder.buffer.contents.length)
        frames last := hRest ▸ hCut
    simpa only [hFirst] using
      Cut.frame (isLeast_of_scanEnd (pending_of_ready hValid hReady)) (hLimit ▸ hFits) hCutRest
  · obtain ⟨pushed, hPush, hPending, hFrames, hPushed, hSize, hMax, -⟩ :=
      state.pushChunk_spec hReady (scanEnd_of_waiting hValid hReady) hChunk hFits
    obtain rfl : pushed = next := by simpa [h, hPush] using hTurn
    refine ⟨⟨hPushed, hMax.trans hLimit⟩, hSize, ?_⟩
    simp only [Completes, hPending, hFrames, imp_self, implies_true]
  · rw [h] at hTurn
    cases hTurn
    refine ⟨⟨by simpa [Valid, hReady] using hValid, hLimit⟩, ?_, ?_⟩
    · simp only [size, weight, hReady, hChunk, hLater, List.flatten_cons, List.length_append,
        List.length_cons, List.length_nil]
      omega
    · simp only [Completes, pending, hChunk, hLater, List.flatten_cons, List.nil_append, imp_self,
        implies_true]
  · rw [h] at hTurn
    cases hTurn

/-- A run that ends has cut all of its pending input. -/
theorem turn_exit {limit : Nat} {result : LoopResult} (hValid : state.Valid)
    (hLimit : state.decoder.maxFrameBytes = limit) (hTurn : state.turn = .inr result) :
    Completes limit state result := by
  subst hLimit
  rcases state.turn_cases with ⟨h, hLong⟩ | ⟨h, _⟩ | ⟨h, hReady, hChunk, hFits⟩ |
    ⟨_, _, _, h, _⟩ | ⟨h, hReady, hChunk, hLater, hFits⟩
  · obtain rfl := Sum.inr.inj (hTurn.symm.trans h)
    exact ⟨[], by simp, cut_of_oversized hValid hLong⟩
  · cases hTurn.symm.trans h
  · obtain ⟨_, hPush, _⟩ :=
      state.pushChunk_spec hReady (scanEnd_of_waiting hValid hReady) hChunk hFits
    cases hTurn.symm.trans (h.trans hPush)
  · cases hTurn.symm.trans h
  · obtain rfl := Sum.inr.inj (hTurn.symm.trans h)
    have hPending : state.pending = state.decoder.buffer.contents := by
      simp [pending, hChunk, hLater]
    have hNone := scanEnd_of_waiting hValid hReady
    refine ⟨[], by simp, ?_⟩
    rw [hPending]
    exact .remainder (not_blankLineEnd_of_scanEnd hNone) hFits

/-- A turn that pushes consumes a byte of the chunk or makes a frame ready. -/
theorem turn_progress {state next : LoopState} (hReady : state.decoder.frameReady = false)
    (hChunk : state.chunk ≠ []) (hTurn : state.turn = .inl next) :
    next.chunk.length < state.chunk.length ∨ next.decoder.frameReady = true := by
  rcases state.turn_cases with ⟨h, _⟩ | ⟨_, hNot, _⟩ | ⟨h, _⟩ | ⟨_, _, _, _, _, hEmpty⟩ | ⟨h, _⟩
  · cases hTurn.symm.trans h
  · rw [hReady] at hNot
    cases hNot
  · rw [h] at hTurn
    unfold pushChunk at hTurn
    dsimp only at hTurn
    split at hTurn
    · cases hTurn
    · next consumed decoder hPush =>
        cases hTurn
        have hLength : 0 < state.chunk.length := List.length_pos_iff.mpr hChunk
        have hInput : state.chunk.take
            (min state.decoder.nextInputLimit state.chunk.length) ≠ [] := by
          rw [← List.length_pos_iff, List.length_take]
          simp only [SseDecoder.nextInputLimit, hReady, Bool.false_eq_true, if_false]
          omega
        rcases SseDecoder.push_progress hReady hInput hPush with hConsumed | hNext
        · left
          rw [List.length_drop]
          omega
        · exact .inr hNext
  · exact absurd hEmpty hChunk
  · cases hTurn.symm.trans h

end LoopState

/-- The loop cuts the input of every chunking at its successive earliest
blank-line ends. -/
theorem gatewayLoop_completes (limit : Nat) (chunks : List Bytes)
    (fuel : Nat) (hFuel : 3 * chunks.flatten.length + chunks.length < fuel) :
    ∃ result, gatewayLoop fuel limit chunks = some result ∧
      Cut BlankLineEnd (max limit 1) chunks.flatten result.1 result.2 := by
  obtain ⟨result, hRun, frames, hFrames, hCut⟩ :=
    Loop.run_total LoopState.size
      (fun state => state.Valid ∧ state.decoder.maxFrameBytes = max limit 1)
      (LoopState.Completes (max limit 1))
      (fun _ _ hState hTurn => LoopState.turn_step hState.1 hState.2 hTurn)
      (fun _ _ hState hTurn => LoopState.turn_exit hState.1 hState.2 hTurn)
      fuel ⟨.new limit, [], chunks, []⟩
      ⟨by simp [LoopState.Valid, SseDecoder.new, SseDecoder.emptyBuffer, scanEnd], rfl⟩
      (by simpa [LoopState.size, LoopState.weight, SseDecoder.new, SseDecoder.emptyBuffer]
            using hFuel)
  refine ⟨result, hRun, ?_⟩
  rw [hFrames]
  simpa [LoopState.pending, SseDecoder.new, SseDecoder.emptyBuffer] using hCut

/-- Decoding is independent of the chunking: for every input, limit and split
the loop returns exactly the cut of the whole input. If the last CR of the
input is read as a line ending too, the pieces and the error are the same. The
pieces of a clean run put the input back together, and every push makes
progress. -/
theorem gatewayLoop_iff_cut (limit : Nat) (hLimit : 1 ≤ limit) (chunks : List Bytes)
    (fuel : Nat) (hFuel : 3 * chunks.flatten.length + chunks.length < fuel) :
    (gatewayLoop fuel limit chunks).isSome ∧
    (∀ frames last, gatewayLoop fuel limit chunks = some (frames, last) ↔
      Cut BlankLineEnd limit chunks.flatten frames last) ∧
    (∀ frames last, Cut BlankLineEndAtEof limit chunks.flatten frames last →
      ∃ taken outcome, gatewayLoop fuel limit chunks = some (taken, outcome) ∧
        pieces taken outcome = pieces frames last) ∧
    (∀ frames rest, gatewayLoop fuel limit chunks = some (frames, .ok rest) →
      frames.flatten ++ rest.getD [] = chunks.flatten) ∧
    (∀ state next : LoopState, state.decoder.frameReady = false → state.chunk ≠ [] →
      state.turn = .inl next →
      next.chunk.length < state.chunk.length ∨ next.decoder.frameReady = true) := by
  obtain ⟨⟨taken, outcome⟩, hRun, hCut⟩ := gatewayLoop_completes limit chunks fuel hFuel
  rw [Nat.max_eq_left hLimit] at hCut
  refine ⟨by rw [hRun]; rfl, ?_, ?_, ?_, fun _ _ => LoopState.turn_progress⟩
  · intro frames last
    constructor
    · intro h
      cases hRun.symm.trans h
      exact hCut
    · intro h
      obtain ⟨rfl, rfl⟩ := hCut.unique h
      exact hRun
  · intro frames last h
    obtain ⟨frames', last', hEof, hPieces⟩ := hCut.atEof
    obtain ⟨rfl, rfl⟩ := hEof.unique h
    exact ⟨taken, outcome, hRun, hPieces.symm⟩
  · intro frames rest h
    cases hRun.symm.trans h
    exact hCut.flatten_append_remainder

/-- Two events split inside a CR LF pair, under a limit of eight bytes. -/
theorem gatewayLoop_split_line_ending :
    (gatewayLoop 40 8 [[97, 13], [10, 13], [10, 98, 10, 10]]).isSome ∧
    gatewayLoop 40 8 [[97, 13], [10, 13], [10, 98, 10, 10]] =
      some ([[97, 13, 10, 13, 10], [98, 10, 10]], .ok none) := by
  have h := gatewayLoop_iff_cut 8 (by decide) [[97, 13], [10, 13], [10, 98, 10, 10]] 40 (by decide)
  exact ⟨h.1, by decide⟩

end Any2Api.Sse
