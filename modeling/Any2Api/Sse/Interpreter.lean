import Any2Api.Library.Result
import Any2Api.Sse.Event
import Any2Api.Sse.GatewayLoop

/-! A line-by-line interpreter of a whole event stream. It states what the two
stages of the decoder, cutting frames and parsing each one, are for: together
they dispatch the events of the stream. -/
namespace Any2Api.Sse

/-- Put a byte in front of the first line. -/
def consLine (byte : UInt8) : List Bytes → List Bytes
  | [] => [[byte]]
  | line :: lines => (byte :: line) :: lines

/-- The lines of a byte string. The CR of a CR LF pair adds nothing to the LF,
and a last line without a terminator counts when it is not empty. -/
def splitLines : Bytes → List Bytes
  | [] => []
  | byte :: rest =>
    if byte = 10 then [] :: splitLines rest
    else if byte = 13 then
      if rest.head? = some 10 then splitLines rest else [] :: splitLines rest
    else consLine byte (splitLines rest)

/-- The name and the data lines of the event being read. -/
structure PendingEvent where
  name : Option Bytes
  data : List Bytes
  deriving DecidableEq

def stripSpace (value : Bytes) : Bytes := if value.head? = some 32 then value.tail else value

namespace PendingEvent

def empty : PendingEvent := ⟨none, []⟩

/-- Only an event with data is dispatched. -/
def dispatch (event : PendingEvent) : Option Dispatch :=
  let data := [10].intercalate event.data
  if data = [] then none else some ⟨event.name, data⟩

/-- Comments and unknown fields are ignored, data lines are kept in order and
the last event name wins. -/
def observe (event : PendingEvent) (line : Bytes) : PendingEvent :=
  let name := line.takeWhile (· ≠ 58)
  let value := stripSpace ((line.dropWhile (· ≠ 58)).drop 1)
  if name = asciiBytes "event" then { event with name := some value }
  else if name = asciiBytes "data" then { event with data := event.data ++ [value] }
  else event

end PendingEvent

/-- A blank line dispatches the pending event; so does the end of the input. -/
def interpretLines : PendingEvent → List Bytes → List Dispatch
  | event, [] => event.dispatch.toList
  | event, line :: lines =>
    if line = [] then event.dispatch.toList ++ interpretLines .empty lines
    else interpretLines (event.observe line) lines

def interpret (bytes : Bytes) : List Dispatch := interpretLines .empty (splitLines bytes)

/-- The event of a single frame. -/
def frameDispatch (frame : Bytes) : Option Dispatch :=
  ((splitLines frame).foldl PendingEvent.observe .empty).dispatch

theorem splitLines_lf (rest : Bytes) : splitLines (10 :: rest) = [] :: splitLines rest := by
  simp [splitLines]

theorem splitLines_crlf (rest : Bytes) : splitLines (13 :: 10 :: rest) = [] :: splitLines rest := by
  simp [splitLines]

variable {rest bytes : Bytes} {stop : Nat}

theorem splitLines_cr (h : rest.head? ≠ some 10) :
    splitLines (13 :: rest) = [] :: splitLines rest := by
  rw [splitLines, if_neg (by decide), if_pos rfl, if_neg h]

theorem splitLines_char {byte : UInt8} (hLf : byte ≠ 10) (hCr : byte ≠ 13) (rest : Bytes) :
    splitLines (byte :: rest) = consLine byte (splitLines rest) := by
  rw [splitLines, if_neg hLf, if_neg hCr]

/-- How a non-empty byte string can start, as far as lines are concerned. -/
theorem line_cases (byte : UInt8) (rest : Bytes) :
    byte = 10 ∨ (byte = 13 ∧ ∃ tail, rest = 10 :: tail) ∨ (byte = 13 ∧ rest.head? ≠ some 10) ∨
      (byte ≠ 10 ∧ byte ≠ 13) := by
  cases rest <;> grind

/-- The scan of a frame reads the lines of the frame. -/
theorem splitLines_nextLine (h : bytes ≠ []) :
    splitLines bytes = (nextLine bytes).1 :: splitLines (nextLine bytes).2 := by
  induction bytes with
  | nil => exact absurd rfl h
  | cons byte rest ih =>
    rcases line_cases byte rest with rfl | ⟨rfl, tail, rfl⟩ | ⟨rfl, hHead⟩ | ⟨hLf, hCr⟩
    · simp [splitLines_lf, nextLine]
    · simp [splitLines_crlf, nextLine]
    · simp [splitLines_cr hHead, nextLine, hHead]
    · rw [splitLines_char hLf hCr, nextLine, if_neg hLf, if_neg hCr]
      by_cases hRest : rest = []
      · simp [hRest, nextLine, splitLines, consLine]
      · rw [ih hRest, consLine]

theorem nextLine_length (h : bytes ≠ []) : (nextLine bytes).2.length < bytes.length := by
  induction bytes with
  | nil => exact absurd rfl h
  | cons byte rest ih =>
    unfold nextLine
    split
    · simp
    · split
      · split
        · simp only [List.length_tail, List.length_cons]
          omega
        · exact Nat.lt_succ_self _
      · by_cases hRest : rest = []
        · subst hRest
          simp [nextLine]
        · have := ih hRest
          simp
          omega

theorem scanFields_eq_foldl {fuel : Nat} (fields : FrameFields) (h : bytes.length ≤ fuel) :
    scanFields fuel bytes fields = (splitLines bytes).foldl FrameFields.observeLine fields := by
  induction fuel generalizing bytes fields with
  | zero =>
    obtain rfl : bytes = [] := List.length_eq_zero_iff.mp (by omega)
    rfl
  | succ fuel ih =>
    unfold scanFields
    split
    · next hEmpty =>
        subst hEmpty
        rfl
    · next hBytes =>
        have := nextLine_length hBytes
        rw [ih _ (by omega), splitLines_nextLine hBytes, List.foldl_cons]

variable (event : PendingEvent)

theorem PendingEvent.observe_ignored {line : Bytes}
    (h : line = [] ∨ line.head? = some 58) : event.observe line = event := by
  have hName : line.takeWhile (· ≠ 58) = [] := by
    cases line with
    | nil => rfl
    | cons byte rest =>
      obtain rfl : byte = 58 := by simpa using h
      simp
  unfold observe
  rw [hName, if_neg (by decide), if_neg (by decide)]

theorem stripSpace_drop (line : Bytes) (start : Nat) :
    line.drop (if (line)[start]? = some 32 then start + 1 else start) =
      stripSpace (line.drop start) := by
  unfold stripSpace
  rw [List.head?_drop]
  split <;> simp

theorem fieldValue_eq {line : Bytes} (hLine : line ≠ []) (hComment : line.head? ≠ some 58) :
    fieldValue line = some (line.takeWhile (· ≠ 58),
      stripSpace ((line.dropWhile (· ≠ 58)).drop 1)) := by
  have hTake : line.takeWhile (· ≠ 58) = line.take (line.findIdx (· = 58)) := by
    simp [List.takeWhile_eq_take_findIdx_not]
  have hDrop : line.dropWhile (· ≠ 58) = line.drop (line.findIdx (· = 58)) := by
    simp [List.dropWhile_eq_drop_findIdx_not]
  rw [hTake, hDrop, fieldValue, if_neg (by simp [hLine, hComment])]
  cases hColon : line.findIdx? (· = 58) with
  | some colon =>
    obtain ⟨hLess, rfl⟩ := List.findIdx?_eq_some_iff_findIdx_eq.mp hColon
    simp only [stripSpace_drop, List.drop_drop]
  | none =>
    rw [List.findIdx?_eq_none_iff_findIdx_eq] at hColon
    simp [hColon, stripSpace]

namespace FrameFields

/-- The pending event a scanned frame amounts to. -/
def pending (fields : FrameFields) : PendingEvent :=
  ⟨fields.eventName, fields.firstData.toList ++ fields.extraData⟩

variable {fields : FrameFields}

theorem observeLine_pending (line : Bytes) (h : fields.firstData = none → fields.extraData = []) :
    (fields.observeLine line).pending = fields.pending.observe line ∧
      ((fields.observeLine line).firstData = none → (fields.observeLine line).extraData = []) := by
  by_cases hIgnored : line = [] ∨ line.head? = some 58
  · have hNone : fieldValue line = none := if_pos hIgnored
    simp only [observeLine, hNone, PendingEvent.observe_ignored _ hIgnored]
    exact ⟨trivial, h⟩
  · rw [not_or] at hIgnored
    unfold observeLine PendingEvent.observe
    rw [fieldValue_eq hIgnored.1 hIgnored.2]
    generalize line.takeWhile (· ≠ 58) = name
    generalize stripSpace _ = value
    by_cases hEvent : name = asciiBytes "event"
    · simpa [eventField, hEvent, pending] using h
    · by_cases hData : name = asciiBytes "data"
      · subst hData
        cases hFirst : fields.firstData with
        | none => simp [eventField, dataField, hEvent, pending, hFirst, h hFirst]
        | some first => simp [eventField, dataField, hEvent, pending, hFirst]
      · simpa [eventField, dataField, hEvent, hData, pending] using h

theorem foldl_observeLine (lines : List Bytes)
    (h : fields.firstData = none → fields.extraData = []) :
    (lines.foldl observeLine fields).pending = lines.foldl PendingEvent.observe fields.pending ∧
      ((lines.foldl observeLine fields).firstData = none →
        (lines.foldl observeLine fields).extraData = []) := by
  induction lines generalizing fields with
  | nil => exact ⟨rfl, h⟩
  | cons line lines ih =>
    obtain ⟨hPending, hNext⟩ := observeLine_pending line h
    rw [List.foldl_cons, List.foldl_cons, ← hPending]
    exact ih hNext

end FrameFields

variable (joined : PayloadBuffer) {body : List Bytes}

theorem appendPiece_ok (piece : Bytes) (h : joined.contents.length + piece.length ≤ joined.maxLen) :
    ∃ next, appendPiece joined piece = .ok next ∧ next.contents = joined.contents ++ piece ∧
      next.maxLen = joined.maxLen := by
  unfold appendPiece
  rw [joined.extendFromSlice_ok piece h]
  exact ⟨_, rfl, rfl, rfl⟩

theorem appendPieces_ok (extra : List Bytes)
    (h : joined.contents.length + (extra.flatMap (10 :: ·)).length ≤ joined.maxLen) :
    ∃ next, extra.foldlM (fun joined line => do
        appendPiece (← appendPiece joined [10]) line) joined = .ok next ∧
      next.contents = joined.contents ++ extra.flatMap (10 :: ·) := by
  induction extra generalizing joined with
  | nil => exact ⟨joined, rfl, by simp⟩
  | cons line extra ih =>
    simp only [List.flatMap_cons, List.length_append, List.length_cons] at h
    obtain ⟨separated, hSeparated, hContents, hMax⟩ := appendPiece_ok joined [10] (by simp; omega)
    obtain ⟨appended, hAppended, hContents', hMax'⟩ :=
      appendPiece_ok separated line (by simp [hContents, hMax]; omega)
    obtain ⟨next, hNext, hLast⟩ := ih appended (by
      simp [hContents', hContents, hMax', hMax]
      simp at h
      omega)
    refine ⟨next, ?_, by simp [hLast, hContents', hContents]⟩
    rw [List.foldlM_cons, hSeparated, Except.ok_bind, hAppended, Except.ok_bind, hNext]

theorem joined_length (extra : List Bytes) (total : Nat) :
    extra.foldl (fun total line => total + 1 + line.length) total =
      total + (extra.flatMap (10 :: ·)).length := by
  induction extra generalizing total with
  | nil => simp
  | cons line extra ih =>
    rw [List.foldl_cons, ih]
    simp
    omega

theorem intercalate_lf (first : Bytes) (extra : List Bytes) :
    [10].intercalate (first :: extra) = first ++ extra.flatMap (10 :: ·) := by
  induction extra generalizing first with
  | nil => simp
  | cons line extra ih =>
    rw [List.intercalate_cons_cons, ih line]
    simp

/-- Joining never fails: the buffer has exactly the length of the result. -/
theorem joinData_ok (first : Bytes) (extra : List Bytes) :
    joinData first extra = .ok ([10].intercalate (first :: extra)) := by
  unfold joinData
  rw [joined_length, intercalate_lf]
  obtain ⟨started, hStarted, hContents, hMax⟩ :=
    appendPiece_ok (.new (first.length + (extra.flatMap (10 :: ·)).length)) first (by simp)
  obtain ⟨joined, hJoined, hAll⟩ := appendPieces_ok started extra (by simp [hContents, hMax])
  simp only [hStarted, Except.ok_bind, hJoined, Except.pure_eq_ok, hAll, hContents,
    PayloadBuffer.new_contents, List.nil_append]

/-- The event of a frame is what its lines add up to. -/
theorem frameEvent_eq (frame : Bytes) : frameEvent frame = .ok (frameDispatch frame) := by
  have hScan := scanFields_eq_foldl .empty (le_refl frame.length)
  obtain ⟨hPending, hOrdered⟩ :=
    FrameFields.foldl_observeLine (splitLines frame)
      (fun _ => rfl : FrameFields.empty.firstData = none → _)
  have hEmpty : FrameFields.empty.pending = .empty := rfl
  rw [hEmpty] at hPending
  unfold frameEvent frameDispatch
  rw [← hPending, hScan]
  generalize (splitLines frame).foldl FrameFields.observeLine FrameFields.empty = fields at hOrdered
  unfold PendingEvent.dispatch FrameFields.pending
  cases hFirst : fields.firstData with
  | none => simp [hFirst, hOrdered hFirst]
  | some first =>
    by_cases hExtra : fields.extraData = []
    · by_cases hData : first = [] <;> simp [hFirst, hExtra, hData]
    · have hJoined : [10].intercalate (first :: fields.extraData) ≠ [] := by
        rw [intercalate_lf]
        cases hLines : fields.extraData with
        | nil => exact absurd hLines hExtra
        | cons line lines => simp
      simp [hFirst, hExtra, joinData_ok, hJoined]

/-- Lines without a blank one among them only add to the pending event. -/
theorem interpretLines_append {lines : List Bytes} (more : List Bytes) (h : [] ∉ lines) :
    interpretLines event (lines ++ more) =
      interpretLines (lines.foldl PendingEvent.observe event) more := by
  induction lines generalizing event with
  | nil => rfl
  | cons line lines ih =>
    rw [List.mem_cons, not_or] at h
    rw [List.cons_append, interpretLines, if_neg (Ne.symm h.1), ih _ h.2, List.foldl_cons]

/-- A blank line before anything else changes nothing. -/
theorem interpretLines_body (more : List Bytes) (h : [] ∉ body.tail) :
    interpretLines .empty (body ++ more) =
      interpretLines (body.foldl PendingEvent.observe .empty) more := by
  cases body with
  | nil => rfl
  | cons line lines =>
    by_cases hBlank : line = []
    · subst hBlank
      have hLines := interpretLines_append .empty more (List.tail_cons ▸ h)
      rw [List.cons_append, interpretLines, if_pos rfl, hLines, List.foldl_cons,
        PendingEvent.observe_ignored _ (.inl rfl)]
      rfl
    · refine interpretLines_append _ _ ?_
      rw [List.mem_cons, not_or]
      exact ⟨Ne.symm hBlank, h⟩

theorem interpretLines_frame (more : List Bytes) (h : [] ∉ body.tail) :
    interpretLines .empty (body ++ [[]] ++ more) =
      ((body ++ [[]]).foldl PendingEvent.observe .empty).dispatch.toList ++
        interpretLines .empty more := by
  rw [List.append_assoc, interpretLines_body _ h, List.singleton_append, interpretLines,
    if_pos rfl, List.foldl_append, List.foldl_cons, PendingEvent.observe_ignored _ (.inl rfl),
    List.foldl_nil]

theorem lineEnd_take {length : Nat} (h : lineEnd bytes = some length)
    (hStop : length < stop) : lineEnd (bytes.take stop) = some length := by
  obtain ⟨stop, rfl⟩ : ∃ more, stop = more + 2 := ⟨stop - 2, by have := lineEnd_bounds h; omega⟩
  cases bytes with
  | nil => cases h
  | cons first rest =>
    cases rest with
    | nil => simpa using h
    | cons second rest => simpa [lineEnd] using h

theorem splitLines_lineEnd {length : Nat} (h : lineEnd bytes = some length) :
    splitLines bytes = [] :: splitLines (bytes.drop length) ∧
      splitLines (bytes.take length) = [[]] := by
  cases bytes with
  | nil => cases h
  | cons byte rest =>
    rcases line_cases byte rest with rfl | ⟨rfl, tail, rfl⟩ | ⟨rfl, hHead⟩ | ⟨hLf, hCr⟩
    · obtain rfl : 1 = length := by simpa [lineEnd] using h
      simp [splitLines_lf, splitLines]
    · obtain rfl : 2 = length := by simpa [lineEnd] using h
      simp [splitLines_crlf, splitLines]
    · obtain rfl : 1 = length := by
        cases rest with
        | nil => cases h
        | cons second rest =>
          have hSecond : second ≠ 10 := by simpa using hHead
          simpa [lineEnd, hSecond] using h
      exact ⟨splitLines_cr hHead, rfl⟩
    · simp [lineEnd, hLf, hCr] at h

/-- Two adjacent line endings are a line end and a blank line. -/
theorem splitLines_blankEnd (h : blankEnd bytes = some stop) :
    splitLines bytes = splitLines (bytes.take stop) ++ splitLines (bytes.drop stop) ∧
      splitLines (bytes.take stop) = [[], []] := by
  obtain ⟨first, hFirst, h⟩ := Option.bind_eq_some_iff.mp h
  obtain ⟨second, hSecond, rfl⟩ := Option.map_eq_some_iff.mp h
  have hTake : splitLines (bytes.take (first + second)) = [[], []] := by
    have hEnd := lineEnd_take hFirst (Nat.lt_add_of_pos_right (lineEnd_bounds hSecond).1)
    rw [(splitLines_lineEnd hEnd).1, List.drop_take, Nat.add_sub_cancel_left,
      (splitLines_lineEnd hSecond).2]
  refine ⟨?_, hTake⟩
  rw [hTake, (splitLines_lineEnd hFirst).1, (splitLines_lineEnd hSecond).1, List.drop_drop]
  rfl

/-- A line ending that ends no blank line is followed by text, or by a last CR. -/
theorem head_of_lineEnd_none (h : lineEnd bytes = none) :
    bytes = [] ∨ bytes = [13] ∨ ∃ byte rest, bytes = byte :: rest ∧ byte ≠ 10 ∧ byte ≠ 13 := by
  cases bytes with
  | nil => exact .inl rfl
  | cons byte rest =>
    cases rest <;> simp only [lineEnd] at h <;> grind

/-- A frame, as lines: the blank line that ends it is the only one after the
first line, and its end is a line boundary of the whole input. -/
structure FrameLines (bytes : Bytes) (stop : Nat) (body : List Bytes) : Prop where
  boundary : splitLines bytes = splitLines (bytes.take stop) ++ splitLines (bytes.drop stop)
  lines : splitLines (bytes.take stop) = body ++ [[]]
  nonempty : body ≠ []
  solid : [] ∉ body.tail

/-- Text in front of the lines makes the first one non-empty. -/
theorem consLine_eq (byte : UInt8) (lines : List Bytes) :
    consLine byte lines = (byte :: lines.headD []) :: lines.tail := by
  cases lines <;> rfl

/-- A line ending in front of a frame that starts with text. -/
theorem FrameLines.newline {byte : UInt8}
    (hFrame : FrameLines rest stop body) (hStop : 2 ≤ stop ∧ stop ≤ rest.length)
    (hText : lineEnd rest = none) (hAll : splitLines (byte :: rest) = [] :: splitLines rest)
    (hTake : splitLines (byte :: rest.take stop) = [] :: splitLines (rest.take stop)) :
    FrameLines (byte :: rest) (stop + 1) ([] :: body) := by
  refine ⟨?_, ?_, List.cons_ne_nil _ _, ?_⟩
  · rw [List.take_succ_cons, hTake, hAll, hFrame.boundary]
    rfl
  · rw [List.take_succ_cons, hTake, hFrame.lines]
    rfl
  · obtain rfl | rfl | ⟨first, tail, rfl, hLf, hCr⟩ := head_of_lineEnd_none hText
    · simp at hStop
      omega
    · simp at hStop
      omega
    · obtain ⟨stop, rfl⟩ : ∃ less, stop = less + 1 := ⟨stop - 1, by omega⟩
      have hLines := hFrame.lines
      rw [List.take_succ_cons, splitLines_char hLf hCr, consLine_eq] at hLines
      obtain ⟨line, lines, rfl⟩ := List.exists_cons_of_ne_nil hFrame.nonempty
      simp only [List.cons_append, List.cons.injEq] at hLines
      rw [List.tail_cons, List.mem_cons, not_or]
      exact ⟨by simp [← hLines.1], hFrame.solid⟩

theorem frameLines_of_scanEnd (h : scanEnd bytes = some stop) :
    ∃ body, FrameLines bytes stop body := by
  induction bytes generalizing stop with
  | nil => cases h
  | cons byte rest ih =>
    rcases scanEnd_cons_some h with hBlank | ⟨hBlank, later, hLater, rfl⟩
    · obtain ⟨hBoundary, hLines⟩ := splitLines_blankEnd hBlank
      exact ⟨[[]], hBoundary, hLines, by simp, by simp⟩
    · obtain ⟨body, hBody⟩ := ih hLater
      have hBounds := scanEnd_bounds hLater
      rcases line_cases byte rest with rfl | ⟨rfl, tail, rfl⟩ | ⟨rfl, hHead⟩ | ⟨hLf, hCr⟩
      · have hText : lineEnd rest = none := by simpa [blankEnd, lineEnd] using hBlank
        exact ⟨[] :: body, hBody.newline hBounds hText (splitLines_lf _) (splitLines_lf _)⟩
      · -- The LF of the pair is the line ending, so the CR changes no line.
        obtain ⟨less, rfl⟩ : ∃ less, later = less + 1 := ⟨later - 1, by omega⟩
        refine ⟨body, ?_, ?_, hBody.nonempty, hBody.solid⟩
        · simpa [splitLines_crlf, splitLines_lf] using hBody.boundary
        · simpa [splitLines_crlf, splitLines_lf] using hBody.lines
      · have hRest : rest ≠ [] := by
          rintro rfl
          cases hLater
        have hText : lineEnd rest = none := by
          obtain ⟨second, tail, rfl⟩ := List.exists_cons_of_ne_nil hRest
          have hSecond : second ≠ 10 := by simpa using hHead
          simpa [blankEnd, lineEnd, hSecond] using hBlank
        have hTakeHead : (rest.take later).head? ≠ some 10 := by
          rwa [List.head?_take, if_neg (by omega)]
        exact ⟨[] :: body, hBody.newline hBounds hText (splitLines_cr hHead)
          (splitLines_cr hTakeHead)⟩
      · obtain ⟨line, lines, rfl⟩ := List.exists_cons_of_ne_nil hBody.nonempty
        refine ⟨(byte :: line) :: lines, ?_, ?_, List.cons_ne_nil _ _, hBody.solid⟩
        · rw [List.take_succ_cons, List.drop_succ_cons, splitLines_char hLf hCr,
            splitLines_char hLf hCr, hBody.boundary, hBody.lines]
          rfl
        · rw [List.take_succ_cons, splitLines_char hLf hCr, hBody.lines]
          rfl

/-- After a line ending that is not followed by another one, a blank line can
only come last. -/
theorem solid_after_newline (hText : lineEnd rest = none)
    (hSolid : [] ∉ (splitLines rest).tail.dropLast) : [] ∉ (splitLines rest).dropLast := by
  obtain rfl | rfl | ⟨first, tail, rfl, hLf, hCr⟩ := head_of_lineEnd_none hText
  · simp [splitLines]
  · simp [splitLines]
  · rw [splitLines_char hLf hCr, consLine_eq] at hSolid ⊢
    cases hTail : (splitLines tail).tail with
    | nil => simp
    | cons line lines =>
      rw [hTail, List.tail_cons] at hSolid
      rw [List.dropLast_cons_cons, List.mem_cons, not_or]
      exact ⟨by simp, hSolid⟩

/-- Input without a blank-line end is one unterminated event. A blank line can
only come first, or last when it is ended by the final CR. -/
theorem solid_of_scanEnd_none (h : scanEnd bytes = none) :
    [] ∉ (splitLines bytes).tail.dropLast := by
  induction bytes with
  | nil => simp [splitLines]
  | cons byte rest ih =>
    obtain ⟨hBlank, hRest⟩ := scanEnd_cons_none h
    have hSolid := ih hRest
    rcases line_cases byte rest with rfl | ⟨rfl, tail, rfl⟩ | ⟨rfl, hHead⟩ | ⟨hLf, hCr⟩
    · have hText : lineEnd rest = none := by simpa [blankEnd, lineEnd] using hBlank
      rw [splitLines_lf]
      exact solid_after_newline hText hSolid
    · rwa [splitLines_crlf, ← splitLines_lf]
    · rw [splitLines_cr hHead]
      cases rest with
      | nil => simp [splitLines]
      | cons second tail =>
        have hSecond : second ≠ 10 := by simpa using hHead
        have hText : lineEnd (second :: tail) = none := by
          simpa [blankEnd, lineEnd, hSecond] using hBlank
        exact solid_after_newline hText hSolid
    · rw [splitLines_char hLf hCr, consLine_eq]
      exact hSolid

theorem interpret_frame (h : scanEnd bytes = some stop) :
    interpret bytes = (frameDispatch (bytes.take stop)).toList ++ interpret (bytes.drop stop) := by
  obtain ⟨body, hFrame⟩ := frameLines_of_scanEnd h
  unfold interpret frameDispatch
  rw [hFrame.boundary, hFrame.lines, interpretLines_frame _ hFrame.solid]

theorem interpret_remainder (h : scanEnd bytes = none) :
    interpret bytes = (frameDispatch bytes).toList := by
  have hSolid := solid_of_scanEnd_none h
  unfold interpret frameDispatch
  generalize splitLines bytes = lines at hSolid
  by_cases hLast : lines.tail.getLast? = some []
  · obtain ⟨first, tail, rfl⟩ : ∃ first tail, lines = first :: (tail ++ [[]]) := by
      cases lines with
      | nil => cases hLast
      | cons first tail =>
        exact ⟨first, tail.dropLast,
          congrArg (first :: ·) (List.dropLast_append_getLast? _ hLast).symm⟩
    have hBody : [] ∉ (first :: tail).tail := by simpa using hSolid
    have hFrame := interpretLines_frame [] hBody
    rw [List.append_nil] at hFrame
    exact hFrame.trans (by simp [interpretLines, PendingEvent.dispatch, PendingEvent.empty])
  · have hBody : [] ∉ lines.tail := by
      rcases List.eq_nil_or_concat lines.tail with hTail | ⟨front, line, hTail⟩
      · simp [hTail]
      · rw [hTail] at hSolid hLast ⊢
        simp at hSolid hLast
        simp [hSolid, Ne.symm hLast]
    have hLines := interpretLines_body [] hBody
    rwa [List.append_nil] at hLines

/-- Cutting frames and reading each one dispatches the events of the stream. -/
theorem Cut.interpret {limit : Nat} {frames : List Bytes} {rest : Option Bytes}
    (h : Cut BlankLineEnd limit bytes frames (.ok rest)) :
    (frames ++ rest.toList).filterMap frameDispatch = Sse.interpret bytes := by
  generalize hLast : (Except.ok rest : Except ProtocolError (Option Bytes)) = last at h
  induction h with
  | @frame bytes stop frames last earliest fits tail ih =>
    rw [List.cons_append, List.filterMap_cons, ih hLast,
      interpret_frame (scanEnd_of_isLeast earliest)]
    cases frameDispatch (bytes.take stop) <;> rfl
  | oversized => cases hLast
  | @remainder bytes unterminated fits =>
    obtain rfl := Except.ok.inj hLast
    rw [interpret_remainder (scanEnd_of_unterminated unterminated)]
    by_cases hEmpty : bytes = []
    · subst hEmpty
      rfl
    · rw [Sse.remainder, if_neg hEmpty, Option.toList_some, List.nil_append, List.filterMap_cons]
      cases frameDispatch bytes <;> rfl
  | overflow => cases hLast

variable (isJsonText : String → Bool)

theorem classifyData_ne_empty (name : Option Bytes) (data : Bytes) :
    classifyData isJsonText name data ≠ .empty := by
  unfold classifyData
  split
  · simp
  · split
    · simp
    · split <;> simp

/-- Reading a list of frames never fails and yields their events in order. -/
theorem mapM_frameEvent (frames : List Bytes) :
    frames.mapM frameEvent = .ok (frames.map frameDispatch) := by
  induction frames with
  | nil => rfl
  | cons frame frames ih => simp [frameEvent_eq, ih]

theorem mapM_parseEventPayload (frames : List Bytes) :
    ∃ payloads, frames.mapM (parseEventPayload isJsonText) = .ok payloads ∧
      payloads.filter (· ≠ .empty) = (frames.filterMap frameDispatch).map fun event =>
        classifyData isJsonText event.name event.data := by
  induction frames with
  | nil => exact ⟨[], rfl, rfl⟩
  | cons frame frames ih =>
    obtain ⟨payloads, hPayloads, hEvents⟩ := ih
    cases hEvent : frameDispatch frame with
    | none =>
      refine ⟨.empty :: payloads, ?_, by simpa [hEvent] using hEvents⟩
      simp [parseEventPayload, frameEvent_eq, hEvent, hPayloads]
    | some event =>
      refine ⟨classifyData isJsonText event.name event.data :: payloads, ?_, ?_⟩
      · simp [parseEventPayload, frameEvent_eq, hEvent, hPayloads]
      · simpa [hEvent, classifyData_ne_empty] using hEvents

end Any2Api.Sse
