import Any2Api.Sse.BlankLine
import Mathlib.Order.Bounds.Basic

/-! The gateway's decoding loop and what it computes. The specification cuts
the whole byte string at its successive earliest blank-line ends and knows
nothing about chunks or buffers. The loop is shown to reach exactly that
result for every chunking, and to make progress at every turn. -/
namespace Any2Api.Sse

/-- A line ending of `length` bytes at `index`: LF, CR LF, or a CR that the
next byte shows to be bare. The last CR of the input ends no line, since
nothing yet tells it from the start of a CR LF. -/
def LineEndingAt (bytes : Bytes) (index length : Nat) : Prop :=
  (bytes[index]? = some 10 ∧ length = 1) ∨
  (bytes[index]? = some 13 ∧ bytes[index + 1]? = some 10 ∧ length = 2) ∨
  (bytes[index]? = some 13 ∧ (∃ byte ≠ 10, bytes[index + 1]? = some byte) ∧ length = 1)

/-- A blank line ends where a line ending directly follows another one. -/
def BlankLineEnd (bytes : Bytes) (stop : Nat) : Prop :=
  ∃ index first second, LineEndingAt bytes index first ∧
    LineEndingAt bytes (index + first) second ∧ stop = index + first + second

/-- The reading in which the end of the input also shows its last CR to be
bare. -/
def LineEndingAtEof (bytes : Bytes) (index length : Nat) : Prop :=
  LineEndingAt bytes index length ∨
    (bytes[index]? = some 13 ∧ index + 1 = bytes.length ∧ length = 1)

def BlankLineEndAtEof (bytes : Bytes) (stop : Nat) : Prop :=
  ∃ index first second, LineEndingAtEof bytes index first ∧
    LineEndingAtEof bytes (index + first) second ∧ stop = index + first + second

/-- What is left at the end of the input, if anything. -/
def remainder (bytes : Bytes) : Option Bytes := if bytes = [] then none else some bytes

/-- Cutting a whole byte string under a frame limit, for a notion of where
events end: the frames in order, then the remainder or the first limit error. -/
inductive Cut (ends : Bytes → Nat → Prop) (limit : Nat) :
    Bytes → List Bytes → Except ProtocolError (Option Bytes) → Prop where
  | frame {bytes : Bytes} {stop : Nat} {frames : List Bytes}
      {last : Except ProtocolError (Option Bytes)}
      (earliest : IsLeast {stop | ends bytes stop} stop) (fits : stop ≤ limit)
      (rest : Cut ends limit (bytes.drop stop) frames last) :
      Cut ends limit bytes (bytes.take stop :: frames) last
  | oversized {bytes : Bytes} {stop : Nat}
      (earliest : IsLeast {stop | ends bytes stop} stop) (exceeds : limit < stop) :
      Cut ends limit bytes [] (.error SseDecoder.frameLimitError)
  | remainder {bytes : Bytes} (unterminated : ∀ stop, ¬ ends bytes stop)
      (fits : bytes.length ≤ limit) : Cut ends limit bytes [] (.ok (remainder bytes))
  | overflow {bytes : Bytes} (unterminated : ∀ stop, ¬ ends bytes stop)
      (exceeds : limit < bytes.length) :
      Cut ends limit bytes [] (.error SseDecoder.frameLimitError)

/-- The pieces of a cut, with the remainder as the last one, or its error. -/
def pieces (frames : List Bytes) (last : Except ProtocolError (Option Bytes)) :
    List Bytes × Option ProtocolError :=
  match last with
  | .ok rest => (frames ++ rest.toList, none)
  | .error error => (frames, some error)

theorem lineEnd_drop_iff (bytes : Bytes) (index length : Nat) :
    lineEnd (bytes.drop index) = some length ↔ LineEndingAt bytes index length := by
  rw [← lineEndingLen_eq_lineEnd]
  unfold lineEndingLen LineEndingAt
  cases bytes[index]? <;> cases bytes[index + 1]? <;> grind

theorem blankLineEnd_iff (bytes : Bytes) (stop : Nat) : BlankLineEnd bytes stop ↔
      ∃ index length, blankEnd (bytes.drop index) = some length ∧ stop = index + length := by
  constructor
  · rintro ⟨index, first, second, hFirst, hSecond, rfl⟩
    refine ⟨index, first + second, ?_, by omega⟩
    rw [← lineEnd_drop_iff] at hFirst hSecond
    simp [blankEnd, hFirst, hSecond, List.drop_drop]
  · rintro ⟨index, length, h, rfl⟩
    obtain ⟨first, hFirst, h⟩ := Option.bind_eq_some_iff.mp h
    obtain ⟨second, hSecond, rfl⟩ := Option.map_eq_some_iff.mp h
    rw [List.drop_drop] at hSecond
    exact ⟨index, first, second, (lineEnd_drop_iff _ _ _).mp hFirst,
      (lineEnd_drop_iff _ _ _).mp hSecond, by omega⟩

variable {bytes : Bytes} {stop limit : Nat} {frames : List Bytes}
  {last : Except ProtocolError (Option Bytes)} {ends : Bytes → Nat → Prop} {frames' : List Bytes}
  {last' : Except ProtocolError (Option Bytes)}

theorem scanEnd_blankEnd (h : scanEnd bytes = some stop) :
    ∃ index length, blankEnd (bytes.drop index) = some length ∧ stop = index + length := by
  induction bytes generalizing stop with
  | nil => simp [scanEnd] at h
  | cons byte rest ih =>
    rcases scanEnd_cons_some h with hBlank | ⟨_, later, hLater, rfl⟩
    · exact ⟨0, stop, hBlank, by simp⟩
    · obtain ⟨index, length, hFound, rfl⟩ := ih hLater
      exact ⟨index + 1, length, hFound, by omega⟩

/-- Every blank-line end is at or after the one the scan finds. -/
theorem scanEnd_le (h : BlankLineEnd bytes stop) :
    ∃ found, scanEnd bytes = some found ∧ found ≤ stop := by
  obtain ⟨index, length, hBlank, rfl⟩ := (blankLineEnd_iff bytes stop).mp h
  have hScan : scanEnd (bytes.drop index) = some length := by
    cases hRest : bytes.drop index with
    | nil => rw [hRest] at hBlank; simp [blankEnd, lineEnd] at hBlank
    | cons byte rest => rw [hRest] at hBlank; rw [scanEnd, hBlank, Option.some_or]
  have hIndex : index < bytes.length := by
    have := (scanEnd_bounds hScan)
    rw [List.length_drop] at this
    omega
  obtain ⟨found, hFound, hLe⟩ := scanEnd_prepend hScan (bytes.take index)
  rw [List.take_append_drop] at hFound
  rw [List.length_take] at hLe
  exact ⟨found, hFound, by omega⟩

theorem isLeast_of_scanEnd (h : scanEnd bytes = some stop) :
    IsLeast {stop | BlankLineEnd bytes stop} stop := by
  refine ⟨(blankLineEnd_iff bytes stop).mpr (scanEnd_blankEnd h), ?_⟩
  intro other hOther
  obtain ⟨found, hFound, hLe⟩ := scanEnd_le hOther
  rw [h] at hFound
  exact (Option.some.inj hFound).le.trans hLe

theorem not_blankLineEnd_of_scanEnd (h : scanEnd bytes = none) (stop : Nat) :
    ¬ BlankLineEnd bytes stop := by
  intro hEnd
  obtain ⟨found, hFound, _⟩ := scanEnd_le hEnd
  rw [h] at hFound
  cases hFound

theorem scanEnd_of_isLeast
    (h : IsLeast {stop | BlankLineEnd bytes stop} stop) : scanEnd bytes = some stop := by
  obtain ⟨found, hFound, _⟩ := scanEnd_le h.1
  rw [hFound, (isLeast_of_scanEnd hFound).unique h]

theorem scanEnd_of_unterminated (h : ∀ stop, ¬ BlankLineEnd bytes stop) : scanEnd bytes = none := by
  cases hScan : scanEnd bytes with
  | none => rfl
  | some stop => exact absurd (isLeast_of_scanEnd hScan).1 (h stop)

/-- Cutting is a function of the bytes and the limit. -/
theorem Cut.unique
    (h : Cut ends limit bytes frames last) (h' : Cut ends limit bytes frames' last') :
    frames = frames' ∧ last = last' := by
  induction h generalizing frames' last' with
  | frame earliest fits rest ih =>
    cases h' with
    | frame earliest' fits' rest' =>
      obtain rfl := earliest.unique earliest'
      obtain ⟨rfl, rfl⟩ := ih rest'
      exact ⟨rfl, rfl⟩
    | oversized earliest' exceeds =>
      obtain rfl := earliest.unique earliest'
      omega
    | remainder unterminated | overflow unterminated => exact absurd earliest.1 (unterminated _)
  | oversized earliest exceeds =>
    cases h' with
    | frame earliest' fits' rest' =>
      obtain rfl := earliest.unique earliest'
      omega
    | oversized => exact ⟨rfl, rfl⟩
    | remainder unterminated | overflow unterminated => exact absurd earliest.1 (unterminated _)
  | remainder unterminated fits =>
    cases h' with
    | frame earliest' | oversized earliest' => exact absurd earliest'.1 (unterminated _)
    | remainder => exact ⟨rfl, rfl⟩
    | overflow _ exceeds => omega
  | overflow unterminated exceeds =>
    cases h' with
    | frame earliest' | oversized earliest' => exact absurd earliest'.1 (unterminated _)
    | remainder _ fits => omega
    | overflow => exact ⟨rfl, rfl⟩

/-- Without a limit error nothing is lost, added or reordered. -/
theorem Cut.flatten_append_remainder {rest : Option Bytes}
    (h : Cut ends limit bytes frames (.ok rest)) :
    frames.flatten ++ rest.getD [] = bytes := by
  generalize hLast : (Except.ok rest : Except ProtocolError (Option Bytes)) = last at h
  induction h with
  | frame earliest fits tail ih =>
    rw [List.flatten_cons, List.append_assoc, ih hLast, List.take_append_drop]
  | oversized => cases hLast
  | @remainder bytes unterminated fits =>
    obtain rfl := Except.ok.inj hLast
    by_cases hEmpty : bytes = [] <;> simp [Sse.remainder, hEmpty]
  | overflow => cases hLast

/-- The only end that the last CR can add is the end of the input. -/
theorem blankLineEndAtEof_iff (bytes : Bytes) (stop : Nat) : BlankLineEndAtEof bytes stop ↔
      BlankLineEnd bytes stop ∨ (BlankLineEndAtEof bytes stop ∧ stop = bytes.length) := by
  constructor
  · intro h
    obtain ⟨index, first, second, hFirst, hSecond, rfl⟩ := h
    rcases hSecond with hInside | ⟨hCr, hLast, rfl⟩
    · rcases hFirst with hFirst | ⟨_, hLast, rfl⟩
      · exact .inl ⟨index, first, second, hFirst, hInside, rfl⟩
      · rcases hInside with ⟨hByte, _⟩ | ⟨hByte, _⟩ | ⟨hByte, _⟩ <;>
          simp [hLast] at hByte
    · exact .inr ⟨⟨index, first, 1, hFirst, .inr ⟨hCr, hLast, rfl⟩, rfl⟩, hLast⟩
  · rintro (⟨index, first, second, hFirst, hSecond, rfl⟩ | ⟨h, _⟩)
    · exact ⟨index, first, second, .inl hFirst, .inl hSecond, rfl⟩
    · exact h

theorem isLeast_atEof (h : IsLeast {stop | BlankLineEnd bytes stop} stop) :
    IsLeast {stop | BlankLineEndAtEof bytes stop} stop := by
  refine ⟨(blankLineEndAtEof_iff bytes stop).mpr (.inl h.1), ?_⟩
  intro other hOther
  rcases (blankLineEndAtEof_iff bytes other).mp hOther with hInside | ⟨_, rfl⟩
  · exact h.2 hInside
  · exact (scanEnd_bounds (scanEnd_of_isLeast h)).2

theorem isLeast_length_atEof
    (hNone : ∀ stop, ¬ BlankLineEnd bytes stop) (h : BlankLineEndAtEof bytes stop) :
    IsLeast {stop | BlankLineEndAtEof bytes stop} bytes.length := by
  have hEnd (other : Nat) (hOther : BlankLineEndAtEof bytes other) : other = bytes.length :=
    ((blankLineEndAtEof_iff bytes other).mp hOther).elim (fun hIn => absurd hIn (hNone other)) (·.2)
  refine ⟨hEnd stop h ▸ h, fun other hOther => (hEnd other hOther).ge⟩

theorem not_blankLineEndAtEof_nil (stop : Nat) : ¬ BlankLineEndAtEof [] stop := by
  rintro ⟨index, first, second, (hFirst | ⟨hFirst, _⟩), _⟩
  · simp [LineEndingAt] at hFirst
  · simp at hFirst

theorem pieces_cons (frame : Bytes) (h : pieces frames' last' = pieces frames last) :
    pieces (frame :: frames') last' = pieces (frame :: frames) last := by
  cases last <;> cases last' <;> simp_all [pieces]

/-- Counting a last CR as a line ending changes no piece of the cut and no
error: at most the remainder is called a frame. -/
theorem Cut.atEof (h : Cut BlankLineEnd limit bytes frames last) :
    ∃ frames' last', Cut BlankLineEndAtEof limit bytes frames' last' ∧
      pieces frames' last' = pieces frames last := by
  induction h with
  | frame earliest fits rest ih =>
    obtain ⟨frames', last', hCut, hPieces⟩ := ih
    exact ⟨_, last', .frame (isLeast_atEof earliest) fits hCut, pieces_cons _ hPieces⟩
  | oversized earliest exceeds => exact ⟨[], _, .oversized (isLeast_atEof earliest) exceeds, rfl⟩
  | @remainder bytes unterminated fits =>
    by_cases hEnd : ∃ stop, BlankLineEndAtEof bytes stop
    · obtain ⟨stop, hStop⟩ := hEnd
      have hRest : Cut BlankLineEndAtEof limit (bytes.drop bytes.length) [] (.ok none) := by
        rw [List.drop_length]
        exact .remainder not_blankLineEndAtEof_nil (Nat.zero_le _)
      refine ⟨_, .ok none, .frame (isLeast_length_atEof unterminated hStop) fits hRest, ?_⟩
      have hBytes : bytes ≠ [] := by
        rintro rfl
        exact not_blankLineEndAtEof_nil stop hStop
      simp [pieces, Sse.remainder, hBytes]
    · exact ⟨[], _, .remainder (not_exists.mp hEnd) fits, rfl⟩
  | @overflow bytes unterminated exceeds =>
    by_cases hEnd : ∃ stop, BlankLineEndAtEof bytes stop
    · obtain ⟨stop, hStop⟩ := hEnd
      exact ⟨[], _, .oversized (isLeast_length_atEof unterminated hStop) exceeds, rfl⟩
    · exact ⟨[], _, .overflow (not_exists.mp hEnd) exceeds, rfl⟩

end Any2Api.Sse
