import Any2Api.Sse.Decoder

/-! Blank-line ends of a byte string. The scan of the decoder is rewritten as
a structural recursion on the remaining bytes, and its locality is proved: an
end, once found, does not depend on later bytes, and finding it never needs
more than one byte beyond it. -/
namespace Any2Api.Sse

/-- Length of the line ending at the head of the remaining bytes. -/
def lineEnd : Bytes → Option Nat
  | [] => none
  | first :: rest =>
    if first = 10 then some 1
    else if first = 13 then rest.head?.map fun second => if second = 10 then 2 else 1
    else none

/-- Length of two adjacent line endings at the head of the remaining bytes. -/
def blankEnd (bytes : Bytes) : Option Nat :=
  (lineEnd bytes).bind fun first => (lineEnd (bytes.drop first)).map fun second => first + second

/-- The earliest blank-line end, counted from the head of the remaining bytes. -/
def scanEnd : Bytes → Option Nat
  | [] => none
  | byte :: rest => (blankEnd (byte :: rest)).or ((scanEnd rest).map (· + 1))

theorem lineEndingLen_eq_lineEnd (bytes : Bytes) (index : Nat) :
    lineEndingLen bytes index = lineEnd (bytes.drop index) := by
  have hHead : bytes[index]? = (bytes.drop index)[0]? := by simp
  have hNext : bytes[index + 1]? = (bytes.drop index)[1]? := by simp
  unfold lineEndingLen
  rw [hHead, hNext]
  generalize bytes.drop index = rest
  cases rest with
  | nil => rfl
  | cons first rest =>
    cases rest <;> simp only [lineEnd, List.getElem?_cons_zero] <;> grind

/-- The decoder's indexed scan from the start is the structural one. -/
theorem findEventEnd_eq_scanEnd (bytes : Bytes) : findEventEnd bytes 0 = scanEnd bytes := by
  have hScan : ∀ (rest : Bytes) (index : Nat), bytes.drop index = rest →
      ((List.range' index rest.length).findSome? fun index =>
        (lineEndingLen bytes index).bind fun first =>
          (lineEndingLen bytes (index + first)).map fun second => index + first + second) =
        (scanEnd rest).map (index + ·) := by
    intro rest
    induction rest with
    | nil => intro index _; rfl
    | cons byte rest ih =>
      intro index hRest
      have hTail : bytes.drop (index + 1) = rest := by
        rw [← List.drop_drop, hRest]
        rfl
      rw [List.length_cons, List.range'_succ, List.findSome?_cons, ih (index + 1) hTail]
      simp only [lineEndingLen_eq_lineEnd, hRest, ← List.drop_drop, scanEnd, blankEnd]
      cases hFirst : lineEnd (byte :: rest) with
      | none => simp [Function.comp_def, Nat.add_assoc, Nat.add_comm 1]
      | some first =>
        cases hSecond : lineEnd ((byte :: rest).drop first) with
        | none => simp [hSecond, Function.comp_def, Nat.add_assoc, Nat.add_comm 1]
        | some second => simp [hSecond, Nat.add_assoc]
  simpa [findEventEnd] using hScan bytes 0 rfl

variable {bytes more rest : Bytes} {stop : Nat} {byte : UInt8}

theorem lineEnd_bounds (h : lineEnd bytes = some stop) :
    1 ≤ stop ∧ stop ≤ 2 ∧ stop ≤ bytes.length := by
  cases bytes with
  | nil => simp [lineEnd] at h
  | cons first rest => cases rest <;> simp only [lineEnd] at h <;> grind

theorem lineEnd_append (h : lineEnd bytes = some stop)
    (more : Bytes) : lineEnd (bytes ++ more) = some stop := by
  cases bytes with
  | nil => simp [lineEnd] at h
  | cons first rest => cases rest <;> simp only [lineEnd, List.cons_append] at h ⊢ <;> grind

/-- A line ending that appears only after appending ends at or after the join,
so it started with a carriage return in the last byte. -/
theorem lineEnd_append_none (h : lineEnd bytes = none)
    (hMore : lineEnd (bytes ++ more) = some stop) : bytes.length ≤ 1 := by
  cases bytes with
  | nil => simp
  | cons first rest => cases rest <;> simp only [lineEnd, List.cons_append] at h hMore <;> grind

theorem blankEnd_bounds (h : blankEnd bytes = some stop) :
    2 ≤ stop ∧ stop ≤ 4 ∧ stop ≤ bytes.length := by
  obtain ⟨first, hFirst, h⟩ := Option.bind_eq_some_iff.mp h
  obtain ⟨second, hSecond, rfl⟩ := Option.map_eq_some_iff.mp h
  have hf := lineEnd_bounds hFirst
  have hs := lineEnd_bounds hSecond
  rw [List.length_drop] at hs
  omega

theorem blankEnd_append (h : blankEnd bytes = some stop)
    (more : Bytes) : blankEnd (bytes ++ more) = some stop := by
  unfold blankEnd at h ⊢
  obtain ⟨first, hFirst, h⟩ := Option.bind_eq_some_iff.mp h
  obtain ⟨second, hSecond, rfl⟩ := Option.map_eq_some_iff.mp h
  have hLe := (lineEnd_bounds hFirst).2.2
  rw [lineEnd_append hFirst more, Option.bind_some, List.drop_append_of_le_length hLe,
    lineEnd_append hSecond more]
  rfl

/-- An end that appears only after appending lies at or beyond the join, and
the bytes before the join were too few to show both line endings. -/
theorem blankEnd_append_none (h : blankEnd bytes = none)
    (hMore : blankEnd (bytes ++ more) = some stop) :
    bytes.length ≤ 3 ∧ bytes.length ≤ stop := by
  unfold blankEnd at h hMore
  obtain ⟨first, hFirst, hMore⟩ := Option.bind_eq_some_iff.mp hMore
  obtain ⟨second, hSecond, rfl⟩ := Option.map_eq_some_iff.mp hMore
  have hf := lineEnd_bounds hFirst
  have hs := lineEnd_bounds hSecond
  cases hOld : lineEnd bytes with
  | none => have := lineEnd_append_none hOld hFirst; omega
  | some firstOld =>
    have hSame := lineEnd_append hOld more
    rw [hFirst] at hSame
    obtain rfl := Option.some.inj hSame
    have hLe := (lineEnd_bounds hOld).2.2
    rw [List.drop_append_of_le_length hLe] at hSecond
    have hNone : lineEnd (bytes.drop first) = none := by simpa [hOld] using h
    have := lineEnd_append_none hNone hSecond
    rw [List.length_drop] at this
    omega

theorem scanEnd_cons_some (h : scanEnd (byte :: rest) = some stop) :
    blankEnd (byte :: rest) = some stop ∨
      blankEnd (byte :: rest) = none ∧ ∃ later, scanEnd rest = some later ∧ stop = later + 1 := by
  rw [scanEnd] at h
  cases hBlank : blankEnd (byte :: rest) with
  | some found =>
    rw [hBlank, Option.some_or] at h
    exact Or.inl h
  | none =>
    rw [hBlank, Option.none_or] at h
    obtain ⟨later, hLater, rfl⟩ := Option.map_eq_some_iff.mp h
    exact Or.inr ⟨rfl, later, hLater, rfl⟩

theorem scanEnd_cons_none (h : scanEnd (byte :: rest) = none) :
    blankEnd (byte :: rest) = none ∧ scanEnd rest = none := by
  rw [scanEnd, Option.or_eq_none_iff] at h
  exact ⟨h.1, Option.map_eq_none_iff.mp h.2⟩

theorem scanEnd_bounds (h : scanEnd bytes = some stop) : 2 ≤ stop ∧ stop ≤ bytes.length := by
  induction bytes generalizing stop with
  | nil => simp [scanEnd] at h
  | cons byte rest ih =>
    rcases scanEnd_cons_some h with hBlank | ⟨_, later, hLater, rfl⟩
    · exact ⟨(blankEnd_bounds hBlank).1, (blankEnd_bounds hBlank).2.2⟩
    · have := ih hLater
      rw [List.length_cons]
      omega

/-- A blank line at the head ends no later than any blank line after it. -/
theorem blankEnd_le_scanEnd {later : Nat}
    (h : blankEnd (byte :: rest) = some stop) (hLater : scanEnd rest = some later) :
    stop ≤ later + 1 := by
  have hFull := h
  obtain ⟨first, hFirst, h⟩ := Option.bind_eq_some_iff.mp h
  obtain ⟨second, hSecond, rfl⟩ := Option.map_eq_some_iff.mp h
  have hf := lineEnd_bounds hFirst
  have hs := lineEnd_bounds hSecond
  have hl := scanEnd_bounds hLater
  by_cases hOne : first = 1
  · omega
  · -- A two-byte first ending is CR LF, so the same blank line starts again at its LF.
    have hTwo : first = 2 := by omega
    subst hTwo
    cases rest with
    | nil => simp at hf
    | cons lf more =>
      have hLf : lf = 10 := by
        simp only [lineEnd, List.head?_cons, Option.map_some] at hFirst
        grind
      subst hLf
      have hHead : blankEnd (10 :: more) = some (1 + second) := by
        simpa [blankEnd, lineEnd] using hSecond
      rw [scanEnd, hHead, Option.some_or] at hLater
      have := Option.some.inj hLater
      omega

/-- A found end is final: appending bytes cannot move it. -/
theorem scanEnd_append (h : scanEnd bytes = some stop)
    (more : Bytes) : scanEnd (bytes ++ more) = some stop := by
  induction bytes generalizing stop with
  | nil => simp [scanEnd] at h
  | cons byte rest ih =>
    rcases scanEnd_cons_some h with hBlank | ⟨hNone, later, hLater, rfl⟩
    · rw [List.cons_append, scanEnd, ← List.cons_append, blankEnd_append hBlank more,
        Option.some_or]
    · have hTail := ih hLater
      have hBound := (scanEnd_bounds hLater).2
      rw [List.cons_append, scanEnd, hTail, ← List.cons_append]
      cases hNew : blankEnd (byte :: rest ++ more) with
      | none => rfl
      | some found =>
        have hLow := (blankEnd_append_none hNone hNew).2
        have hHigh := blankEnd_le_scanEnd hNew hTail
        rw [List.length_cons] at hLow
        have hSame : found = later + 1 := by omega
        rw [Option.some_or, hSame]

/-- An end that appears only after appending lies at or beyond the join. -/
theorem scanEnd_append_none (h : scanEnd bytes = none)
    (hMore : scanEnd (bytes ++ more) = some stop) : bytes.length ≤ stop := by
  induction bytes generalizing stop with
  | nil => simp
  | cons byte rest ih =>
    obtain ⟨hBlank, hRest⟩ := scanEnd_cons_none h
    rcases scanEnd_cons_some hMore with hNew | ⟨_, later, hLater, rfl⟩
    · exact (blankEnd_append_none hBlank hNew).2
    · have := ih hRest hLater
      rw [List.length_cons]
      omega

/-- Bytes put in front can only bring an earlier end. -/
theorem scanEnd_prepend (h : scanEnd bytes = some stop) (front : Bytes) :
    ∃ found, scanEnd (front ++ bytes) = some found ∧ found ≤ front.length + stop := by
  induction front with
  | nil => exact ⟨stop, h, by simp⟩
  | cons byte front ih =>
    obtain ⟨found, hFound, hLe⟩ := ih
    rw [List.cons_append, scanEnd, hFound, List.length_cons]
    cases hBlank : blankEnd (byte :: (front ++ bytes)) with
    | none => exact ⟨found + 1, rfl, by omega⟩
    | some head =>
      have := blankEnd_le_scanEnd hBlank hFound
      exact ⟨head, rfl, by omega⟩

/-- An end four bytes past a front part belongs to the bytes after that part. -/
theorem scanEnd_of_prepend {front : Bytes}
    (h : scanEnd (front ++ bytes) = some stop) (hFar : front.length + 4 ≤ stop) :
    scanEnd bytes = some (stop - front.length) := by
  induction front generalizing stop with
  | nil => simpa using h
  | cons byte front ih =>
    rw [List.length_cons] at hFar ⊢
    rcases scanEnd_cons_some h with hBlank | ⟨_, later, hLater, rfl⟩
    · have := (blankEnd_bounds hBlank).2.1
      omega
    · rw [ih hLater (by omega)]
      congr 1
      omega

/-- Scanning past a part without an end needs only its last three bytes. -/
theorem scanEnd_tail (front tail input : Bytes) (hFront : front ≠ [] → 3 ≤ tail.length)
    (h : scanEnd (front ++ tail) = none) :
    scanEnd (front ++ tail ++ input) = (scanEnd (tail ++ input)).map (front.length + ·) := by
  induction front with
  | nil => simp
  | cons byte front ih =>
    obtain ⟨hBlank, hRest⟩ := scanEnd_cons_none h
    have hTail : 3 ≤ tail.length := hFront (by simp)
    have hNew : blankEnd (byte :: (front ++ tail ++ input)) = none := by
      cases hSome : blankEnd (byte :: (front ++ tail ++ input)) with
      | none => rfl
      | some stop =>
        have hOld : blankEnd (byte :: (front ++ tail)) = none := hBlank
        have hNow : blankEnd (byte :: (front ++ tail) ++ input) = some stop := by
          simpa using hSome
        have := (blankEnd_append_none hOld hNow).1
        simp only [List.length_cons, List.length_append] at this
        omega
    have hStep : scanEnd (byte :: front ++ tail ++ input) =
        (scanEnd (front ++ tail ++ input)).map (· + 1) := by
      simp only [List.cons_append, scanEnd, hNew, Option.none_or]
    rw [hStep, ih (fun _ => hTail) hRest, Option.map_map, List.length_cons]
    congr 1
    funext stop
    simp only [Function.comp_apply]
    omega

/-- The decoder's boundary search finds exactly the end of the joined bytes,
provided the buffered part holds no complete blank line. -/
theorem eventEndAfterAppend_eq (buffer input : Bytes) (h : scanEnd buffer = none) :
    eventEndAfterAppend buffer input = (scanEnd (buffer ++ input)).map (· - buffer.length) := by
  obtain ⟨front, tail, hSplit, hTail, hLen⟩ : ∃ front tail, buffer = front ++ tail ∧
      buffer.drop (buffer.length - 3) = tail ∧ tail.length ≤ 3 ∧
        (front ≠ [] → 3 ≤ tail.length) := by
    refine ⟨buffer.take (buffer.length - 3), _, (List.take_append_drop _ _).symm, rfl, ?_, ?_⟩
    · rw [List.length_drop]
      omega
    · intro hFront
      have hPos : 0 < (buffer.take (buffer.length - 3)).length := List.length_pos_iff.mpr hFront
      rw [List.length_take] at hPos
      rw [List.length_drop]
      omega
  have hTailNone : scanEnd tail = none := by
    cases hSome : scanEnd tail with
    | none => rfl
    | some stop =>
      obtain ⟨found, hFound, _⟩ := scanEnd_prepend hSome front
      rw [← hSplit, h] at hFound
      cases hFound
  have hFull : scanEnd (buffer ++ input) = (scanEnd (tail ++ input)).map (front.length + ·) := by
    rw [hSplit] at h ⊢
    exact scanEnd_tail front tail input hLen.2 h
  have hWindow : (tail ++ input.take 4) ++ input.drop 4 = tail ++ input := by simp
  unfold eventEndAfterAppend
  simp only [hTail, findEventEnd_eq_scanEnd, hFull]
  cases hJoined : scanEnd (tail ++ input) with
  | none =>
    have hFrontNone : scanEnd (tail ++ input.take 4) = none := by
      cases hSome : scanEnd (tail ++ input.take 4) with
      | none => rfl
      | some stop =>
        have := scanEnd_append hSome (input.drop 4)
        rw [hWindow, hJoined] at this
        cases this
    have hInput : scanEnd input = none := by
      cases hSome : scanEnd input with
      | none => rfl
      | some stop =>
        obtain ⟨found, hFound, _⟩ := scanEnd_prepend hSome tail
        rw [hJoined] at hFound
        cases hFound
    simp [hFrontNone, hInput]
  | some stop =>
    have hStop : tail.length ≤ stop := scanEnd_append_none hTailNone hJoined
    have hWithin (later : Nat) (hLater : scanEnd input = some later) :
        stop - tail.length ≤ later := by
      obtain ⟨found, hFound, hLe⟩ := scanEnd_prepend hLater tail
      rw [hJoined] at hFound
      have := Option.some.inj hFound
      omega
    have hResult : front.length + stop - buffer.length = stop - tail.length := by
      rw [hSplit, List.length_append]
      omega
    simp only [Option.map_some, hResult]
    cases hSeen : scanEnd (tail ++ input.take 4) with
    | some seen =>
      have hSame := scanEnd_append hSeen (input.drop 4)
      rw [hWindow, hJoined] at hSame
      obtain rfl := Option.some.inj hSame
      have hKeep : (some stop).filter (fun found => decide (tail.length ≤ found)) = some stop := by
        rw [Option.filter_some, if_pos (by simpa using hStop)]
      rw [hKeep]
      cases hLater : scanEnd input with
      | none => rfl
      | some later =>
        simp only [Option.map_some]
        rw [Nat.min_eq_left (hWithin later hLater)]
    | none =>
      -- The window was too short, so the blank line starts inside the new input.
      have hNow : scanEnd ((tail ++ input.take 4) ++ input.drop 4) = some stop := by
        rw [hWindow, hJoined]
      have hFar := scanEnd_append_none hSeen hNow
      have hLong : 4 ≤ input.length := by
        by_contra hShort
        have hAll : input.take 4 = input := List.take_of_length_le (by omega)
        rw [hAll, hJoined] at hSeen
        cases hSeen
      rw [List.length_append, List.length_take, Nat.min_eq_left hLong] at hFar
      rw [scanEnd_of_prepend hJoined hFar]
      rfl

end Any2Api.Sse
