import Any2Api.Library.OrderedMap
import Any2Api.Runtime.Domain

/-! The deadlines at which the wake worker advances the epoch. Every slot has at most one, and
the slots are also kept by deadline, so that the worker finds the ones that are due. -/
namespace Any2Api.Runtime.Routing

variable {σ : Type*} [DecidableEq σ]

/-- The slots by deadline. -/
abbrev SlotsByDeadline (σ : Type*) := OrderedMap Instant (Finset σ)

namespace SlotsByDeadline

def Holds (slots : SlotsByDeadline σ) (deadline : Instant) (slot : σ) : Prop :=
  ∃ found, slots.get? deadline = some found ∧ slot ∈ found

/-- `entry(deadline).or_default().insert(slot)`. -/
def add (slots : SlotsByDeadline σ) (deadline : Instant) (slot : σ) : SlotsByDeadline σ :=
  slots.insert deadline (insert slot ((slots.get? deadline).getD ∅))

def removeReverse (slots : SlotsByDeadline σ) (deadline : Instant) (slot : σ) : SlotsByDeadline σ :=
  match slots.get? deadline with
  | some found =>
    let rest := found.erase slot
    if rest = ∅ then slots.erase deadline else slots.insert deadline rest
  | none => slots

/-- Pop the first deadlines as long as they are due. -/
def popDue (now : Instant) : List (Instant × Finset σ) → List (Finset σ) × List (Instant × Finset σ)
  | [] => ([], [])
  | (deadline, slots) :: rest =>
    if deadline ≤ now then
      let (due, later) := popDue now rest
      (slots :: due, later)
    else
      ([], (deadline, slots) :: rest)

variable {slots : SlotsByDeadline σ} {deadline other now : Instant} {slot found : σ}

theorem holds_add :
    Holds (add slots deadline slot) other found ↔
      Holds slots other found ∨ other = deadline ∧ found = slot := by
  unfold Holds add
  by_cases hDeadline : other = deadline
  · subst hDeadline
    cases hFound : slots.get? other with
    | none => simp
    | some others => simp [or_comm]
  · simp [hDeadline]

theorem holds_removeReverse :
    Holds (removeReverse slots deadline slot) other found ↔
      Holds slots other found ∧ ¬(other = deadline ∧ found = slot) := by
  unfold Holds removeReverse
  cases hFound : slots.get? deadline with
  | none =>
    by_cases hDeadline : other = deadline
    · simp [hDeadline, hFound]
    · simp [hDeadline]
  | some others =>
    by_cases hDeadline : other = deadline
    · subst hDeadline
      dsimp only
      split
      next hEmpty =>
        have hNone : found ∉ others.erase slot := by simp [hEmpty]
        simp only [OrderedMap.get?_erase, if_true, reduceCtorEq, false_and, exists_false, hFound,
          Option.some.injEq, exists_eq_left', true_and, false_iff]
        rw [Finset.mem_erase] at hNone
        tauto
      next => simp [hFound, and_comm]
    · dsimp only
      split <;> simp [hDeadline]

omit [DecidableEq σ] in
/-- What is due stands at the front. -/
theorem popDue_eq {entries : List (Instant × Finset σ)} (h : SortedEntries.Sorted entries) :
    popDue now entries = ((entries.filter (·.1 ≤ now)).map (·.2), entries.filter (now < ·.1)) := by
  induction entries with
  | nil => rfl
  | cons first rest ih =>
    obtain ⟨deadline, slots⟩ := first
    obtain ⟨hFirst, hRest⟩ := List.pairwise_cons.mp h
    unfold popDue
    by_cases hDue : deadline ≤ now
    · simp [hDue, ih hRest]
    · -- Every later deadline is later than this one.
      have hLater : ∀ entry ∈ rest, now < entry.1 := fun entry hEntry =>
        (Nat.lt_of_not_le hDue).trans (hFirst entry hEntry)
      have hNone : rest.filter (·.1 ≤ now) = [] :=
        List.filter_eq_nil_iff.mpr fun entry hEntry => by
          have := hLater entry hEntry
          simpa using this
      have hAll : rest.filter (now < ·.1) = rest :=
        List.filter_eq_self.mpr fun entry hEntry => by simpa using hLater entry hEntry
      simp only [hDue, if_false, List.filter_cons, decide_false, Bool.false_eq_true, hNone,
        List.map_nil, Nat.lt_of_not_le hDue, decide_true, if_true, hAll]

end SlotsByDeadline

open SlotsByDeadline Function

/-- The two tables agree. -/
structure WakeSchedule (σ : Type*) [DecidableEq σ] where
  bySlot : σ → Option Instant
  byDeadline : SlotsByDeadline σ
  agree : ∀ slot deadline, bySlot slot = some deadline ↔ Holds byDeadline deadline slot

namespace WakeSchedule

variable {wakes : WakeSchedule σ} {slot other : σ} {deadline now : Instant}

def empty : WakeSchedule σ where
  bySlot := fun _ => none
  byDeadline := OrderedMap.empty
  agree := by simp [Holds]

theorem agree_cancel (wakes : WakeSchedule σ) (slot : σ) (previous : Instant)
    (h : wakes.bySlot slot = some previous) (other : σ) (deadline : Instant) :
    update wakes.bySlot slot none other = some deadline ↔
      Holds (wakes.byDeadline.removeReverse previous slot) deadline other := by
  rw [holds_removeReverse, ← wakes.agree]
  by_cases hOther : other = slot
  · subst hOther
    simp [h, eq_comm]
  · simp [hOther]

/-- Whether there was a deadline, and the schedule without it. -/
def cancel (wakes : WakeSchedule σ) (slot : σ) : Bool × WakeSchedule σ :=
  match h : wakes.bySlot slot with
  | none => (false, wakes)
  | some previous =>
    (true, {
      bySlot := update wakes.bySlot slot none
      byDeadline := wakes.byDeadline.removeReverse previous slot
      agree := wakes.agree_cancel slot previous h })

theorem cancel_bySlot : (wakes.cancel slot).2.bySlot = update wakes.bySlot slot none := by
  unfold cancel
  split
  next hNone => exact (update_eq_self_iff.mpr hNone.symm).symm
  next => rfl

theorem agree_schedule (wakes : WakeSchedule σ) (slot : σ) (deadline : Instant)
    (h : wakes.bySlot slot = none) (other : σ) (found : Instant) :
    update wakes.bySlot slot (some deadline) other = some found ↔
      Holds (wakes.byDeadline.add deadline slot) found other := by
  rw [holds_add, ← wakes.agree]
  by_cases hOther : other = slot
  · subst hOther
    simp [h, eq_comm]
  · simp [hOther]

/-- Whether the deadline is new, and the schedule with it. A previous one is replaced. -/
def schedule (wakes : WakeSchedule σ) (slot : σ) (deadline : Instant) : Bool × WakeSchedule σ :=
  if wakes.bySlot slot = some deadline then
    (false, wakes)
  else
    let cancelled := (wakes.cancel slot).2
    (true, {
      bySlot := update cancelled.bySlot slot (some deadline)
      byDeadline := cancelled.byDeadline.add deadline slot
      agree := cancelled.agree_schedule slot deadline (by rw [cancel_bySlot]; simp) })

theorem schedule_bySlot :
    (wakes.schedule slot deadline).2.bySlot = update wakes.bySlot slot (some deadline) := by
  unfold WakeSchedule.schedule
  split
  next hSame => exact (update_eq_self_iff.mpr hSame.symm).symm
  next =>
    dsimp only
    rw [cancel_bySlot, update_idem]

def nextDeadline (wakes : WakeSchedule σ) : Option Instant :=
  wakes.byDeadline.entries.head?.map (·.1)

/-- The slots whose deadlines have been popped. -/
def isDue (wakes : WakeSchedule σ) (now : Instant) (slot : σ) : Bool :=
  (popDue now wakes.byDeadline.entries).1.any (slot ∈ ·)

theorem isDue_iff :
    wakes.isDue now slot = true ↔ ∃ deadline ≤ now, wakes.bySlot slot = some deadline := by
  have hSorted := wakes.byDeadline.sorted
  simp only [isDue, popDue_eq hSorted, List.any_eq_true, List.mem_map, List.mem_filter,
    decide_eq_true_eq, wakes.agree, Holds]
  constructor
  · rintro ⟨slots, ⟨⟨deadline, _⟩, ⟨hEntry, hDue⟩, rfl⟩, hSlot⟩
    exact ⟨deadline, hDue, _, hSorted.get?_eq_some_iff.mpr hEntry, hSlot⟩
  · rintro ⟨deadline, hDue, slots, hSlots, hSlot⟩
    exact ⟨slots, ⟨(deadline, slots), ⟨hSorted.get?_eq_some_iff.mp hSlots, hDue⟩, rfl⟩, hSlot⟩

theorem remaining_iff :
    (if wakes.isDue now slot then none else wakes.bySlot slot) = some deadline ↔
      now < deadline ∧ wakes.bySlot slot = some deadline := by
  rw [Option.ite_none_left_eq_some, isDue_iff]
  constructor
  · rintro ⟨hNot, hSlot⟩
    exact ⟨Nat.lt_of_not_le fun hDue => hNot ⟨deadline, hDue, hSlot⟩, hSlot⟩
  · rintro ⟨hLater, hSlot⟩
    refine ⟨?_, hSlot⟩
    rintro ⟨due, hDue, hSame⟩
    rw [hSlot] at hSame
    cases hSame
    exact absurd hDue (Nat.not_le_of_lt hLater)

theorem agree_removeDue (wakes : WakeSchedule σ) (now : Instant)
    (hSorted : SortedEntries.Sorted (popDue now wakes.byDeadline.entries).2)
    (slot : σ) (deadline : Instant) :
    (if wakes.isDue now slot then none else wakes.bySlot slot) = some deadline ↔
      Holds (⟨(popDue now wakes.byDeadline.entries).2, hSorted⟩ : SlotsByDeadline σ)
        deadline slot := by
  have hEntries := wakes.byDeadline.sorted
  have hHolds : Holds (⟨(popDue now wakes.byDeadline.entries).2, hSorted⟩ : SlotsByDeadline σ)
      deadline slot ↔ now < deadline ∧ wakes.bySlot slot = some deadline := by
    rw [wakes.agree]
    unfold Holds OrderedMap.get?
    simp only [hSorted.get?_eq_some_iff, hEntries.get?_eq_some_iff]
    simp only [popDue_eq hEntries, List.mem_filter, decide_eq_true_eq]
    grind
  rw [hHolds, remaining_iff]

/-- Remove what is due, and tell whether there was any. -/
def removeDue (wakes : WakeSchedule σ) (now : Instant) : Bool × WakeSchedule σ :=
  let popped := popDue now wakes.byDeadline.entries
  have hSorted : SortedEntries.Sorted popped.2 := by
    rw [show popped.2 = _ from congrArg Prod.snd (popDue_eq wakes.byDeadline.sorted)]
    exact List.Pairwise.sublist List.filter_sublist wakes.byDeadline.sorted
  (!popped.1.isEmpty, {
    bySlot := fun slot => if wakes.isDue now slot then none else wakes.bySlot slot
    byDeadline := ⟨popped.2, hSorted⟩
    agree := wakes.agree_removeDue now hSorted })

/-- The worker removes the slots whose deadlines have passed. -/
theorem removeDue_bySlot :
    (wakes.removeDue now).2.bySlot slot = some deadline ↔
      now < deadline ∧ wakes.bySlot slot = some deadline := remaining_iff

/-- A removal says whether anything was due. -/
theorem removeDue_fst (hSlot : wakes.bySlot slot = some deadline) (hDue : deadline ≤ now) :
    (wakes.removeDue now).1 = true := by
  have hDue : wakes.isDue now slot = true := isDue_iff.mpr ⟨deadline, hDue, hSlot⟩
  change (!(popDue now wakes.byDeadline.entries).1.isEmpty) = true
  unfold isDue at hDue
  cases hPopped : (popDue now wakes.byDeadline.entries).1 with
  | nil => simp [hPopped] at hDue
  | cons first rest => rfl

end WakeSchedule

end Any2Api.Runtime.Routing
