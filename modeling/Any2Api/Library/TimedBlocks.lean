import Mathlib

/-! Blocks that end at a deadline. Each has a slot at which its end is to be announced, and a step
of the system moves the slots in one of a few ways. -/
namespace TimedBlocks

/-- The deadline that is recorded for a block, the one its slot is scheduled at, and whether the
slot waits to be dropped because its block is gone. -/
structure Slot where
  recorded : Option Nat
  scheduled : Option Nat
  retired : Bool

namespace Slot

variable {clock : Nat} {slot after : Slot} {announcing : Prop}

def Blocks (slot : Slot) (clock : Nat) : Prop :=
  ∃ deadline, slot.recorded = some deadline ∧ clock < deadline

/-- A block is scheduled as long as it blocks, and only slots of recorded or retired blocks
are scheduled. -/
structure Valid (slot : Slot) (clock : Nat) : Prop where
  timely : ∀ deadline, slot.recorded = some deadline → clock < deadline →
    slot.scheduled = some deadline
  owned : ∀ deadline, slot.scheduled = some deadline →
    slot.recorded ≠ none ∨ slot.retired = true
  gone : slot.retired = true → slot.recorded = none

/-- What a step does to a slot that is attended to: a block that it ends, and a slot that it
unschedules, is announced. -/
inductive Moves (clock : Nat) (announcing : Prop) (slot : Slot) : Slot → Prop where
  | stay : Moves clock announcing slot slot
  | record (deadline : Nat) : slot.retired = false →
      Moves clock announcing slot ⟨some deadline, some deadline, slot.retired⟩
  /-- Without a record there is nothing to announce. -/
  | clear : slot.retired = false → (announcing ∨ slot.recorded = none) →
      Moves clock announcing slot ⟨none, none, slot.retired⟩
  /-- The block is gone, and its slot is yet to be dropped. -/
  | retire : (announcing ∨ ∀ deadline, slot.recorded = some deadline → deadline ≤ clock) →
      Moves clock announcing slot ⟨none, slot.scheduled, true⟩
  | removeDue (scheduled : Option Nat) :
      (∀ deadline, scheduled = some deadline ↔
        clock < deadline ∧ slot.scheduled = some deadline) →
      (∀ deadline, slot.scheduled = some deadline → deadline ≤ clock → announcing) →
      Moves clock announcing slot ⟨slot.recorded, scheduled, slot.retired⟩
  /-- The slot of a block that has ended is cancelled. -/
  | cancel (retired : Bool) : (∀ deadline, slot.recorded = some deadline → deadline ≤ clock) →
      (announcing ∨ slot.scheduled = none) → Moves clock announcing slot ⟨none, none, retired⟩

theorem Moves.mono {announced : Prop} (h : Moves clock announcing slot after)
    (hAnnounced : announcing → announced) : Moves clock announced slot after := by
  cases h with
  | stay => exact .stay
  | record deadline hRetired => exact .record deadline hRetired
  | clear hRetired hNone => exact .clear hRetired (hNone.imp_left hAnnounced)
  | retire hEnded => exact .retire (hEnded.imp_left hAnnounced)
  | removeDue scheduled hScheduled hDue =>
    exact .removeDue scheduled hScheduled fun deadline hFound hPassed =>
      hAnnounced (hDue deadline hFound hPassed)
  | cancel retired hEnded hNone => exact .cancel retired hEnded (hNone.imp_left hAnnounced)

/-- Time passes: what has ended by then is still scheduled. -/
theorem Valid.later {later : Nat} (h : slot.Valid clock) (hClock : clock ≤ later) :
    slot.Valid later :=
  ⟨fun deadline hRecorded hLater => h.timely deadline hRecorded (hClock.trans_lt hLater), h.owned,
    h.gone⟩

theorem Valid.scheduled_of_blocks (h : slot.Valid clock) (hBlocks : slot.Blocks clock) :
    slot.scheduled.isSome := by
  obtain ⟨deadline, hRecorded, hLater⟩ := hBlocks
  rw [h.timely deadline hRecorded hLater]
  rfl

theorem Moves.valid (h : Moves clock announcing slot after) (hValid : slot.Valid clock) :
    after.Valid clock := by
  cases h with
  | stay => exact hValid
  | record deadline hRetired =>
    refine ⟨fun _ hRecorded _ => hRecorded, fun _ _ => .inl nofun, fun hGone => ?_⟩
    cases hRetired.symm.trans hGone
  | clear => exact ⟨nofun, nofun, fun _ => rfl⟩
  | retire => exact ⟨nofun, fun _ _ => .inr rfl, fun _ => rfl⟩
  | removeDue scheduled hScheduled =>
    exact ⟨fun deadline hRecorded hLater => (hScheduled deadline).mpr
        ⟨hLater, hValid.timely deadline hRecorded hLater⟩,
      fun deadline hKept => hValid.owned deadline ((hScheduled deadline).mp hKept).2, hValid.gone⟩
  | cancel => exact ⟨nofun, nofun, fun _ => rfl⟩

/-- A block that has ended is scheduled or announced. -/
theorem Moves.ended (h : Moves clock announcing slot after) (hValid : slot.Valid clock)
    (hBefore : slot.Blocks clock) (hAfter : ¬after.Blocks clock) :
    after.scheduled.isSome ∨ announcing := by
  obtain ⟨deadline, hRecorded, hLater⟩ := id hBefore
  cases h with
  | stay => exact absurd hBefore hAfter
  | record => exact .inl rfl
  | clear _ hNone => exact .inr (hNone.resolve_right (by rw [hRecorded]; nofun))
  | retire => exact .inl (hValid.scheduled_of_blocks hBefore)
  | removeDue => exact absurd ⟨deadline, hRecorded, hLater⟩ hAfter
  | cancel _ hEnded => exact absurd (hEnded deadline hRecorded) (Nat.not_le_of_lt hLater)

/-- A slot that has been scheduled is still so, or its end is announced. -/
theorem Moves.kept (h : Moves clock announcing slot after) (hValid : slot.Valid clock)
    (hBefore : slot.scheduled.isSome) : after.scheduled.isSome ∨ announcing := by
  obtain ⟨deadline, hScheduled⟩ := Option.isSome_iff_exists.mp hBefore
  cases h with
  | stay => exact .inl hBefore
  | record => exact .inl rfl
  | clear hRetired hNone =>
    refine .inr (hNone.resolve_right fun hNone => ?_)
    obtain hSome | hGone := hValid.owned deadline hScheduled
    · exact hSome hNone
    · cases hRetired.symm.trans hGone
  | retire => exact .inl hBefore
  | removeDue scheduled hKept hDue =>
    by_cases hLater : clock < deadline
    · exact .inl (Option.isSome_iff_exists.mpr
        ⟨deadline, (hKept deadline).mpr ⟨hLater, hScheduled⟩⟩)
    · exact .inr (hDue deadline hScheduled (Nat.le_of_not_lt hLater))
  | cancel _ _ hNone => exact .inr (hNone.resolve_right (by rw [hScheduled]; nofun))

end Slot

end TimedBlocks
