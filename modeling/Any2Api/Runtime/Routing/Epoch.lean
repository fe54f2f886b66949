import Any2Api.Library.Entries
import Any2Api.Library.Watch
import Any2Api.Runtime.Domain

/-! The epoch of the scheduler. A change of routing state takes effect and then advances the
epoch in two steps: it increments the counter and publishes what it got, unless a newer epoch
has been published. -/
namespace Any2Api.Runtime.Routing

open Watch

/-- A change that has taken effect, and how far its `advance` is. -/
structure Advance where
  /-- The waiter that has released its lease; no waiter for changes from outside. -/
  author : Option Nat
  /-- The epoch that the increment gave. -/
  next : Option Nat
  published : Bool
  deriving DecidableEq

structure SchedulerEpoch where
  current : Nat
  sender : Channel Nat
  advances : List Advance
  deriving DecidableEq

namespace SchedulerEpoch

def new : SchedulerEpoch where
  current := 0
  sender := ⟨0, 0⟩
  advances := []

/-- A change takes effect. -/
def change (epoch : SchedulerEpoch) (author : Option Nat) : SchedulerEpoch :=
  { epoch with advances := epoch.advances ++ [⟨author, none, false⟩] }

/-- Racing increments follow each other, since each is one exchange. -/
def increment (epoch : SchedulerEpoch) (index : Nat) : Option SchedulerEpoch :=
  match epoch.advances[index]? with
  | some ⟨author, none, false⟩ =>
    let next := epoch.current + 1
    some { epoch with
      current := next
      advances := epoch.advances.set index ⟨author, some next, false⟩ }
  | _ => none

def publish (epoch : SchedulerEpoch) (index : Nat) : Option SchedulerEpoch :=
  match epoch.advances[index]? with
  | some ⟨author, some next, false⟩ =>
    some { epoch with
      sender := epoch.sender.sendIfModified fun published =>
        if next ≤ published then none else some next
      advances := epoch.advances.set index ⟨author, some next, true⟩ }
  | _ => none

variable {epoch after last : SchedulerEpoch} {index bound start : Nat}

/-- What any of the steps does: the counter, the channel and the advances go on, and an
increment gives an epoch above the counter. -/
structure Extends (epoch after : SchedulerEpoch) : Prop where
  current : epoch.current ≤ after.current
  sender : epoch.sender.Grows after.sender
  kept : ∀ (index : Nat) (advance : Advance), epoch.advances[index]? = some advance →
    ∃ later, after.advances[index]? = some later ∧ later.author = advance.author ∧
      (advance.next.isSome → later.next = advance.next) ∧
      (advance.published = true → later.published = true)
  fresh : ∀ (index : Nat) (later : Advance) (next : Nat),
    after.advances[index]? = some later → later.next = some next →
      (∃ advance, epoch.advances[index]? = some advance ∧ advance.author = later.author ∧
        advance.next = some next) ∨ epoch.current < next

/-- Every epoch that is published or assigned comes from an increment of its own. -/
structure Sound (epoch : SchedulerEpoch) : Prop where
  bounded : ∀ (index : Nat) (advance : Advance) (next : Nat),
    epoch.advances[index]? = some advance → advance.next = some next → next ≤ epoch.current
  unique : ∀ (index other : Nat) (advance another : Advance) (next : Nat),
    epoch.advances[index]? = some advance → epoch.advances[other]? = some another →
    advance.next = some next → another.next = some next → index = other
  announced : ∀ (index : Nat) (advance : Advance), epoch.advances[index]? = some advance →
    advance.published = true → ∃ next, advance.next = some next ∧ next ≤ epoch.sender.value
  sender : epoch.sender.value ≤ epoch.current

theorem Sound.new : SchedulerEpoch.new.Sound where
  bounded := by simp [SchedulerEpoch.new]
  unique := by simp [SchedulerEpoch.new]
  announced := by simp [SchedulerEpoch.new]
  sender := le_rfl

theorem extends_change (author : Option Nat) : epoch.Extends (epoch.change author) where
  current := le_rfl
  sender := .refl
  kept := fun _ advance h =>
    ⟨advance, Entries.getElem?_concat_eq_some.mpr (.inl h), rfl, fun _ => rfl, id⟩
  fresh := fun _ later _ h hNext => by
    rcases Entries.getElem?_concat_eq_some.mp h with hOld | ⟨-, rfl⟩
    · exact .inl ⟨later, hOld, rfl, hNext⟩
    · cases hNext

theorem Sound.change (h : epoch.Sound) (author : Option Nat) : (epoch.change author).Sound where
  bounded := fun index advance next hAdvance hNext => by
    rcases Entries.getElem?_concat_eq_some.mp hAdvance with hOld | ⟨-, rfl⟩
    · exact h.bounded index advance next hOld hNext
    · cases hNext
  unique := fun index other advance another next hAdvance hAnother hNext hSame => by
    rcases Entries.getElem?_concat_eq_some.mp hAdvance with hOld | ⟨-, rfl⟩
    · rcases Entries.getElem?_concat_eq_some.mp hAnother with hEarlier | ⟨-, rfl⟩
      · exact h.unique index other advance another next hOld hEarlier hNext hSame
      · cases hSame
    · cases hNext
  announced := fun index advance hAdvance hPublished => by
    rcases Entries.getElem?_concat_eq_some.mp hAdvance with hOld | ⟨-, rfl⟩
    · exact h.announced index advance hOld hPublished
    · cases hPublished
  sender := h.sender

/-- An advance takes its number once. -/
theorem increment_cases (h : epoch.increment index = some after) :
    ∃ author, epoch.advances[index]? = some ⟨author, none, false⟩ ∧
      after = { epoch with
        current := epoch.current + 1
        advances := epoch.advances.set index ⟨author, some (epoch.current + 1), false⟩ } := by
  unfold increment at h
  split at h
  next author hAdvance => exact ⟨author, hAdvance, (Option.some.inj h).symm⟩
  next => cases h

/-- A number is published unless a later one was. -/
theorem publish_cases (h : epoch.publish index = some after) :
    ∃ author next, epoch.advances[index]? = some ⟨author, some next, false⟩ ∧
      after = { epoch with
        sender := epoch.sender.sendIfModified fun published =>
          if next ≤ published then none else some next
        advances := epoch.advances.set index ⟨author, some next, true⟩ } := by
  unfold publish at h
  split at h
  next author next hAdvance => exact ⟨author, next, hAdvance, (Option.some.inj h).symm⟩
  next => cases h

theorem extends_increment (h : epoch.increment index = some after) : epoch.Extends after := by
  obtain ⟨author, hOld, rfl⟩ := increment_cases h
  have hLess := (List.getElem?_eq_some_iff.mp hOld).1
  refine ⟨Nat.le_succ _, .refl, fun position advance hAdvance => ?_,
    fun position later next hLater hNext => ?_⟩
  · by_cases hPosition : position = index
    · subst hPosition
      cases Option.some.inj (hOld.symm.trans hAdvance)
      exact ⟨_, Entries.getElem?_set_eq_some.mpr (.inr ⟨rfl, hLess, rfl⟩), rfl, by simp, by simp⟩
    · exact ⟨advance, Entries.getElem?_set_eq_some.mpr (.inl ⟨hPosition, hAdvance⟩), rfl,
        fun _ => rfl, id⟩
  · rcases Entries.getElem?_set_eq_some.mp hLater with ⟨-, hSame⟩ | ⟨-, -, rfl⟩
    · exact .inl ⟨later, hSame, rfl, hNext⟩
    · cases hNext
      exact .inr (Nat.lt_succ_self _)

theorem Sound.increment (h : epoch.Sound) (hStep : epoch.increment index = some after) :
    after.Sound := by
  obtain ⟨author, hOld, rfl⟩ := increment_cases hStep
  refine ⟨fun position advance next hAdvance hNext => ?_,
    fun position other advance another next hAdvance hAnother hNext hSame => ?_,
    fun position advance hAdvance hPublished => ?_, h.sender.trans (Nat.le_succ _)⟩
  · rcases Entries.getElem?_set_eq_some.mp hAdvance with ⟨-, hSame⟩ | ⟨-, -, rfl⟩
    · exact (h.bounded position advance next hSame hNext).trans (Nat.le_succ _)
    · cases hNext
      exact le_rfl
  · -- The new epoch is above every earlier one.
    rcases Entries.getElem?_set_eq_some.mp hAdvance with ⟨-, hFirst⟩ | ⟨hFirst, -, rfl⟩
    · rcases Entries.getElem?_set_eq_some.mp hAnother with ⟨-, hSecond⟩ | ⟨-, -, rfl⟩
      · exact h.unique position other advance another next hFirst hSecond hNext hSame
      · cases hSame
        have := h.bounded position advance _ hFirst hNext
        omega
    · rcases Entries.getElem?_set_eq_some.mp hAnother with ⟨-, hSecond⟩ | ⟨hSecond, -, -⟩
      · cases hNext
        have := h.bounded other another _ hSecond hSame
        omega
      · exact hFirst.trans hSecond.symm
  · rcases Entries.getElem?_set_eq_some.mp hAdvance with ⟨-, hSame⟩ | ⟨-, -, rfl⟩
    · exact h.announced position advance hSame hPublished
    · cases hPublished

theorem grows_publish (next : Nat) :
    epoch.sender.Grows (epoch.sender.sendIfModified fun published =>
      if next ≤ published then none else some next) := by
  refine Channel.grows_sendIfModified fun value hValue => ?_
  obtain ⟨hNot, hValue⟩ := Option.ite_none_left_eq_some.mp hValue
  rw [← Option.some.inj hValue]
  omega

/-- What has been published is at least the epoch of the step, and nothing that no
increment has given. -/
theorem publish_value (next : Nat) :
    (epoch.sender.sendIfModified fun published =>
      if next ≤ published then none else some next).value = max epoch.sender.value next := by
  unfold Channel.sendIfModified
  by_cases h : next ≤ epoch.sender.value
  · simp only [if_pos h, max_eq_left h]
  · simp only [if_neg h, max_eq_right (Nat.le_of_not_le h)]

theorem extends_publish (h : epoch.publish index = some after) : epoch.Extends after := by
  obtain ⟨author, next, hOld, rfl⟩ := publish_cases h
  have hLess := (List.getElem?_eq_some_iff.mp hOld).1
  refine ⟨le_rfl, grows_publish next, fun position advance hAdvance => ?_,
    fun position later epochNext hLater hNext => ?_⟩
  · by_cases hPosition : position = index
    · subst hPosition
      cases Option.some.inj (hOld.symm.trans hAdvance)
      exact ⟨_, Entries.getElem?_set_eq_some.mpr (.inr ⟨rfl, hLess, rfl⟩), rfl,
        fun _ => rfl, by simp⟩
    · exact ⟨advance, Entries.getElem?_set_eq_some.mpr (.inl ⟨hPosition, hAdvance⟩), rfl,
        fun _ => rfl, id⟩
  · rcases Entries.getElem?_set_eq_some.mp hLater with ⟨-, hSame⟩ | ⟨rfl, -, rfl⟩
    · exact .inl ⟨later, hSame, rfl, hNext⟩
    · exact .inl ⟨_, hOld, rfl, hNext⟩

theorem Sound.publish (h : epoch.Sound) (hStep : epoch.publish index = some after) :
    after.Sound := by
  have hExtends := extends_publish hStep
  obtain ⟨author, next, hOld, rfl⟩ := publish_cases hStep
  have hNextBound := h.bounded index _ next hOld rfl
  refine ⟨fun position advance epochNext hAdvance hNext => ?_,
    fun position other advance another epochNext hAdvance hAnother hNext hSame => ?_,
    fun position advance hAdvance hPublished => ?_, ?_⟩
  · rcases Entries.getElem?_set_eq_some.mp hAdvance with ⟨-, hSame⟩ | ⟨-, -, rfl⟩
    · exact h.bounded position advance epochNext hSame hNext
    · cases hNext
      exact hNextBound
  · rcases Entries.getElem?_set_eq_some.mp hAdvance with ⟨-, hFirst⟩ | ⟨rfl, -, rfl⟩
    · rcases Entries.getElem?_set_eq_some.mp hAnother with ⟨-, hSecond⟩ | ⟨rfl, -, rfl⟩
      · exact h.unique position other advance another epochNext hFirst hSecond hNext hSame
      · exact h.unique position other advance _ epochNext hFirst hOld hNext hSame
    · rcases Entries.getElem?_set_eq_some.mp hAnother with ⟨-, hSecond⟩ | ⟨rfl, -, rfl⟩
      · exact h.unique position other _ another epochNext hOld hSecond hNext hSame
      · rfl
  · rcases Entries.getElem?_set_eq_some.mp hAdvance with ⟨-, hSame⟩ | ⟨-, -, rfl⟩
    · obtain ⟨epochNext, hNext, hLe⟩ := h.announced position advance hSame hPublished
      exact ⟨epochNext, hNext, hLe.trans hExtends.sender.value⟩
    · exact ⟨next, rfl, by rw [publish_value]; exact le_max_right ..⟩
  · rw [publish_value]
    exact max_le h.sender hNextBound

end SchedulerEpoch

end Any2Api.Runtime.Routing
