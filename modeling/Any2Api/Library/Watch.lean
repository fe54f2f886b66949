import Mathlib

/-! Watch channels: a channel holds the latest value only. A receiver remembers which version
of it has been seen, and is woken as long as there is another one. -/
namespace Watch

structure Channel (α : Type*) where
  value : α
  version : Nat
  deriving DecidableEq

structure Receiver where
  seen : Nat
  deriving DecidableEq

namespace Channel

variable {α : Type*}

/-- A new value is a new version; without one nothing changes. -/
def sendIfModified (channel : Channel α) (change : α → Option α) : Channel α :=
  match change channel.value with
  | none => channel
  | some value => ⟨value, channel.version + 1⟩

/-- The receiver has seen the current version. -/
def subscribe (channel : Channel α) : Receiver := ⟨channel.version⟩

def borrowAndUpdate (channel : Channel α) (_ : Receiver) : α × Receiver :=
  (channel.value, channel.subscribe)

/-- `changed` returns. -/
def hasChanged (channel : Channel α) (receiver : Receiver) : Bool :=
  decide (receiver.seen ≠ channel.version)

variable [Preorder α] {channel later last : Channel α} {receiver : Receiver}

/-- A channel whose values do not fall has gone on. -/
structure Grows (channel later : Channel α) : Prop where
  version : channel.version ≤ later.version
  value : channel.value ≤ later.value
  same : later.version = channel.version → later.value = channel.value

/-- A channel that nothing is sent to has gone on as well. -/
theorem Grows.refl : channel.Grows channel := ⟨le_rfl, le_rfl, fun _ => rfl⟩

/-- A channel grows if every value it is changed to is at least the one before. -/
theorem grows_sendIfModified {change : α → Option α}
    (h : ∀ value, change channel.value = some value → channel.value ≤ value) :
    channel.Grows (channel.sendIfModified change) := by
  unfold sendIfModified
  cases hChange : change channel.value with
  | none => exact .refl
  | some value => exact ⟨Nat.le_succ _, h value hChange, fun hSame => absurd hSame (by simp)⟩

/-- The receiver last saw `value`, and whatever the channel has shown since is new to it. -/
structure Saw (channel : Channel α) (receiver : Receiver) (value : α) : Prop where
  seen : receiver.seen ≤ channel.version
  last : value ≤ channel.value
  same : receiver.seen = channel.version → channel.value = value

/-- A new receiver has seen what the channel shows. -/
theorem saw_subscribe : channel.Saw channel.subscribe channel.value :=
  ⟨le_rfl, le_rfl, fun _ => rfl⟩

/-- What a receiver last saw does not depend on what the channel shows later. -/
theorem Saw.grows {value : α} (h : channel.Saw receiver value)
    (hGrows : channel.Grows later) : later.Saw receiver value where
  seen := h.seen.trans hGrows.version
  last := h.last.trans hGrows.value
  same := fun hSame => by
    have hVersion : later.version = channel.version :=
      le_antisymm (hSame ▸ h.seen) hGrows.version
    rw [hGrows.same hVersion, h.same (hSame.trans hVersion)]

/-- A receiver wakes up when the value is above the one it last saw. -/
theorem Saw.hasChanged {value : α} (h : channel.Saw receiver value)
    (hNew : value < channel.value) : channel.hasChanged receiver = true := by
  refine decide_eq_true fun hSame => ?_
  rw [h.same hSame] at hNew
  exact lt_irrefl _ hNew

end Channel

end Watch
