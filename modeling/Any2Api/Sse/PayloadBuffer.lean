import Any2Api.Protocol.Error

/-! Bounded append-only byte storage. Heap and mapped storage hold the same
contents, so only the contents and the length limit are kept here; allocation
is taken to succeed. -/
namespace Any2Api

inductive PayloadBufferError where
  | tooLarge
  deriving DecidableEq

/-- A buffer never holds more than `maxLen` bytes. -/
structure PayloadBuffer where
  contents : Bytes
  maxLen : Nat
  bounded : contents.length ≤ maxLen
  deriving DecidableEq

namespace PayloadBuffer

def new (maxLen : Nat) : PayloadBuffer := ⟨[], maxLen, Nat.zero_le _⟩

variable (buffer : PayloadBuffer)

def len : Nat := buffer.contents.length

def isEmpty : Bool := buffer.contents.isEmpty

def extendFromSlice (bytes : Bytes) : Except PayloadBufferError PayloadBuffer :=
  if h : buffer.contents.length + bytes.length ≤ buffer.maxLen then
    .ok ⟨buffer.contents ++ bytes, buffer.maxLen, by simpa using h⟩
  else .error .tooLarge

@[simp] theorem new_contents (maxLen : Nat) : (new maxLen).contents = [] := rfl

@[simp] theorem new_maxLen (maxLen : Nat) : (new maxLen).maxLen = maxLen := rfl

theorem extendFromSlice_maxLen {buffer extended : PayloadBuffer} {bytes : Bytes}
    (h : buffer.extendFromSlice bytes = .ok extended) : extended.maxLen = buffer.maxLen := by
  unfold extendFromSlice at h
  split at h
  · cases h
    rfl
  · cases h

/-- An append inside the limit stores exactly the appended bytes at the end. -/
theorem extendFromSlice_ok (bytes : Bytes)
    (h : buffer.contents.length + bytes.length ≤ buffer.maxLen) :
    buffer.extendFromSlice bytes =
      .ok ⟨buffer.contents ++ bytes, buffer.maxLen, by simpa using h⟩ := by
  simp [extendFromSlice, h]

end PayloadBuffer

end Any2Api
