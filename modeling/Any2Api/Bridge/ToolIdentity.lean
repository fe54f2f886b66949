import Any2Api.Bridge.Fields
import Any2Api.Bridge.TargetProfile
import Mathlib.Data.Prod.Lex
import Mathlib.Order.Lattice

/-! The identity of a client tool and the name under which a Chat Completions
target knows it. Names are deterministic: a plain name that fits is kept, any
other name ends in a digest of the identity. -/
namespace Any2Api.Bridge

open OpenAiChat

inductive ChatToolKind where
  | function
  | custom
  deriving DecidableEq

inductive SourceCallKind where
  | function
  | custom
  | toolSearch
  deriving DecidableEq

inductive ToolIdentity where
  | function (name : String)
  | custom (name : String)
  | namespaceFunction (space name : String)
  | namespaceCustom (space name : String)
  | toolSearch
  deriving DecidableEq

namespace ToolIdentity

def sourceCallKind : ToolIdentity → SourceCallKind
  | .function _ | .namespaceFunction _ _ => .function
  | .custom _ | .namespaceCustom _ _ => .custom
  | .toolSearch => .toolSearch

def chatKind (profile : CompletionsProfile) : ToolIdentity → ChatToolKind
  | .custom _ | .namespaceCustom _ _ =>
    if profile.customTools = .native then .custom else .function
  | _ => .function

/-- Variants are ordered as they are declared, then by their fields. -/
def sortKey : ToolIdentity → ℕ ×ₗ String ×ₗ String
  | .function name => toLex (0, toLex (name, ""))
  | .custom name => toLex (1, toLex (name, ""))
  | .namespaceFunction space name => toLex (2, toLex (space, name))
  | .namespaceCustom space name => toLex (3, toLex (space, name))
  | .toolSearch => toLex (4, toLex ("", ""))

theorem sortKey_injective : Function.Injective sortKey := by
  intro first second h
  cases first <;> cases second <;> simp_all [sortKey]

instance : LinearOrder ToolIdentity := LinearOrder.lift' sortKey sortKey_injective

/-- The text whose digest tells identities with equal names apart. -/
def canonical : ToolIdentity → String
  | .function name => "function\x00" ++ name
  | .custom name => "custom\x00" ++ name
  | .namespaceFunction space name => "namespace-function\x00" ++ space ++ "\x00" ++ name
  | .namespaceCustom space name => "namespace-custom\x00" ++ space ++ "\x00" ++ name
  | .toolSearch => "tool-search"

end ToolIdentity

/-- A tool as the target names it. -/
structure ChatTool where
  kind : ChatToolKind
  name : String
  deriving DecidableEq

namespace ChatTool

def sortKey (tool : ChatTool) : ℕ ×ₗ String := toLex (tool.kind.ctorIdx, tool.name)

theorem sortKey_injective : Function.Injective sortKey := by
  rintro ⟨kind, name⟩ ⟨kind', name'⟩ h
  cases kind <;> cases kind' <;> simp_all [sortKey, ChatToolKind.ctorIdx]

instance : LinearOrder ChatTool := LinearOrder.lift' sortKey sortKey_injective

end ChatTool

/-- Characters outside the target's alphabet become underscores. -/
def sanitize (value : String) : String :=
  let output := value.toList.map fun c => if c.isAlphanum || c = '_' || c = '-' then c else '_'
  if output = [] then "tool" else String.ofList output

def hexDigit (value : UInt8) : Char :=
  if value < 10 then Char.ofNat (48 + value.toNat) else Char.ofNat (87 + value.toNat)

/-- The first six bytes of the digest in lower-case hexadecimal. -/
def digestSuffix (platform : Platform) (input : String) : String :=
  String.ofList ((platform.sha256 input).take 6 |>.flatMap fun (byte : UInt8) =>
    [hexDigit (byte >>> 4), hexDigit (byte &&& 15)])

def desiredName (identity : ToolIdentity) (chatKind : ChatToolKind) : String :=
  match identity with
  | .function name => sanitize name
  | .custom name => if chatKind = .custom then sanitize name else "custom__" ++ sanitize name
  | .namespaceFunction space name => sanitize space ++ "__" ++ sanitize name
  | .namespaceCustom space name => "custom__" ++ sanitize space ++ "__" ++ sanitize name
  | .toolSearch => "tool_search"

/-- Only names that sanitizing leaves alone may be kept. -/
def isLossless (identity : ToolIdentity) (chatKind : ChatToolKind) (desired : String) : Bool :=
  match identity with
  | .function name => name = desired
  | .custom name => chatKind = .custom && name = desired
  | _ => false

/-- The desired name cut to leave room for the digest. -/
def suffixedName (platform : Platform) (identity : ToolIdentity) (desired : String)
    (maxChars : Nat) : String :=
  let suffix := digestSuffix platform identity.canonical
  let prefixChars := maxChars - (suffix.utf8ByteSize + 1)
  let cut := String.ofList (desired.toList.take prefixChars)
  -- `truncate` counts bytes, and the placeholder is ASCII.
  let cut := if cut = "" then String.ofList ("tool".toList.take prefixChars) else cut
  cut ++ "_" ++ suffix

/-- The name of a tool at the target. `collides` tells whether another
identity already has a name. -/
def projectName (platform : Platform) (identity : ToolIdentity) (chatKind : ChatToolKind)
    (maxChars : Nat) (collides : String → Bool) : Except ProtocolError String :=
  let desired := desiredName identity chatKind
  let projected := suffixedName platform identity desired maxChars
  if maxChars < 17 then
    .error (invalid "Chat target tool name limit is too small for reversible projection")
  else if isLossless identity chatKind desired && decide (desired.length ≤ maxChars) &&
      !collides desired then
    .ok desired
  else if collides projected then
    .error (invalid "tool names collide after deterministic projection")
  else .ok projected

variable {platform : Platform} {identity : ToolIdentity} {chatKind : ChatToolKind}
  {collides : String → Bool}

/-- A projected name never collides. -/
theorem projectName_free {maxChars : Nat} {name : String}
    (h : projectName platform identity chatKind maxChars collides = .ok name) :
    collides name = false := by
  unfold projectName at h
  dsimp only at h
  split_ifs at h with hLimit hKeep hCollides
  · rw [← Except.ok.inj h]
    simp only [Bool.and_eq_true, Bool.not_eq_true'] at hKeep
    exact hKeep.2
  · rw [← Except.ok.inj h]
    exact Bool.eq_false_iff.mpr hCollides

theorem sanitize_ne_empty (value : String) : sanitize value ≠ "" := by
  unfold sanitize
  dsimp only
  split_ifs with h
  · decide
  · simpa using h

/-- A projected name is never empty. -/
theorem projectName_ne_empty {maxChars : Nat} {name : String}
    (h : projectName platform identity chatKind maxChars collides = .ok name) : name ≠ "" := by
  unfold projectName at h
  dsimp only at h
  split_ifs at h with hLimit hKeep hCollides
  · rw [← Except.ok.inj h]
    cases identity with
    | function name => exact sanitize_ne_empty name
    | custom name =>
      simp only [isLossless, desiredName, Bool.and_eq_true, decide_eq_true_eq] at hKeep ⊢
      rw [if_pos hKeep.1.1.1]
      exact sanitize_ne_empty name
    | _ => simp [isLossless] at hKeep
  · rw [← Except.ok.inj h]
    simp [suffixedName]

end Any2Api.Bridge
