import Any2Api.Bridge.ToolDefinition
import Mathlib.Algebra.BigOperators.Group.Finset.Basic
import Mathlib.Data.Finset.Insert
import Mathlib.Data.List.Sort

/-! The projection between client tools and the names a target knows them by.
It grows over the turns of a conversation; only the set of active tools starts
anew with each request. -/
namespace Any2Api.Bridge

open Any2Api.Json OpenAiChat

structure ProjectionFields where
  profile : CompletionsProfile
  originalToChat : OrderedMap ToolIdentity String
  chatToOriginal : OrderedMap ChatTool ToolIdentity
  deferred : Finset ToolIdentity
  active : Finset ChatTool
  chatTools : List Value

namespace ProjectionFields

/-- Identities that no profile calls as a custom tool. -/
def isPlain (identity : ToolIdentity) : Prop := identity.sourceCallKind ≠ .custom

/-- How the two maps and the active set fit together. The profile may have
changed since a name was allocated, so a custom tool need not be found under
its own name again. -/
structure Coherent (fields : ProjectionFields) : Prop where
  custom : ∀ name identity, fields.chatToOriginal.get? ⟨.custom, name⟩ = some identity →
    identity.sourceCallKind = .custom
  plain : ∀ identity name, isPlain identity → fields.originalToChat.get? identity = some name →
    fields.chatToOriginal.get? ⟨.function, name⟩ = some identity
  active : ∀ tool ∈ fields.active, ∃ identity,
    fields.originalToChat.get? identity = some tool.name ∧
      identity.chatKind fields.profile = tool.kind
  named : ∀ identity name, fields.originalToChat.get? identity = some name → name ≠ ""

def collides (fields : ProjectionFields) (identity : ToolIdentity) (name : String) : Bool :=
  (fields.chatToOriginal.get? ⟨identity.chatKind fields.profile, name⟩).any (· ≠ identity)

/-- Record a name for an identity in both directions. -/
def allocate (fields : ProjectionFields) (identity : ToolIdentity) (name : String) :
    ProjectionFields :=
  { fields with
    originalToChat := fields.originalToChat.insert identity name
    chatToOriginal :=
      fields.chatToOriginal.insert ⟨identity.chatKind fields.profile, name⟩ identity }

end ProjectionFields

variable {identity : ToolIdentity} {profile : CompletionsProfile}

theorem ToolIdentity.chatKind_plain (profile : CompletionsProfile)
    (h : identity.sourceCallKind ≠ .custom) : identity.chatKind profile = .function := by
  cases identity <;> simp_all [ToolIdentity.chatKind, ToolIdentity.sourceCallKind]

theorem ToolIdentity.sourceCallKind_of_chatKind (h : identity.chatKind profile = .custom) :
    identity.sourceCallKind = .custom := by
  by_contra hPlain
  rw [ToolIdentity.chatKind_plain profile hPlain] at h
  cases h

/-- Without native support every tool is a function at the target. -/
theorem ToolIdentity.chatKind_envelope
    (h : profile.customTools ≠ .native) (identity : ToolIdentity) :
    identity.chatKind profile = .function := by
  cases identity <;> simp [ToolIdentity.chatKind, h]

namespace ProjectionFields.Coherent

variable {fields : ProjectionFields}

theorem allocate (h : fields.Coherent) {name : String}
    (hNew : fields.originalToChat.get? identity = none)
    (hFree : fields.collides identity name = false) (hName : name ≠ "") :
    (fields.allocate identity name).Coherent := by
  refine ⟨?_, ?_, ?_, ?_⟩
  · intro other found hFound
    simp only [ProjectionFields.allocate, OrderedMap.get?_insert] at hFound
    split_ifs at hFound with hSame
    · cases hFound
      exact ToolIdentity.sourceCallKind_of_chatKind (congrArg ChatTool.kind hSame).symm
    · exact h.custom other found hFound
  · intro other found hPlain hFound
    simp only [ProjectionFields.allocate, OrderedMap.get?_insert] at hFound ⊢
    split_ifs at hFound with hSame
    · cases hFound
      subst hSame
      rw [if_pos (by rw [ToolIdentity.chatKind_plain _ hPlain])]
    · have hOld := h.plain other found hPlain hFound
      rw [if_neg]
      · exact hOld
      · intro hTaken
        simp only [collides, ← hTaken, hOld, Option.any_some, decide_eq_false_iff_not,
          not_not] at hFree
        exact hSame hFree
  · intro tool hTool
    obtain ⟨other, hFound, hKind⟩ := h.active tool hTool
    refine ⟨other, ?_, hKind⟩
    simp only [ProjectionFields.allocate, OrderedMap.get?_insert]
    rw [if_neg]
    · exact hFound
    · rintro rfl
      rw [hNew] at hFound
      cases hFound
  · intro other found hFound
    simp only [ProjectionFields.allocate, OrderedMap.get?_insert] at hFound
    split_ifs at hFound
    · cases hFound
      exact hName
    · exact h.named other found hFound

/-- An active tool that is found again is found under its own kind. -/
theorem active_kind (h : fields.Coherent) {tool : ChatTool}
    (hActive : tool ∈ fields.active) (hFound : fields.chatToOriginal.get? tool = some identity) :
    identity.chatKind fields.profile = tool.kind := by
  obtain ⟨kind, name⟩ := tool
  obtain ⟨owner, hName, hKind⟩ := h.active _ hActive
  by_cases hNative : fields.profile.customTools = .native
  · cases kind with
    | custom =>
      have hCustom := h.custom name identity hFound
      cases identity <;> simp_all [ToolIdentity.chatKind, ToolIdentity.sourceCallKind]
    | function =>
      have hPlain : isPlain owner := by
        intro hCustom
        cases owner <;> simp_all [ToolIdentity.chatKind, ToolIdentity.sourceCallKind]
      have hOwner := h.plain owner name hPlain hName
      rw [hFound] at hOwner
      cases hOwner
      exact hKind
  · rw [ToolIdentity.chatKind_envelope hNative] at hKind ⊢
    exact hKind

end ProjectionFields.Coherent

/-- Projection fields that fit together. -/
structure ToolProjection extends ProjectionFields where
  coherent : toProjectionFields.Coherent

namespace ToolProjection

/-- The empty projection. -/
def fresh (profile : CompletionsProfile) : ToolProjection :=
  ⟨⟨profile, .empty, .empty, ∅, ∅, []⟩, ⟨by simp, by simp, by simp, by simp⟩⟩

/-- A request starts from the projection of the previous turn, with no active
tools. -/
def new (profile : CompletionsProfile) (previous : Option ToolProjection) : ToolProjection :=
  let kept := previous.getD (fresh profile)
  ⟨{ kept.toProjectionFields with profile, active := ∅, chatTools := [] },
    ⟨kept.coherent.custom, kept.coherent.plain, by simp, kept.coherent.named⟩⟩

variable (platform : Platform) (projection : ToolProjection)

def registerDeferred (identity : ToolIdentity) : ToolProjection :=
  ⟨{ projection.toProjectionFields with deferred := insert identity projection.deferred },
    ⟨projection.coherent.custom, projection.coherent.plain, projection.coherent.active,
      projection.coherent.named⟩⟩

/-- The name of an identity, allocated at its first use. -/
def ensureIdentity (identity : ToolIdentity) : Except ProtocolError (String × ToolProjection) :=
  match hName : projection.originalToChat.get? identity with
  | some name => .ok (name, projection)
  | none =>
    match hNew : projectName platform identity (identity.chatKind projection.profile)
        projection.profile.toolNameMaxChars.toNat (projection.collides identity) with
    | .error error => .error error
    | .ok name => .ok (name, ⟨projection.allocate identity name,
        projection.coherent.allocate hName (projectName_free hNew) (projectName_ne_empty hNew)⟩)

/-- Add a tool to the request under the name that was allocated for it. -/
def enable (identity : ToolIdentity) (name : String)
    (definition : Value) (h : projection.originalToChat.get? identity = some name) :
    ToolProjection :=
  ⟨{ projection.toProjectionFields with
      active := insert ⟨identity.chatKind projection.profile, name⟩ projection.active
      chatTools := projection.chatTools ++ [definition] },
    ⟨projection.coherent.custom, projection.coherent.plain, by
      intro tool hTool
      rcases Finset.mem_insert.mp hTool with rfl | hOld
      · exact ⟨identity, h, rfl⟩
      · exact projection.coherent.active tool hOld, projection.coherent.named⟩⟩

theorem ensureIdentity_name {platform : Platform} {projection next : ToolProjection} {name : String}
    (h : projection.ensureIdentity platform identity = .ok (name, next)) :
    next.originalToChat.get? identity = some name := by
  unfold ensureIdentity at h
  split at h
  · next hName =>
      cases h
      exact hName
  · split at h
    · cases h
    · cases h
      simp [ProjectionFields.allocate]

def activate (identity : ToolIdentity) (definition : Value) : Except ProtocolError ToolProjection :=
  match h : projection.ensureIdentity platform identity with
  | .error error => .error error
  | .ok (name, projection) =>
    if ⟨identity.chatKind projection.profile, name⟩ ∈ projection.active then
      .error (invalid "tool is declared more than once")
    else .ok (projection.enable identity name definition (ensureIdentity_name h))

def hasActiveTools : Bool := projection.active ≠ ∅

def isRegisteredDeferred (identity : ToolIdentity) : Bool :=
  identity ∈ projection.deferred

def hasRegisteredIdentity (identity : ToolIdentity) : Bool :=
  (projection.originalToChat.get? identity).isSome

def activeName (identity : ToolIdentity) : Except ProtocolError String :=
  match projection.originalToChat.get? identity with
  | none => .error (invalid "tool_choice references an undeclared tool")
  | some name =>
    if ⟨identity.chatKind projection.profile, name⟩ ∈ projection.active then .ok name
    else .error (invalid "tool_choice references an inactive tool")

def activeIdentity (kind : ChatToolKind) (name : String) : Except ProtocolError ToolIdentity :=
  if ⟨kind, name⟩ ∈ projection.active then
    match projection.chatToOriginal.get? ⟨kind, name⟩ with
    | some identity => .ok identity
    | none => .error (.internal "active tool projection has no reverse mapping")
  else .error (invalid "Chat Completions returned a call for an undeclared tool")

def knownIdentity (kind : ChatToolKind) (name : String) : Except ProtocolError ToolIdentity :=
  match projection.chatToOriginal.get? ⟨kind, name⟩ with
  | some identity => .ok identity
  | none => .error (invalid "conversation contains an unknown projected tool name")

/-- Add a declared tool under the name allocated for it. -/
def activateTool (tool : ParsedTool) : Except ProtocolError ToolProjection :=
  match projection.originalToChat.get? tool.identity with
  | none => .error (.internal "tool projection was not allocated")
  | some chatName => do
      let definition ← tool.intoChatDefinition projection.profile.customTools chatName
      projection.activate platform tool.identity definition

/-- A deferred tool is only registered until a search loads it. -/
def declareTool (tool : ParsedTool) : Except ProtocolError ToolProjection :=
  if tool.isDeferred then .ok (projection.registerDeferred tool.identity)
  else projection.activateTool platform tool

/-- Allocate names in a canonical order, so that they do not depend on the
order of the declarations. -/
def ensureIdentities (identities : List ToolIdentity) : Except ProtocolError ToolProjection :=
  identities.foldlM (fun projection identity => do
    return (← projection.ensureIdentity platform identity).2) projection

def configure (value : Option Value) : Except ProtocolError ToolProjection :=
  match value with
  | none => .ok projection
  | some value =>
    match value.asArray with
    | none => .error (invalid "tools must be an array")
    | some tools => do
        let parsed ← parseTools tools
        if parsed.any ParsedTool.isDeferred && !parsed.any ParsedTool.isToolSearch then
          throw (invalid "deferred tools require a client-executed tool_search tool")
        else if ¬(parsed.map ParsedTool.identity).Nodup then
          throw (invalid "tool is declared more than once")
        else do
          let projection ← projection.ensureIdentities platform
            ((parsed.map ParsedTool.identity).insertionSort (· ≤ ·))
          parsed.foldlM (declareTool platform) projection

/-- A tool that a search loaded must have been registered as deferred. -/
def loadTool (tool : ParsedTool) : Except ProtocolError ToolProjection :=
  if tool.isToolSearch then
    .error (invalid "tool_search_output cannot dynamically load another tool_search")
  else if !tool.isDeferred then
    .error (invalid "tool_search_output tools must retain defer_loading=true")
  else if !projection.isRegisteredDeferred tool.identity then
    .error (invalid "tool_search_output returned an unregistered tool")
  else projection.activateTool platform tool

def activateLoadedTools (tools : List Value) : Except ProtocolError ToolProjection := do
  (← parseTools tools).foldlM (loadTool platform) projection

/-- The tool a `tool_choice` object of type function or custom names. -/
def functionChoice (choice : Object) (custom : Bool) : Except ProtocolError ToolIdentity := do
  let name ← requiredString (choice.get? "name") "tool_choice.name"
  match choice.get? "namespace" with
  | none => pure (if custom then .custom name else .function name)
  | some space => do
      let space ← requiredString (some space) "tool_choice.namespace"
      pure (if custom then .namespaceCustom space name else .namespaceFunction space name)

def choiceIdentity (choice : Object) (kind : String) : Except ProtocolError ToolIdentity :=
  if kind = "function" then functionChoice choice false
  else if kind = "custom" then functionChoice choice true
  else if kind = "tool_search" then
    if choice.containsKey "name" || choice.containsKey "namespace" then
      .error (invalid "tool_search tool_choice cannot contain name or namespace")
    else .ok .toolSearch
  else if kind = "namespace" then
    .error (invalid "namespace-wide tool_choice has no Chat Completions equivalent")
  else .error (.unsupportedValue "tool_choice type" kind)

def projectToolChoice (value : Value) : Except ProtocolError Value :=
  match value with
  | .string choice =>
    if choice = "none" ∨ choice = "auto" ∨ choice = "required" then .ok value
    else .error (.unsupportedValue "tool_choice" choice)
  | .object choice => do
      rejectFields choice "tool_choice" ["type", "name", "namespace"]
      let kind ← requiredString (Object.get? choice "type") "tool_choice.type"
      let identity ← choiceIdentity choice kind
      let chatName ← projection.activeName identity
      pure (match identity.chatKind projection.profile with
        | .function => .obj [("type", .string "function"),
            ("function", .obj [("name", .string chatName)])]
        | .custom => .obj [("type", .string "custom"),
            ("custom", .obj [("name", .string chatName)])])
  | _ => .error (invalid "tool_choice must be a string or object")

end ToolProjection

end Any2Api.Bridge
