import Any2Api.Bridge.ToolCall

/-! A projection only grows: the operations of a request keep every name that
was allocated, in both directions. -/
namespace Any2Api.Bridge

open Any2Api.Json OpenAiChat

namespace ToolProjection

/-- Every name leads back to the identity it was allocated for. This can only
fail after a change of profile, since names are looked up under the kind the
current profile gives them. -/
def Consistent (projection : ToolProjection) : Prop :=
  ∀ identity name, projection.originalToChat.get? identity = some name →
    projection.chatToOriginal.get? ⟨identity.chatKind projection.profile, name⟩ = some identity

structure Grows (earlier later : ToolProjection) : Prop where
  profile : later.profile = earlier.profile
  names : ∀ identity name, earlier.originalToChat.get? identity = some name →
    later.originalToChat.get? identity = some name
  tools : ∀ tool identity, earlier.chatToOriginal.get? tool = some identity →
    later.chatToOriginal.get? tool = some identity
  consistent : earlier.Consistent → later.Consistent

theorem Grows.refl (projection : ToolProjection) : projection.Grows projection :=
  ⟨rfl, fun _ _ h => h, fun _ _ h => h, id⟩

theorem Grows.trans {first second third : ToolProjection} (h : first.Grows second)
    (h' : second.Grows third) : first.Grows third :=
  ⟨h'.profile.trans h.profile, fun _ _ hName => h'.names _ _ (h.names _ _ hName),
    fun _ _ hTool => h'.tools _ _ (h.tools _ _ hTool), h'.consistent ∘ h.consistent⟩

theorem fresh_consistent (profile : CompletionsProfile) : (fresh profile).Consistent := by
  intro identity name h
  simp [fresh] at h

/-- A request with the profile of the previous turn keeps all names. -/
theorem new_grows (previous : ToolProjection) :
    previous.Grows (new previous.profile (some previous)) :=
  ⟨rfl, fun _ _ h => h, fun _ _ h => h, id⟩

theorem registerDeferred_grows (projection : ToolProjection) (identity : ToolIdentity) :
    projection.Grows (projection.registerDeferred identity) :=
  ⟨rfl, fun _ _ h => h, fun _ _ h => h, id⟩

end ToolProjection

namespace ProjectionFields

variable {fields : ProjectionFields} {identity : ToolIdentity} {name : String}

theorem allocate_names (hNew : fields.originalToChat.get? identity = none)
    (other : ToolIdentity) (found : String)
    (h : fields.originalToChat.get? other = some found) :
    (fields.allocate identity name).originalToChat.get? other = some found := by
  have hOther : other ≠ identity := by
    rintro rfl
    rw [hNew] at h
    cases h
  simpa [allocate, hOther] using h

theorem allocate_tools (hFree : fields.collides identity name = false) (tool : ChatTool)
    (other : ToolIdentity) (h : fields.chatToOriginal.get? tool = some other) :
    (fields.allocate identity name).chatToOriginal.get? tool = some other := by
  by_cases hTool : tool = ⟨identity.chatKind fields.profile, name⟩
  · have hSame : other = identity := by simpa [collides, ← hTool, h] using hFree
    simp [allocate, hTool, hSame]
  · simpa [allocate, hTool] using h

end ProjectionFields

variable {platform : Platform}

namespace ToolProjection

variable {identity : ToolIdentity} {projection next : ToolProjection}
  {enabled : List ToolIdentity} {tool : ParsedTool}

/-- A new name is free, so no older one changes. -/
theorem ensureIdentity_grows {projection next : ToolProjection} {name : String}
    (h : projection.ensureIdentity platform identity = .ok (name, next)) :
    projection.Grows next := by
  unfold ensureIdentity at h
  split at h
  · cases h
    exact .refl projection
  · next hNew =>
      split at h
      · cases h
      · next hName =>
          cases h
          have hFree := projectName_free hName
          refine ⟨rfl, ProjectionFields.allocate_names hNew,
            ProjectionFields.allocate_tools hFree, fun hConsistent other found hFound => ?_⟩
          by_cases hOther : other = identity
          · subst hOther
            have hSame : name = found := by simpa [ProjectionFields.allocate] using hFound
            simp [ProjectionFields.allocate, hSame]
          · refine ProjectionFields.allocate_tools hFree _ _ (hConsistent other found ?_)
            simpa [ProjectionFields.allocate, hOther] using hFound

/-- The elementary changes of a projection and what they add up to; the list
holds the identities that were enabled. -/
inductive Changes (platform : Platform) :
    ToolProjection → List ToolIdentity → ToolProjection → Prop
  | refl (projection : ToolProjection) : Changes platform projection [] projection
  | ensure {projection next : ToolProjection} {identity : ToolIdentity} {name : String}
      (h : projection.ensureIdentity platform identity = .ok (name, next)) :
      Changes platform projection [] next
  | register (projection : ToolProjection) (identity : ToolIdentity) :
      Changes platform projection [] (projection.registerDeferred identity)
  | enable (projection : ToolProjection) (identity : ToolIdentity) (name : String)
      (definition : Value) (h : projection.originalToChat.get? identity = some name) :
      Changes platform projection [identity] (projection.enable identity name definition h)
  | trans {first second third : ToolProjection} {enabled more : List ToolIdentity}
      (h : Changes platform first enabled second) (hMore : Changes platform second more third) :
      Changes platform first (enabled ++ more) third

theorem activate_changes {definition : Value}
    (h : projection.activate platform identity definition = .ok next) :
    Changes platform projection [identity] next := by
  unfold activate at h
  split at h
  · cases h
  · next hName =>
      split at h
      · cases h
      · cases h
        exact (Changes.ensure hName).trans (.enable _ _ _ _ _)

theorem activateTool_changes (h : projection.activateTool platform tool = .ok next) :
    Changes platform projection [tool.identity] next := by
  unfold activateTool at h
  split at h
  · cases h
  · obtain ⟨definition, -, h⟩ := Except.of_bind h
    exact activate_changes h

/-- What declaring a tool enables. -/
def declaredIdentity (tool : ParsedTool) : List ToolIdentity :=
  if tool.isDeferred then [] else [tool.identity]

theorem declareTool_changes (h : projection.declareTool platform tool = .ok next) :
    Changes platform projection (declaredIdentity tool) next := by
  unfold declareTool at h
  rw [declaredIdentity]
  split at h
  · next hDeferred =>
      cases h
      rw [if_pos hDeferred]
      exact .register projection tool.identity
  · next hDeferred =>
      rw [if_neg hDeferred]
      exact activateTool_changes h

theorem loadTool_changes (h : projection.loadTool platform tool = .ok next) :
    Changes platform projection [tool.identity] next := by
  unfold loadTool at h
  split_ifs at h
  exact activateTool_changes h

/-- A fold of changes. -/
theorem foldlM_changes {α : Type} (step : ToolProjection → α → Except ProtocolError ToolProjection)
    (enables : α → List ToolIdentity)
    (hStep : ∀ projection item next, step projection item = .ok next →
      Changes platform projection (enables item) next) {items : List α}
    (h : items.foldlM step projection = .ok next) :
    Changes platform projection (items.flatMap enables) next := by
  induction items generalizing projection with
  | nil =>
    cases h
    exact .refl _
  | cons item items ih =>
    rw [List.foldlM_cons] at h
    obtain ⟨middle, hMiddle, h⟩ := Except.of_bind h
    rw [List.flatMap_cons]
    exact (hStep projection item middle hMiddle).trans (ih h)

theorem ensureIdentities_changes {identities : List ToolIdentity}
    (h : projection.ensureIdentities platform identities = .ok next) :
    Changes platform projection [] next := by
  have hFold : Changes platform projection (identities.flatMap fun _ => []) next := by
    refine foldlM_changes _ _ (fun state identity later hLater => ?_) h
    obtain ⟨⟨name, after⟩, hName, hAfter⟩ := Except.of_bind hLater
    cases hAfter
    exact .ensure hName
  rwa [List.flatMap_eq_nil_iff.mpr fun _ _ => rfl] at hFold

/-- The identities that a declaration of tools enables. -/
def declaredIdentities (value : Option Value) : List ToolIdentity :=
  match value.bind Value.asArray with
  | none => []
  | some tools =>
    match parseTools tools with
    | .error _ => []
    | .ok parsed => parsed.flatMap declaredIdentity

/-- The declared identities are enabled. -/
theorem configure_changes {value : Option Value}
    (h : projection.configure platform value = .ok next) :
    Changes platform projection (declaredIdentities value) next := by
  unfold configure at h
  split at h
  · cases h
    exact .refl projection
  · next value =>
      rw [declaredIdentities, Option.bind_some]
      cases hTools : value.asArray with
      | none =>
        rw [hTools] at h
        cases h
      | some tools =>
        rw [hTools] at h
        obtain ⟨parsed, hParsed, h⟩ := Except.of_bind h
        split_ifs at h
        obtain ⟨named, hNamed, h⟩ := Except.of_bind h
        dsimp only
        rw [hParsed]
        exact (ensureIdentities_changes hNamed).trans
          (foldlM_changes (declareTool platform) declaredIdentity
            (fun _ _ _ => declareTool_changes) h)

/-- The identities that a tool search enables. -/
def loadedIdentities (tools : List Value) : List ToolIdentity :=
  match parseTools tools with
  | .error _ => []
  | .ok parsed => parsed.map ParsedTool.identity

/-- The loaded identities are enabled. -/
theorem activateLoadedTools_changes {tools : List Value}
    (h : projection.activateLoadedTools platform tools = .ok next) :
    Changes platform projection (loadedIdentities tools) next := by
  obtain ⟨parsed, hParsed, h⟩ := Except.of_bind h
  rw [loadedIdentities, hParsed]
  have hFold := foldlM_changes (loadTool platform) (fun tool => [tool.identity])
    (fun _ _ _ => loadTool_changes) h
  rwa [← List.map_eq_flatMap] at hFold

theorem Changes.grows (h : Changes platform projection enabled next) : projection.Grows next := by
  induction h with
  | refl projection => exact .refl projection
  | ensure h => exact ensureIdentity_grows h
  | register projection identity => exact registerDeferred_grows projection identity
  | enable projection identity name definition h =>
    exact ⟨rfl, fun _ _ h => h, fun _ _ h => h, id⟩
  | trans _ _ ih ihMore => exact ih.trans ihMore

end ToolProjection

/-- What projecting a call of the history does. -/
theorem projectSourceCall_eq_ok {projection : ToolProjection}
    {object : Object} {kind : SourceCallKind} {projected : ProjectedSourceCall}
    (h : projectSourceCall platform projection object kind = .ok projected) :
    projection.Grows projected.projection ∧
      sourceIdentity object kind = .ok projected.identity ∧
      ∃ name, projected.projection.originalToChat.get? projected.identity = some name ∧
        chatCall platform projected.projection.profile object kind projected.identity name =
          .ok projected.chatCall := by
  obtain ⟨identity, hIdentity, h⟩ := Except.of_bind h
  split_ifs at h
  obtain ⟨⟨name, next⟩, hName, h⟩ := Except.of_bind h
  obtain ⟨call, hCall, h⟩ := Except.of_bind h
  cases h
  exact ⟨ToolProjection.ensureIdentity_grows hName, hIdentity, name,
    ToolProjection.ensureIdentity_name hName, hCall⟩

end Any2Api.Bridge
