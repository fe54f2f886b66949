import Mathlib
import Any2Api.Bridge.Options
import Any2Api.Bridge.ToolProjection

/-! The Chat Completions request that is sent to the target, built from the
fields of the source request. -/
namespace Any2Api.Bridge

open Any2Api.Json OpenAiChat

/-- What the bridge does with a field of the request. -/
inductive RequestFieldBehavior where
  | translated
  | localState
  | validatedOnly
  | forwarded
  deriving DecidableEq

/-- Every request field the bridge knows. -/
def requestFields : List (String × RequestFieldBehavior) :=
  [("model", .translated), ("input", .translated), ("instructions", .translated),
    ("previous_response_id", .localState), ("include", .validatedOnly), ("stream", .translated),
    ("max_output_tokens", .translated), ("reasoning", .translated), ("text", .translated),
    ("tools", .translated), ("tool_choice", .translated), ("client_metadata", .validatedOnly),
    ("n", .validatedOnly), ("frequency_penalty", .forwarded), ("logit_bias", .forwarded),
    ("logprobs", .forwarded), ("metadata", .forwarded), ("parallel_tool_calls", .forwarded),
    ("presence_penalty", .forwarded), ("prompt_cache_key", .forwarded), ("seed", .forwarded),
    ("service_tier", .forwarded), ("stop", .forwarded), ("store", .forwarded),
    ("temperature", .forwarded), ("top_logprobs", .forwarded), ("top_p", .forwarded),
    ("user", .forwarded)]

/-- The capability a target needs for a forwarded field. -/
def requestField : String → Option RequestField
  | "frequency_penalty" => some .frequencyPenalty
  | "logit_bias" => some .logitBias
  | "logprobs" => some .logprobs
  | "metadata" => some .metadata
  | "parallel_tool_calls" => some .parallelToolCalls
  | "presence_penalty" => some .presencePenalty
  | "prompt_cache_key" => some .promptCacheKey
  | "seed" => some .seed
  | "service_tier" => some .serviceTier
  | "stop" => some .stop
  | "store" => some .store
  | "temperature" => some .temperature
  | "top_logprobs" => some .topLogprobs
  | "top_p" => some .topP
  | "user" => some .user
  | _ => none

def requireField (profile : CompletionsProfile) (field : RequestField) (name : String) :
    Except ProtocolError Unit :=
  if profile.supportsRequestField field then .ok ()
  else .error (invalid ("Chat target does not support " ++ name))

variable (source : Object)

def appendForwardedField (profile : CompletionsProfile) (target : Object)
    (path : String) : Except ProtocolError Object :=
  match source.get? path with
  | none => .ok target
  | some value =>
    -- Only sent together with tools.
    if path = "parallel_tool_calls" then .ok target
    else
      match requestField path with
      | none =>
        .error (.internal
          ("forwarded bridge field `" ++ path ++ "` has no target profile capability"))
      | some capability =>
        if profile.supportsRequestField capability then .ok (target.insert path value)
        else .error (invalid ("Chat target does not support request field `" ++ path ++ "`"))

/-- The paths of the forwarded fields. -/
def forwardedFields : List String :=
  (requestFields.filter (·.2 = .forwarded)).map Prod.fst

def appendForwardedFields (profile : CompletionsProfile) (target : Object) :
    Except ProtocolError Object :=
  forwardedFields.foldlM (appendForwardedField source profile) target

def appendTokenLimit (profile : CompletionsProfile) (target : Object) : Object :=
  match source.get? "max_output_tokens" with
  | none => target
  | some value => target.insert profile.tokenLimitField.asStr value

/-- A streaming request also asks for the usage. -/
def appendStream (source target : Object) : Object :=
  match source.get? "stream" with
  | none => target
  | some value =>
    let target := target.insert "stream" value
    if value = .bool true then
      target.insert "stream_options" (.obj [("include_usage", .bool true)])
    else target

def appendReasoning (profile : CompletionsProfile) (target : Object) :
    Except ProtocolError Object :=
  match source.get? "reasoning" with
  | none => .ok target
  | some reasoning => do
      match ← convertReasoning reasoning with
      | none => pure target
      | some effort =>
        match profile.reasoningRequest with
        | .reasoningEffort => pure (target.insert "reasoning_effort" effort)
        | .unsupported => throw (invalid "Chat target does not support reasoning effort")

/-- Insert a translated text setting, if the target knows its field. -/
def appendSetting (profile : CompletionsProfile) (field : RequestField) (name : String)
    (setting : Option Value) (target : Object) : Except ProtocolError Object :=
  match setting with
  | none => .ok target
  | some value => do
      requireField profile field name
      pure (target.insert name value)

def appendTextConfig (profile : CompletionsProfile) (target : Object) :
    Except ProtocolError Object :=
  match source.get? "text" with
  | none => .ok target
  | some text => do
      let converted ← convertTextConfig text
      let target ← appendSetting profile .responseFormat "response_format"
        converted.responseFormat target
      appendSetting profile .verbosity "verbosity" converted.verbosity target

def appendToolChoice (projection : ToolProjection) (target : Object) :
    Except ProtocolError Object :=
  match source.get? "tool_choice" with
  | none => .ok target
  | some value => do return target.insert "tool_choice" (← projection.projectToolChoice value)

def appendTools (profile : CompletionsProfile) (projection : ToolProjection)
    (target : Object) : Except ProtocolError Object :=
  if !projection.hasActiveTools then
    match source.get? "tool_choice" with
    | none => .ok target
    | some choice =>
      if choice.asStr = some "none" ∨ choice.asStr = some "auto" then .ok target
      else .error (invalid "tool_choice requires at least one active tool")
  else do
    let target ← appendToolChoice source projection
      (target.insert "tools" (.array projection.chatTools))
    appendSetting profile .parallelToolCalls "parallel_tool_calls"
      (source.get? "parallel_tool_calls") target

def build (upstreamModel : String) (profile : CompletionsProfile)
    (messages : List Value) (projection : ToolProjection) : Except ProtocolError Value := do
  let target := Object.ofFields [("model", .string upstreamModel), ("messages", .array messages)]
  let target ← appendForwardedFields source profile target
  let target := appendStream source (appendTokenLimit source profile target)
  let target ← appendReasoning source profile target
  let target ← appendTextConfig source profile target
  let target ← appendTools source profile projection target
  pure (.object target)

/-! No later field replaces the messages. -/

section Messages

variable {source target result : Object} {profile : CompletionsProfile}
  {projection : ToolProjection}

theorem appendForwardedField_messages {path : String} (hPath : path ≠ "messages")
    (h : appendForwardedField source profile target path = .ok result) :
    result.get? "messages" = target.get? "messages" := by
  unfold appendForwardedField at h
  split at h
  · cases h
    rfl
  · split at h
    · cases h
      rfl
    · split at h
      · cases h
      · split at h
        · cases h
          simp [hPath.symm]
        · cases h

theorem appendForwardedFields_messages
    (h : appendForwardedFields source profile target = .ok result) :
    result.get? "messages" = target.get? "messages" := by
  have hPaths : ∀ path ∈ forwardedFields, path ≠ "messages" := by decide
  unfold appendForwardedFields at h
  generalize forwardedFields = paths at h hPaths
  induction paths generalizing target with
  | nil =>
    cases h
    rfl
  | cons path paths ih =>
    rw [List.foldlM_cons] at h
    obtain ⟨next, hNext, hRest⟩ := Except.of_bind h
    rw [ih hRest fun other hOther => hPaths other (List.mem_cons_of_mem path hOther)]
    exact appendForwardedField_messages (hPaths path List.mem_cons_self) hNext

theorem appendTokenLimit_messages :
    (appendTokenLimit source profile target).get? "messages" = target.get? "messages" := by
  unfold appendTokenLimit
  split
  · rfl
  · cases hField : profile.tokenLimitField <;> simp [TokenLimitField.asStr]

theorem appendStream_messages :
    (appendStream source target).get? "messages" = target.get? "messages" := by
  unfold appendStream
  split
  · rfl
  · split <;> simp

theorem appendReasoning_messages (h : appendReasoning source profile target = .ok result) :
    result.get? "messages" = target.get? "messages" := by
  unfold appendReasoning at h
  split at h
  · cases h
    rfl
  · obtain ⟨effort, -, h⟩ := Except.of_bind h
    split at h
    · cases h
      rfl
    · split at h
      · cases h
        simp
      · cases h

theorem appendSetting_messages {field : RequestField} {name : String} {setting : Option Value}
    (hName : name ≠ "messages") (h : appendSetting profile field name setting target = .ok result) :
    result.get? "messages" = target.get? "messages" := by
  unfold appendSetting at h
  split at h
  · cases h
    rfl
  · obtain ⟨_, -, h⟩ := Except.of_bind h
    cases h
    simp [hName.symm]

theorem appendTextConfig_messages (h : appendTextConfig source profile target = .ok result) :
    result.get? "messages" = target.get? "messages" := by
  unfold appendTextConfig at h
  split at h
  · cases h
    rfl
  · obtain ⟨converted, -, h⟩ := Except.of_bind h
    obtain ⟨middle, hFormat, hVerbosity⟩ := Except.of_bind h
    rw [appendSetting_messages (by decide) hVerbosity, appendSetting_messages (by decide) hFormat]

theorem appendTools_messages (h : appendTools source profile projection target = .ok result) :
    result.get? "messages" = target.get? "messages" := by
  unfold appendTools at h
  split at h
  · split at h
    · cases h
      rfl
    · split at h
      · cases h
        rfl
      · cases h
  · obtain ⟨middle, hChoice, hParallel⟩ := Except.of_bind h
    rw [appendSetting_messages (by decide) hParallel]
    unfold appendToolChoice at hChoice
    split at hChoice
    · cases hChoice
      simp
    · obtain ⟨choice, -, hChoice⟩ := Except.of_bind hChoice
      cases hChoice
      simp

/-- The request carries exactly the messages it was built with. -/
theorem build_messages {upstreamModel : String} {messages : List Value} {body : Value}
    (h : build source upstreamModel profile messages projection = .ok body) :
    body.get? "messages" = some (.array messages) := by
  obtain ⟨forwarded, hForwarded, h⟩ := Except.of_bind h
  obtain ⟨reasoned, hReasoned, h⟩ := Except.of_bind h
  obtain ⟨texted, hTexted, h⟩ := Except.of_bind h
  obtain ⟨tooled, hTooled, h⟩ := Except.of_bind h
  cases h
  calc Object.get? tooled "messages"
      = Object.get? reasoned "messages" := by
        rw [appendTools_messages hTooled, appendTextConfig_messages hTexted]
    _ = Object.get? forwarded "messages" := by
        rw [appendReasoning_messages hReasoned, appendStream_messages, appendTokenLimit_messages]
    _ = some (.array messages) := by
        rw [appendForwardedFields_messages hForwarded]
        simp

end Messages

/-! Which requests can be translated, apart from their input. -/

section Translatable

variable {source target : Object} {profile : CompletionsProfile} {projection : ToolProjection}

/-- A forwarded field is missing, or the target knows it. -/
def Forwardable (source : Object) (profile : CompletionsProfile) (path : String) : Prop :=
  (source.get? path).isSome → path ≠ "parallel_tool_calls" →
    ∃ capability, requestField path = some capability ∧ profile.supportsRequestField capability

/-- The options of a request that the target can be given. -/
structure Translatable (source : Object) (profile : CompletionsProfile)
    (projection : ToolProjection) : Prop where
  forwarded : ∀ path ∈ forwardedFields, Forwardable source profile path
  reasoning : ∀ value, source.get? "reasoning" = some value → ∃ effort,
    convertReasoning value = .ok effort ∧
      (effort.isSome → profile.reasoningRequest = .reasoningEffort)
  text : ∀ value, source.get? "text" = some value → ∃ converted,
    convertTextConfig value = .ok converted ∧
      (converted.responseFormat.isSome → profile.supportsRequestField .responseFormat) ∧
      (converted.verbosity.isSome → profile.supportsRequestField .verbosity)
  choice : ∀ value, source.get? "tool_choice" = some value →
    if projection.hasActiveTools then ∃ choice, projection.projectToolChoice value = .ok choice
    else value.asStr = some "none" ∨ value.asStr = some "auto"
  parallel : projection.hasActiveTools → (source.get? "parallel_tool_calls").isSome →
    profile.supportsRequestField .parallelToolCalls

theorem appendForwardedField_ok_iff (target : Object) (path : String) :
    (∃ result, appendForwardedField source profile target path = .ok result) ↔
      Forwardable source profile path := by
  unfold appendForwardedField Forwardable
  cases source.get? path with
  | none => simp
  | some value =>
    by_cases hPath : path = "parallel_tool_calls"
    · simp [hPath]
    · cases requestField path with
      | none => simp [hPath]
      | some capability =>
        by_cases hKnown : profile.supportsRequestField capability <;> simp [hPath, hKnown]

theorem appendReasoning_ok_iff (target : Object) :
    (∃ result, appendReasoning source profile target = .ok result) ↔
      ∀ value, source.get? "reasoning" = some value → ∃ effort,
        convertReasoning value = .ok effort ∧
          (effort.isSome → profile.reasoningRequest = .reasoningEffort) := by
  unfold appendReasoning
  cases source.get? "reasoning" with
  | none => simp
  | some value =>
    cases hEffort : convertReasoning value with
    | error error => simp [hEffort]
    | ok effort => cases effort <;> cases hRequest : profile.reasoningRequest <;> simp [hEffort]

theorem appendSetting_ok_iff {field : RequestField} {name : String} {setting : Option Value}
    (target : Object) : (∃ result, appendSetting profile field name setting target = .ok result) ↔
      (setting.isSome → profile.supportsRequestField field) := by
  unfold appendSetting requireField
  cases setting with
  | none => simp
  | some value => by_cases hKnown : profile.supportsRequestField field <;> simp [hKnown]

theorem appendTextConfig_ok_iff (target : Object) :
    (∃ result, appendTextConfig source profile target = .ok result) ↔
      ∀ value, source.get? "text" = some value → ∃ converted,
        convertTextConfig value = .ok converted ∧
          (converted.responseFormat.isSome → profile.supportsRequestField .responseFormat) ∧
          (converted.verbosity.isSome → profile.supportsRequestField .verbosity) := by
  unfold appendTextConfig
  cases source.get? "text" with
  | none => simp
  | some value =>
    cases hConverted : convertTextConfig value with
    | error error => simp [hConverted]
    | ok converted =>
      simp only [Except.ok_bind, Option.some.injEq, forall_eq', hConverted, Except.ok.injEq,
        exists_eq_left']
      rw [Except.exists_bind_eq_ok_iff appendSetting_ok_iff, appendSetting_ok_iff]

/-- A choice of tools must be one that can be projected. -/
theorem appendTools_ok_iff (target : Object) :
    (∃ result, appendTools source profile projection target = .ok result) ↔
      (∀ value, source.get? "tool_choice" = some value →
        if projection.hasActiveTools then ∃ choice, projection.projectToolChoice value = .ok choice
        else value.asStr = some "none" ∨ value.asStr = some "auto") ∧
      (projection.hasActiveTools → (source.get? "parallel_tool_calls").isSome →
        profile.supportsRequestField .parallelToolCalls) := by
  unfold appendTools
  by_cases hTools : projection.hasActiveTools
  · simp only [hTools, Bool.not_true, Bool.false_eq_true, if_false, if_true, true_imp_iff]
    rw [Except.exists_bind_eq_ok_iff appendSetting_ok_iff]
    refine and_congr_left fun _ => ?_
    unfold appendToolChoice
    cases source.get? "tool_choice" with
    | none => simp
    | some value => cases hChoice : projection.projectToolChoice value <;> simp [hChoice]
  · simp only [hTools, Bool.not_false, if_true, Bool.false_eq_true, if_false, false_imp_iff,
      and_true]
    cases source.get? "tool_choice" with
    | none => simp
    | some choice =>
      by_cases hPlain : choice.asStr = some "none" ∨ choice.asStr = some "auto" <;> simp [hPlain]

/-- Whether a request can be built does not depend on its messages. -/
theorem build_ok_iff {upstreamModel : String} {messages : List Value} :
    (∃ body, build source upstreamModel profile messages projection = .ok body) ↔
      Translatable source profile projection := by
  constructor
  · rintro ⟨body, h⟩
    obtain ⟨forwarded, hForwarded, h⟩ := Except.of_bind h
    obtain ⟨reasoned, hReasoned, h⟩ := Except.of_bind h
    obtain ⟨texted, hTexted, h⟩ := Except.of_bind h
    obtain ⟨tooled, hTooled, -⟩ := Except.of_bind h
    obtain ⟨hChoice, hParallel⟩ := (appendTools_ok_iff texted).mp ⟨tooled, hTooled⟩
    exact ⟨(Except.exists_foldlM_eq_ok_iff appendForwardedField_ok_iff).mp ⟨_, hForwarded⟩,
      (appendReasoning_ok_iff _).mp ⟨reasoned, hReasoned⟩,
      (appendTextConfig_ok_iff reasoned).mp ⟨texted, hTexted⟩, hChoice, hParallel⟩
  · intro h
    obtain ⟨forwarded, hForwarded⟩ : ∃ forwarded, appendForwardedFields source profile
        (.ofFields [("model", .string upstreamModel), ("messages", .array messages)]) =
          .ok forwarded :=
      (Except.exists_foldlM_eq_ok_iff appendForwardedField_ok_iff).mpr h.forwarded
    obtain ⟨reasoned, hReasoned⟩ := (appendReasoning_ok_iff
      (appendStream source (appendTokenLimit source profile forwarded))).mpr h.reasoning
    obtain ⟨texted, hTexted⟩ := (appendTextConfig_ok_iff reasoned).mpr h.text
    obtain ⟨tooled, hTooled⟩ := (appendTools_ok_iff texted).mpr ⟨h.choice, h.parallel⟩
    refine ⟨.object tooled, ?_⟩
    simp only [build, hForwarded, Except.ok_bind, hReasoned, hTexted, hTooled, Except.pure_eq_ok]

end Translatable

end Any2Api.Bridge
