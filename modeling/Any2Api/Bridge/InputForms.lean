import Any2Api.Bridge.HistoryShape
import Any2Api.Bridge.Request

/-! An input may be a text or a list of items. The text is pushed onto the
conversation as it is, while a list with one user message passes the ledger,
so the two forms only agree when the ledger has nothing to object to. -/
namespace Any2Api.Bridge

open Any2Api.Json OpenAiChat ConversationLedger InputAssembler

/-- The list form of a text input. -/
def userItem (text : String) : Value :=
  .obj [("role", .string "user"), ("content", .string text)]

/-- Both conversions fail, or both succeed with the same body and the same
conversation. -/
def Agree (first second : Except ProtocolError ConvertedRequest) : Prop :=
  match first, second with
  | .error _, .error _ => True
  | .ok first, .ok second =>
    first.body = second.body ∧ first.conversation = second.conversation
  | _, _ => False

theorem agree_refl (outcome : Except ProtocolError ConvertedRequest) : Agree outcome outcome := by
  cases outcome <;> simp [Agree]

theorem agree_error_right {outcome : Except ProtocolError ConvertedRequest}
    {error : ProtocolError} : Agree outcome (.error error) ↔ ∀ request, outcome ≠ .ok request := by
  cases outcome <;> simp [Agree]

/-! The two sources differ in their input only. -/

variable {profile : CompletionsProfile} {projection : ToolProjection} {platform : Platform}
  {upstreamModel text : String} {previous : List Value}

section Sources

variable {source other : Object}

theorem find?_keys_insert (fields : Object) {key : String} (value : Value)
    {unknown : String → Bool} (hKey : unknown key = false) :
    (fields.insert key value).keys.find? unknown = fields.keys.find? unknown := by
  induction fields with
  | nil => simp [Object.insert, Object.keys, SortedEntries.insert, hKey]
  | cons entry rest ih =>
    simp only [Object.insert, Object.keys, SortedEntries.insert] at ih ⊢
    split_ifs with hFirst hSame
    · simp [hKey]
    · simp [← hSame, hKey]
    · rw [List.map_cons, List.map_cons, List.find?_cons, List.find?_cons, ih]

/-- The input is a known field, and no check before it is read looks at it. -/
theorem validateSource_insert (fields : Object) (input : Value) :
    validateSource (fields.insert "input" input) = validateSource fields := by
  have hOther : ∀ key, key ≠ "input" →
      (fields.insert "input" input).get? key = fields.get? key := by
    intro key hKey
    simp [hKey]
  have hKnown : validateTopLevelFields (fields.insert "input" input) =
      validateTopLevelFields fields := by
    rw [validateTopLevelFields, find?_keys_insert fields input (by decide), validateTopLevelFields]
  simp only [validateSource, hKnown, rejectMultipleChoices,
    hOther "n" (by decide), hOther "prompt_cache_key" (by decide), hOther "include" (by decide),
    hOther "client_metadata" (by decide)]

section

variable (h : ∀ key, key ≠ "input" → source.get? key = other.get? key)
include h

theorem appendForwardedFields_congr {target : Object} :
    appendForwardedFields source profile target = appendForwardedFields other profile target := by
  have hPaths : ∀ path ∈ forwardedFields, path ≠ "input" := by decide
  unfold appendForwardedFields
  generalize forwardedFields = paths at hPaths
  induction paths generalizing target with
  | nil => rfl
  | cons path paths ih =>
    obtain ⟨hPath, hPaths⟩ := List.forall_mem_cons.mp hPaths
    have hHead : appendForwardedField source profile target path =
        appendForwardedField other profile target path := by
      simp only [appendForwardedField, h path hPath]
    simp only [List.foldlM_cons, hHead]
    congr 1
    funext next
    exact ih hPaths

theorem build_congr {upstreamModel : String} {messages : List Value} :
    build source upstreamModel profile messages projection =
      build other upstreamModel profile messages projection := by
  simp only [build, appendForwardedFields_congr h, appendStream, appendTokenLimit, appendReasoning,
    appendTextConfig, appendTools, appendToolChoice, h "max_output_tokens" (by decide),
    h "stream" (by decide), h "reasoning" (by decide), h "text" (by decide),
    h "tool_choice" (by decide), h "parallel_tool_calls" (by decide)]

theorem assemble_congr {upstreamModel : String} {conversation : List Value} :
    assemble platform profile source upstreamModel conversation projection =
      assemble platform profile other upstreamModel conversation projection := by
  simp only [assemble, h "instructions" (by decide)]
  congr 1
  funext instructions
  split
  · next hFirst =>
      rw [build_congr h] at hFirst
      split
      · next hSecond =>
          rw [hFirst] at hSecond
          cases hSecond
          rfl
      · next hSecond =>
          rw [hFirst] at hSecond
          cases hSecond
  · next hFirst =>
      rw [build_congr h] at hFirst
      split
      · next hSecond =>
          rw [hFirst] at hSecond
          cases hSecond
      · next hSecond =>
          rw [hFirst] at hSecond
          cases hSecond
          rfl

end

/-- The conversion of a body with some input: everything but the step that
reads the input is the same for all inputs. -/
theorem convert_input (platform : Platform) (fields : Object) (input : Value)
    (upstreamModel : String) (profile : CompletionsProfile) (previous : List Value)
    (previousProjection : Option ToolProjection) :
    convert platform ((Value.object fields).set "input" input) upstreamModel profile previous
        previousProjection = (do
      validateSource fields
      let projection ← (ToolProjection.new profile previousProjection).configure platform
        (fields.get? "tools")
      let (conversation, projection) ← appendInput platform profile (some input) previous projection
      assemble platform profile fields upstreamModel conversation projection) := by
  have hFields : ∀ key, key ≠ "input" →
      (fields.insert "input" input).get? key = fields.get? key := by
    intro key hKey
    simp [hKey]
  simp only [convert, Value.set, Value.asObject,
    validateSource_insert, hFields "tools" (by decide),
    assemble_congr hFields, Object.get?_insert, if_true]

end Sources

/-- A single user message goes through the assembler unchanged, if the ledger
accepts the conversation so far with nothing open. -/
theorem appendItems_userItem (platform : Platform) (profile : CompletionsProfile) (text : String)
    (previous : List Value) (projection : ToolProjection) :
    appendItems platform profile [userItem text] previous projection = (do
      let ledger ← fromMessages projection previous
      if ledger.isSettled then
        pure (previous ++ [plainMessage "user" (.string text)], projection)
      else throw (invalid "tool call has no matching output before the next model turn")) := by
  have hUser : InputAssembler.IsUserMessage profile (userItem text) (.string text) :=
    ⟨⟨_, rfl, .inl (by simp [itemType]), by simp,
      by simp [messageContent, convertContent]⟩⟩
  have hCollect : collectOutputCallIds [userItem text] = .ok .empty := rfl
  simp only [appendItems, hCollect, Except.ok_bind]
  cases hScan : fromMessages projection previous with
  | error error => rfl
  | ok ledger =>
    let start := new previous .empty ledger projection
    have hAppend : [userItem text].foldlM (append platform profile) start =
        .ok (.appendRegular (plainMessage "user" (.string text)) start) := by
      rw [List.foldlM_cons, append_userMessage platform profile hUser rfl rfl]
      rfl
    simp only [Except.ok_bind, start] at hAppend ⊢
    rw [hAppend, Except.ok_bind, finish_of_empty]
    · by_cases hSettled : ledger.isSettled <;> simp [appendRegular, new, hSettled, flushDeferred]
    · unfold appendRegular
      split <;> rfl
    · exact appendRegular_pendingReasoning _ _

/-- No call of the conversation is followed by anything else before its output,
and none is left open. -/
def SendsSettled (outcome : Except ProtocolError ConvertedRequest) : Prop :=
  ∀ request, outcome = .ok request →
    CallBatches.Settled (request.conversation.map messageEntry)

theorem assemble_sendsSettled {source : Object} {ledger : ConversationLedger}
    (hScan : fromMessages projection previous = .ok ledger) (hSettled : ledger.isSettled) :
    SendsSettled (assemble platform profile source upstreamModel
      (previous ++ [plainMessage "user" (.string text)]) projection) := by
  intro request hRequest
  rw [assemble_eq_ok hRequest]
  have hPlain : ∀ message ∈ [plainMessage "user" (.string text)], IsPlain message := by
    simpa using isPlain_plainMessage (by decide : "user" ≠ "tool") _
  have hNew := (fromMessages_append hScan).trans (scanMessages_plain hPlain hSettled)
  exact fromMessages_settled hNew hSettled

/-- A body that is accepted but for its input: its fields are known and valid, its tools
are configured as the projection, and its instructions and options can be translated. -/
structure Acceptable (platform : Platform) (profile : CompletionsProfile)
    (previousProjection : Option ToolProjection) (fields : Object) (projection : ToolProjection) :
    Prop where
  valid : validateSource fields = .ok ()
  configured : (ToolProjection.new profile previousProjection).configure platform
    (fields.get? "tools") = .ok projection
  instructions : ∀ value, fields.get? "instructions" = some value →
    ∃ text, textValue platform value = .ok text
  options : Translatable fields profile projection

/-- The forms after everything but the input has been read. -/
theorem assembled_forms_agree_iff {source : Object} :
    let textForm := assemble platform profile source upstreamModel
      (previous ++ [plainMessage "user" (.string text)]) projection
    let itemForm := (do
      let (conversation, projection) ← (do
        let ledger ← fromMessages projection previous
        if ledger.isSettled then
          pure (previous ++ [plainMessage "user" (.string text)], projection)
        else throw (invalid "tool call has no matching output before the next model turn"))
      assemble platform profile source upstreamModel conversation projection)
    (Agree textForm itemForm ∧ SendsSettled textForm ∧ SendsSettled itemForm) ↔
      ((∃ request, textForm = .ok request) →
        ∃ ledger, fromMessages projection previous = .ok ledger ∧ ledger.isSettled) := by
  intro textForm itemForm
  -- The ledger either accepts the conversation with nothing open, and the forms are the same, or
  -- the list form fails.
  by_cases hAccepted : ∃ ledger, fromMessages projection previous = .ok ledger ∧ ledger.isSettled
  · refine iff_of_true ?_ fun _ => hAccepted
    obtain ⟨ledger, hScan, hSettled⟩ := hAccepted
    have hSame : itemForm = textForm := by simp [itemForm, textForm, hScan, hSettled]
    have hSends : SendsSettled textForm := assemble_sendsSettled hScan hSettled
    rw [hSame]
    exact ⟨agree_refl _, hSends, hSends⟩
  · have hError : ∃ error, itemForm = .error error := by
      cases hScan : fromMessages projection previous with
      | error error => exact ⟨error, by simp [itemForm, hScan]⟩
      | ok ledger =>
        have hOpen : ledger.isSettled = false := by
          simpa using fun hSettled => hAccepted ⟨ledger, hScan, hSettled⟩
        exact ⟨_, by simp [itemForm, hScan, hOpen]; rfl⟩
    obtain ⟨error, hError⟩ := hError
    rw [hError, agree_error_right]
    constructor
    · rintro ⟨hNone, -⟩ ⟨request, hRequest⟩
      exact absurd hRequest (hNone request)
    · intro h
      have hNone : ∀ request, textForm ≠ .ok request := fun request hRequest =>
        hAccepted (h ⟨request, hRequest⟩)
      exact ⟨hNone, fun request hRequest => absurd hRequest (hNone request),
        fun request hRequest => by cases hRequest⟩

/-- The text form and the list form of an input have the same outcome, and send
only settled conversations, exactly when the body is not acceptable apart from its
input, or the ledger accepts the stored conversation under the configured tools
with no call open. -/
theorem text_and_item_agree_iff (platform : Platform) (body : Value) (text upstreamModel : String)
    (profile : CompletionsProfile) (previous : List Value)
    (previousProjection : Option ToolProjection) :
    let textForm := convert platform (body.set "input" (.string text)) upstreamModel profile
      previous previousProjection
    let itemForm := convert platform (body.set "input" (.array [userItem text])) upstreamModel
      profile previous previousProjection
    (Agree textForm itemForm ∧ SendsSettled textForm ∧ SendsSettled itemForm) ↔
      ∀ fields projection, body = .object fields →
        Acceptable platform profile previousProjection fields projection →
        ∃ ledger, fromMessages projection previous = .ok ledger ∧ ledger.isSettled := by
  cases body with
  | object fields =>
    simp only [convert_input, appendInput, appendItems_userItem]
    cases hValid : validateSource fields with
    | error error =>
      refine iff_of_true (by simp [Agree, SendsSettled]) fun other _ hBody hAcceptable => ?_
      cases hBody
      cases hAcceptable.valid.symm.trans hValid
    | ok _ =>
      cases hConfigured : (ToolProjection.new profile previousProjection).configure platform
          (Object.get? fields "tools") with
      | error error =>
        refine iff_of_true (by simp [Agree, SendsSettled]) fun other _ hBody hAcceptable => ?_
        cases hBody
        cases hAcceptable.configured.symm.trans hConfigured
      | ok projection =>
        refine assembled_forms_agree_iff.trans ?_
        rw [assemble_ok_iff]
        constructor
        · intro h other found hBody hAcceptable
          cases hBody
          cases hAcceptable.configured.symm.trans hConfigured
          exact h ⟨hAcceptable.instructions, hAcceptable.options⟩
        · rintro h ⟨hInstructions, hOptions⟩
          exact h fields projection rfl ⟨hValid, hConfigured, hInstructions, hOptions⟩
  | _ => simp [convert, Value.set, Value.asObject, Agree, SendsSettled]

/-- While a call waits for its output, the text form is accepted and its message
follows the call; the list form is rejected. -/
theorem text_input_after_open_call :
    ∃ projection request, declaredProjection = .ok projection ∧
      convert plainPlatform (Value.set (.obj []) "input" (.string "next")) "model" .currentOpenAi
        waitingConversation (some projection) = .ok request ∧
      request.conversation = waitingConversation ++ [plainMessage "user" (.string "next")] ∧
      convert plainPlatform (Value.set (.obj []) "input" (.array [userItem "next"])) "model"
        .currentOpenAi waitingConversation (some projection) =
          .error (invalid "tool call has no matching output before the next model turn") := by
  have hText : (do
      let projection ← declaredProjection
      let request ← convert plainPlatform (.set (.obj []) "input" (.string "next")) "model"
        .currentOpenAi waitingConversation (some projection)
      pure request.conversation) =
        .ok (waitingConversation ++ [plainMessage "user" (.string "next")]) := by decide +kernel
  have hItem : (do
      let projection ← declaredProjection
      let request ← convert plainPlatform (.set (.obj []) "input" (.array [userItem "next"]))
        "model" .currentOpenAi waitingConversation (some projection)
      pure request.conversation) =
        .error (invalid "tool call has no matching output before the next model turn") := by
    decide +kernel
  obtain ⟨projection, hProjection, hText⟩ := Except.of_bind hText
  obtain ⟨request, hRequest, hConversation⟩ := Except.of_bind hText
  refine ⟨projection, request, hProjection, hRequest, Except.ok.inj hConversation, ?_⟩
  rw [hProjection, Except.ok_bind] at hItem
  generalize convert plainPlatform _ _ _ _ _ = outcome at hItem
  cases outcome with
  | error error => simpa using hItem
  | ok found => cases hItem

end Any2Api.Bridge
