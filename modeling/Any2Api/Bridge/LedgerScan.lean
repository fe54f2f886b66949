import Any2Api.Library.Entries
import Any2Api.Bridge.History
import Any2Api.Bridge.ProjectionGrowth
import Any2Api.Library.CallBatches

/-! What it means that the ledger accepts a conversation: read as a transcript
of calls and answers it leaves only the calls of the last batch open. -/
namespace Any2Api.Bridge

open Any2Api.Json CallBatches

/-- The calls a message carries. -/
def messageCalls (message : Value) : List Value :=
  if isAssistant message then ((message.get? "tool_calls").bind Value.asArray).getD [] else []

def isToolMessage (message : Value) : Bool := message.get? "role" = some (.string "tool")

/-- Neither an output nor a message with calls. -/
def isRegular (message : Value) : Bool := !isToolMessage message && messageCalls message = []

def callId (call : Value) : Option String := (call.get? "id").bind Value.asStr

/-- A message as an entry of the transcript. -/
def messageEntry (message : Value) : Entry String :=
  if isToolMessage message then
    match (message.get? "tool_call_id").bind Value.asStr with
    | some id => .answer id
    | none => .malformed
  else
    match messageCalls message with
    | [] => .regular
    | calls =>
      match calls.mapM callId with
      | some ids => .calls ids
      | none => .malformed

namespace ConversationLedger

variable {projection : ToolProjection} {ledger next : ConversationLedger} {identity : ToolIdentity}
  {call message : Value} {id name : String} {messages : List Value} {later : ToolProjection}
  {calls : List Value} {middle : ConversationLedger}

theorem isSettled_iff : ledger.isSettled ↔ ledger.outstanding.domain = ∅ :=
  OrderedMap.isEmpty_iff

@[simp] theorem record_domain (callId : String) (identity : ToolIdentity) :
    (ledger.record callId identity).outstanding.domain =
      insert callId ledger.outstanding.domain := OrderedMap.domain_insert _ _ _

@[simp] theorem complete_domain (callId : String) :
    (ledger.complete callId).outstanding.domain = ledger.outstanding.domain.erase callId :=
  OrderedMap.domain_erase _ _

@[simp] theorem record_seen (callId : String) (identity : ToolIdentity) :
    (ledger.record callId identity).seenCalls = insert callId ledger.seenCalls := rfl

@[simp] theorem complete_seen (callId : String) :
    (ledger.complete callId).seenCalls = ledger.seenCalls := rfl

/-- Calls and answers of different ids can be taken in either order. -/
theorem complete_record {call answer : String} (h : call ≠ answer) (identity : ToolIdentity) :
    (ledger.record call identity).complete answer =
      (ledger.complete answer).record call identity := by
  simp only [record, complete, mk.injEq, true_and]
  exact OrderedMap.insert_erase_comm _ h identity

theorem addCall_eq_ok {call : String} :
    ledger.addCall call identity = .ok next ↔
      call ∉ ledger.seenCalls ∧ next = ledger.record call identity := by
  unfold addCall
  split_ifs with h <;> simp [h, eq_comm]

/-- A call that was read has its id, and its tool is known. -/
theorem readCall_eq_ok (h : readCall projection call = .ok (id, identity)) :
    callId call = some id ∧ ∃ tool, projection.chatToOriginal.get? tool = some identity := by
  cases call with
  | object fields =>
    obtain ⟨found, hId, h⟩ := Except.of_bind h
    obtain ⟨⟨kind, payload⟩, -, h⟩ := Except.of_bind h
    obtain ⟨name, -, h⟩ := Except.of_bind h
    obtain ⟨known, hKnown, h⟩ := Except.of_bind h
    cases h
    refine ⟨?_, ⟨kind, name⟩, ?_⟩
    · simp [callId, (requiredString_eq_ok.mp hId).1, Value.asStr]
    · unfold ToolProjection.knownIdentity at hKnown
      split at hKnown
      · next hTool => exact (Except.ok.inj hKnown) ▸ hTool
      · cases hKnown
  | _ => cases h

theorem readCall_grows (hGrows : projection.Grows later)
    {result : String × ToolIdentity} (h : readCall projection call = .ok result) :
    readCall later call = .ok result := by
  cases call with
  | object fields =>
    obtain ⟨found, hId, h⟩ := Except.of_bind h
    obtain ⟨⟨kind, payload⟩, hKind, h⟩ := Except.of_bind h
    obtain ⟨name, hName, h⟩ := Except.of_bind h
    obtain ⟨known, hKnown, h⟩ := Except.of_bind h
    refine Except.bind_eq_ok_iff.mpr ⟨found, hId, ?_⟩
    refine Except.bind_eq_ok_iff.mpr ⟨⟨kind, payload⟩, hKind, ?_⟩
    refine Except.bind_eq_ok_iff.mpr ⟨name, hName, ?_⟩
    refine Except.bind_eq_ok_iff.mpr ⟨known, ?_, h⟩
    unfold ToolProjection.knownIdentity at hKnown ⊢
    split at hKnown
    · next hTool =>
        rw [hGrows.tools _ _ hTool]
        exact hKnown
    · cases hKnown
  | _ => cases h

theorem readCall_functionCall {arguments : String} (hName : name ≠ "") (hId : id ≠ "")
    (hKnown : projection.chatToOriginal.get? ⟨.function, name⟩ = some identity) :
    readCall projection ((functionCall name arguments).set "id" (.string id)) =
      .ok (id, identity) := by
  simp [readCall, functionCall, Value.obj, Value.set, Value.asObject, assistantCall, requiredString,
    Value.asStr, Value.get?, ToolProjection.knownIdentity, hName, hId, hKnown]

theorem readCall_customCall {input : String} (hName : name ≠ "") (hId : id ≠ "")
    (hKnown : projection.chatToOriginal.get? ⟨.custom, name⟩ = some identity) :
    readCall projection ((customCall name input).set "id" (.string id)) = .ok (id, identity) := by
  simp [readCall, customCall, Value.obj, Value.set, Value.asObject, assistantCall, requiredString,
    Value.asStr, Value.get?, ToolProjection.knownIdentity, hName, hId, hKnown]

/-- A call that was projected is read back as the same call. -/
theorem readCall_chatCall {platform : Platform} {object : Object} {kind : SourceCallKind}
    (hConsistent : projection.Consistent) (hIdentity : sourceIdentity object kind = .ok identity)
    (hName : projection.originalToChat.get? identity = some name)
    (hCall : chatCall platform projection.profile object kind identity name = .ok call)
    (hId : id ≠ "") :
    readCall projection (call.set "id" (.string id)) = .ok (id, identity) := by
  have hKnown := hConsistent identity name hName
  have hNonempty := projection.coherent.named identity name hName
  have hKind := sourceIdentity_kind hIdentity
  cases kind with
  | function =>
    obtain ⟨arguments, -, hCall⟩ := Except.of_bind hCall
    cases hCall
    rw [identity.chatKind_plain _ (by simp [hKind])] at hKnown
    exact readCall_functionCall hNonempty hId hKnown
  | custom =>
    obtain ⟨input, -, hCall⟩ := Except.of_bind hCall
    cases hCall
    split_ifs with hCustom
    · rw [hCustom] at hKnown
      exact readCall_customCall hNonempty hId hKnown
    · have hFunction : identity.chatKind projection.profile = .function := by
        cases hChat : identity.chatKind projection.profile with
        | function => rfl
        | custom => exact absurd hChat hCustom
      rw [hFunction] at hKnown
      exact readCall_functionCall hNonempty hId hKnown
  | toolSearch =>
    obtain ⟨execution, -, hCall⟩ := Except.of_bind hCall
    split_ifs at hCall
    split at hCall
    · cases hCall
    · cases hCall
      rw [identity.chatKind_plain _ (by simp [hKind])] at hKnown
      exact readCall_functionCall hNonempty hId hKnown

theorem scanCall_eq_ok (h : scanCall projection ledger call = .ok next) :
    ∃ id identity, readCall projection call = .ok (id, identity) ∧ id ∉ ledger.seenCalls ∧
      next = ledger.record id identity := by
  obtain ⟨⟨id, identity⟩, hRead, hAdd⟩ := Except.of_bind h
  exact ⟨id, identity, hRead, addCall_eq_ok.mp hAdd⟩

theorem scanCall_of_read
    (hRead : readCall projection call = .ok (id, identity)) (hNew : id ∉ ledger.seenCalls) :
    scanCall projection ledger call = .ok (ledger.record id identity) :=
  Except.bind_eq_ok_iff.mpr ⟨(id, identity), hRead, addCall_eq_ok.mpr ⟨hNew, rfl⟩⟩

/-- The calls of a message have distinct new ids, which are then open. -/
theorem scanCalls_ids (h : calls.foldlM (scanCall projection) ledger = .ok next) :
    ∃ ids, calls.mapM callId = some ids ∧ ids.Nodup ∧ (∀ id ∈ ids, id ∉ ledger.seenCalls) ∧
      next.seenCalls = ledger.seenCalls ∪ ids.toFinset ∧
      next.outstanding.domain = ledger.outstanding.domain ∪ ids.toFinset := by
  induction calls generalizing ledger with
  | nil =>
    cases h
    exact ⟨[], rfl, List.nodup_nil, by simp, by simp, by simp⟩
  | cons call calls ih =>
    rw [List.foldlM_cons] at h
    obtain ⟨middle, hCall, hCalls⟩ := Except.of_bind h
    obtain ⟨id, identity, hRead, hNew, rfl⟩ := scanCall_eq_ok hCall
    obtain ⟨ids, hIds, hNodup, hFresh, hSeen, hDomain⟩ := ih hCalls
    have hFreshId : id ∉ ids := fun hMem => hFresh id hMem (Finset.mem_insert_self _ _)
    refine ⟨id :: ids, ?_, List.nodup_cons.mpr ⟨hFreshId, hNodup⟩, ?_, ?_, ?_⟩
    · simp [List.mapM_cons, (readCall_eq_ok hRead).1, hIds]
    · intro other hOther
      rcases List.mem_cons.mp hOther with rfl | hOther
      · exact hNew
      · exact fun hSeenOther => hFresh other hOther (Finset.mem_insert_of_mem hSeenOther)
    · rw [hSeen, List.toFinset_cons]
      simp
    · rw [hDomain, List.toFinset_cons]
      simp

/-- The three ways in which the ledger accepts a message. -/
inductive Scanned (projection : ToolProjection) (ledger : ConversationLedger) (message : Value) :
    ConversationLedger → Prop where
  | regular (hTool : isToolMessage message = false) (hCalls : messageCalls message = [])
      (hSettled : ledger.isSettled) : Scanned projection ledger message ledger
  | calls {next : ConversationLedger} (hTool : isToolMessage message = false)
      (hAssistant : isAssistant message) (hSettled : ledger.isSettled) (calls : List Value)
      (hCalls : message.get? "tool_calls" = some (.array calls)) (hNonempty : calls ≠ [])
      (hScan : calls.foldlM (scanCall projection) ledger = .ok next) :
      Scanned projection ledger message next
  | answer (hTool : isToolMessage message) (id : String)
      (hId : message.get? "tool_call_id" = some (.string id)) (hNonempty : id ≠ "")
      (hOpen : id ∈ ledger.outstanding.domain) :
      Scanned projection ledger message (ledger.complete id)

theorem scanned_of_scanMessage (h : scanMessage projection ledger message = .ok next) :
    Scanned projection ledger message next := by
  cases message with
  | object fields =>
    simp only [scanMessage, Value.asObject] at h
    split at h
    · next hRole =>
        have hRole := Value.bind_asStr_eq_some.mp hRole
        split_ifs at h with hOpen
        have hSettled : ledger.isSettled := by simpa using hOpen
        split at h
        · next hNone =>
            cases h
            refine .regular ?_ ?_ hSettled <;>
              simp [isToolMessage, messageCalls, isAssistant, hRole, hNone]
        · next member hMember =>
            unfold scanAssistantCalls at h
            split at h
            · cases h
            · next calls hCalls =>
                cases Value.asArray_eq_some.mp hCalls
                by_cases hNonempty : calls = []
                · subst hNonempty
                  cases h
                  refine .regular ?_ ?_ hSettled <;>
                    simp [isToolMessage, messageCalls, isAssistant, hRole, hMember, Value.asArray]
                · refine .calls ?_ ?_ hSettled calls hMember hNonempty h <;>
                    simp [isToolMessage, isAssistant, hRole]
    · next hRole =>
        have hRole := Value.bind_asStr_eq_some.mp hRole
        obtain ⟨id, hId, h⟩ := Except.of_bind h
        obtain ⟨hId, hNonempty⟩ := requiredString_eq_ok.mp hId
        split at h
        · cases h
        · next hOpen =>
            cases h
            refine .answer ?_ id hId hNonempty ?_
            · simp [isToolMessage, hRole]
            · rw [OrderedMap.mem_domain, hOpen]
              rfl
    · next role hAssistant hTool hRole =>
        have hRole := Value.bind_asStr_eq_some.mp hRole
        split_ifs at h with hSettled
        cases h
        refine .regular ?_ ?_ hSettled
        · simpa [isToolMessage, hRole] using hTool
        · simpa [messageCalls, isAssistant, hRole] using fun h => (hAssistant h).elim
    · cases h
  | _ => cases h

/-- The ledger refines the transcript automaton. -/
theorem scanMessage_step (h : scanMessage projection ledger message = .ok next) :
    step ledger.outstanding.domain (messageEntry message) = some next.outstanding.domain := by
  cases scanned_of_scanMessage h with
  | regular hTool hCalls hSettled =>
    simp [messageEntry, hTool, hCalls, step, isSettled_iff.mp hSettled]
  | calls hTool hAssistant hSettled calls hCalls hNonempty hScan =>
    obtain ⟨ids, hIds, hNodup, -, -, hDomain⟩ := scanCalls_ids hScan
    have hMessage : messageCalls message = calls := by
      simp [messageCalls, hAssistant, hCalls, Value.asArray]
    have hEntry : messageEntry message = .calls ids := by
      cases calls with
      | nil => exact absurd rfl hNonempty
      | cons call calls => simp [messageEntry, hTool, hMessage, hIds]
    simp [hEntry, step, hDomain, isSettled_iff.mp hSettled, hNodup]
  | answer hTool id hId hNonempty hOpen =>
    simp [messageEntry, hTool, hId, Value.asStr, step, hOpen]

theorem scanMessages_step (h : messages.foldlM (scanMessage projection) ledger = .ok next) :
    (messages.map messageEntry).foldlM step ledger.outstanding.domain =
      some next.outstanding.domain := by
  induction messages generalizing ledger with
  | nil =>
    cases h
    rfl
  | cons message messages ih =>
    rw [List.foldlM_cons] at h
    obtain ⟨middle, hMessage, hRest⟩ := Except.of_bind h
    rw [List.map_cons, List.foldlM_cons, scanMessage_step hMessage]
    exact ih hRest

/-- An accepted conversation with no open call is settled. -/
theorem fromMessages_settled
    (h : fromMessages projection messages = .ok ledger) (hSettled : ledger.isSettled) :
    Settled (messages.map messageEntry) := by
  apply settled_of_foldlM
  have hScan : messages.foldlM (scanMessage projection) empty = .ok ledger := h
  have hStep := scanMessages_step hScan
  rwa [isSettled_iff.mp hSettled] at hStep

theorem scanCall_grows (hGrows : projection.Grows later)
    (h : scanCall projection ledger call = .ok next) : scanCall later ledger call = .ok next := by
  obtain ⟨result, hRead, hAdd⟩ := Except.of_bind h
  exact Except.bind_eq_ok_iff.mpr ⟨result, readCall_grows hGrows hRead, hAdd⟩

theorem scanMessage_grows (hGrows : projection.Grows later)
    (h : scanMessage projection ledger message = .ok next) :
    scanMessage later ledger message = .ok next := by
  unfold scanMessage at h ⊢
  split at h
  · cases h
  · split at h
    · split_ifs at h ⊢ with hSettled
      split at h
      · exact h
      · unfold scanAssistantCalls at h ⊢
        split at h
        · cases h
        · exact Except.foldlM_mono (fun _ _ _ => scanCall_grows hGrows) h
    all_goals exact h

theorem fromMessages_grows (hGrows : projection.Grows later)
    (h : fromMessages projection messages = .ok ledger) :
    fromMessages later messages = .ok ledger :=
  Except.foldlM_mono (fun _ _ _ => scanMessage_grows hGrows) h

theorem fromMessages_append {front rest : List Value}
    (hFront : fromMessages projection front = .ok middle) :
    fromMessages projection (front ++ rest) = rest.foldlM (scanMessage projection) middle := by
  unfold fromMessages at *
  rw [List.foldlM_append, hFront]
  rfl

theorem scanMessage_regular {role : String} (hSettled : ledger.isSettled)
    (hRole : message.get? "role" = some (.string role)) (hTool : role ≠ "tool")
    (hCalls : message.get? "tool_calls" = none) :
    scanMessage projection ledger message = .ok ledger := by
  cases message with
  | object fields =>
    rw [Value.get?_object] at hRole hCalls
    simp only [scanMessage, Value.asObject, hRole, Option.bind_some, Value.asStr, hSettled]
    split
    · simp [hCalls]
    · simp_all
    · rfl
    · simp_all
  | _ => cases hRole

theorem scanMessage_calls (hSettled : ledger.isSettled) (hAssistant : isAssistant message)
    (hCalls : message.get? "tool_calls" = some (.array calls)) :
    scanMessage projection ledger message = calls.foldlM (scanCall projection) ledger := by
  cases message with
  | object fields =>
    have hRole : Object.get? fields "role" = some (.string "assistant") :=
      of_decide_eq_true hAssistant
    rw [Value.get?_object] at hCalls
    simp [scanMessage, Value.asObject, hRole, Value.asStr, hSettled, hCalls, scanAssistantCalls,
      Value.asArray]
  | _ => cases hCalls

theorem scanMessage_answer (hTool : isToolMessage message)
    (hId : message.get? "tool_call_id" = some (.string id)) (hNonempty : id ≠ "")
    (hOpen : id ∈ ledger.outstanding.domain) :
    scanMessage projection ledger message = .ok (ledger.complete id) := by
  cases message with
  | object fields =>
    have hRole : Object.get? fields "role" = some (.string "tool") := of_decide_eq_true hTool
    obtain ⟨identity, hIdentity⟩ := Option.isSome_iff_exists.mp (OrderedMap.mem_domain.mp hOpen)
    have hRead : requiredString (Object.get? fields "tool_call_id") "tool message tool_call_id" =
        .ok id := requiredString_eq_ok.mpr ⟨hId, hNonempty⟩
    simp [scanMessage, Value.asObject, hRole, Value.asStr, scanToolOutput, hRead, hIdentity]
  | _ => cases hId

/-! Calls that join an open batch. -/

theorem scanCalls_complete {answer : String} (hOpen : answer ∈ ledger.outstanding.domain)
    (h : calls.foldlM (scanCall projection) (ledger.complete answer) = .ok next) :
    ∃ joined, calls.foldlM (scanCall projection) ledger = .ok joined ∧
      answer ∈ joined.outstanding.domain ∧ joined.complete answer = next := by
  induction calls generalizing ledger with
  | nil =>
    cases h
    exact ⟨ledger, rfl, hOpen, rfl⟩
  | cons call calls ih =>
    rw [List.foldlM_cons] at h
    obtain ⟨middle, hCall, hCalls⟩ := Except.of_bind h
    obtain ⟨id, identity, hRead, hNew, rfl⟩ := scanCall_eq_ok hCall
    rw [complete_seen] at hNew
    have hOther : id ≠ answer := by
      rintro rfl
      exact hNew (ledger.outstanding_seen hOpen)
    rw [← complete_record hOther] at hCalls
    obtain ⟨joined, hJoined, hStill, rfl⟩ := ih (by simp [hOpen]) hCalls
    refine ⟨joined, ?_, hStill, rfl⟩
    rw [List.foldlM_cons, scanCall_of_read hRead hNew]
    exact hJoined

/-- Calls that come after answers may as well come before them. -/
theorem scanCalls_before_answers {answers calls : List Value}
    (hTools : ∀ answer ∈ answers, isToolMessage answer)
    (hAnswers : answers.foldlM (scanMessage projection) ledger = .ok middle)
    (hCalls : calls.foldlM (scanCall projection) middle = .ok next) :
    ∃ joined, calls.foldlM (scanCall projection) ledger = .ok joined ∧
      answers.foldlM (scanMessage projection) joined = .ok next := by
  induction answers generalizing ledger with
  | nil =>
    cases hAnswers
    exact ⟨next, hCalls, rfl⟩
  | cons answer answers ih =>
    obtain ⟨hTool, hTools⟩ := List.forall_mem_cons.mp hTools
    rw [List.foldlM_cons] at hAnswers
    obtain ⟨first, hFirst, hRest⟩ := Except.of_bind hAnswers
    obtain ⟨joined, hJoined, hAfter⟩ := ih hTools hRest
    cases scanned_of_scanMessage hFirst with
    | regular hOther | calls hOther => simp [hTool] at hOther
    | answer _ id hId hNonempty hOpen =>
      obtain ⟨earlier, hEarlier, hStill, rfl⟩ := scanCalls_complete hOpen hJoined
      refine ⟨earlier, hEarlier, ?_⟩
      rw [List.foldlM_cons, scanMessage_answer hTool hId hNonempty hStill]
      exact hAfter

/-- A conversation whose last batch of calls is still open. -/
structure OpenBatch (projection : ToolProjection) (messages : List Value)
    (ledger : ConversationLedger) where
  front : List Value
  message : Value
  answers : List Value
  calls : List Value
  before : ConversationLedger
  after : ConversationLedger
  messages_eq : messages = front ++ message :: answers
  front_scan : fromMessages projection front = .ok before
  before_settled : before.isSettled
  assistant : isAssistant message
  calls_eq : message.get? "tool_calls" = some (.array calls)
  calls_nonempty : calls ≠ []
  calls_scan : calls.foldlM (scanCall projection) before = .ok after
  answers_tool : ∀ answer ∈ answers, isToolMessage answer
  answers_scan : answers.foldlM (scanMessage projection) after = .ok ledger

/-- A conversation that is accepted with open calls ends in an open batch. -/
theorem openBatch_of_unsettled
    (h : fromMessages projection messages = .ok ledger) (hOpen : ¬ledger.isSettled) :
    Nonempty (OpenBatch projection messages ledger) := by
  induction messages using List.reverseRecOn generalizing ledger with
  | nil =>
    cases h
    exact absurd rfl hOpen
  | append_singleton front message ih =>
    unfold fromMessages at h
    rw [List.foldlM_append] at h
    obtain ⟨before, hFront, hLast⟩ := Except.of_bind h
    have hScan : scanMessage projection before message = .ok ledger := by
      simpa [List.foldlM_cons] using hLast
    cases scanned_of_scanMessage hScan with
    | regular hTool hCalls hSettled => exact absurd hSettled hOpen
    | calls hTool hAssistant hSettled calls hCalls hNonempty hScanned =>
      exact ⟨front, message, [], calls, before, ledger, rfl, hFront, hSettled, hAssistant,
        hCalls, hNonempty, hScanned, by simp, rfl⟩
    | answer hTool id hId hNonempty hStill =>
      have hBefore : ¬before.isSettled := by
        intro hSettled
        rw [isSettled_iff.mp hSettled] at hStill
        cases hStill
      obtain ⟨batch⟩ := ih hFront hBefore
      have hEq : front ++ [message] =
          batch.front ++ batch.message :: (batch.answers ++ [message]) := by
        simpa using congrArg (· ++ [message]) batch.messages_eq
      have hTools : ∀ answer ∈ batch.answers ++ [message], isToolMessage answer :=
        Entries.forall_mem_concat batch.answers_tool hTool
      have hAnswers : (batch.answers ++ [message]).foldlM (scanMessage projection)
          batch.after = .ok (before.complete id) := by
        rw [List.foldlM_append, batch.answers_scan]
        simpa [List.foldlM_cons] using hScan
      exact ⟨{ batch with
        answers := batch.answers ++ [message]
        messages_eq := hEq
        answers_tool := hTools
        answers_scan := hAnswers }⟩

namespace OpenBatch

variable {messages : List Value}

/-- The message of the batch is the last one of the assistant. -/
theorem lastIndex (batch : OpenBatch projection messages ledger) :
    lastIndex? isAssistant messages = some batch.front.length := by
  refine (congrArg (lastIndex? isAssistant) batch.messages_eq).trans ?_
  refine lastIndex?_append batch.assistant fun answer hAnswer => ?_
  have hRole := of_decide_eq_true (batch.answers_tool answer hAnswer)
  simp [isAssistant, hRole]

/-- New calls may join the batch: the ledger then accepts the conversation
with the larger message in its place. -/
theorem join (batch : OpenBatch projection messages ledger) {message : Value}
    (hCalls : calls.foldlM (scanCall projection) ledger = .ok next)
    (hAssistant : isAssistant message)
    (hMessage : message.get? "tool_calls" = some (.array (batch.calls ++ calls))) :
    fromMessages projection (batch.front ++ message :: batch.answers) = .ok next := by
  obtain ⟨joined, hJoined, hAnswers⟩ :=
    scanCalls_before_answers batch.answers_tool batch.answers_scan hCalls
  rw [fromMessages_append batch.front_scan, List.foldlM_cons,
    scanMessage_calls batch.before_settled hAssistant hMessage, List.foldlM_append,
    batch.calls_scan]
  exact Except.bind_eq_ok_iff.mpr ⟨joined, hJoined, hAnswers⟩

end OpenBatch

end ConversationLedger

end Any2Api.Bridge
