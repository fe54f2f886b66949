import Any2Api.Bridge.HistoryShape
import Any2Api.Bridge.StreamRun

/-! The shape of a translated stream. -/
namespace Any2Api.Bridge

open Any2Api.Json Any2Api.Stream Any2Api.Sse OpenAiChat Multiplex

namespace ChatToResponsesStream

variable {platform : Platform} {stream : ChatToResponsesStream}
  {emitted : List (Nat × StreamEvent)}

theorem terminalEvent_output (stream : ChatToResponsesStream) (reason : String) (usage : Value) :
    ∃ incomplete answer tokens, stream.terminalEvent reason usage =
        .finished incomplete answer tokens ∧
      answer.get? "output" = some (.array stream.sortedOutput) := by
  refine ⟨_, _, _, rfl, ?_⟩
  have hBase : (stream.streamResponse (responseStatus reason) stream.sortedOutput usage).get?
      "output" = some (.array stream.sortedOutput) := by
    rw [streamResponse, ResponseProjection.baseResponse_get? _ (by decide)]
    simp [ResponseProjection.plainResponse]
  rw [withIncompleteDetails]
  split
  · exact hBase
  · rw [Value.get?_set_of_ne _ _ (by decide)]
    exact hBase

/-- A finished stream: all items are closed before the terminal event, and its
response lists them in the order of their indexes. -/
theorem Ended.delivered (h : Ended platform emitted stream) :
    emitted.map Prod.fst = List.range emitted.length ∧
      ∃ opening items, ∃ order : List Owner, ∃ last : ChatToResponsesStream, ∃ reason usage,
        emitted.map Prod.snd = .created opening :: .inProgress opening ::
          (itemEvents items ++ [last.terminalEvent reason usage]) ∧
        Slots order items ∧
        List.Forall₂ (fun owner item => ItemStream item (trace order items owner)) order
          last.sortedOutput := by
  obtain ⟨running, earlier, step, hRunning, hFinish, rfl⟩ := h
  obtain ⟨order, log, hTracked, hShown⟩ := hRunning.shown
  obtain ⟨reason, closing, last, usage, numbered, hItems, hUpdate, -⟩ :=
    finish_eq_ok hFinish hRunning.completed
  obtain ⟨hStartView, hStartStatus, hOpening⟩ := ensureStarted_spec running
  obtain ⟨hEvents, hNumbers, -, -⟩ := update_eq_ok hUpdate
  have hFollowing : last.nextSequenceNumber = earlier.length := by
    have hStatus := (finishItems_status hItems).trans hStartStatus
    exact (congrArg Status.following hStatus).trans hRunning.following
  rw [← hStartView] at hTracked
  obtain ⟨later, closed, hClosed, hPerm⟩ := finishItems_tracked hTracked hItems
  obtain ⟨opening, hAll⟩ := hShown.append hOpening
  rw [hFollowing] at hNumbers
  refine ⟨numbered_append hRunning.numbered hNumbers hEvents, opening, log ++ closing, later, last,
    reason, usage, ?_, hClosed.slots, hClosed.slots.sorted_results hClosed.completed hPerm⟩
  rw [List.map_append, hEvents, ← List.append_assoc, hAll]
  rfl

/-- A translated stream is numbered from zero, and its last event is the only
terminal one. Without a reported failure two opening events come first, and
every item of the response has the events of exactly its output index: it is
announced, filled and closed there, and its deltas add up to its content. After
a reported failure the last event is an error; before it come nothing, or the
opening events and those of open items, which have the first indexes. -/
theorem translate_well_formed {platform : Platform} {response : ResponseProjection}
    {profile : CompletionsProfile} {projection : ToolProjection} {bytes : Nat}
    {source : List AdapterEvent} {emitted : List (Nat × StreamEvent)}
    {final : ChatToResponsesStream}
    (hRun : translate platform source (new response profile projection bytes) =
      .ok (emitted, final)) :
    emitted.map Prod.fst = List.range emitted.length ∧
      (((∀ event ∈ source, ¬ReportsFailure event) ∧
        ∃ opening items incomplete answer tokens output,
          emitted.map Prod.snd = .created opening :: .inProgress opening ::
            (itemEvents items ++ [.finished incomplete answer tokens]) ∧
          answer.get? "output" = some (.array output) ∧
          (∀ index item, output[index]? = some item → ItemStream item (channel items index)) ∧
          ∀ index, output.length ≤ index → channel items index = []) ∨
      ((∃ event ∈ source, ReportsFailure event) ∧
        ∃ heading items count code message param failure,
          emitted.map Prod.snd =
            heading ++ itemEvents items ++ [.failed code message param failure] ∧
          (heading = [] ∧ items = [] ∨
            ∃ opening, heading = [.created opening, .inProgress opening]) ∧
          (∀ index < count, OpenItemStream (channel items index)) ∧
          ∀ index, count ≤ index → channel items index = [])) := by
  rcases translate_ended (new_running response profile projection bytes) hRun with
    ⟨hQuiet, hEnded⟩ | ⟨hReported, hFailed⟩
  · obtain ⟨hNumbered, opening, items, order, last, reason, usage, hEvents, hSlots, hOutput⟩ :=
      hEnded.delivered
    obtain ⟨incomplete, answer, tokens, hTerminal, hAnswer⟩ :=
      terminalEvent_output last reason usage
    rw [hTerminal] at hEvents
    refine ⟨hNumbered, .inl ⟨hQuiet, opening, items, incomplete, answer, tokens, last.sortedOutput,
      hEvents, hAnswer, ?_, fun index hIndex => hSlots.silent index (hOutput.length_eq.trans_le
        hIndex)⟩⟩
    intro index item hItem
    obtain ⟨hIndex, rfl⟩ := List.getElem?_eq_some_iff.mp hItem
    have hOwner : index < order.length := hOutput.length_eq.symm ▸ hIndex
    have hStream := (List.forall₂_iff_get.mp hOutput).2 index hOwner hIndex
    rw [List.get_eq_getElem, List.get_eq_getElem, trace_of_some
      (hSlots.idxOf?_eq_some_iff.mpr (List.getElem?_eq_getElem hOwner))] at hStream
    exact hStream
  · obtain ⟨last, earlier, code, message, param, failure, hRunning, hEmitted⟩ := hFailed
    rw [List.nil_append] at hEmitted
    obtain ⟨order, items, hTracked, hShown⟩ := hRunning.shown
    refine ⟨?_, .inr ⟨hReported, ?_⟩⟩
    · rw [hEmitted]
      simp [hRunning.numbered, List.range_succ]
    have hOpen : ∀ index < order.length, OpenItemStream (channel items index) :=
      fun index hIndex => hTracked.openItemStream rfl hIndex
    rcases hShown with ⟨-, rfl, rfl⟩ | ⟨-, opening, hEvents⟩
    · exact ⟨[], [], order.length, code, message, param, failure, by rw [hEmitted]; rfl,
        .inl ⟨rfl, rfl⟩, hOpen, hTracked.slots.silent⟩
    · refine ⟨[.created opening, .inProgress opening], items, order.length, code, message, param,
        failure, ?_, .inr ⟨opening, rfl⟩, hOpen, hTracked.slots.silent⟩
      rw [hEmitted, List.map_append, hEvents]
      rfl

/-! A stream with a text and a call that comes in two fragments. -/

/-- A codec that knows the chunks of a script. -/
def scriptPlatform (script : List (String × Value)) : Platform :=
  ⟨fun _ => "{}", fun text => (script.find? (·.1 = text)).map Prod.snd, fun _ => []⟩

def scriptEvent (name : String) (termination : StreamTermination) : AdapterEvent :=
  ⟨[], .json ⟨none, textBytes name⟩, defaultTelemetry, termination, none⟩

def doneEvent : AdapterEvent := ⟨[], .done, defaultTelemetry, .completed, none⟩

def deltaChunk (delta : Value) (reason : Value) : Value :=
  .obj [("choices", .array [.obj [("index", .nat 0), ("delta", delta),
    ("finish_reason", reason)]])]

def sampleResponse : ResponseProjection := .new "r" 0 "m" (.obj [])

def sampleScript : List (String × Value) :=
  [("first", deltaChunk (.obj [("role", .string "assistant"), ("content", .string "Hello"),
      ("tool_calls", .array [.obj [("index", .nat 0), ("id", .string "c1"),
        ("type", .string "function"), ("function", .obj [("name", .string "f"),
          ("arguments", .string "\x7b")])]])]) .null),
    ("second", deltaChunk (.obj [("tool_calls", .array [.obj [("index", .nat 0),
      ("function", .obj [("arguments", .string "\x7d")])]])]) (.string "tool_calls")),
    ("failure", .obj [("error", .obj [("message", .string "overloaded")])])]

def sampleSource : List AdapterEvent :=
  [scriptEvent "first" .none, scriptEvent "second" .none, doneEvent]

def brokenSource : List AdapterEvent := [scriptEvent "first" .none, scriptEvent "failure" .failed]

/-- Both ends occur: the stream of the script has fourteen events, and a failure
after its first chunk is the eighth. -/
theorem translate_well_formed_sample :
    ∃ projection emitted broken final last, declaredProjection = .ok projection ∧
      translate (scriptPlatform sampleScript) sampleSource
        (new sampleResponse .currentOpenAi projection 0) = .ok (emitted, final) ∧
      translate (scriptPlatform sampleScript) brokenSource
        (new sampleResponse .currentOpenAi projection 0) = .ok (broken, last) ∧
      emitted.length = 14 ∧ emitted.map Prod.fst = List.range emitted.length ∧
      broken.length = 8 ∧ broken.map Prod.fst = List.range broken.length := by
  have hRun : (do
      let projection ← declaredProjection
      let result ← translate (scriptPlatform sampleScript) sampleSource
        (new sampleResponse .currentOpenAi projection 0)
      let failing ← translate (scriptPlatform sampleScript) brokenSource
        (new sampleResponse .currentOpenAi projection 0)
      pure (result.1.length, failing.1.length)) = .ok (14, 8) := by decide +kernel
  obtain ⟨projection, hProjection, hRun⟩ := Except.of_bind hRun
  obtain ⟨⟨emitted, final⟩, hTranslate, hRun⟩ := Except.of_bind hRun
  obtain ⟨⟨broken, last⟩, hBroken, hLengths⟩ := Except.of_bind hRun
  obtain ⟨hLength, hBrokenLength⟩ := Prod.mk.inj (Except.ok.inj hLengths)
  exact ⟨projection, emitted, broken, final, last, hProjection, hTranslate, hBroken, hLength,
    (translate_well_formed hTranslate).1, hBrokenLength, (translate_well_formed hBroken).1⟩

/-- The projection of a request that declares the client's tool search. -/
def searchProjection : Except ProtocolError ToolProjection :=
  (ToolProjection.new .currentOpenAi none).configure plainPlatform
    (some (.array [.obj [("type", .string "tool_search"), ("execution", .string "client"),
      ("description", .string "find tools"), ("parameters", .obj [("type", .string "object")])]]))

def searchScript : List (String × Value) :=
  [("call", deltaChunk (.obj [("role", .string "assistant"),
      ("tool_calls", .array [.obj [("index", .nat 0), ("id", .string "c1"),
        ("type", .string "function"), ("function", .obj [("name", .string "tool_search_"),
          ("arguments", .string "query")])]])]) (.string "tool_calls")),
    ("query", .obj [("query", .string "mail")])]

/-- The events of the first item. -/
def firstItemEvents (emitted : List (Nat × StreamEvent)) : List ItemEvent :=
  emitted.filterMap fun entry =>
    match entry.2 with
    | .item 0 event => some event
    | _ => none

/-- A failure that the target reports is passed on as the only event. A tool
search has arguments in its item and no deltas. -/
theorem failure_and_search_streams :
    (∃ projection emitted final, declaredProjection = .ok projection ∧
      translate (scriptPlatform sampleScript) [scriptEvent "failure" .failed]
        (new sampleResponse .currentOpenAi projection 0) = .ok (emitted, final) ∧
      emitted = [(0, .failed "upstream_error" "overloaded" .null none)]) ∧
    ∃ projection emitted final, searchProjection = .ok projection ∧
      translate (scriptPlatform searchScript) [scriptEvent "call" .none, doneEvent]
        (new sampleResponse .currentOpenAi projection 0) = .ok (emitted, final) ∧
      firstItemEvents emitted =
        [.added (restoredCallItem "r" "0" "c1" (.toolSearch (.obj [])) "in_progress"),
          .done (restoredCallItem "r" "0" "c1" (.toolSearch (.obj [("query", .string "mail")]))
            "completed")] := by
  constructor
  · have hRun : (do
        let projection ← declaredProjection
        let result ← translate (scriptPlatform sampleScript) [scriptEvent "failure" .failed]
          (new sampleResponse .currentOpenAi projection 0)
        pure result.1) = .ok [(0, .failed "upstream_error" "overloaded" .null none)] := by
      decide +kernel
    obtain ⟨projection, hProjection, hRun⟩ := Except.of_bind hRun
    obtain ⟨⟨emitted, final⟩, hTranslate, hEmitted⟩ := Except.of_bind hRun
    exact ⟨projection, emitted, final, hProjection, hTranslate, Except.ok.inj hEmitted⟩
  · have hRun : (do
        let projection ← searchProjection
        let result ← translate (scriptPlatform searchScript)
          [scriptEvent "call" .none, doneEvent] (new sampleResponse .currentOpenAi projection 0)
        pure (firstItemEvents result.1)) =
        .ok [.added (restoredCallItem "r" "0" "c1" (.toolSearch (.obj [])) "in_progress"),
          .done (restoredCallItem "r" "0" "c1" (.toolSearch (.obj [("query", .string "mail")]))
            "completed")] := by
      decide +kernel
    obtain ⟨projection, hProjection, hRun⟩ := Except.of_bind hRun
    obtain ⟨⟨emitted, final⟩, hTranslate, hEmitted⟩ := Except.of_bind hRun
    exact ⟨projection, emitted, final, hProjection, hTranslate, Except.ok.inj hEmitted⟩

end ChatToResponsesStream

end Any2Api.Bridge
