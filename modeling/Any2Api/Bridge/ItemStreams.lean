import Any2Api.Bridge.Translator
import Any2Api.Library.Multiplex

/-! The output items of a translated stream. Texts and tool calls own their
output index. Until an item is closed, the events under its index are those of
an open item with the content collected so far. -/
namespace Any2Api.Bridge

open Any2Api.Json OpenAiChat Multiplex

/-- Who writes under an output index. -/
inductive Owner where
  | text (channel : TextChannel)
  | tool (key : Nat)
  deriving DecidableEq

/-- The part of the translator state that is about items. -/
structure ItemView where
  responseId : String
  projection : ToolProjection
  texts : TextChannel → TextState
  tools : OrderedMap Nat ToolState
  next : Nat
  completed : List (Nat × Value)

def ChatToResponsesStream.texts (stream : ChatToResponsesStream) : TextChannel → TextState
  | .message => stream.message
  | .reasoning => stream.reasoning

def ChatToResponsesStream.view (stream : ChatToResponsesStream) : ItemView where
  responseId := stream.response.responseId
  projection := stream.projection
  texts := stream.texts
  tools := stream.tools
  next := stream.nextOutputIndex
  completed := stream.completedItems

section View

variable (stream : ChatToResponsesStream)

@[simp] theorem view_responseId : stream.view.responseId = stream.response.responseId := rfl

@[simp] theorem view_projection : stream.view.projection = stream.projection := rfl

@[simp] theorem view_tools : stream.view.tools = stream.tools := rfl

@[simp] theorem view_next : stream.view.next = stream.nextOutputIndex := rfl

@[simp] theorem view_completed : stream.view.completed = stream.completedItems := rfl

end View

/-! What a reader of the stream sees of one item. -/

/-- The announced item says what the completed one says, except for its
content. -/
def Announces (first item : Value) : Prop :=
  ∀ field ∉ ["status", "content", "summary", "arguments", "input"],
    first.get? field = item.get? field

/-- The member of a text item that holds its only part. -/
def TextChannel.listField : TextChannel → String
  | .message => "content"
  | .reasoning => "summary"

/-- The events of one item. Texts and calls are announced, filled by deltas
whose concatenation is the content of the completed item, and closed. A
tool search is announced and closed. -/
inductive ItemStream (item : Value) : List ItemEvent → Prop
  | text {channel : TextChannel} {itemId : String} {first : Value} {deltas : List String}
      (hFirst : Announces first item) (hId : item.get? "id" = some (.string itemId))
      (hContent : item.get? channel.listField = some (.array [channel.part (String.join deltas)])) :
      ItemStream item ([.added first, .partAdded channel itemId] ++
        deltas.map (.delta (.text channel) itemId) ++
        [.contentDone (.text channel) itemId (String.join deltas),
          .partDone channel itemId (channel.part (String.join deltas)), .done item])
  | call {channel : Channel} {itemId : String} {first : Value} {deltas : List String}
      (hChannel : channel = .function ∨ channel = .custom)
      (hFirst : Announces first item) (hId : item.get? "id" = some (.string itemId))
      (hContent : item.get? channel.contentField = some (.string (String.join deltas))) :
      ItemStream item ([.added first] ++ deltas.map (.delta channel itemId) ++
        [.contentDone channel itemId (String.join deltas), .done item])
  | toolSearch {first : Value} (hFirst : Announces first item)
      (hType : item.get? "type" = some (.string "tool_search_call")) :
      ItemStream item [.added first, .done item]

/-- The events of an item that is announced and not closed. -/
inductive OpenItemStream : List ItemEvent → Prop
  | text (channel : TextChannel) (itemId : String) (first : Value) (deltas : List String) :
      OpenItemStream ([.added first, .partAdded channel itemId] ++
        deltas.map (.delta (.text channel) itemId))
  | call (channel : Channel) (itemId : String) (first : Value) (deltas : List String) :
      OpenItemStream (.added first :: deltas.map (.delta channel itemId))

/-! Open items. -/

/-- The events of a text item that is not closed. -/
def openTextEvents (channel : TextChannel) (responseId : String) (deltas : List String) :
    List ItemEvent :=
  [.added (channel.openItem responseId), .partAdded channel (channel.itemId responseId)] ++
    deltas.map (.delta (.text channel) (channel.itemId responseId))

/-- A text that is not closed: without an item it is empty, and the item shows
what was collected. -/
structure OpenText (channel : TextChannel) (responseId : String) (state : TextState)
    (events : List ItemEvent) : Prop where
  notDone : state.done = false
  unopened : state.outputIndex = none → state.text = ""
  opened : state.outputIndex.isSome → state.text ≠ "" ∧ state.itemId = channel.itemId responseId ∧
    ∃ deltas, String.join deltas = state.text ∧ events = openTextEvents channel responseId deltas

/-- The identity of a call is known exactly when its kind and name are. -/
structure Resolved (projection : ToolProjection) (state : ToolState) : Prop where
  known : state.kind.isSome → state.name.isSome → state.identity.isSome
  active : ∀ identity, state.identity = some identity → ∃ kind name, state.kind = some kind ∧
    state.name = some name ∧ projection.activeIdentity kind name = .ok identity

/-- The item of a call shows the first `shown` characters of the payload. -/
structure Shows (responseId : String) (key : Nat) (state : ToolState) (events : List ItemEvent)
    (shown : Nat) : Prop where
  itemId : ToolState.itemIdOf responseId key state.identity = .ok state.itemId
  emitted : state.emittedPayload = shown
  bounded : shown ≤ state.payload.length
  deltas : ∃ channel first deltas, state.channel = some channel ∧ state.addedItem = .ok first ∧
    (String.join deltas).toList = state.payload.toList.take shown ∧
    events = .added first :: deltas.map (.delta channel state.itemId)

/-- A call that is not closed. Its item is announced as soon as the call can be
streamed, and then shows the whole payload. -/
structure OpenTool (projection : ToolProjection) (responseId : String) (key : Nat)
    (state : ToolState) (events : List ItemEvent) : Prop where
  notDone : state.done = false
  resolved : Resolved projection state
  unopened : state.outputIndex = none → state.emittedPayload = 0 ∧ state.streamable = false
  opened : state.outputIndex.isSome → state.callId.any (· ≠ "") ∧
    Shows responseId key state events state.payload.length

namespace ItemView

def slot (view : ItemView) : Owner → Option Nat
  | .text channel => (view.texts channel).outputIndex
  | .tool key => (view.tools.get? key).bind ToolState.outputIndex

/-- The item of an owner is not closed. -/
def Open (view : ItemView) (owner : Owner) (events : List ItemEvent) : Prop :=
  match owner with
  | .text channel => OpenText channel view.responseId (view.texts channel) events
  | .tool key => ∀ state, view.tools.get? key = some state →
      OpenTool view.projection view.responseId key state events

/-- Two views that differ at most in what one owner has. -/
structure SameElse (owner : Owner) (view after : ItemView) : Prop where
  responseId : after.responseId = view.responseId
  projection : after.projection = view.projection
  texts : ∀ channel, .text channel ≠ owner → after.texts channel = view.texts channel
  tools : ∀ key, .tool key ≠ owner → after.tools.get? key = view.tools.get? key

namespace SameElse

variable {owner other : Owner} {view after : ItemView}

theorem slot (h : SameElse owner view after) (hOther : other ≠ owner) :
    after.slot other = view.slot other := by
  cases other with
  | text channel => rw [ItemView.slot, ItemView.slot, h.texts channel hOther]
  | tool key => rw [ItemView.slot, ItemView.slot, h.tools key hOther]

theorem open_iff (h : SameElse owner view after) (hOther : other ≠ owner)
    (events : List ItemEvent) : after.Open other events ↔ view.Open other events := by
  cases other with
  | text channel => rw [Open, Open, h.texts channel hOther, h.responseId]
  | tool key => rw [Open, Open, h.tools key hOther, h.responseId, h.projection]

end SameElse

end ItemView

/-- The state of the items after `log` was emitted: the owners got their
indexes in this order, those in `closed` have delivered their item, and all
others are open. -/
structure Tracked (view : ItemView) (order : List Owner) (log : List (Nat × ItemEvent))
    (closed : List Owner) : Prop where
  slots : Slots order log
  slot : ∀ owner, view.slot owner = order.idxOf? owner
  next : view.next = order.length
  isOpen : ∀ owner ∉ closed, view.Open owner (trace order log owner)
  nodup : closed.Nodup
  completed : List.Forall₂ (fun owner entry => order.idxOf? owner = some entry.1 ∧
    ItemStream entry.2 (trace order log owner)) closed view.completed

namespace Tracked

variable {view after : ItemView} {order later : List Owner}
  {log longer : List (Nat × ItemEvent)} {closed : List Owner} {owner : Owner}
  {events : List ItemEvent}

section

variable (h : Tracked view order log closed)
include h

/-- A closed owner has an index. -/
theorem mem_order_of_closed (hOwner : owner ∈ closed) : owner ∈ order := by
  have hAll : ∀ other ∈ closed, (order.idxOf? other).isSome := by
    have hCompleted := h.completed
    generalize view.completed = entries at hCompleted
    clear h hOwner
    intro other hOther
    induction hCompleted with
    | nil => cases hOther
    | cons hHead _ ih =>
      rcases List.mem_cons.mp hOther with rfl | hTail
      · rw [hHead.1]
        rfl
      · exact ih hTail
  exact List.isSome_idxOf?.mp (hAll owner hOwner)

/-- What the closed items show is not touched by another owner. -/
theorem completed_of_writes (hOwner : owner ∉ closed)
    (hWrites : Writes owner events order log later longer) :
    List.Forall₂ (fun owner entry => later.idxOf? owner = some entry.1 ∧
      ItemStream entry.2 (trace later longer owner)) closed view.completed := by
  have hMem := (List.forall₂_and_left closed view.completed).mpr ⟨fun _ h => h, h.completed⟩
  refine hMem.imp fun other entry hEntry => ?_
  obtain ⟨hClosed, hIndex, hStream⟩ := hEntry
  have hOther : other ≠ owner := by
    rintro rfl
    exact hOwner hClosed
  rw [hWrites.idxOf?_of_ne other hOther, hWrites.trace_of_ne other hOther]
  exact ⟨hIndex, hStream⟩

theorem slot_of_writes
    (hElse : view.SameElse owner after) (hWrites : Writes owner events order log later longer)
    (hSlot : after.slot owner = later.idxOf? owner) (other : Owner) :
    after.slot other = later.idxOf? other := by
  by_cases hOther : other = owner
  · rw [hOther, hSlot]
  · rw [hElse.slot hOther, h.slot other, hWrites.idxOf?_of_ne other hOther]

/-- While nothing is closed, every index that was given out has the events of
an open item. -/
theorem openItemStream (hClosed : closed = []) {index : Nat} (hIndex : index < order.length) :
    OpenItemStream (channel log index) := by
  subst hClosed
  have hPlace : order.idxOf? order[index] = some index :=
    h.slots.idxOf?_eq_some_iff.mpr (List.getElem?_eq_getElem hIndex)
  have hOpen := h.isOpen order[index] (by simp)
  have hSlot := (h.slot order[index]).trans hPlace
  rw [trace_of_some hPlace] at hOpen
  cases hOwner : order[index] with
  | text channel =>
    rw [hOwner] at hOpen hSlot
    obtain ⟨-, -, deltas, -, hEvents⟩ := hOpen.opened (Option.isSome_of_eq_some hSlot)
    rw [hEvents]
    exact .text channel _ _ deltas
  | tool key =>
    rw [hOwner] at hOpen hSlot
    obtain ⟨state, hState, hSome⟩ := Option.bind_eq_some_iff.mp hSlot
    obtain ⟨-, hShows⟩ := (hOpen state hState).opened (Option.isSome_of_eq_some hSome)
    obtain ⟨channel, first, deltas, -, -, -, hEvents⟩ := hShows.deltas
    rw [hEvents]
    exact .call channel _ first deltas

/-- An open owner writes and stays open. -/
theorem write (hOwner : owner ∉ closed)
    (hElse : view.SameElse owner after) (hWrites : Writes owner events order log later longer)
    (hSlot : after.slot owner = later.idxOf? owner) (hNext : after.next = later.length)
    (hCompleted : after.completed = view.completed)
    (hOpen : after.Open owner (trace order log owner ++ events)) :
    Tracked after later longer closed := by
  refine ⟨hWrites.slots, h.slot_of_writes hElse hWrites hSlot, hNext, ?_, h.nodup,
    hCompleted ▸ h.completed_of_writes hOwner hWrites⟩
  intro other hOther
  by_cases hSame : other = owner
  · rw [hSame, hWrites.trace_self]
    exact hOpen
  · rw [hWrites.trace_of_ne other hSame, hElse.open_iff hSame]
    exact h.isOpen other hOther

/-- An open owner writes the rest of its item and delivers it. -/
theorem close (hOwner : owner ∉ closed)
    (hElse : view.SameElse owner after) (hWrites : Writes owner events order log later longer)
    {index : Nat} (hSlot : after.slot owner = some index)
    (hIndex : later.idxOf? owner = some index) (hNext : after.next = later.length) {item : Value}
    (hCompleted : after.completed = view.completed ++ [(index, item)])
    (hStream : ItemStream item (trace order log owner ++ events)) :
    Tracked after later longer (closed ++ [owner]) := by
  refine ⟨hWrites.slots, h.slot_of_writes hElse hWrites (hSlot.trans hIndex.symm), hNext, ?_,
    by simpa using h.nodup.concat hOwner, ?_⟩
  · intro other hOther
    rw [List.mem_append, List.mem_singleton, not_or] at hOther
    rw [hWrites.trace_of_ne other hOther.2, hElse.open_iff hOther.2]
    exact h.isOpen other hOther.1
  · rw [hCompleted]
    refine List.rel_append (h.completed_of_writes hOwner hWrites) ?_
    refine .cons ⟨hIndex, ?_⟩ .nil
    rwa [hWrites.trace_self]

end

end Tracked

end Any2Api.Bridge
