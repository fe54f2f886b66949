import Any2Api.Sse.PayloadBuffer

/-! Parsing of one complete frame into its event name and data, and the
classification of the data. Slices of the frame allocation are modelled by
their bytes. -/
namespace Any2Api.Sse

/-- A validated JSON payload with the event name of its frame. -/
structure SseJsonData where
  eventName : Option Bytes
  data : Bytes
  deriving DecidableEq

inductive SseEventPayload where
  | empty
  | done
  | nonJson
  | json (data : SseJsonData)
  deriving DecidableEq

/-- An event as its consumer sees it. -/
structure Dispatch where
  name : Option Bytes
  data : Bytes
  deriving DecidableEq

/-- The line at the start of `bytes` without its terminator, and the bytes
after the terminator. LF, CR LF and a bare CR all end a line. -/
def nextLine : Bytes → Bytes × Bytes
  | [] => ([], [])
  | byte :: rest =>
    if byte = 10 then ([], rest)
    else if byte = 13 then ([], if rest.head? = some 10 then rest.tail else rest)
    else (byte :: (nextLine rest).1, (nextLine rest).2)

/-- Split `field: value`: at most one leading space of the value is removed, a
line without a colon is a field with an empty value, and comment or blank
lines yield no field at all. -/
def fieldValue (line : Bytes) : Option (Bytes × Bytes) :=
  if line = [] ∨ line.head? = some 58 then none
  else
    let (nameEnd, valueStart) := match line.findIdx? (· = 58) with
      | some colon => (colon, colon + 1)
      | none => (line.length, line.length)
    let valueStart := if (line)[valueStart]? = some 32 then valueStart + 1 else valueStart
    some (line.take nameEnd, line.drop valueStart)

/-- The bytes of an ASCII literal. -/
def asciiBytes (text : String) : Bytes := text.toList.map fun char => char.toNat.toUInt8

/-- The fields collected while the lines of a frame are scanned. -/
structure FrameFields where
  eventName : Option Bytes
  firstData : Option Bytes
  extraData : List Bytes
  deriving DecidableEq

namespace FrameFields

def empty : FrameFields := ⟨none, none, []⟩

def eventField : Bytes := asciiBytes "event"

def dataField : Bytes := asciiBytes "data"

def observeLine (fields : FrameFields) (line : Bytes) : FrameFields :=
  match fieldValue line with
  | some (name, value) =>
    if name = eventField then { fields with eventName := some value }
    else if name = dataField then
      if fields.firstData = none then { fields with firstData := some value }
      else { fields with extraData := fields.extraData ++ [value] }
    else fields
  | none => fields

end FrameFields

/-- The scan of a frame, line by line. Every line consumes a byte, so the
length of the frame is enough fuel. -/
def scanFields : Nat → Bytes → FrameFields → FrameFields
  | 0, _, fields => fields
  | fuel + 1, bytes, fields =>
    if bytes = [] then fields
    else scanFields fuel (nextLine bytes).2 (fields.observeLine (nextLine bytes).1)

def isAsciiWhitespace (byte : UInt8) : Bool :=
  byte = 32 || byte = 9 || byte = 10 || byte = 12 || byte = 13

def trimAscii (bytes : Bytes) : Bytes :=
  ((bytes.dropWhile isAsciiWhitespace).reverse.dropWhile isAsciiWhitespace).reverse

def doneSentinel : Bytes := asciiBytes "[DONE]"

def eventAllocationError : ProtocolError := .internal "SSE event allocation failed"

/-- Append one piece to the joined data. -/
def appendPiece (joined : PayloadBuffer) (piece : Bytes) : Except ProtocolError PayloadBuffer :=
  match joined.extendFromSlice piece with
  | .ok joined => .ok joined
  | .error _ => .error eventAllocationError

/-- Several data lines are joined by LF in a buffer of exactly their length. -/
def joinData (first : Bytes) (extra : List Bytes) : Except ProtocolError Bytes := do
  let joinedLen := extra.foldl (fun total line => total + 1 + line.length) first.length
  let joined ← appendPiece (PayloadBuffer.new joinedLen) first
  let joined ← extra.foldlM (fun joined line => do
    appendPiece (← appendPiece joined [10]) line) joined
  return joined.contents

/-- The event name and the data of a frame, if it carries data. A lone data
line is used as it is; an empty one counts as no data. -/
def frameEvent (frame : Bytes) : Except ProtocolError (Option Dispatch) :=
  let fields := scanFields frame.length frame FrameFields.empty
  match fields.firstData with
  | none => .ok none
  | some first =>
    if fields.extraData = [] then
      if first = [] then .ok none else .ok (some ⟨fields.eventName, first⟩)
    else do
      let joined ← joinData first fields.extraData
      return some ⟨fields.eventName, joined⟩

section Classification

-- Acceptance of a text by the JSON parser, which is not modelled.
variable (isJsonText : String → Bool)

def classifyData (eventName : Option Bytes) (data : Bytes) : SseEventPayload :=
  if trimAscii data = doneSentinel then .done
  else
    match String.fromUTF8? data.toByteArray with
    | none => .nonJson
    | some text => if isJsonText text then .json ⟨eventName, data⟩ else .nonJson

def parseEventPayload (frame : Bytes) : Except ProtocolError SseEventPayload := do
  match ← frameEvent frame with
  | none => return .empty
  | some event => return classifyData isJsonText event.name event.data

end Classification

end Any2Api.Sse
