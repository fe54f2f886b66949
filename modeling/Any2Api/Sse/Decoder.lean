import Any2Api.Sse.PayloadBuffer

/-! The incremental server-sent-event frame decoder. A frame ends after two
consecutive line endings. A carriage return counts as a bare line ending only
once the byte after it is known, because it may start a CR LF pair. -/
namespace Any2Api.Sse

/-- Length of the line ending that starts at `index`, if there is one. -/
def lineEndingLen (bytes : Bytes) (index : Nat) : Option Nat :=
  match bytes[index]? with
  | some 10 => some 1
  | some 13 =>
    match bytes[index + 1]? with
    | some 10 => some 2
    | some _ => some 1
    | none => none
  | _ => none

/-- Position after the first pair of adjacent line endings, scanning first
positions from `start` on. -/
def findEventEnd (bytes : Bytes) (start : Nat) : Option Nat :=
  (List.range' (min start bytes.length) (bytes.length - min start bytes.length)).findSome?
    fun index =>
      (lineEndingLen bytes index).bind fun first =>
        (lineEndingLen bytes (index + first)).map fun second => index + first + second

/-- The decoder joins the last three buffered bytes to the first four new
ones, so a blank line split over the boundary is still found. -/
def eventEndAfterAppend (buffer input : Bytes) : Option Nat :=
  let tail := buffer.drop (buffer.length - 3)
  let front := input.take 4
  let crossing := ((findEventEnd (tail ++ front) 0).filter (tail.length ≤ ·)).map (· - tail.length)
  match crossing, findEventEnd input 0 with
  | some left, some right => some (min left right)
  | some position, none => some position
  | none, some position => some position
  | none, none => none

/-- The buffer accepts one byte more than the largest frame, which is how an
oversized frame becomes visible. -/
structure SseDecoder where
  buffer : PayloadBuffer
  maxFrameBytes : Nat
  frameReady : Bool
  limit : buffer.maxLen = maxFrameBytes + 1
  deriving DecidableEq

namespace SseDecoder

def emptyBuffer (maxFrameBytes : Nat) : PayloadBuffer := PayloadBuffer.new (maxFrameBytes + 1)

def new (maxFrameBytes : Nat) : SseDecoder :=
  ⟨emptyBuffer (max maxFrameBytes 1), max maxFrameBytes 1, false, rfl⟩

def frameLimitError : ProtocolError :=
  .invalidPayload "SSE frame exceeded the configured limit"

def bufferError : ProtocolError := .internal "SSE frame allocation failed"

variable (decoder : SseDecoder)

def nextInputLimit : Nat :=
  if decoder.frameReady then 0 else decoder.maxFrameBytes - decoder.buffer.len + 1

/-- Consume at most one frame prefix of `chunk` and report how much. Consuming
nothing means that a trailing bare CR became a complete delimiter. -/
def push (chunk : Bytes) : Except ProtocolError (Nat × SseDecoder) :=
  if chunk.isEmpty ∨ decoder.frameReady then .ok (0, decoder)
  else
    let input := chunk.take (min decoder.nextInputLimit chunk.length)
    let eventEnd := eventEndAfterAppend decoder.buffer.contents input
    let consumed := eventEnd.getD input.length
    match h : decoder.buffer.extendFromSlice (input.take consumed) with
    | .error _ => .error bufferError
    | .ok buffer =>
      .ok (consumed, ⟨buffer, decoder.maxFrameBytes, eventEnd.isSome,
        (PayloadBuffer.extendFromSlice_maxLen h).trans decoder.limit⟩)

def checkBufferLimit : Except ProtocolError Unit :=
  if decoder.maxFrameBytes < decoder.buffer.len then .error frameLimitError else .ok ()

/-- Hand out the buffered bytes and start an empty buffer. -/
def takeBuffer : Bytes × SseDecoder :=
  (decoder.buffer.contents,
    ⟨emptyBuffer decoder.maxFrameBytes, decoder.maxFrameBytes, false, rfl⟩)

def nextFrame : Except ProtocolError (Option Bytes × SseDecoder) :=
  match decoder.checkBufferLimit with
  | .error error => .error error
  | .ok () =>
    if decoder.frameReady then .ok (some decoder.takeBuffer.1, decoder.takeBuffer.2)
    else .ok (none, decoder)

def finish : Except ProtocolError (Option Bytes × SseDecoder) :=
  if decoder.buffer.isEmpty then .ok (none, decoder)
  else
    match decoder.checkBufferLimit with
    | .error error => .error error
    | .ok () => .ok (some decoder.takeBuffer.1, decoder.takeBuffer.2)

end SseDecoder

end Any2Api.Sse
