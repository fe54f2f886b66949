import Any2Api.Library.Runs
import Any2Api.Runtime.Domain

/-! The way of a telemetry record: producers reserve room for it and send it through a channel,
control operations send a command through the same channel, and a writer collects records in a
batch and hands them to storage. Every update of a counter is a step of its own. -/
namespace Any2Api.Runtime.Telemetry

open Runs

inductive TelemetryQueueClass where
  | regular
  | gatewayAuthRejected
  deriving DecidableEq

inductive TelemetryEvent where
  /-- A request of an OAuth account has a sequence. -/
  | requestLog (sequence : Option Nat)
  | httpAccessLog (gatewayAuthRejected : Bool)
  | gatewayKeyLastUsed
  | clearHttpAccessLogs
  /-- The flush for a position that has been read. -/
  | quotaFlush (position : Nat)
  deriving DecidableEq

namespace TelemetryEvent

def recordCount : TelemetryEvent → Nat
  | .requestLog _ | .httpAccessLog _ | .gatewayKeyLastUsed => 1
  | .clearHttpAccessLogs | .quotaFlush _ => 0

def queueClass : TelemetryEvent → TelemetryQueueClass
  | .httpAccessLog true => .gatewayAuthRejected
  | _ => .regular

end TelemetryEvent

structure TelemetryEnvelope where
  event : TelemetryEvent
  ownedBytes : Nat
  /-- The producer, or the control operation. -/
  author : Nat
  deriving DecidableEq

/-- The counters that go up and down. -/
inductive Gauge where
  | queueSlots
  | gatewayAuthRejectedQueueSlots
  | ownedBytes
  | gatewayAuthRejectedOwnedBytes
  | queuedRecords
  | inFlightRecords
  deriving DecidableEq

abbrev Entry := Gauge × Nat

/-- The counters of the source have 64 bits and `fetch_add` wraps around. The gauges stay below
their limits, which have that width, or count what is in memory, and the totals would need more
records than can be offered; so additions are modelled without a bound. -/
structure TelemetryCounters where
  gauges : Gauge → Nat
  droppedRecords : Nat
  persistedRecords : Nat
  /-- A subtraction has gone below zero. -/
  underflow : Bool

namespace TelemetryCounters

def zero : TelemetryCounters := ⟨fun _ => 0, 0, 0, false⟩

variable (counters : TelemetryCounters)

def add (entry : Entry) : TelemetryCounters :=
  { counters with
    gauges := Function.update counters.gauges entry.1 (counters.gauges entry.1 + entry.2) }

/-- `fetch_sub` wraps around. -/
def subtract (entry : Entry) : TelemetryCounters :=
  let previous := counters.gauges entry.1
  { counters with
    gauges := Function.update counters.gauges entry.1
      (if entry.2 ≤ previous then previous - entry.2 else previous + wordSize - entry.2)
    underflow := counters.underflow || decide (previous < entry.2) }

def set (gauge : Gauge) (value : Nat) : TelemetryCounters :=
  { counters with gauges := Function.update counters.gauges gauge value }

def addDropped (records : Nat) : TelemetryCounters :=
  { counters with droppedRecords := counters.droppedRecords + records }

def addPersisted (records : Nat) : TelemetryCounters :=
  { counters with persistedRecords := counters.persistedRecords + records }

end TelemetryCounters

/-- A reservation that `try_reserve` makes, and its limit. -/
structure Reservation where
  gauge : Gauge
  limit : Nat
  amount : Nat
  deriving DecidableEq

def gatewayAuthRejectedCapacity (total : Nat) : Nat :=
  let capacity := total / 4
  if capacity = 0 then 1 else capacity

/-- The reservations of `try_reserve`, in their order. One that fails undoes those before it in
the opposite order. -/
def reservations (capacity maxBytes ownedBytes : Nat) : TelemetryQueueClass → List Reservation
  | .regular => [⟨.queueSlots, capacity, 1⟩, ⟨.ownedBytes, maxBytes, ownedBytes⟩]
  | .gatewayAuthRejected =>
    [⟨.gatewayAuthRejectedQueueSlots, gatewayAuthRejectedCapacity capacity, 1⟩,
      ⟨.queueSlots, capacity, 1⟩,
      ⟨.gatewayAuthRejectedOwnedBytes, gatewayAuthRejectedCapacity maxBytes, ownedBytes⟩,
      ⟨.ownedBytes, maxBytes, ownedBytes⟩]

def gatewayAuthRejectedSlot : TelemetryQueueClass → List Entry
  | .regular => []
  | .gatewayAuthRejected => [(.gatewayAuthRejectedQueueSlots, 1)]

/-- What `release_owned_bytes` subtracts. -/
def releaseOwnedBytes (ownedBytes : Nat) : TelemetryQueueClass → List Entry
  | .regular => [(.ownedBytes, ownedBytes)]
  | .gatewayAuthRejected =>
    [(.ownedBytes, ownedBytes), (.gatewayAuthRejectedOwnedBytes, ownedBytes)]

/-- What `received` subtracts. -/
def received (records : Nat) (queueClass : TelemetryQueueClass) : List Entry :=
  [(.queuedRecords, records), (.queueSlots, 1)] ++ gatewayAuthRejectedSlot queueClass

/-- What `send_failed` subtracts. -/
def sendFailed (records ownedBytes : Nat) (queueClass : TelemetryQueueClass) : List Entry :=
  received records queueClass ++ releaseOwnedBytes ownedBytes queueClass

/-- What `persisted` and `storage_failed` subtract. -/
def finished (records ownedBytes rejectedOwnedBytes : Nat) : List Entry :=
  [(.inFlightRecords, records), (.ownedBytes, ownedBytes),
    (.gatewayAuthRejectedOwnedBytes, rejectedOwnedBytes)]

inductive RecordKind where
  | oauthRequest
  | request
  | httpAccess (gatewayAuthRejected : Bool)
  | gatewayKey
  deriving DecidableEq

/-- Where a call of `try_send_event`, with the sequence of `try_record_oauth`, is. -/
inductive ProducerStage where
  | offered
  /-- The sequence is assigned and its lock held. -/
  | sequenced
  /-- The reservations that are left. -/
  | reserving (rest : List Reservation)
  | rollingBack
  /-- The record is not admitted. -/
  | rejecting
  | enqueued
  /-- `try_send` has failed. -/
  | failing
  | releasing
  | done (accepted : Bool)
  deriving DecidableEq

structure Producer where
  kind : RecordKind
  sequence : Option Nat
  ownedBytes : Nat
  capacity : Nat
  maxBytes : Nat
  stage : ProducerStage
  /-- What the call has added to the counters and still has to undo or hand over. -/
  held : List Entry
  deriving DecidableEq

namespace Producer

def event (producer : Producer) : TelemetryEvent :=
  match producer.kind with
  | .oauthRequest | .request => .requestLog producer.sequence
  | .httpAccess rejected => .httpAccessLog rejected
  | .gatewayKey => .gatewayKeyLastUsed

def envelope (producer : Producer) (index : Nat) : TelemetryEnvelope :=
  ⟨producer.event, producer.ownedBytes, index⟩

/-- The call does not have the sender, which can be taken then. -/
def outside (producer : Producer) : Bool :=
  match producer.stage with
  | .offered | .sequenced | .done _ => true
  | _ => false

end Producer

inductive ControlStage where
  | started
  /-- The position is read. -/
  | observed
  /-- The operation has a clone of the sender. -/
  | cloned
  | permitted
  /-- `reserve_control_slot` is done and the permit not used yet. -/
  | slotted
  | sent
  | replied
  | failed
  deriving DecidableEq

inductive ControlKind where
  | clearHttpAccessLogs
  | quotaObservation
  deriving DecidableEq

structure Control where
  kind : ControlKind
  position : Nat
  stage : ControlStage
  deriving DecidableEq

namespace Control

def event (control : Control) : TelemetryEvent :=
  match control.kind with
  | .clearHttpAccessLogs => .clearHttpAccessLogs
  | .quotaObservation => .quotaFlush control.position

def envelope (control : Control) (index : Nat) : TelemetryEnvelope := ⟨control.event, 0, index⟩

/-- The operation has a clone of the sender, which keeps the channel open. -/
def hasSender (control : Control) : Bool :=
  match control.stage with
  | .cloned | .permitted | .slotted => true
  | _ => false

end Control

inductive BatchKind where
  | requestLogs
  | httpAccessLogs
  | gatewayUsage
  deriving DecidableEq

/-- What the writer does after a flush. -/
inductive AfterFlush where
  | endBatch
  | reply (control received : Nat)
  deriving DecidableEq

inductive WriterPhase where
  | idle
  /-- The next event of a batch, after so many. -/
  | batching (count : Nat)
  /-- An event is taken from the channel. -/
  | counting (envelope : TelemetryEnvelope) (count : Nat)
  | releasing (envelope : TelemetryEnvelope) (count : Nat)
  | flushing (rest : List BatchKind) (after : AfterFlush)
  | appending (kind : BatchKind) (rest : List BatchKind) (after : AfterFlush)
  | settling (rest : List BatchKind) (after : AfterFlush)
  | stopped
  deriving DecidableEq

/-- Where `writer_stopped` is, with what it has taken from the counters. -/
inductive StopStage where
  | running
  | swapQueued
  | swapInFlight (lost : Nat)
  | clearing (rest : List Gauge) (lost : Nat)
  | stopped
  deriving DecidableEq

structure TelemetryState where
  counters : TelemetryCounters
  producers : List Producer
  controls : List Control
  channel : List TelemetryEnvelope
  batch : BatchKind → List TelemetryEnvelope
  writer : WriterPhase
  /-- What the writer has still to subtract. -/
  writerHeld : List Entry
  quotaSequence : Nat
  /-- The producer that holds the lock of the sequence. -/
  sequenceHolder : Option Nat
  senderTaken : Bool
  stop : StopStage
  /-- The records that have been counted, and whether as persisted. -/
  fates : List (Nat × Bool)

inductive TelemetryLabel where
  | offer (kind : RecordKind) (ownedBytes capacity maxBytes : Nat)
  | assign (producer : Nat)
  | enter (producer : Nat)
  | reserve (producer : Nat)
  | rollBack (producer : Nat)
  | reject (producer : Nat)
  | enqueue (producer : Nat)
  | send (producer : Nat) (ok : Bool)
  | dropFailed (producer : Nat)
  | release (producer : Nat)
  | request (kind : ControlKind)
  | observe (control : Nat)
  | clone (control : Nat)
  | reservePermit (control : Nat)
  | reserveControlSlot (control : Nat)
  | sendControl (control : Nat)
  | receive
  | countReceived
  | releaseReceived
  | deliver
  /-- The interval is over, the batch is full or the channel closed. -/
  | endBatch
  | flush
  | append (ok : Bool)
  | settle
  | afterFlush
  /-- `recv` returns nothing. -/
  | finish
  | abort
  | takeSender
  | writerStopped
  deriving DecidableEq

namespace BatchKind

def all : List BatchKind := [.requestLogs, .httpAccessLogs, .gatewayUsage]

def ofEvent : TelemetryEvent → Option BatchKind
  | .requestLog _ => some .requestLogs
  | .httpAccessLog _ => some .httpAccessLogs
  | .gatewayKeyLastUsed => some .gatewayUsage
  | .clearHttpAccessLogs | .quotaFlush _ => none

end BatchKind

def writeBatchSize : Nat := 64

def sumOwnedBytes (records : List TelemetryEnvelope) : Nat :=
  (records.map (·.ownedBytes)).sum

/-- Only the batch of access logs counts the bytes of rejected requests. -/
def rejectedOwnedBytes (records : List TelemetryEnvelope) : BatchKind → Nat
  | .httpAccessLogs =>
    sumOwnedBytes (records.filter fun record =>
      decide (record.event.queueClass = .gatewayAuthRejected))
  | .requestLogs | .gatewayUsage => 0

namespace TelemetryState

def initial : TelemetryState where
  counters := .zero
  producers := []
  controls := []
  channel := []
  batch := fun _ => []
  writer := .idle
  writerHeld := []
  quotaSequence := 0
  sequenceHolder := none
  senderTaken := false
  stop := .running
  fates := []

variable (state : TelemetryState) (index : Nat)

def setProducer (producer : Producer) : TelemetryState :=
  { state with producers := state.producers.set index producer }

def setControl (control : Control) : TelemetryState :=
  { state with controls := state.controls.set index control }

/-- The call returns and releases the lock of the sequence if it has it. -/
def finishProducer (producer : Producer) (accepted : Bool) : TelemetryState :=
  let sequenceHolder :=
    if producer.kind = .oauthRequest then none else state.sequenceHolder
  { state with sequenceHolder }.setProducer index
    { producer with stage := .done accepted, held := [] }

def dropRecord : TelemetryState :=
  { state with
    counters := state.counters.addDropped 1
    fates := state.fates ++ [(index, false)] }

def produce (producer : Producer) : TelemetryLabel → Option TelemetryState
  | .assign _ =>
    if producer.kind = .oauthRequest ∧ producer.stage = .offered ∧ state.sequenceHolder = none then
      some ({ state with
        quotaSequence := state.quotaSequence + 1
        sequenceHolder := some index }.setProducer index
          { producer with sequence := some (state.quotaSequence + 1), stage := .sequenced })
    else
      none
  | .enter _ =>
    if producer.stage =
        (if producer.kind = .oauthRequest then .sequenced else ProducerStage.offered) then
      some (state.setProducer index { producer with
        stage :=
          if state.senderTaken then .rejecting
          else .reserving (reservations producer.capacity producer.maxBytes producer.ownedBytes
            producer.event.queueClass) })
    else
      none
  | .reserve _ =>
    match producer.stage with
    | .reserving (reservation :: rest) =>
      if state.counters.gauges reservation.gauge + reservation.amount ≤ reservation.limit then
        let entry : Entry := (reservation.gauge, reservation.amount)
        some ({ state with counters := state.counters.add entry }.setProducer index
          { producer with stage := .reserving rest, held := entry :: producer.held })
      else
        some (state.setProducer index { producer with stage := .rollingBack })
    | _ => none
  | .rollBack _ =>
    match producer.stage, producer.held with
    | .rollingBack, entry :: held =>
      some ({ state with counters := state.counters.subtract entry }.setProducer index
        { producer with held })
    | .rollingBack, [] => some (state.setProducer index { producer with stage := .rejecting })
    | _, _ => none
  | .reject _ =>
    if producer.stage = .rejecting then
      some ((state.dropRecord index).finishProducer index producer false)
    else
      none
  | .enqueue _ =>
    if producer.stage = .reserving [] then
      let entry : Entry := (.queuedRecords, 1)
      some ({ state with counters := state.counters.add entry }.setProducer index
        { producer with stage := .enqueued, held := entry :: producer.held })
    else
      none
  | .send _ ok =>
    if producer.stage = .enqueued then
      if ok then
        if state.writer = .stopped then none
        else
          some ({ state with
            channel := state.channel ++ [producer.envelope index] }.finishProducer index
              producer true)
      else
        some (state.setProducer index { producer with stage := .failing })
    else
      none
  | .dropFailed _ =>
    if producer.stage = .failing then
      some ((state.dropRecord index).setProducer index { producer with
        stage := .releasing
        held := sendFailed 1 producer.ownedBytes producer.event.queueClass })
    else
      none
  | .release _ =>
    match producer.stage, producer.held with
    | .releasing, entry :: held =>
      some ({ state with counters := state.counters.subtract entry }.setProducer index
        { producer with held })
    | .releasing, [] => some (state.finishProducer index producer false)
    | _, _ => none
  | _ => none

def control (control : Control) : TelemetryLabel → Option TelemetryState
  | .observe _ =>
    if control.kind = .quotaObservation ∧ control.stage = .started ∧
        state.sequenceHolder = none then
      some (state.setControl index
        { control with stage := .observed, position := state.quotaSequence })
    else
      none
  | .clone _ =>
    if control.stage =
        (if control.kind = .quotaObservation then .observed else ControlStage.started) then
      some (state.setControl index
        { control with stage := if state.senderTaken then .failed else .cloned })
    else
      none
  | .reservePermit _ =>
    if control.stage = .cloned then
      some (state.setControl index
        { control with stage := if state.writer = .stopped then .failed else .permitted })
    else
      none
  | .reserveControlSlot _ =>
    if control.stage = .permitted then
      some ({ state with counters := state.counters.add (.queueSlots, 1) }.setControl index
        { control with stage := .slotted })
    else
      none
  | .sendControl _ =>
    if control.stage = .slotted then
      some ({ state with
        channel := state.channel ++ [control.envelope index] }.setControl index
          { control with stage := .sent })
    else
      none
  | _ => none

/-- The events of a batch go to the batch of their kind; a command flushes first. -/
def deliver (envelope : TelemetryEnvelope) (count : Nat) : TelemetryState :=
  match BatchKind.ofEvent envelope.event with
  | some kind =>
    { state with
      batch := Function.update state.batch kind (state.batch kind ++ [envelope])
      writer := .batching (count + 1) }
  | none =>
    { state with writer := .flushing BatchKind.all (.reply envelope.author (count + 1)) }

def append (kind : BatchKind) (rest : List BatchKind)
    (after : AfterFlush) (ok : Bool) : TelemetryState :=
  let records := state.batch kind
  { state with
    counters :=
      if ok then state.counters.addPersisted records.length
      else state.counters.addDropped records.length
    batch := Function.update state.batch kind []
    writer := .settling rest after
    writerHeld := finished records.length (sumOwnedBytes records) (rejectedOwnedBytes records kind)
    fates := state.fates ++ records.map fun record => (record.author, ok) }

def write : TelemetryLabel → Option TelemetryState
  | .receive =>
    match state.writer, state.channel with
    | .idle, envelope :: channel =>
      some { state with channel, writer := .counting envelope 0 }
    | .batching count, envelope :: channel =>
      if count < writeBatchSize then
        some { state with channel, writer := .counting envelope count }
      else
        none
    | _, _ => none
  | .countReceived =>
    match state.writer with
    | .counting envelope count =>
      let event := envelope.event
      some { state with
        counters := state.counters.add (.inFlightRecords, event.recordCount)
        writerHeld := received event.recordCount event.queueClass
        writer := .releasing envelope count }
    | _ => none
  | .releaseReceived =>
    match state.writer, state.writerHeld with
    | .releasing _ _, entry :: writerHeld =>
      some { state with counters := state.counters.subtract entry, writerHeld }
    | _, _ => none
  | .deliver =>
    match state.writer, state.writerHeld with
    | .releasing envelope count, [] => some (state.deliver envelope count)
    | _, _ => none
  | .endBatch =>
    match state.writer with
    | .batching _ => some { state with writer := .flushing BatchKind.all .endBatch }
    | _ => none
  | .flush =>
    match state.writer with
    | .flushing (kind :: rest) after =>
      -- An empty batch is not handed to storage.
      some { state with
        writer :=
          if state.batch kind = [] then .flushing rest after else .appending kind rest after }
    | _ => none
  | .append ok =>
    match state.writer with
    | .appending kind rest after => some (state.append kind rest after ok)
    | _ => none
  | .settle =>
    match state.writer, state.writerHeld with
    | .settling _ _, entry :: writerHeld =>
      some { state with counters := state.counters.subtract entry, writerHeld }
    | .settling rest after, [] => some { state with writer := .flushing rest after }
    | _, _ => none
  | .afterFlush =>
    match state.writer with
    | .flushing [] .endBatch => some { state with writer := .idle }
    | .flushing [] (.reply index count) => do
        let control ← state.controls[index]?
        some ({ state with writer := .batching count }.setControl index
          { control with stage := .replied })
    | _ => none
  | .finish =>
    if state.writer = .idle ∧ state.channel = [] ∧ state.senderTaken = true ∧
        state.controls.all (! ·.hasSender) = true then
      some { state with writer := .stopped }
    else
      none
  | .abort =>
    -- The task is dropped where it awaits.
    match state.writer with
    | .idle | .batching _ | .flushing _ _ | .appending _ _ _ =>
      some { state with writer := .stopped }
    | _ => none
  | _ => none

/-- The records that are in the channel and in the batch. -/
def unfinished : List TelemetryEnvelope :=
  state.channel.filter (fun envelope => decide (envelope.event.recordCount = 1)) ++
    BatchKind.all.flatMap state.batch

def stopWriter : Option TelemetryState :=
  match state.stop with
  | .running =>
    if state.writer = .stopped ∧ state.senderTaken = true then
      some { state with stop := .swapQueued }
    else
      none
  | .swapQueued =>
    some { state with
      counters := state.counters.set .queuedRecords 0
      stop := .swapInFlight (state.counters.gauges .queuedRecords) }
  | .swapInFlight lost =>
    some { state with
      counters := state.counters.set .inFlightRecords 0
      stop := .clearing [.ownedBytes, .queueSlots, .gatewayAuthRejectedQueueSlots,
        .gatewayAuthRejectedOwnedBytes] (lost + state.counters.gauges .inFlightRecords) }
  | .clearing (gauge :: rest) lost =>
    some { state with counters := state.counters.set gauge 0, stop := .clearing rest lost }
  | .clearing [] lost =>
    some { state with
      counters := state.counters.addDropped lost
      channel := []
      batch := fun _ => []
      stop := .stopped
      fates := state.fates ++ state.unfinished.map fun record => (record.author, false) }
  | .stopped => none

def step (label : TelemetryLabel) : Option TelemetryState :=
  match label with
  | .offer kind ownedBytes capacity maxBytes =>
    some { state with
      producers := state.producers ++ [⟨kind, none, ownedBytes, capacity, maxBytes, .offered, []⟩] }
  | .assign index | .enter index | .reserve index | .rollBack index | .reject index
  | .enqueue index | .send index _ | .dropFailed index | .release index => do
      let producer ← state.producers[index]?
      state.produce index producer label
  | .request kind => some { state with controls := state.controls ++ [⟨kind, 0, .started⟩] }
  | .observe index | .clone index | .reservePermit index | .reserveControlSlot index
  | .sendControl index => do
      let control ← state.controls[index]?
      state.control index control label
  | .receive | .countReceived | .releaseReceived | .deliver | .endBatch | .flush | .append _
  | .settle | .afterFlush | .finish | .abort => state.write label
  | .takeSender =>
    if state.producers.all Producer.outside then some { state with senderTaken := true } else none
  | .writerStopped => state.stopWriter

end TelemetryState

end Any2Api.Runtime.Telemetry
