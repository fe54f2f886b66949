import Any2Api.Library.Entries
import Any2Api.Runtime.Telemetry.Pipeline

/-! The steps of the pipeline one by one: what a producer, a control operation and the writer can
do, and in which of their stages. -/
namespace Any2Api.Runtime.Telemetry

/-- The writer is at a point where it awaits, and can end there. -/
def WriterPhase.awaits : WriterPhase → Bool
  | .idle | .batching _ | .flushing _ _ | .appending _ _ _ => true
  | _ => false

namespace TelemetryState

variable {state base next : TelemetryState} {index : Nat} {producer changed : Producer}
  {operation : Control} {label : TelemetryLabel}

variable (state) (index) (producer) in
/-- What a producer does: how it changes and what it does to the rest of the state. -/
inductive Produces : TelemetryLabel → TelemetryState → Producer → Prop where
  | assign {actor : Nat} : producer.kind = .oauthRequest → state.sequenceHolder = none →
      producer.stage = .offered → Produces (.assign actor)
        { state with
          quotaSequence := state.quotaSequence + 1
          sequenceHolder := some index }
        { producer with sequence := some (state.quotaSequence + 1), stage := .sequenced }
  | findNoSender {actor : Nat} : state.senderTaken = true →
      producer.stage =
        (if producer.kind = .oauthRequest then .sequenced else ProducerStage.offered) →
      Produces (.enter actor) state { producer with stage := .rejecting }
  | findSender {actor : Nat} : state.senderTaken = false →
      producer.stage =
        (if producer.kind = .oauthRequest then .sequenced else ProducerStage.offered) →
      Produces (.enter actor) state
        { producer with
          stage := .reserving (reservations producer.capacity producer.maxBytes
            producer.ownedBytes producer.event.queueClass) }
  | reserve {actor : Nat} {reservation : Reservation} {rest : List Reservation} :
      state.counters.gauges reservation.gauge + reservation.amount ≤ reservation.limit →
      producer.stage = .reserving (reservation :: rest) → Produces (.reserve actor)
        { state with counters := state.counters.add (reservation.gauge, reservation.amount) }
        { producer with
          stage := .reserving rest
          held := (reservation.gauge, reservation.amount) :: producer.held }
  | exceed {actor : Nat} {reservation : Reservation} {rest : List Reservation} :
      producer.stage = .reserving (reservation :: rest) →
      Produces (.reserve actor) state { producer with stage := .rollingBack }
  | rollBack {actor : Nat} {entry : Entry} {held : List Entry} : producer.held = entry :: held →
      producer.stage = .rollingBack → Produces (.rollBack actor)
        { state with counters := state.counters.subtract entry }
        { producer with stage := .rollingBack, held }
  | rolledBack {actor : Nat} : producer.held = [] → producer.stage = .rollingBack →
      Produces (.rollBack actor) state { producer with stage := .rejecting, held := [] }
  | reject {actor : Nat} : producer.stage = .rejecting → Produces (.reject actor)
        { state.dropRecord index with
          sequenceHolder :=
            if producer.kind = .oauthRequest then none else state.sequenceHolder }
        { producer with stage := .done false, held := [] }
  | enqueue {actor : Nat} : producer.stage = .reserving [] → Produces (.enqueue actor)
        { state with counters := state.counters.add (.queuedRecords, 1) }
        { producer with stage := .enqueued, held := (.queuedRecords, 1) :: producer.held }
  | send {actor : Nat} : state.writer ≠ .stopped → producer.stage = .enqueued →
      Produces (.send actor true)
        { state with
          channel := state.channel ++ [producer.envelope index]
          sequenceHolder :=
            if producer.kind = .oauthRequest then none else state.sequenceHolder }
        { producer with stage := .done true, held := [] }
  | failSend {actor : Nat} : producer.stage = .enqueued →
      Produces (.send actor false) state { producer with stage := .failing }
  | dropFailed {actor : Nat} : producer.stage = .failing →
      Produces (.dropFailed actor) (state.dropRecord index)
        { producer with
          stage := .releasing
          held := sendFailed 1 producer.ownedBytes producer.event.queueClass }
  | release {actor : Nat} {entry : Entry} {held : List Entry} : producer.held = entry :: held →
      producer.stage = .releasing → Produces (.release actor)
        { state with counters := state.counters.subtract entry }
        { producer with stage := .releasing, held }
  | released {actor : Nat} : producer.held = [] → producer.stage = .releasing →
      Produces (.release actor)
        { state with
          sequenceHolder :=
            if producer.kind = .oauthRequest then none else state.sequenceHolder }
        { producer with stage := .done false, held := [] }

/-- Every step of a producer is one of these. -/
theorem produces_of_produce (h : state.produce index producer label = some next) :
    ∃ base changed, Produces state index producer label base changed ∧
      base.setProducer index changed = next := by
  cases label <;> simp only [produce, Option.ite_none_right_eq_some, Option.some.injEq,
    reduceCtorEq] at h
  case assign actor =>
    obtain ⟨⟨hKind, hStage, hHolder⟩, hEq⟩ := h
    exact ⟨_, _, .assign hKind hHolder hStage, hEq⟩
  case enter actor =>
    obtain ⟨hStage, hEq⟩ := h
    cases hTaken : state.senderTaken <;> rw [hTaken] at hEq
    · exact ⟨_, _, .findSender hTaken hStage, hEq⟩
    · exact ⟨_, _, .findNoSender hTaken hStage, hEq⟩
  case reserve actor =>
    cases hStage : producer.stage <;> rw [hStage] at h <;> try cases h
    case reserving rest =>
      cases rest with
      | nil => cases h
      | cons reservation rest =>
        by_cases hRoom : state.counters.gauges reservation.gauge + reservation.amount ≤
            reservation.limit
        · exact ⟨_, _, .reserve hRoom hStage, Option.some.inj ((if_pos hRoom).symm.trans h)⟩
        · exact ⟨_, _, .exceed hStage, Option.some.inj ((if_neg hRoom).symm.trans h)⟩
  case rollBack actor =>
    cases hStage : producer.stage <;> cases hHeld : producer.held <;> rw [hStage, hHeld] at h <;>
      cases h
    · exact ⟨_, _, .rolledBack hHeld hStage, rfl⟩
    · exact ⟨_, _, .rollBack hHeld hStage, rfl⟩
  case reject actor => exact ⟨_, _, .reject h.1, h.2⟩
  case enqueue actor => exact ⟨_, _, .enqueue h.1, h.2⟩
  case send actor ok =>
    obtain ⟨hStage, hEq⟩ := h
    cases ok with
    | false => exact ⟨_, _, .failSend hStage, Option.some.inj hEq⟩
    | true =>
      obtain ⟨hOpen, hEq⟩ := Option.ite_none_left_eq_some.mp hEq
      exact ⟨_, _, .send hOpen hStage, Option.some.inj hEq⟩
  case dropFailed actor => exact ⟨_, _, .dropFailed h.1, h.2⟩
  case release actor =>
    cases hStage : producer.stage <;> cases hHeld : producer.held <;> rw [hStage, hHeld] at h <;>
      cases h
    · exact ⟨_, _, .released hHeld hStage, rfl⟩
    · exact ⟨_, _, .release hHeld hStage, rfl⟩

variable (state) (index) (operation) in
/-- What a control operation does. -/
inductive Controls : TelemetryLabel → TelemetryState → Control → Prop where
  | observe {actor : Nat} : operation.kind = .quotaObservation → state.sequenceHolder = none →
      operation.stage = .started → Controls (.observe actor) state
        { operation with stage := .observed, position := state.quotaSequence }
  | clone {actor : Nat} {stage : ControlStage} : stage = .failed ∨ stage = .cloned →
      operation.stage =
        (if operation.kind = .quotaObservation then .observed else ControlStage.started) →
      Controls (.clone actor) state { operation with stage }
  | reservePermit {actor : Nat} {stage : ControlStage} : stage = .failed ∨ stage = .permitted →
      operation.stage = .cloned → Controls (.reservePermit actor) state { operation with stage }
  | reserveControlSlot {actor : Nat} : operation.stage = .permitted →
      Controls (.reserveControlSlot actor)
        { state with counters := state.counters.add (.queueSlots, 1) }
        { operation with stage := .slotted }
  | sendControl {actor : Nat} : operation.stage = .slotted → Controls (.sendControl actor)
        { state with channel := state.channel ++ [operation.envelope index] }
        { operation with stage := .sent }

/-- Every step of a control operation is one of these. -/
theorem controls_of_control (h : state.control index operation label = some next) :
    ∃ base changed, Controls state index operation label base changed ∧
      base.setControl index changed = next := by
  cases label <;> simp only [control, Option.ite_none_right_eq_some, Option.some.injEq,
    reduceCtorEq] at h
  case observe actor =>
    obtain ⟨⟨hKind, hStage, hHolder⟩, hEq⟩ := h
    exact ⟨_, _, .observe hKind hHolder hStage, hEq⟩
  case clone actor =>
    refine ⟨_, _, .clone ?_ h.1, h.2⟩
    cases state.senderTaken
    · exact .inr rfl
    · exact .inl rfl
  case reservePermit actor =>
    refine ⟨_, _, .reservePermit ?_ h.1, h.2⟩
    by_cases hStopped : state.writer = .stopped
    · exact .inl (if_pos hStopped)
    · exact .inr (if_neg hStopped)
  case reserveControlSlot actor => exact ⟨_, _, .reserveControlSlot h.1, h.2⟩
  case sendControl actor => exact ⟨_, _, .sendControl h.1, h.2⟩

variable (state) in
/-- What the writer does. -/
inductive Writes : TelemetryLabel → TelemetryState → Prop where
  | receive {envelope : TelemetryEnvelope} {channel : List TelemetryEnvelope} {count : Nat} :
      state.channel = envelope :: channel →
      (state.writer = .idle ∨ state.writer = .batching count) →
      Writes .receive { state with channel, writer := .counting envelope count }
  | countReceived {envelope : TelemetryEnvelope} {count : Nat} :
      state.writer = .counting envelope count → Writes .countReceived { state with
        counters := state.counters.add (.inFlightRecords, envelope.event.recordCount)
        writerHeld := received envelope.event.recordCount envelope.event.queueClass
        writer := .releasing envelope count }
  | releaseReceived {envelope : TelemetryEnvelope} {count : Nat} {entry : Entry}
      {writerHeld : List Entry} : state.writerHeld = entry :: writerHeld →
      state.writer = .releasing envelope count → Writes .releaseReceived { state with
        counters := state.counters.subtract entry
        writer := .releasing envelope count
        writerHeld }
  | deliver {envelope : TelemetryEnvelope} {count : Nat} {kind : BatchKind} :
      state.writerHeld = [] → BatchKind.ofEvent envelope.event = some kind →
      state.writer = .releasing envelope count → Writes .deliver { state with
        batch := Function.update state.batch kind (state.batch kind ++ [envelope])
        writer := .batching (count + 1) }
  | command {envelope : TelemetryEnvelope} {count : Nat} :
      state.writerHeld = [] → BatchKind.ofEvent envelope.event = none →
      state.writer = .releasing envelope count → Writes .deliver { state with
        writer := .flushing BatchKind.all (.reply envelope.author (count + 1)) }
  | endBatch {count : Nat} : state.writer = .batching count →
      Writes .endBatch { state with writer := .flushing BatchKind.all .endBatch }
  | skip {kind : BatchKind} {rest : List BatchKind} {after : AfterFlush} : state.batch kind = [] →
      state.writer = .flushing (kind :: rest) after →
      Writes .flush { state with writer := .flushing rest after }
  | flush {kind : BatchKind} {rest : List BatchKind} {after : AfterFlush} :
      state.writer = .flushing (kind :: rest) after →
      Writes .flush { state with writer := .appending kind rest after }
  | append {kind : BatchKind} {rest : List BatchKind} {after : AfterFlush} {ok : Bool} :
      state.writer = .appending kind rest after →
      Writes (.append ok) (state.append kind rest after ok)
  | settle {rest : List BatchKind} {after : AfterFlush} {entry : Entry}
      {writerHeld : List Entry} : state.writerHeld = entry :: writerHeld →
      state.writer = .settling rest after → Writes .settle { state with
        counters := state.counters.subtract entry
        writer := .settling rest after
        writerHeld }
  | settled {rest : List BatchKind} {after : AfterFlush} : state.writerHeld = [] →
      state.writer = .settling rest after →
      Writes .settle { state with writer := .flushing rest after, writerHeld := [] }
  | finishBatch : state.writer = .flushing [] .endBatch →
      Writes .afterFlush { state with writer := .idle }
  | reply {index count : Nat} {operation : Control} : state.controls[index]? = some operation →
      state.writer = .flushing [] (.reply index count) →
      Writes .afterFlush ({ state with writer := .batching count }.setControl index
        { operation with stage := .replied })
  | stop {label : TelemetryLabel} : label = .finish ∨ label = .abort → state.writer.awaits = true →
      Writes label { state with writer := .stopped }

/-- Every step of the writer is one of these. -/
theorem writes_of_write (h : state.write label = some next) : Writes state label next := by
  cases label <;> cases hWriter : state.writer <;>
    simp only [write, hWriter, Option.ite_none_right_eq_some, Option.some.injEq, reduceCtorEq,
      false_and] at h
  case receive.idle =>
    cases hChannel : state.channel <;> rw [hChannel] at h <;> cases h
    exact .receive hChannel (.inl hWriter)
  case receive.batching count =>
    cases hChannel : state.channel <;> rw [hChannel] at h <;> try cases h
    obtain ⟨-, hEq⟩ := Option.ite_none_right_eq_some.mp h
    exact Option.some.inj hEq ▸ .receive hChannel (.inr hWriter)
  case countReceived.counting => exact h ▸ .countReceived hWriter
  case releaseReceived.releasing =>
    cases hHeld : state.writerHeld <;> rw [hHeld] at h <;> cases h
    exact .releaseReceived hHeld hWriter
  case deliver.releasing envelope count =>
    cases hHeld : state.writerHeld <;> rw [hHeld] at h <;> cases h
    unfold TelemetryState.deliver
    cases hKind : BatchKind.ofEvent envelope.event with
    | some kind => exact .deliver hHeld hKind hWriter
    | none => exact .command hHeld hKind hWriter
  case endBatch.batching => exact h ▸ .endBatch hWriter
  case flush.flushing rest after =>
    cases rest with
    | nil => cases h
    | cons kind rest =>
      obtain rfl := Option.some.inj h
      by_cases hEmpty : state.batch kind = []
      · rw [if_pos hEmpty]
        exact .skip hEmpty hWriter
      · rw [if_neg hEmpty]
        exact .flush hWriter
  case append.appending => exact h ▸ .append hWriter
  case settle.settling =>
    cases hHeld : state.writerHeld <;> rw [hHeld] at h <;> cases h
    · exact .settled hHeld hWriter
    · exact .settle hHeld hWriter
  case afterFlush.flushing rest after =>
    cases rest <;> cases after <;> try cases h
    case nil.endBatch.refl => exact .finishBatch hWriter
    case nil.reply index count =>
      obtain ⟨operation, hOperation, hEq⟩ := Option.bind_eq_some_iff.mp h
      exact Option.some.inj hEq ▸ .reply hOperation hWriter
  case finish.idle =>
    exact h.2 ▸ .stop (.inl rfl) (by rw [hWriter]; rfl)
  all_goals exact h ▸ .stop (.inr rfl) (by rw [hWriter]; rfl)

/-- What `writer_stopped` does. -/
inductive Stops (state : TelemetryState) : TelemetryState → Prop where
  | begin : state.writer = .stopped → state.senderTaken = true → state.stop = .running →
      Stops state { state with stop := .swapQueued }
  | swapQueued : state.stop = .swapQueued →
      Stops state { state with
        counters := state.counters.set .queuedRecords 0
        stop := .swapInFlight (state.counters.gauges .queuedRecords) }
  | swapInFlight {lost : Nat} : state.stop = .swapInFlight lost →
      Stops state { state with
        counters := state.counters.set .inFlightRecords 0
        stop := .clearing [.ownedBytes, .queueSlots, .gatewayAuthRejectedQueueSlots,
          .gatewayAuthRejectedOwnedBytes] (lost + state.counters.gauges .inFlightRecords) }
  | clear {gauge : Gauge} {rest : List Gauge} {lost : Nat} :
      state.stop = .clearing (gauge :: rest) lost →
      Stops state { state with counters := state.counters.set gauge 0, stop := .clearing rest lost }
  | finish {lost : Nat} : state.stop = .clearing [] lost →
      Stops state { state with
        counters := state.counters.addDropped lost
        channel := []
        batch := fun _ => []
        stop := .stopped
        fates := state.fates ++ state.unfinished.map fun record => (record.author, false) }

/-- Every step of the stop is one of these. -/
theorem stops_of_stopWriter (h : state.stopWriter = some next) : Stops state next := by
  unfold stopWriter at h
  cases hStop : state.stop <;> rw [hStop] at h
  case running =>
    obtain ⟨⟨hWriter, hTaken⟩, hEq⟩ := Option.ite_none_right_eq_some.mp h
    exact Option.some.inj hEq ▸ .begin hWriter hTaken hStop
  case swapQueued => exact Option.some.inj h ▸ .swapQueued hStop
  case swapInFlight lost => exact Option.some.inj h ▸ .swapInFlight hStop
  case clearing rest lost =>
    cases rest with
    | nil => exact Option.some.inj h ▸ .finish hStop
    | cons gauge rest => exact Option.some.inj h ▸ .clear hStop
  case stopped => cases h

/-- What a step of the pipeline does. -/
inductive Steps (state : TelemetryState) : TelemetryLabel → TelemetryState → Prop where
  | offer {kind : RecordKind} {ownedBytes capacity maxBytes : Nat} :
      Steps state (.offer kind ownedBytes capacity maxBytes) { state with
        producers :=
          state.producers ++ [⟨kind, none, ownedBytes, capacity, maxBytes, .offered, []⟩] }
  | produce {label : TelemetryLabel} {index : Nat} {producer changed : Producer}
      {base : TelemetryState} : state.producers[index]? = some producer →
      Produces state index producer label base changed →
      Steps state label (base.setProducer index changed)
  | request {kind : ControlKind} :
      Steps state (.request kind)
        { state with controls := state.controls ++ [⟨kind, 0, .started⟩] }
  | control {label : TelemetryLabel} {index : Nat} {operation changed : Control}
      {base : TelemetryState} : state.controls[index]? = some operation →
      Controls state index operation label base changed →
      Steps state label (base.setControl index changed)
  | write {label : TelemetryLabel} {next : TelemetryState} : Writes state label next →
      Steps state label next
  | takeSender : (∀ producer ∈ state.producers, producer.outside = true) →
      Steps state .takeSender { state with senderTaken := true }
  | writerStopped {next : TelemetryState} : Stops state next → Steps state .writerStopped next

/-- A step of the pipeline is a step of one party; what the invariants keep is proved for each of
these. -/
theorem steps_of_step (h : step state label = some next) : Steps state label next := by
  have hProduce {index : Nat}
      (h : (state.producers[index]?.bind fun producer => state.produce index producer label) =
        some next) : Steps state label next := by
    obtain ⟨producer, hProducer, hNext⟩ := Option.bind_eq_some_iff.mp h
    obtain ⟨base, changed, hProduces, rfl⟩ := produces_of_produce hNext
    exact .produce hProducer hProduces
  have hControl {index : Nat}
      (h : (state.controls[index]?.bind fun operation => state.control index operation label) =
        some next) : Steps state label next := by
    obtain ⟨operation, hOperation, hNext⟩ := Option.bind_eq_some_iff.mp h
    obtain ⟨base, changed, hControls, rfl⟩ := controls_of_control hNext
    exact .control hOperation hControls
  cases label
  case offer => exact Option.some.inj h ▸ .offer
  case request => exact Option.some.inj h ▸ .request
  case takeSender =>
    obtain ⟨hOutside, hEq⟩ := Option.ite_none_right_eq_some.mp h
    exact Option.some.inj hEq ▸ .takeSender (List.all_eq_true.mp hOutside)
  case writerStopped => exact .writerStopped (stops_of_stopWriter h)
  all_goals
    first
    | exact hProduce h
    | exact hControl h
    | exact .write (writes_of_write h)

end TelemetryState

end Any2Api.Runtime.Telemetry
