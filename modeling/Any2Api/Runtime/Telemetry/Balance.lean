import Any2Api.Library.Ledger
import Any2Api.Runtime.Telemetry.Steps

/-! The balance of the counters. Every gauge is the sum of what producers, control operations, the
channel, the batch and the writer have added to it, so no subtraction takes more than is there. -/
namespace Any2Api.Runtime.Telemetry

open Runs Ledger

/-- What an envelope in the channel has added. -/
def TelemetryEnvelope.inChannel (envelope : TelemetryEnvelope) : List Entry :=
  sendFailed envelope.event.recordCount envelope.ownedBytes envelope.event.queueClass

/-- What a record in the batch has added. -/
def TelemetryEnvelope.inBatch (envelope : TelemetryEnvelope) : List Entry :=
  (.inFlightRecords, envelope.event.recordCount) ::
    releaseOwnedBytes envelope.ownedBytes envelope.event.queueClass

def Control.held (operation : Control) : List Entry :=
  match operation.stage with
  | .slotted => [(.queueSlots, 1)]
  | _ => []

theorem Control.held_of_ne {operation : Control} (h : operation.stage ≠ .slotted) :
    operation.held = [] := by
  unfold Control.held
  cases hStage : operation.stage <;> first | rfl | exact absurd hStage h

/-- What the envelope in the hands of the writer has added, apart from what it is releasing. -/
def WriterPhase.hand : WriterPhase → List Entry
  | .counting envelope _ => envelope.inChannel
  | .releasing envelope _ => envelope.inBatch
  | _ => []

/-- The envelope in the hands of the writer. -/
def WriterPhase.envelopes : WriterPhase → List TelemetryEnvelope
  | .counting envelope _ | .releasing envelope _ => [envelope]
  | _ => []

/-- The operation that gets a reply after the flush. -/
def AfterFlush.target : AfterFlush → Option Nat
  | .endBatch => none
  | .reply index _ => some index

def WriterPhase.target : WriterPhase → Option Nat
  | .flushing _ after | .appending _ _ after | .settling _ after => after.target
  | _ => none

def WriterPhase.subtracts : WriterPhase → Bool
  | .releasing _ _ | .settling _ _ => true
  | _ => false

def Reservation.entry (reservation : Reservation) : Entry :=
  (reservation.gauge, reservation.amount)

namespace Producer

def reservations (producer : Producer) : List Reservation :=
  Telemetry.reservations producer.capacity producer.maxBytes producer.ownedBytes
    producer.event.queueClass

/-- The call has the sender. -/
def active (producer : Producer) : Bool :=
  match producer.stage with
  | .reserving _ | .rollingBack | .enqueued | .failing | .releasing => true
  | _ => false

/-- What a producer has added by the time it is in a stage. -/
def Sound (producer : Producer) : Prop :=
  match producer.stage with
  | .offered | .sequenced | .rejecting | .done _ => producer.held = []
  | .reserving rest => rest <:+ producer.reservations ∧ ∀ gauge, amounts producer.held gauge +
      amounts (rest.map Reservation.entry) gauge =
        amounts (producer.reservations.map Reservation.entry) gauge
  | .enqueued | .failing => ∀ gauge, amounts producer.held gauge =
      amounts (sendFailed 1 producer.ownedBytes producer.event.queueClass) gauge
  | .rollingBack | .releasing => True

end Producer

/-- The reservations and the count in the queue are what a failed send takes back. -/
theorem amounts_reservations (capacity maxBytes ownedBytes : Nat) (queueClass : TelemetryQueueClass)
    (gauge : Gauge) :
    amounts ((.queuedRecords, 1) ::
      (reservations capacity maxBytes ownedBytes queueClass).map Reservation.entry) gauge =
      amounts (sendFailed 1 ownedBytes queueClass) gauge := by
  cases queueClass <;> cases gauge <;>
    simp [reservations, Reservation.entry, sendFailed, received, gatewayAuthRejectedSlot,
      releaseOwnedBytes]

theorem recordCount_event (producer : Producer) : producer.event.recordCount = 1 := by
  unfold Producer.event
  cases producer.kind <;> rfl

theorem inChannel_envelope (producer : Producer) (index : Nat) :
    (producer.envelope index).inChannel =
      sendFailed 1 producer.ownedBytes producer.event.queueClass := by
  rw [TelemetryEnvelope.inChannel, ← recordCount_event producer]
  rfl

/-- A command occupies a slot and nothing else. -/
theorem amounts_command (operation : Control) (index : Nat) (gauge : Gauge) :
    amounts (operation.envelope index).inChannel gauge = amounts [(.queueSlots, 1)] gauge := by
  unfold TelemetryEnvelope.inChannel Control.envelope Control.event
  cases operation.kind <;> cases gauge <;> rfl

/-- What an appended batch releases is what its records have added. -/
theorem amounts_finished {kind : BatchKind} {records : List TelemetryEnvelope}
    (hKind : ∀ record ∈ records, BatchKind.ofEvent record.event = some kind) (gauge : Gauge) :
    amounts (finished records.length (sumOwnedBytes records) (rejectedOwnedBytes records kind))
      gauge = (records.map fun record => amounts record.inBatch gauge).sum := by
  induction records with
  | nil => cases kind <;> cases gauge <;> rfl
  | cons record rest ih =>
    have hFirst := hKind record List.mem_cons_self
    have hRest := ih fun other hOther => hKind other (List.mem_cons_of_mem _ hOther)
    rw [List.map_cons, List.sum_cons, ← hRest]
    -- An access log of a rejected request is the only one with a second byte counter.
    cases hEvent : record.event <;> rw [hEvent] at hFirst <;> cases hFirst
    case httpAccessLog.refl rejected =>
      cases rejected <;> cases gauge <;>
        simp [finished, TelemetryEnvelope.inBatch, releaseOwnedBytes, hEvent, sumOwnedBytes,
          rejectedOwnedBytes, TelemetryEvent.queueClass, TelemetryEvent.recordCount] <;> omega
    all_goals
      cases gauge <;>
        simp [finished, TelemetryEnvelope.inBatch, releaseOwnedBytes, hEvent, sumOwnedBytes,
          rejectedOwnedBytes, TelemetryEvent.queueClass, TelemetryEvent.recordCount]
      omega

namespace TelemetryState

variable {state base next : TelemetryState} {index : Nat} {producer changed : Producer}
  {operation : Control} {label : TelemetryLabel}

/-- What all parties have added to a gauge. -/
def holdings (state : TelemetryState) (gauge : Gauge) : Nat :=
  (state.producers.map fun producer => amounts producer.held gauge).sum +
    (state.controls.map fun operation => amounts operation.held gauge).sum +
    (state.channel.map fun envelope => amounts envelope.inChannel gauge).sum +
    (BatchKind.all.map fun kind =>
      ((state.batch kind).map fun record => amounts record.inBatch gauge).sum).sum +
    amounts state.writer.hand gauge + amounts state.writerHeld gauge

theorem holdings_setProducer (hProducer : base.producers[index]? = some producer) (gauge : Gauge) :
    holdings (base.setProducer index changed) gauge + amounts producer.held gauge =
      holdings base gauge + amounts changed.held gauge := by
  have hSum : ((base.producers.set index changed).map fun producer =>
      amounts producer.held gauge).sum + amounts producer.held gauge = _ :=
    sum_map_set (fun producer => amounts producer.held gauge) hProducer
  unfold holdings setProducer
  dsimp only
  omega

theorem holdings_setControl (changed : Control)
    (hOperation : base.controls[index]? = some operation) (gauge : Gauge) :
    holdings (base.setControl index changed) gauge + amounts operation.held gauge =
      holdings base gauge + amounts changed.held gauge := by
  have hSum : ((base.controls.set index changed).map fun operation =>
      amounts operation.held gauge).sum + amounts operation.held gauge = _ :=
    sum_map_set (fun operation => amounts operation.held gauge) hOperation
  unfold holdings setControl
  dsimp only
  omega

/-- Why a step adds to a gauge. When the writer has stopped, only a control operation does. -/
inductive Grounds (state : TelemetryState) : TelemetryLabel → Entry → Prop where
  | admitted {actor index : Nat} {producer : Producer} {reservation : Reservation} :
      state.stop = .running → state.producers[index]? = some producer →
      reservation ∈ producer.reservations →
      state.counters.gauges reservation.gauge + reservation.amount ≤ reservation.limit →
      Grounds state (.reserve actor) reservation.entry
  | record {label : TelemetryLabel} {entry : Entry} : state.stop = .running →
      entry.1 = .queuedRecords ∨ entry.1 = .inFlightRecords → Grounds state label entry
  | control {actor : Nat} : Grounds state (.reserveControlSlot actor) (.queueSlots, 1)

/-- How a step changes the gauges and what has been added to them. -/
inductive Moves (state : TelemetryState) (label : TelemetryLabel) (next : TelemetryState) :
    Prop where
  | same : next.counters.gauges = state.counters.gauges →
      next.counters.underflow = state.counters.underflow →
      (∀ gauge, holdings next gauge = holdings state gauge) → Moves state label next
  | add (entry : Entry) : Grounds state label entry →
      next.counters = state.counters.add entry →
      (∀ gauge, holdings next gauge = holdings state gauge + amounts [entry] gauge) →
      Moves state label next
  | subtract (entry : Entry) : state.stop = .running →
      next.counters = state.counters.subtract entry →
      (∀ gauge, holdings next gauge + amounts [entry] gauge = holdings state gauge) →
      Moves state label next

theorem Produces.producers_eq (h : Produces state index producer label base changed) :
    base.producers = state.producers := by
  cases h <;> rfl

theorem holdings_send (envelope : TelemetryEnvelope) (holder : Option Nat) (gauge : Gauge) :
    holdings { state with
      channel := state.channel ++ [envelope]
      sequenceHolder := holder } gauge =
      holdings state gauge + amounts envelope.inChannel gauge := by
  unfold holdings
  simp only [List.map_append, List.map_cons, List.map_nil, List.sum_append, List.sum_singleton]
  omega

theorem Produces.moves (h : Produces state index producer label base changed)
    (hProducer : state.producers[index]? = some producer) (hSound : producer.Sound)
    (hActive : producer.active = true → state.stop = .running) :
    Moves state label (base.setProducer index changed) := by
  have hSet (gauge : Gauge) : holdings (base.setProducer index changed) gauge +
      amounts producer.held gauge = holdings base gauge + amounts changed.held gauge :=
    holdings_setProducer (h.producers_eq ▸ hProducer) gauge
  unfold Producer.Sound at hSound
  unfold Producer.active at hActive
  cases h
  case reserve reservation rest hRoom hStage =>
    rw [hStage] at hActive hSound
    have hListed : reservation ∈ producer.reservations := hSound.1.mem List.mem_cons_self
    refine .add _ (.admitted (hActive rfl) hProducer hListed hRoom) rfl fun gauge => ?_
    have hGauge := hSet gauge
    change _ = holdings state gauge + _ at hGauge
    simp only [amounts_cons, amounts_nil, Reservation.entry] at hGauge ⊢
    omega
  case enqueue hStage =>
    rw [hStage] at hActive
    refine .add _ (.record (hActive rfl) (.inl rfl)) rfl fun gauge => ?_
    have hGauge := hSet gauge
    change _ = holdings state gauge + _ at hGauge
    simp only [amounts_cons, amounts_nil] at hGauge ⊢
    omega
  case rollBack entry held hHeld hStage | release entry held hHeld hStage =>
    rw [hStage] at hActive
    refine .subtract entry (hActive rfl) rfl fun gauge => ?_
    have hGauge := hSet gauge
    change _ = holdings state gauge + _ at hGauge
    rw [hHeld] at hGauge
    simp only [amounts_cons, amounts_nil] at hGauge ⊢
    omega
  case send hOpen hStage =>
    rw [hStage] at hSound
    refine .same rfl rfl fun gauge => ?_
    have hGauge := hSet gauge
    rw [holdings_send, inChannel_envelope, hSound gauge, amounts_nil] at hGauge
    omega
  case dropFailed hStage =>
    rw [hStage] at hSound
    refine .same rfl rfl fun gauge => ?_
    have hGauge := hSet gauge
    rw [hSound gauge] at hGauge
    exact Nat.add_right_cancel hGauge
  case rolledBack hHeld hStage | released hHeld hStage =>
    refine .same rfl rfl fun gauge => ?_
    have hGauge := hSet gauge
    rw [hHeld] at hGauge
    exact Nat.add_right_cancel hGauge
  case reject hStage =>
    rw [hStage] at hSound
    refine .same rfl rfl fun gauge => ?_
    have hGauge := hSet gauge
    rw [hSound] at hGauge
    exact Nat.add_right_cancel hGauge
  all_goals exact .same rfl rfl fun gauge => Nat.add_right_cancel (hSet gauge)

theorem Controls.moves {changed : Control} (h : Controls state index operation label base changed)
    (hOperation : state.controls[index]? = some operation) :
    Moves state label (base.setControl index changed) := by
  have hControls : base.controls = state.controls := by
    cases h <;> rfl
  have hSet (gauge : Gauge) : holdings (base.setControl index changed) gauge +
      amounts operation.held gauge = holdings base gauge + amounts changed.held gauge :=
    holdings_setControl changed (hControls ▸ hOperation) gauge
  have hSame (hBefore : operation.stage ≠ .slotted) (hAfter : changed.stage ≠ .slotted)
      (gauge : Gauge) : holdings (base.setControl index changed) gauge = holdings base gauge := by
    have hGauge := hSet gauge
    rw [Control.held_of_ne hBefore, Control.held_of_ne hAfter] at hGauge
    exact Nat.add_right_cancel hGauge
  cases h
  case reserveControlSlot hStage =>
    refine .add (.queueSlots, 1) .control rfl fun gauge => ?_
    have hGauge := hSet gauge
    rw [Control.held_of_ne (by rw [hStage]; nofun)] at hGauge
    exact hGauge
  case sendControl hStage =>
    refine .same rfl rfl fun gauge => ?_
    have hGauge := hSet gauge
    have hHeld : operation.held = [(.queueSlots, 1)] := by
      rw [Control.held, hStage]
    rw [holdings_send, amounts_command, hHeld] at hGauge
    change _ = holdings state gauge + amounts [(.queueSlots, 1)] gauge + 0 at hGauge
    exact Nat.add_right_cancel hGauge
  case observe hKind hHolder hStage =>
    exact .same rfl rfl (hSame (by rw [hStage]; nofun) nofun)
  case clone stage hNew hStage =>
    refine .same rfl rfl (hSame ?_ ?_)
    · rw [hStage]
      split <;> nofun
    · rcases hNew with rfl | rfl <;> nofun
  case reservePermit stage hNew hStage =>
    refine .same rfl rfl (hSame (by rw [hStage]; nofun) ?_)
    rcases hNew with rfl | rfl <;> nofun

/-- The command of an operation has been sent, so that its slot is that of the envelope. -/
def Delivered (controls : List Control) (index : Nat) : Prop :=
  ∃ operation, controls[index]? = some operation ∧
    (operation.stage = .sent ∨ operation.stage = .replied)

/-- The parts of a state fit together. -/
structure Shape (state : TelemetryState) : Prop where
  producer : ∀ {index : Nat} {producer : Producer}, state.producers[index]? = some producer →
    producer.Sound
  command : ∀ envelope ∈ state.channel ++ state.writer.envelopes,
    BatchKind.ofEvent envelope.event = none →
    envelope.ownedBytes = 0 ∧ Delivered state.controls envelope.author
  target : ∀ index ∈ state.writer.target, Delivered state.controls index
  batch : ∀ (kind : BatchKind), ∀ record ∈ state.batch kind,
    BatchKind.ofEvent record.event = some kind
  held : state.writer.subtracts = false → state.writerHeld = []
  sender : state.senderTaken = true → ∀ producer ∈ state.producers, producer.active = false
  running : state.writer ≠ .stopped ∨ state.senderTaken = false → state.stop = .running

theorem sum_batches (batch : BatchKind → List TelemetryEnvelope) (f : TelemetryEnvelope → Nat) :
    ((BatchKind.all.flatMap batch).map f).sum =
      (BatchKind.all.map fun kind => ((batch kind).map f).sum).sum := by
  simp [BatchKind.all]

theorem holdings_batch (batch : BatchKind → List TelemetryEnvelope) (kind : BatchKind)
    (records : List TelemetryEnvelope) (f : TelemetryEnvelope → Nat) :
    (BatchKind.all.map fun other =>
        ((Function.update batch kind records other).map f).sum).sum + ((batch kind).map f).sum =
      (BatchKind.all.map fun other => ((batch other).map f).sum).sum + (records.map f).sum := by
  cases kind <;> simp [BatchKind.all, Function.update_apply] <;> omega

theorem holdings_writer (state : TelemetryState) (writer : WriterPhase) (gauge : Gauge) :
    holdings { state with writer } gauge + amounts state.writer.hand gauge =
      holdings state gauge + amounts writer.hand gauge := by
  unfold holdings
  dsimp only
  omega

/-- A command has added nothing that the writer does not release at once. -/
theorem amounts_inBatch_command {envelope : TelemetryEnvelope}
    (hCommand : BatchKind.ofEvent envelope.event = none) (hBytes : envelope.ownedBytes = 0)
    (gauge : Gauge) : amounts envelope.inBatch gauge = 0 := by
  unfold TelemetryEnvelope.inBatch
  rw [hBytes]
  cases hEvent : envelope.event <;> rw [hEvent] at hCommand <;> cases hCommand <;>
    cases gauge <;> rfl

theorem Writes.moves (h : Writes state label next) (hShape : Shape state) :
    Moves state label next := by
  have hHeld := hShape.held
  have hRunning (hWriter : state.writer ≠ .stopped) : state.stop = .running :=
    hShape.running (.inl hWriter)
  cases h
  case receive envelope channel count hChannel hWriter =>
    refine .same rfl rfl fun gauge => ?_
    have hHand : state.writer.hand = [] := by
      rcases hWriter with hWriter | hWriter <;> rw [hWriter] <;> rfl
    unfold holdings
    rw [hChannel, hHand]
    simp only [List.map_cons, List.sum_cons, amounts_nil, WriterPhase.hand]
    omega
  case countReceived envelope count hWriter =>
    rw [hWriter] at hHeld
    refine .add _ (.record (hRunning (by simp [hWriter])) (.inr rfl)) rfl fun gauge => ?_
    unfold holdings
    rw [hWriter, hHeld rfl]
    simp only [WriterPhase.hand, TelemetryEnvelope.inChannel, TelemetryEnvelope.inBatch, sendFailed,
      amounts_append, amounts_cons, amounts_nil]
    omega
  case releaseReceived envelope count entry held hEntries hWriter =>
    refine .subtract entry (hRunning (by simp [hWriter])) rfl fun gauge => ?_
    unfold holdings
    rw [hWriter, hEntries]
    simp only [amounts_cons, amounts_nil]
    omega
  case deliver envelope count kind hEmpty hKind hWriter =>
    refine .same rfl rfl fun gauge => ?_
    have hBatch := holdings_batch state.batch kind (state.batch kind ++ [envelope])
      fun record => amounts record.inBatch gauge
    unfold holdings
    rw [hWriter]
    simp only [WriterPhase.hand, amounts_nil, List.map_append, List.map_cons, List.map_nil,
      List.sum_append, List.sum_singleton] at hBatch ⊢
    omega
  case command envelope count hEmpty hCommand hWriter =>
    refine .same rfl rfl fun gauge => ?_
    have hMem : envelope ∈ state.channel ++ state.writer.envelopes := by
      rw [hWriter]
      exact List.mem_append_right _ (List.mem_singleton_self _)
    have hHand := holdings_writer state
      (.flushing BatchKind.all (.reply envelope.author (count + 1))) gauge
    rw [hWriter, WriterPhase.hand,
      amounts_inBatch_command hCommand (hShape.command envelope hMem hCommand).1] at hHand
    exact hHand
  case append kind rest after ok hWriter =>
    rw [hWriter] at hHeld
    have hGauges : (state.append kind rest after ok).counters.gauges = state.counters.gauges ∧
        (state.append kind rest after ok).counters.underflow = state.counters.underflow := by
      cases ok <;> exact ⟨rfl, rfl⟩
    refine .same hGauges.1 hGauges.2 fun gauge => ?_
    have hBatch := holdings_batch state.batch kind [] fun record => amounts record.inBatch gauge
    have hFinished := amounts_finished (hShape.batch kind) gauge
    unfold holdings TelemetryState.append
    rw [hWriter, hHeld rfl]
    simp only [WriterPhase.hand, amounts_nil, List.map_nil, List.sum_nil] at hBatch ⊢
    omega
  case settle rest after entry held hEntries hWriter =>
    refine .subtract entry (hRunning (by simp [hWriter])) rfl fun gauge => ?_
    unfold holdings
    rw [hWriter, hEntries]
    simp only [amounts_cons, amounts_nil]
    omega
  case settled rest after hEmpty hWriter =>
    refine .same rfl rfl fun gauge => ?_
    unfold holdings
    rw [hWriter, hEmpty]
    rfl
  case reply index count operation hOperation hWriter =>
    refine .same rfl rfl fun gauge => ?_
    obtain ⟨found, hFound, hStage⟩ := hShape.target index (by rw [hWriter]; rfl)
    cases hFound.symm.trans hOperation
    have hOpen : operation.held = [] :=
      Control.held_of_ne (by rcases hStage with hStage | hStage <;> simp [hStage])
    have hControls : { state with writer := .batching count }.controls[index]? = some operation :=
      hOperation
    have hSet := holdings_setControl { operation with stage := .replied } hControls gauge
    have hHand := holdings_writer state (.batching count) gauge
    rw [hWriter] at hHand
    rw [hOpen] at hSet
    exact (Nat.add_right_cancel hSet).trans (Nat.add_right_cancel hHand)
  case stop hWriter hLabel =>
    refine .same rfl rfl fun gauge => ?_
    have hHand := holdings_writer state .stopped gauge
    have hEmpty : state.writer.hand = [] := by
      cases hPhase : state.writer <;> rw [hPhase] at hWriter <;> first | rfl | cases hWriter
    rw [hEmpty] at hHand
    exact hHand
  all_goals
    rename_i hWriter
    refine .same rfl rfl fun gauge => ?_
    unfold holdings
    rw [hWriter]
    rfl

end TelemetryState

end Any2Api.Runtime.Telemetry
