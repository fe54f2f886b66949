import Any2Api.Runtime.Telemetry.Balance

/-! The counters along a run. The parts of a state fit together after every step, so every step
moves the gauges and what the parties have added to them alike. -/
namespace Any2Api.Runtime.Telemetry

open Runs Ledger Function

/-- The gauges that `writer_stopped` has not emptied yet. -/
def StopStage.keeps : StopStage → Gauge → Bool
  | .running, _ | .swapQueued, _ => true
  | .swapInFlight _, gauge => decide (gauge ≠ .queuedRecords)
  | _, _ => false

def TelemetryEnvelope.isRecord (envelope : TelemetryEnvelope) : Bool :=
  decide (envelope.event.recordCount = 1)

def TelemetryEnvelope.isRejected (envelope : TelemetryEnvelope) : Bool :=
  decide (envelope.event.queueClass = .gatewayAuthRejected)

namespace TelemetryState

variable {state base next : TelemetryState} {index : Nat} {producer changed : Producer}
  {operation : Control} {label : TelemetryLabel}

theorem Produces.sound (h : Produces state index producer label base changed)
    (hSound : producer.Sound) : changed.Sound := by
  unfold Producer.Sound at hSound
  have hIdle {stage : ProducerStage} (hStage : producer.stage = stage)
      (hIs : stage = .offered ∨ stage = .sequenced) : producer.held = [] := by
    rcases hIs with rfl | rfl <;> rw [hStage] at hSound <;> exact hSound
  cases h
  case assign hKind hHolder hStage => exact hIdle hStage (.inl rfl)
  case findNoSender hTaken hStage => exact hIdle hStage (by split <;> simp)
  case findSender hTaken hStage =>
    have hHeld := hIdle hStage (by split <;> simp)
    refine ⟨List.suffix_rfl, fun gauge => ?_⟩
    rw [hHeld, amounts_nil, Nat.zero_add]
    rfl
  case reserve reservation rest hRoom hStage =>
    rw [hStage] at hSound
    refine ⟨(List.suffix_cons reservation rest).trans hSound.1, fun gauge => ?_⟩
    have hGauge : amounts producer.held gauge +
      amounts ((reservation.gauge, reservation.amount) :: rest.map Reservation.entry) gauge =
        amounts (producer.reservations.map Reservation.entry) gauge := hSound.2 gauge
    refine Eq.trans ?_ hGauge
    simp only [amounts_cons]
    omega
  case enqueue hStage =>
    rw [hStage] at hSound
    intro gauge
    have hAll := amounts_reservations producer.capacity producer.maxBytes producer.ownedBytes
      producer.event.queueClass gauge
    have hGauge := hSound.2 gauge
    refine Eq.trans ?_ hAll
    rw [amounts_cons, amounts_cons]
    exact congrArg _ hGauge
  case failSend hStage =>
    rw [hStage] at hSound
    exact hSound
  all_goals first | exact rfl | exact trivial

/-- A producer without the sender does not get it once it is taken. -/
theorem Produces.inactive (h : Produces state index producer label base changed)
    (hTaken : state.senderTaken = true) (hActive : producer.active = false) :
    changed.active = false := by
  unfold Producer.active at hActive
  cases h
  case findSender hOpen hStage => exact absurd (hTaken.symm.trans hOpen) Bool.noConfusion
  all_goals first | exact rfl | (rename_i hStage; rw [hStage] at hActive; cases hActive)

theorem Delivered.set {controls : List Control} {changed : Control} {other : Nat}
    (h : Delivered controls other) (hOperation : controls[index]? = some operation)
    (hStage : operation.stage = .sent ∨ operation.stage = .replied →
      changed.stage = .sent ∨ changed.stage = .replied) :
    Delivered (controls.set index changed) other := by
  obtain ⟨found, hFound, hSent⟩ := h
  by_cases hOther : other = index
  · subst hOther
    cases hFound.symm.trans hOperation
    have hLength := (List.getElem?_eq_some_iff.mp hFound).1
    exact ⟨changed, List.getElem?_set_self hLength, hStage hSent⟩
  · exact ⟨found, (List.getElem?_set_ne (Ne.symm hOther)).trans hFound, hSent⟩

theorem Delivered.append {controls : List Control} {other : Nat} (h : Delivered controls other) :
    Delivered (controls ++ [operation]) other := by
  obtain ⟨found, hFound, hSent⟩ := h
  exact ⟨found, List.getElem?_append_left (List.getElem?_eq_some_iff.mp hFound).1 ▸ hFound, hSent⟩

theorem ofEvent_event (producer : Producer) : BatchKind.ofEvent producer.event ≠ none := by
  unfold Producer.event
  cases producer.kind <;> nofun

theorem Produces.shape (h : Produces state index producer label base changed)
    (hProducer : state.producers[index]? = some producer) (hShape : Shape state) :
    Shape (base.setProducer index changed) := by
  have hSound := h.sound (hShape.producer hProducer)
  have hProducers {other : Nat} {found : Producer}
      (hFound : (state.producers.set index changed)[other]? = some found) : found.Sound := by
    rcases Entries.getElem?_set_eq_some.mp hFound with ⟨-, hFound⟩ | ⟨-, -, rfl⟩
    · exact hShape.producer hFound
    · exact hSound
  have hInactive := fun hTaken : state.senderTaken = true =>
    h.inactive hTaken (hShape.sender hTaken producer (List.mem_of_getElem? hProducer))
  have hSender (hTaken : state.senderTaken = true) :
      ∀ found ∈ state.producers.set index changed, found.active = false := by
    intro found hFound
    rcases List.mem_or_eq_of_mem_set hFound with hFound | rfl
    · exact hShape.sender hTaken found hFound
    · exact hInactive hTaken
  cases h
  case send hOpen hStage =>
    refine ⟨hProducers, fun envelope hMem hCommand => ?_, hShape.target, hShape.batch, hShape.held,
      hSender, hShape.running⟩
    rw [List.mem_append] at hMem
    change envelope ∈ state.channel ++ [producer.envelope index] ∨ _ at hMem
    rw [List.mem_append, List.mem_singleton] at hMem
    rcases hMem with (hMem | rfl) | hMem
    · exact hShape.command envelope (List.mem_append_left _ hMem) hCommand
    · exact absurd hCommand (ofEvent_event producer)
    · exact hShape.command envelope (List.mem_append_right _ hMem) hCommand
  all_goals
    exact ⟨hProducers, hShape.command, hShape.target, hShape.batch, hShape.held, hSender,
      hShape.running⟩

theorem Controls.shape {changed : Control} (h : Controls state index operation label base changed)
    (hOperation : state.controls[index]? = some operation) (hShape : Shape state) :
    Shape (base.setControl index changed) := by
  have hDelivered {other : Nat} (hOther : Delivered state.controls other) :
      Delivered (state.controls.set index changed) other := by
    refine hOther.set hOperation fun hSent => ?_
    -- An operation that has sent its command only waits.
    cases h
    case clone stage hNew hStage =>
      rw [hStage] at hSent
      split at hSent <;> rcases hSent with hSent | hSent <;> cases hSent
    all_goals
      rename_i hStage
      rw [hStage] at hSent
      rcases hSent with hSent | hSent <;> cases hSent
  have hCommand (envelope : TelemetryEnvelope)
      (hMem : envelope ∈ state.channel ++ state.writer.envelopes)
      (hEvent : BatchKind.ofEvent envelope.event = none) :
      envelope.ownedBytes = 0 ∧ Delivered (state.controls.set index changed) envelope.author :=
    (hShape.command envelope hMem hEvent).imp_right hDelivered
  have hTarget (other : Nat) (hOther : other ∈ state.writer.target) :=
    hDelivered (hShape.target other hOther)
  cases h
  case sendControl hStage =>
    refine ⟨hShape.producer, fun envelope hMem hEvent => ?_, hTarget, hShape.batch, hShape.held,
      hShape.sender, hShape.running⟩
    rw [List.mem_append] at hMem
    change envelope ∈ state.channel ++ [operation.envelope index] ∨ _ at hMem
    rw [List.mem_append, List.mem_singleton] at hMem
    rcases hMem with (hMem | rfl) | hMem
    · exact hCommand envelope (List.mem_append_left _ hMem) hEvent
    · have hLength := (List.getElem?_eq_some_iff.mp hOperation).1
      exact ⟨rfl, _, List.getElem?_set_self hLength, .inl rfl⟩
    · exact hCommand envelope (List.mem_append_right _ hMem) hEvent
  all_goals
    exact ⟨hShape.producer, hCommand, hTarget, hShape.batch, hShape.held, hShape.sender,
      hShape.running⟩

theorem Writes.writer_ne (h : Writes state label next) : state.writer ≠ .stopped := by
  cases h
  case receive hWriter => rcases hWriter with hWriter | hWriter <;> rw [hWriter] <;> nofun
  case stop hWriter hLabel =>
    intro hStopped
    rw [hStopped] at hWriter
    cases hWriter
  all_goals
    rename_i hWriter
    rw [hWriter]
    nofun

theorem Writes.shape (h : Writes state label next) (hShape : Shape state) : Shape next := by
  have hRunning := hShape.running (.inl h.writer_ne)
  have hCommand (envelope : TelemetryEnvelope) (hMem : envelope ∈ state.channel ++ [])
      (hEvent : BatchKind.ofEvent envelope.event = none) :
      envelope.ownedBytes = 0 ∧ Delivered state.controls envelope.author := by
    rw [List.append_nil] at hMem
    exact hShape.command envelope (List.mem_append_left _ hMem) hEvent
  have hHeld := hShape.held
  have hTarget := hShape.target
  have hHand := hShape.command
  cases h
  case receive envelope channel count hChannel hWriter =>
    refine ⟨hShape.producer, fun other hMem hEvent => ?_, nofun, hShape.batch, fun _ => ?_,
      hShape.sender, fun _ => hRunning⟩
    · refine hShape.command other (List.mem_append_left _ ?_) hEvent
      rw [hChannel]
      exact (List.perm_append_singleton envelope channel).mem_iff.mp hMem
    · refine hShape.held ?_
      rcases hWriter with hWriter | hWriter <;> rw [hWriter] <;> rfl
  case deliver envelope count kind hEmpty hKind hWriter =>
    refine ⟨hShape.producer, hCommand, nofun, fun other record hRecord => ?_, fun _ => hEmpty,
      hShape.sender, fun _ => hRunning⟩
    by_cases hOther : other = kind
    · subst hOther
      dsimp only at hRecord
      rw [update_self, List.mem_append, List.mem_singleton] at hRecord
      rcases hRecord with hRecord | rfl
      · exact hShape.batch other record hRecord
      · exact hKind
    · dsimp only at hRecord
      rw [update_of_ne hOther] at hRecord
      exact hShape.batch other record hRecord
  case command envelope count hEmpty hEvent hWriter =>
    rw [hWriter] at hHand
    refine ⟨hShape.producer, hCommand, fun other hOther => ?_, hShape.batch, fun _ => hEmpty,
      hShape.sender, fun _ => hRunning⟩
    obtain rfl : envelope.author = other := Option.some.inj hOther
    exact (hHand envelope (List.mem_append_right _ (List.mem_singleton_self _)) hEvent).2
  case append kind rest after ok hWriter =>
    rw [hWriter] at hTarget
    refine ⟨hShape.producer, hCommand, hTarget, fun other record hRecord => ?_, nofun,
      hShape.sender, fun _ => hRunning⟩
    by_cases hOther : other = kind
    · subst hOther
      change record ∈ update state.batch other [] other at hRecord
      rw [update_self] at hRecord
      cases hRecord
    · change record ∈ update state.batch kind [] other at hRecord
      rw [update_of_ne hOther] at hRecord
      exact hShape.batch other record hRecord
  case reply index count operation hOperation hWriter =>
    rw [hWriter] at hHeld
    refine ⟨hShape.producer, fun envelope hMem hEvent => ?_, nofun, hShape.batch,
      fun _ => hHeld rfl, hShape.sender, fun _ => hRunning⟩
    exact (hCommand envelope hMem hEvent).imp_right fun hSent =>
      hSent.set hOperation fun _ => .inr rfl
  case stop hWriter hLabel =>
    have hIdle : state.writer.subtracts = false := by
      cases hPhase : state.writer <;> rw [hPhase] at hWriter <;> first | rfl | cases hWriter
    exact ⟨hShape.producer, hCommand, nofun, hShape.batch, fun _ => hHeld hIdle, hShape.sender,
      fun _ => hRunning⟩
  case countReceived envelope count hWriter =>
    rw [hWriter] at hHand
    exact ⟨hShape.producer, hHand, nofun, hShape.batch, nofun, hShape.sender, fun _ => hRunning⟩
  case releaseReceived envelope count entry held hEntries hWriter =>
    rw [hWriter] at hHand
    exact ⟨hShape.producer, hHand, nofun, hShape.batch, nofun, hShape.sender, fun _ => hRunning⟩
  case settled rest after hEmpty hWriter =>
    rw [hWriter] at hTarget
    exact ⟨hShape.producer, hCommand, hTarget, hShape.batch, fun _ => rfl, hShape.sender,
      fun _ => hRunning⟩
  case settle rest after entry held hEntries hWriter =>
    rw [hWriter] at hTarget
    exact ⟨hShape.producer, hCommand, hTarget, hShape.batch, nofun, hShape.sender,
      fun _ => hRunning⟩
  all_goals
    rename_i hWriter
    rw [hWriter] at hTarget hHeld
    exact ⟨hShape.producer, hCommand, hTarget, hShape.batch, hHeld, hShape.sender,
      fun _ => hRunning⟩

theorem Stops.shape (h : Stops state next) (hShape : Shape state) : Shape next := by
  have hClosed (hStop : state.stop ≠ .running) :
      ¬ (state.writer ≠ .stopped ∨ state.senderTaken = false) :=
    fun hOpen => hStop (hShape.running hOpen)
  cases h
  case begin hWriter hTaken hStop =>
    refine { hShape with running := ?_ }
    rintro (hOpen | hOpen)
    · exact absurd hWriter hOpen
    · exact absurd (hTaken.symm.trans hOpen) Bool.noConfusion
  case finish lost hStop =>
    refine ⟨hShape.producer, fun envelope hMem hEvent => ?_, hShape.target, nofun, hShape.held,
      hShape.sender, fun hOpen => absurd hOpen (hClosed (by rw [hStop]; nofun))⟩
    exact hShape.command envelope (List.mem_append_right _ hMem) hEvent
  all_goals
    rename_i hStop
    exact { hShape with running := fun hOpen => absurd hOpen (hClosed (by rw [hStop]; nofun)) }

/-- Every step keeps envelopes and parties together. -/
theorem Steps.shape (h : Steps state label next) (hShape : Shape state) : Shape next := by
  cases h
  case produce index producer changed base hProducer hProduces =>
    exact hProduces.shape hProducer hShape
  case control index operation changed base hOperation hControls =>
    exact hControls.shape hOperation hShape
  case write hWrites => exact hWrites.shape hShape
  case writerStopped hStops => exact hStops.shape hShape
  case offer kind ownedBytes capacity maxBytes =>
    refine { hShape with
      producer := ?_
      sender := fun hTaken => Entries.forall_mem_concat (hShape.sender hTaken) rfl }
    intro index producer hProducer
    rcases Entries.getElem?_concat_eq_some.mp hProducer with hProducer | ⟨-, rfl⟩
    · exact hShape.producer hProducer
    · rfl
  case request kind =>
    exact { hShape with
      command := fun envelope hMem hEvent =>
        (hShape.command envelope hMem hEvent).imp_right .append
      target := fun index hIndex => (hShape.target index hIndex).append }
  case takeSender hOutside =>
    refine { hShape with sender := fun _ producer hMem => ?_, running := ?_ }
    · have hStage := hOutside producer hMem
      unfold Producer.outside at hStage
      unfold Producer.active
      cases h : producer.stage <;> rw [h] at hStage <;> first | rfl | cases hStage
    · rintro (hOpen | hOpen)
      · exact hShape.running (.inl hOpen)
      · cases hOpen

theorem shape_initial : Shape initial where
  producer := nofun
  command := nofun
  target := nofun
  batch := nofun
  held _ := rfl
  sender := nofun
  running _ := rfl

/-- Everything but the end of the writer moves the gauges and what has been added alike. -/
theorem Steps.moves (h : Steps state label next) (hShape : Shape state) :
    Stops state next ∨ Moves state label next ∧ next.stop = state.stop := by
  cases h
  case produce index producer changed base hProducer hProduces =>
    refine .inr ⟨hProduces.moves hProducer (hShape.producer hProducer) fun hActive => ?_, ?_⟩
    · refine hShape.running (.inr ?_)
      cases hTaken : state.senderTaken with
      | false => rfl
      | true =>
        have hInactive := hShape.sender hTaken producer (List.mem_of_getElem? hProducer)
        exact absurd (hActive.symm.trans hInactive) Bool.noConfusion
    · cases hProduces <;> rfl
  case control index operation changed base hOperation hControls =>
    exact .inr ⟨hControls.moves hOperation, by cases hControls <;> rfl⟩
  case write hWrites => exact .inr ⟨hWrites.moves hShape, by cases hWrites <;> rfl⟩
  case writerStopped hStops => exact .inl hStops
  case offer kind ownedBytes capacity maxBytes | request kind =>
    refine .inr ⟨.same rfl rfl fun gauge => ?_, rfl⟩
    unfold holdings
    rw [List.map_append, List.sum_append]
    rfl
  case takeSender hOutside => exact .inr ⟨.same rfl rfl fun gauge => rfl, rfl⟩

/-- The gauges are what the parties have added, and no subtraction has taken more. -/
structure Balanced (state : TelemetryState) : Prop where
  underflow : state.counters.underflow = false
  gauges : ∀ gauge, state.stop.keeps gauge = true →
    state.counters.gauges gauge = holdings state gauge
  lost : match state.stop with
    | .swapInFlight lost => lost = holdings state .queuedRecords
    | .clearing _ lost => lost = holdings state .queuedRecords + holdings state .inFlightRecords
    | _ => True

theorem gauges_add (counters : TelemetryCounters) (entry : Entry) (gauge : Gauge) :
    (counters.add entry).gauges gauge = counters.gauges gauge + amounts [entry] gauge := by
  rw [amounts_cons, amounts_nil, Nat.add_zero]
  by_cases h : entry.1 = gauge
  · subst h
    rw [if_pos rfl]
    exact update_self ..
  · rw [if_neg h]
    exact update_of_ne (Ne.symm h) ..

theorem gauges_subtract {counters : TelemetryCounters} {entry : Entry}
    (h : entry.2 ≤ counters.gauges entry.1) (gauge : Gauge) :
    (counters.subtract entry).gauges gauge = counters.gauges gauge - amounts [entry] gauge := by
  rw [amounts_cons, amounts_nil, Nat.add_zero]
  by_cases hGauge : entry.1 = gauge
  · subst hGauge
    rw [if_pos rfl]
    exact (update_self ..).trans (if_pos h)
  · rw [if_neg hGauge]
    exact update_of_ne (Ne.symm hGauge) ..

/-- What a party takes back is there. -/
theorem Balanced.le_of_subtract (h : Balanced state) {entry : Entry}
    (hRunning : state.stop = .running)
    (hHoldings : ∀ gauge, holdings next gauge + amounts [entry] gauge = holdings state gauge) :
    entry.2 ≤ state.counters.gauges entry.1 := by
  rw [h.gauges entry.1 (by rw [hRunning]; rfl), ← hHoldings]
  exact Nat.le_add_left_of_le (le_amounts_cons entry [])

theorem Balanced.of_moves (h : Balanced state) (hMoves : Moves state label next)
    (hStop : next.stop = state.stop) : Balanced next := by
  obtain ⟨hUnderflow, hGauges, hLost⟩ := h
  cases hMoves with
  | same hSame hFlow hHoldings =>
    refine ⟨hFlow.trans hUnderflow, fun gauge hKeeps => ?_, ?_⟩
    · rw [hSame, hHoldings]
      exact hGauges gauge (hStop ▸ hKeeps)
    · rw [hStop, hHoldings, hHoldings]
      exact hLost
  | add entry hGrounds hCounters hHoldings =>
    refine ⟨?_, fun gauge hKeeps => ?_, ?_⟩
    · rw [hCounters]
      exact hUnderflow
    · rw [hCounters, gauges_add, hHoldings, hGauges gauge (hStop ▸ hKeeps)]
    · rw [hStop, hHoldings, hHoldings]
      cases hGrounds with
      | admitted hRunning _ _ _ | record hRunning _ =>
        rw [hRunning]
        trivial
      | control => exact hLost
  | subtract entry hRunning hCounters hHoldings =>
    have hAll (gauge : Gauge) : state.counters.gauges gauge = holdings state gauge :=
      hGauges gauge (by rw [hRunning]; rfl)
    have hEnough := Balanced.le_of_subtract ⟨hUnderflow, hGauges, hLost⟩ hRunning hHoldings
    refine ⟨?_, fun gauge hKeeps => ?_, ?_⟩
    · rw [hCounters]
      change (state.counters.underflow || decide (state.counters.gauges entry.1 < entry.2)) = false
      rw [hUnderflow, decide_eq_false (Nat.not_lt.mpr hEnough)]
      rfl
    · rw [hCounters, gauges_subtract hEnough, hAll, ← hHoldings, Nat.add_sub_cancel]
    · rw [hStop, hRunning]
      trivial

/-- The writer takes its leave with the records that nobody else will count. -/
theorem Balanced.of_stops (h : Balanced state) (hStops : Stops state next) : Balanced next := by
  obtain ⟨hUnderflow, hGauges, hLost⟩ := h
  cases hStops
  case begin hWriter hTaken hStop =>
    rw [hStop] at hGauges
    exact ⟨hUnderflow, hGauges, trivial⟩
  case swapQueued hStop =>
    rw [hStop] at hGauges
    refine ⟨hUnderflow, fun gauge hKeeps => ?_, hGauges .queuedRecords rfl⟩
    have hGauge : gauge ≠ .queuedRecords := of_decide_eq_true hKeeps
    exact (update_of_ne hGauge ..).trans (hGauges gauge rfl)
  case swapInFlight lost hStop =>
    rw [hStop] at hGauges hLost
    exact ⟨hUnderflow, nofun, congrArg₂ _ hLost (hGauges .inFlightRecords rfl)⟩
  case clear gauge rest lost hStop =>
    rw [hStop] at hLost
    exact ⟨hUnderflow, nofun, hLost⟩
  case finish lost hStop => exact ⟨hUnderflow, nofun, trivial⟩

theorem balanced_initial : Balanced initial where
  underflow := rfl
  gauges gauge _ := by cases gauge <;> rfl
  lost := trivial

/-- Every step keeps the gauges balanced. -/
theorem Steps.balanced (h : Steps state label next) (hShape : Shape state)
    (hBalanced : Balanced state) : Balanced next := by
  rcases h.moves hShape with hStops | ⟨hMoves, hStop⟩
  · exact hBalanced.of_stops hStops
  · exact hBalanced.of_moves hMoves hStop

theorem Stops.gauges_le (h : Stops state next) (gauge : Gauge) :
    next.counters.gauges gauge ≤ state.counters.gauges gauge := by
  have hSet (other : Gauge) :
      (state.counters.set other 0).gauges gauge ≤ state.counters.gauges gauge := by
    unfold TelemetryCounters.set
    dsimp only
    rw [update_apply]
    split
    · exact Nat.zero_le _
    · exact Nat.le_refl _
  cases h
  case begin | finish => exact Nat.le_refl _
  all_goals exact hSet _

/-- A slot or byte gauge only goes up for a control operation and where it stays within the limit
it has been compared with. -/
theorem Steps.admission (h : Steps state label next) (hShape : Shape state)
    (hBalanced : Balanced state) {gauge : Gauge}
    (hMore : state.counters.gauges gauge < next.counters.gauges gauge) :
    gauge = .queuedRecords ∨ gauge = .inFlightRecords ∨
      (∃ actor, label = .reserveControlSlot actor) ∨
      ∃ (index : Nat) (producer : Producer) (reservation : Reservation),
        state.producers[index]? = some producer ∧ reservation ∈ producer.reservations ∧
        reservation.gauge = gauge ∧ next.counters.gauges gauge ≤ reservation.limit := by
  rcases h.moves hShape with hStops | ⟨hMoves, hStop⟩
  · exact absurd hMore (Nat.not_lt.mpr (hStops.gauges_le gauge))
  cases hMoves with
  | same hSame hFlow hHoldings => exact absurd (hSame ▸ hMore) (Nat.lt_irrefl _)
  | add entry hGrounds hCounters hHoldings =>
    rw [hCounters, gauges_add, amounts_cons] at hMore
    have hGauge : entry.1 = gauge := by
      by_contra hOther
      rw [if_neg hOther] at hMore
      exact Nat.lt_irrefl _ hMore
    subst hGauge
    cases hGrounds with
    | @admitted actor index producer reservation hRunning hProducer hListed hRoom =>
      refine .inr (.inr (.inr ⟨index, producer, reservation, hProducer, hListed, rfl, ?_⟩))
      rw [hCounters, gauges_add, amounts_cons, if_pos rfl]
      exact hRoom
    | record hRunning hRecord => exact hRecord.imp_right .inl
    | control => exact .inr (.inr (.inl ⟨_, rfl⟩))
  | subtract entry hRunning hCounters hHoldings =>
    have hEnough := hBalanced.le_of_subtract hRunning hHoldings
    rw [hCounters, gauges_subtract hEnough] at hMore
    exact absurd hMore (Nat.not_lt.mpr (Nat.sub_le ..))

/-- What the gauges are to count. -/
def contents (state : TelemetryState) : Gauge → Nat
  | .queueSlots => state.channel.length
  | .gatewayAuthRejectedQueueSlots => (state.channel.filter (·.isRejected)).length
  | .ownedBytes => sumOwnedBytes state.unfinished
  | .gatewayAuthRejectedOwnedBytes => sumOwnedBytes (state.unfinished.filter (·.isRejected))
  | .queuedRecords => (state.channel.filter (·.isRecord)).length
  | .inFlightRecords => (BatchKind.all.flatMap state.batch).length

/-- What envelopes in the channel count for. -/
def channelContents (channel : List TelemetryEnvelope) : Gauge → Nat
  | .queueSlots => channel.length
  | .gatewayAuthRejectedQueueSlots => (channel.filter (·.isRejected)).length
  | .ownedBytes => sumOwnedBytes (channel.filter (·.isRecord))
  | .gatewayAuthRejectedOwnedBytes =>
    sumOwnedBytes ((channel.filter (·.isRecord)).filter (·.isRejected))
  | .queuedRecords => (channel.filter (·.isRecord)).length
  | .inFlightRecords => 0

/-- What records in the batch count for. -/
def batchContents (records : List TelemetryEnvelope) : Gauge → Nat
  | .queueSlots | .gatewayAuthRejectedQueueSlots | .queuedRecords => 0
  | .ownedBytes => sumOwnedBytes records
  | .gatewayAuthRejectedOwnedBytes => sumOwnedBytes (records.filter (·.isRejected))
  | .inFlightRecords => records.length

theorem contents_eq (state : TelemetryState) (gauge : Gauge) :
    contents state gauge = channelContents state.channel gauge +
      batchContents (BatchKind.all.flatMap state.batch) gauge := by
  have hBytes (first second : List TelemetryEnvelope) :
      sumOwnedBytes (first ++ second) = sumOwnedBytes first + sumOwnedBytes second := by
    unfold sumOwnedBytes
    rw [List.map_append, List.sum_append]
  cases gauge with
  | ownedBytes => exact hBytes ..
  | gatewayAuthRejectedOwnedBytes =>
    change sumOwnedBytes (List.filter _ (_ ++ _)) = _
    rw [List.filter_append]
    exact hBytes ..
  | inFlightRecords => exact (Nat.zero_add _).symm
  | _ => rfl

variable (envelope : TelemetryEnvelope)

theorem amounts_inChannel (gauge : Gauge) :
    amounts envelope.inChannel gauge =
      match gauge with
      | .queueSlots => 1
      | .gatewayAuthRejectedQueueSlots => if envelope.isRejected then 1 else 0
      | .ownedBytes => envelope.ownedBytes
      | .gatewayAuthRejectedOwnedBytes => if envelope.isRejected then envelope.ownedBytes else 0
      | .queuedRecords => envelope.event.recordCount
      | .inFlightRecords => 0 := by
  unfold TelemetryEnvelope.inChannel TelemetryEnvelope.isRejected
  cases envelope.event.queueClass <;> cases gauge <;>
    simp [sendFailed, received, gatewayAuthRejectedSlot, releaseOwnedBytes]

theorem amounts_inBatch (gauge : Gauge) :
    amounts envelope.inBatch gauge =
      match gauge with
      | .queueSlots | .gatewayAuthRejectedQueueSlots | .queuedRecords => 0
      | .ownedBytes => envelope.ownedBytes
      | .gatewayAuthRejectedOwnedBytes => if envelope.isRejected then envelope.ownedBytes else 0
      | .inFlightRecords => envelope.event.recordCount := by
  unfold TelemetryEnvelope.inBatch TelemetryEnvelope.isRejected
  cases envelope.event.queueClass <;> cases gauge <;> simp [releaseOwnedBytes]

theorem isRecord_iff : envelope.isRecord = true ↔ BatchKind.ofEvent envelope.event ≠ none := by
  unfold TelemetryEnvelope.isRecord
  cases envelope.event <;> simp [TelemetryEvent.recordCount, BatchKind.ofEvent]

theorem command_of_not_isRecord {envelope : TelemetryEnvelope} (h : envelope.isRecord = false) :
    BatchKind.ofEvent envelope.event = none ∧ envelope.event.recordCount = 0 ∧
      envelope.isRejected = false := by
  unfold TelemetryEnvelope.isRecord at h
  unfold TelemetryEnvelope.isRejected
  cases hEvent : envelope.event <;> rw [hEvent] at h <;>
    first | exact ⟨rfl, rfl, rfl⟩ | exact absurd h nofun

theorem amounts_channel {channel : List TelemetryEnvelope}
    (hCommand : ∀ envelope ∈ channel, BatchKind.ofEvent envelope.event = none →
      envelope.ownedBytes = 0) (gauge : Gauge) :
    (channel.map fun envelope => amounts envelope.inChannel gauge).sum =
      channelContents channel gauge := by
  induction channel with
  | nil => cases gauge <;> rfl
  | cons envelope rest ih =>
    rw [List.map_cons, List.sum_cons, amounts_inChannel, ih fun other hOther =>
      hCommand other (List.mem_cons_of_mem _ hOther)]
    cases hRecord : envelope.isRecord with
    | false =>
      obtain ⟨hEvent, hCount, hRejected⟩ := command_of_not_isRecord hRecord
      have hBytes := hCommand envelope List.mem_cons_self hEvent
      cases gauge <;>
        simp [channelContents, hRecord, hCount, hRejected, hBytes, Nat.add_comm]
    | true =>
      have hCount : envelope.event.recordCount = 1 := of_decide_eq_true hRecord
      cases hRejected : envelope.isRejected <;> cases gauge <;>
        simp [channelContents, hRecord, hCount, hRejected, sumOwnedBytes, Nat.add_comm]

theorem amounts_batch {records : List TelemetryEnvelope}
    (hRecords : ∀ record ∈ records, record.isRecord = true) (gauge : Gauge) :
    (records.map fun record => amounts record.inBatch gauge).sum = batchContents records gauge := by
  induction records with
  | nil => cases gauge <;> rfl
  | cons record rest ih =>
    have hCount : record.event.recordCount = 1 :=
      of_decide_eq_true (hRecords record List.mem_cons_self)
    rw [List.map_cons, List.sum_cons, amounts_inBatch, ih fun other hOther =>
      hRecords other (List.mem_cons_of_mem _ hOther)]
    cases hRejected : record.isRejected <;> cases gauge <;>
      simp [batchContents, hCount, hRejected, sumOwnedBytes, Nat.add_comm]

theorem Shape.isRecord (hShape : Shape state) (kind : BatchKind) :
    ∀ record ∈ state.batch kind, record.isRecord = true := by
  intro record hRecord
  refine (isRecord_iff record).mpr ?_
  rw [hShape.batch kind record hRecord]
  nofun

/-- When nobody is between two updates, what has been added is what there is. -/
theorem holdings_eq_contents {gauge : Gauge} (hShape : Shape state)
    (hProducers : ∀ producer ∈ state.producers, producer.active = false)
    (hControls : ∀ operation ∈ state.controls, amounts operation.held gauge = 0)
    (hWriter : state.writer.awaits = true ∨ state.writer = .stopped) :
    holdings state gauge = contents state gauge := by
  have hProducer : (state.producers.map fun producer => amounts producer.held gauge).sum = 0 := by
    refine List.sum_eq_zero fun amount hAmount => ?_
    obtain ⟨producer, hMem, rfl⟩ := List.mem_map.mp hAmount
    obtain ⟨index, hIndex⟩ := List.mem_iff_getElem?.mp hMem
    have hSound := hShape.producer hIndex
    have hActive := hProducers producer hMem
    unfold Producer.Sound at hSound
    unfold Producer.active at hActive
    cases hStage : producer.stage <;> rw [hStage] at hSound hActive <;>
      first | (rw [show producer.held = [] from hSound]; rfl) | cases hActive
  have hControl : (state.controls.map fun operation => amounts operation.held gauge).sum = 0 := by
    refine List.sum_eq_zero fun amount hAmount => ?_
    obtain ⟨operation, hMem, rfl⟩ := List.mem_map.mp hAmount
    exact hControls operation hMem
  have hBatch : (BatchKind.all.map fun kind =>
      ((state.batch kind).map fun record => amounts record.inBatch gauge).sum).sum =
        batchContents (BatchKind.all.flatMap state.batch) gauge := by
    rw [← amounts_batch fun record hRecord => by
      obtain ⟨kind, -, hRecord⟩ := List.mem_flatMap.mp hRecord
      exact hShape.isRecord kind record hRecord, sum_batches]
  have hRest : state.writer.hand = [] ∧ state.writerHeld = [] := by
    rcases hWriter with hWriter | hWriter
    · have hHeld := hShape.held
      cases hPhase : state.writer <;> rw [hPhase] at hWriter hHeld <;>
        first | exact ⟨rfl, hHeld rfl⟩ | cases hWriter
    · exact ⟨by rw [hWriter]; rfl, hShape.held (by rw [hWriter]; rfl)⟩
  have hChannel := amounts_channel (fun envelope hMem hEvent =>
    (hShape.command envelope (List.mem_append_left _ hMem) hEvent).1) gauge
  rw [contents_eq, holdings, hProducer, hControl, hBatch, hRest.1, hRest.2, hChannel]
  simp

end TelemetryState

end Any2Api.Runtime.Telemetry
