import Any2Api.Runtime.Telemetry.Accounts

/-! What becomes of the records. A record whose call is over is in the channel, in the hands of the
writer, in the batch or among those that have been counted, and in one of these places only. -/
namespace Any2Api.Runtime.Telemetry

open Runs Ledger

/-- The records of a call that is over, or that only has to take back what it has added. -/
def ProducerStage.share : ProducerStage → Nat
  | .releasing | .done _ => 1
  | _ => 0

theorem share_of_entering {kind : RecordKind} {stage : ProducerStage}
    (h : stage = if kind = .oauthRequest then .sequenced else .offered) : stage.share = 0 := by
  subst h
  split <;> rfl

/-- The envelope is the record of a producer. -/
def TelemetryEnvelope.occurrence (index : Nat) (envelope : TelemetryEnvelope) : Nat :=
  if envelope.isRecord = true ∧ envelope.author = index then 1 else 0

theorem occurrence_of_command {envelope : TelemetryEnvelope}
    (h : BatchKind.ofEvent envelope.event = none) (index : Nat) : envelope.occurrence index = 0 :=
  if_neg fun hRecord => (TelemetryState.isRecord_iff envelope).mp hRecord.1 h

theorem occurrence_of_record {envelope : TelemetryEnvelope} (h : envelope.isRecord = true)
    (index : Nat) : envelope.occurrence index = if envelope.author = index then 1 else 0 := by
  unfold TelemetryEnvelope.occurrence
  simp only [h, true_and]

namespace TelemetryState

variable {state base next : TelemetryState} {index other : Nat} {producer changed : Producer}
  {operation : Control} {label : TelemetryLabel}

/-- How often a fate of a producer's record is known. -/
def counts (fates : List (Nat × Bool)) (index : Nat) : Nat :=
  (fates.map fun fate => if fate.1 = index then 1 else 0).sum

def occurrences (state : TelemetryState) (index : Nat) : Nat :=
  counts state.fates index +
    (state.channel.map (TelemetryEnvelope.occurrence index)).sum +
    (state.writer.envelopes.map (TelemetryEnvelope.occurrence index)).sum +
    (BatchKind.all.map fun kind =>
      ((state.batch kind).map (TelemetryEnvelope.occurrence index)).sum).sum

theorem counts_append (first second : List (Nat × Bool)) (index : Nat) :
    counts (first ++ second) index = counts first index + counts second index := by
  unfold counts
  rw [List.map_append, List.sum_append]

/-- The number of records with an outcome. -/
def tally (fates : List (Nat × Bool)) (persisted : Bool) : Nat :=
  (fates.map Prod.snd).count persisted

theorem tally_append (first second : List (Nat × Bool)) (persisted : Bool) :
    tally (first ++ second) persisted = tally first persisted + tally second persisted := by
  unfold tally
  rw [List.map_append, List.count_append]

theorem tally_records (records : List TelemetryEnvelope) (ok persisted : Bool) :
    tally (records.map fun record => (record.author, ok)) persisted =
      if ok == persisted then records.length else 0 := by
  unfold tally
  rw [List.map_map]
  change (records.map fun _ => ok).count persisted = _
  rw [List.map_const', List.count_replicate]

theorem counts_records {records : List TelemetryEnvelope}
    (h : ∀ record ∈ records, record.isRecord = true) (ok : Bool) (index : Nat) :
    counts (records.map fun record => (record.author, ok)) index =
      (records.map (TelemetryEnvelope.occurrence index)).sum := by
  unfold counts
  rw [List.map_map]
  exact congrArg List.sum (List.map_congr_left fun record hRecord =>
    (occurrence_of_record (h record hRecord) index).symm)

/-- The counters of records that are finished, and where the others are. -/
structure Counted (state : TelemetryState) : Prop where
  dropped : state.counters.droppedRecords = tally state.fates false
  persisted : state.counters.persistedRecords = tally state.fates true
  once : ∀ index, occurrences state index = (state.producers[index]?.elim 0 (·.stage.share))
  swept : state.stop = .stopped →
    (∀ envelope ∈ state.channel, BatchKind.ofEvent envelope.event = none) ∧
      ∀ kind, state.batch kind = []

/-- A producer leaves its record in one more place when its call is over. -/
theorem Produces.occurs (h : Produces state index producer label base changed) (other : Nat) :
    occurrences base other + (if index = other then producer.stage.share else 0) =
      occurrences state other + (if index = other then changed.stage.share else 0) := by
  have hDrop : occurrences (state.dropRecord index) other =
      occurrences state other + (if index = other then 1 else 0) := by
    unfold occurrences dropRecord
    dsimp only
    rw [counts_append]
    change counts state.fates other + (if index = other then 1 else 0) + _ + _ + _ = _
    omega
  have hNone (hShare : producer.stage.share = 0) :
      (if index = other then producer.stage.share else 0) = 0 := by
    rw [hShare, ite_self]
  cases h
  case reject hStage | dropFailed hStage =>
    rw [hNone (by rw [hStage]; rfl)]
    exact hDrop
  case send hOpen hStage =>
    have hRecord : (producer.envelope index).isRecord = true :=
      decide_eq_true (recordCount_event producer)
    rw [hNone (by rw [hStage]; rfl)]
    unfold occurrences
    dsimp only
    rw [List.map_append, List.sum_append, List.map_cons, List.map_nil, List.sum_singleton,
      occurrence_of_record hRecord]
    change _ + (_ + if index = other then 1 else 0) + _ + _ + 0 = _ + if index = other then 1 else 0
    omega
  case findNoSender hTaken hStage | findSender hTaken hStage =>
    rw [share_of_entering hStage]
    rfl
  all_goals
    rename_i hStage
    exact (congrArg (fun stage => occurrences state other +
      if index = other then ProducerStage.share stage else 0) hStage).trans rfl

theorem once_setProducer (hProducer : state.producers[index]? = some producer)
    (hProducers : base.producers = state.producers)
    (hOccurs : occurrences base other + (if index = other then producer.stage.share else 0) =
      occurrences state other + (if index = other then changed.stage.share else 0))
    (h : occurrences state other = (state.producers[other]?.elim 0 (·.stage.share))) :
    occurrences (base.setProducer index changed) other =
      ((base.setProducer index changed).producers[other]?.elim 0 (·.stage.share)) := by
  change occurrences base other =
    ((base.producers.set index changed)[other]?.elim 0 (·.stage.share))
  rw [hProducers]
  by_cases hOther : index = other
  · subst hOther
    rw [if_pos rfl, if_pos rfl, h, hProducer] at hOccurs
    rw [List.getElem?_set_self (List.getElem?_eq_some_iff.mp hProducer).1]
    exact Nat.add_right_cancel (hOccurs.trans (Nat.add_comm ..))
  · rw [if_neg hOther, if_neg hOther] at hOccurs
    rw [List.getElem?_set_ne hOther, ← h]
    exact hOccurs

theorem Produces.counted (h : Produces state index producer label base changed)
    (hProducer : state.producers[index]? = some producer) (hShape : Shape state)
    (hCounted : Counted state) : Counted (base.setProducer index changed) := by
  obtain ⟨hDropped, hPersisted, hOnce, hSwept⟩ := hCounted
  have hOccurs := fun other => once_setProducer hProducer h.producers_eq (h.occurs other)
    (hOnce other)
  have hDrop : state.counters.droppedRecords + 1 =
      tally (state.fates ++ [(index, false)]) false := by
    rw [tally_append, hDropped]
    rfl
  have hKeep : state.counters.persistedRecords = tally (state.fates ++ [(index, false)]) true := by
    rw [tally_append, hPersisted]
    rfl
  cases h
  case reject hStage | dropFailed hStage => exact ⟨hDrop, hKeep, hOccurs, hSwept⟩
  case send hOpen hStage =>
    refine ⟨hDropped, hPersisted, hOccurs, fun hStop => ?_⟩
    have hRunning : state.stop = .running := hShape.running (.inl hOpen)
    exact absurd (hStop.symm.trans hRunning) nofun
  all_goals exact ⟨hDropped, hPersisted, hOccurs, hSwept⟩

theorem Controls.counted {changed : Control} (h : Controls state index operation label base changed)
    (hCounted : Counted state) : Counted (base.setControl index changed) := by
  obtain ⟨hDropped, hPersisted, hOnce, hSwept⟩ := hCounted
  cases h
  case sendControl hStage =>
    have hCommand : BatchKind.ofEvent (operation.envelope index).event = none := by
      unfold Control.envelope Control.event
      cases operation.kind <;> rfl
    refine ⟨hDropped, hPersisted, fun other => Eq.trans ?_ (hOnce other), fun hStop => ⟨?_, ?_⟩⟩
    · unfold occurrences setControl
      rw [List.map_append, List.sum_append, List.map_cons, List.map_nil, List.sum_singleton,
        occurrence_of_command hCommand]
      rfl
    · exact Entries.forall_mem_concat (hSwept hStop).1 hCommand
    · exact (hSwept hStop).2
  all_goals exact ⟨hDropped, hPersisted, hOnce, hSwept⟩

/-- The writer moves records from one place to the next. -/
theorem Writes.occurs (h : Writes state label next) (hShape : Shape state) (index : Nat) :
    occurrences next index = occurrences state index := by
  cases h
  case receive envelope channel count hChannel hWriter =>
    have hHand : state.writer.envelopes = [] := by
      rcases hWriter with hWriter | hWriter <;> rw [hWriter] <;> rfl
    unfold occurrences
    rw [hChannel, hHand]
    simp only [WriterPhase.envelopes, List.map_cons, List.map_nil, List.sum_cons, List.sum_nil]
    omega
  case deliver envelope count kind hEmpty hKind hWriter =>
    have hBatch := holdings_batch state.batch kind (state.batch kind ++ [envelope])
      (TelemetryEnvelope.occurrence index)
    unfold occurrences
    rw [hWriter]
    simp only [WriterPhase.envelopes, List.map_append, List.map_cons, List.map_nil,
      List.sum_append, List.sum_singleton, List.sum_nil] at hBatch ⊢
    omega
  case command envelope count hEmpty hEvent hWriter =>
    unfold occurrences
    rw [hWriter]
    simp only [WriterPhase.envelopes, List.map_cons, List.map_nil, List.sum_singleton,
      List.sum_nil, occurrence_of_command hEvent]
  case append kind rest after ok hWriter =>
    have hBatch := holdings_batch state.batch kind [] (TelemetryEnvelope.occurrence index)
    have hFates := counts_records (hShape.isRecord kind) ok index
    unfold occurrences TelemetryState.append
    rw [hWriter]
    simp only [WriterPhase.envelopes, counts_append, List.map_nil, List.sum_nil] at hBatch ⊢
    omega
  case stop hWriter hLabel =>
    have hHand : state.writer.envelopes = [] := by
      cases hPhase : state.writer <;> rw [hPhase] at hWriter <;> first | rfl | cases hWriter
    unfold occurrences
    rw [hHand]
    rfl
  case releaseReceived hWriter | settle hWriter =>
    unfold occurrences
    rw [hWriter]
  all_goals
    rename_i hWriter
    unfold occurrences
    rw [hWriter]
    rfl

theorem Writes.counted (h : Writes state label next) (hShape : Shape state)
    (hCounted : Counted state) : Counted next := by
  have hOnce (index : Nat) : occurrences next index =
      (state.producers[index]?.elim 0 (·.stage.share)) :=
    (h.occurs hShape index).trans (hCounted.once index)
  have hSwept (hStop : state.stop = .stopped) : False :=
    absurd (hStop.symm.trans (hShape.running (.inl h.writer_ne))) nofun
  cases h
  case append kind rest after ok hWriter =>
    refine ⟨?_, ?_, hOnce, fun hStop => (hSwept hStop).elim⟩
    · unfold TelemetryState.append
      rw [tally_append, tally_records, ← hCounted.dropped]
      cases ok <;> rfl
    · unfold TelemetryState.append
      rw [tally_append, tally_records, ← hCounted.persisted]
      cases ok <;> rfl
  all_goals
    exact ⟨hCounted.dropped, hCounted.persisted, hOnce, fun hStop => (hSwept hStop).elim⟩

theorem occurrences_unfinished (state : TelemetryState) (index : Nat) :
    (state.unfinished.map (TelemetryEnvelope.occurrence index)).sum =
      (state.channel.map (TelemetryEnvelope.occurrence index)).sum +
        (BatchKind.all.map fun kind =>
          ((state.batch kind).map (TelemetryEnvelope.occurrence index)).sum).sum := by
  have hFilter (channel : List TelemetryEnvelope) :
      ((channel.filter (·.isRecord)).map (TelemetryEnvelope.occurrence index)).sum =
        (channel.map (TelemetryEnvelope.occurrence index)).sum := by
    induction channel with
    | nil => rfl
    | cons envelope rest ih =>
      cases hRecord : envelope.isRecord with
      | false =>
        have hCommand := (command_of_not_isRecord hRecord).1
        rw [List.filter_cons_of_neg (by simp [hRecord]), List.map_cons, List.sum_cons, ih,
          occurrence_of_command hCommand, Nat.zero_add]
      | true =>
        rw [List.filter_cons_of_pos hRecord, List.map_cons, List.sum_cons, List.map_cons,
          List.sum_cons, ih]
  unfold unfinished
  rw [List.map_append, List.sum_append, sum_batches]
  exact congrArg (· + _) (hFilter state.channel)

theorem Shape.closed (hShape : Shape state) (hStop : state.stop ≠ .running) :
    state.writer = .stopped ∧ state.senderTaken = true := by
  refine ⟨?_, ?_⟩
  · by_contra hWriter
    exact hStop (hShape.running (.inl hWriter))
  · cases hTaken : state.senderTaken with
    | true => rfl
    | false => exact absurd (hShape.running (.inr hTaken)) hStop

/-- After the end of the writer, control operations only have slots. -/
theorem holdings_of_closed (hShape : Shape state) (hStop : state.stop ≠ .running) {gauge : Gauge}
    (hGauge : gauge ≠ .queueSlots) : holdings state gauge = contents state gauge := by
  obtain ⟨hWriter, hTaken⟩ := hShape.closed hStop
  refine holdings_eq_contents hShape (hShape.sender hTaken) (fun operation _ => ?_) (.inr hWriter)
  unfold Control.held
  split
  · rw [amounts_cons, if_neg (Ne.symm hGauge)]
    rfl
  · rfl

/-- What `writer_stopped` counts as dropped is what is left. -/
theorem Stops.counted (h : Stops state next) (hShape : Shape state) (hBalanced : Balanced state)
    (hCounted : Counted state) : Counted next := by
  obtain ⟨hDropped, hPersisted, hOnce, hSwept⟩ := hCounted
  cases h
  case finish lost hStop =>
    have hLost := hBalanced.lost
    have hEnded : state.stop ≠ .running := by
      rw [hStop]
      nofun
    rw [hStop] at hLost
    have hUnfinished : lost = state.unfinished.length := by
      have hQueued : Gauge.queuedRecords ≠ .queueSlots := nofun
      have hInFlight : Gauge.inFlightRecords ≠ .queueSlots := nofun
      rw [hLost, holdings_of_closed hShape hEnded hQueued,
        holdings_of_closed hShape hEnded hInFlight]
      exact List.length_append.symm
    have hRecords : ∀ record ∈ state.unfinished, record.isRecord = true := by
      intro record hRecord
      rcases List.mem_append.mp hRecord with hRecord | hRecord
      · exact (List.mem_filter.mp hRecord).2
      · obtain ⟨kind, -, hRecord⟩ := List.mem_flatMap.mp hRecord
        exact hShape.isRecord kind record hRecord
    refine ⟨?_, ?_, fun index => Eq.trans ?_ (hOnce index), fun _ => ⟨nofun, fun kind => rfl⟩⟩
    · rw [tally_append, tally_records, ← hDropped, hUnfinished]
      rfl
    · rw [tally_append, tally_records, ← hPersisted]
      rfl
    · unfold occurrences
      rw [counts_append, counts_records hRecords, occurrences_unfinished, (hShape.closed hEnded).1]
      simp only [WriterPhase.envelopes, List.map_nil, List.sum_nil, List.map_const', Nat.add_zero]
      rw [List.sum_replicate, smul_zero]
      omega
  all_goals
    rename_i hStop
    exact ⟨hDropped, hPersisted, hOnce, nofun⟩

theorem Steps.counted (h : Steps state label next) (hShape : Shape state)
    (hBalanced : Balanced state) (hCounted : Counted state) : Counted next := by
  cases h
  case produce index producer changed base hProducer hProduces =>
    exact hProduces.counted hProducer hShape hCounted
  case control index operation changed base hOperation hControls => exact hControls.counted hCounted
  case write hWrites => exact hWrites.counted hShape hCounted
  case writerStopped hStops => exact hStops.counted hShape hBalanced hCounted
  case offer kind ownedBytes capacity maxBytes =>
    refine { hCounted with once := fun index => (hCounted.once index).trans ?_ }
    rw [List.getElem?_append]
    split
    · rfl
    · rename_i hEnd
      rw [List.getElem?_eq_none (Nat.le_of_not_lt hEnd), List.getElem?_singleton]
      split <;> rfl
  case request kind | takeSender hOutside => exact { hCounted with }

theorem counted_initial : Counted initial where
  dropped := rfl
  persisted := rfl
  once _ := rfl
  swept := nofun

/-- The invariants of the pipeline. -/
structure Accounted (state : TelemetryState) : Prop where
  shape : Shape state
  balanced : Balanced state
  counted : Counted state

theorem Steps.accounted (h : Steps state label next) (hAccounted : Accounted state) :
    Accounted next :=
  ⟨h.shape hAccounted.shape, h.balanced hAccounted.shape hAccounted.balanced,
    h.counted hAccounted.shape hAccounted.balanced hAccounted.counted⟩

theorem accounted_initial : Accounted initial := ⟨shape_initial, balanced_initial, counted_initial⟩

theorem accounted_of_run {labels : List TelemetryLabel}
    (hRun : run step labels initial = some state) : Accounted state :=
  invariant_of_run (fun _ _ _ h hStep => (steps_of_step hStep).accounted h) accounted_initial hRun

/-- Nobody is between two updates of the counters. -/
def Quiet (state : TelemetryState) : Prop :=
  (∀ producer ∈ state.producers, producer.active = false) ∧
    (∀ operation ∈ state.controls, operation.stage ≠ .slotted) ∧
    (state.writer.awaits = true ∨ state.writer = .stopped)

instance (state : TelemetryState) : Decidable (Quiet state) :=
  inferInstanceAs (Decidable (_ ∧ _ ∧ _))

theorem Accounted.gauges (h : Accounted state) (hRunning : state.stop = .running)
    (hQuiet : Quiet state) (gauge : Gauge) :
    state.counters.gauges gauge = contents state gauge := by
  rw [h.balanced.gauges gauge (by rw [hRunning]; rfl)]
  refine holdings_eq_contents h.shape hQuiet.1 (fun operation hMem => ?_) hQuiet.2.2
  rw [Control.held_of_ne (hQuiet.2.1 operation hMem)]
  rfl

/-- After the end of the writer, the records of the calls that are over have been counted. -/
theorem Accounted.counts_eq (h : Accounted state) (hStopped : state.stop = .stopped) (index : Nat) :
    counts state.fates index = (state.producers[index]?.elim 0 (·.stage.share)) := by
  obtain ⟨hChannel, hBatch⟩ := h.counted.swept hStopped
  have hWriter := (h.shape.closed (by rw [hStopped]; nofun)).1
  have hOnce := h.counted.once index
  have hCommands : (state.channel.map (TelemetryEnvelope.occurrence index)).sum = 0 := by
    refine List.sum_eq_zero fun amount hAmount => ?_
    obtain ⟨envelope, hMem, rfl⟩ := List.mem_map.mp hAmount
    exact occurrence_of_command (hChannel envelope hMem) index
  unfold occurrences at hOnce
  rw [hCommands, hWriter] at hOnce
  simp only [hBatch, WriterPhase.envelopes, List.map_nil, List.sum_nil, List.map_const',
    Nat.add_zero] at hOnce
  rw [← hOnce, List.sum_replicate, smul_zero]
  rfl

theorem counts_eq_count (fates : List (Nat × Bool)) (index : Nat) :
    counts fates index = (fates.map Prod.fst).count index := by
  unfold counts
  induction fates with
  | nil => rfl
  | cons fate rest ih =>
    rw [List.map_cons, List.sum_cons, ih, List.map_cons, List.count_cons, Nat.add_comm]
    simp only [beq_iff_eq]

theorem Accounted.perm (h : Accounted state) (hStopped : state.stop = .stopped)
    (hDone : ∀ producer ∈ state.producers, ∃ accepted, producer.stage = .done accepted) :
    (state.fates.map Prod.fst).Perm (List.range state.producers.length) := by
  refine List.perm_iff_count.mpr fun index => ?_
  rw [← counts_eq_count, h.counts_eq hStopped, List.count_range]
  by_cases hIndex : index < state.producers.length
  · obtain ⟨accepted, hStage⟩ := hDone _ (List.getElem_mem hIndex)
    rw [List.getElem?_eq_getElem hIndex, if_pos hIndex, Option.elim_some, hStage]
    rfl
  · rw [List.getElem?_eq_none (Nat.le_of_not_lt hIndex), if_neg hIndex, Option.elim_none]

/-- In every run no subtraction underflows and no admission goes over the limit it has been
compared with. Where nobody is between two updates, the gauges count what there is. After the end
of the writer every record whose call is over has been counted once, as persisted or dropped. -/
theorem telemetry_accounts {labels : List TelemetryLabel}
    (hRun : run step labels initial = some state) :
    state.counters.underflow = false ∧
    (state.stop = .running → Quiet state →
      ∀ gauge, state.counters.gauges gauge = contents state gauge) ∧
    (∀ label next gauge, step state label = some next →
      state.counters.gauges gauge < next.counters.gauges gauge →
      gauge = .queuedRecords ∨ gauge = .inFlightRecords ∨
        (∃ actor, label = .reserveControlSlot actor) ∨
        ∃ (index : Nat) (producer : Producer) (reservation : Reservation),
          state.producers[index]? = some producer ∧ reservation ∈ producer.reservations ∧
          reservation.gauge = gauge ∧ next.counters.gauges gauge ≤ reservation.limit) ∧
    state.counters.droppedRecords = tally state.fates false ∧
    state.counters.persistedRecords = tally state.fates true ∧
    (state.stop = .stopped →
      (∀ producer ∈ state.producers, ∃ accepted, producer.stage = .done accepted) →
      (state.fates.map Prod.fst).Perm (List.range state.producers.length)) := by
  have h := accounted_of_run hRun
  refine ⟨h.balanced.underflow, h.gauges, fun label next gauge hStep hMore => ?_,
    h.counted.dropped, h.counted.persisted, h.perm⟩
  exact (steps_of_step hStep).admission h.shape h.balanced hMore

/-- A request of an account and a rejected access are recorded, another request finds no slot, and
a quota observation is on its way when the writer has taken the first record. -/
def recordedEvents : List TelemetryLabel :=
  [.offer .oauthRequest 10 8 100, .offer (.httpAccess true) 5 8 100, .offer .request 7 1 100,
    .assign 0, .enter 0, .reserve 0, .reserve 0, .enqueue 0, .send 0 true,
    .enter 1, .reserve 1, .reserve 1, .reserve 1, .reserve 1, .enqueue 1, .send 1 true,
    .enter 2, .reserve 2, .rollBack 2, .reject 2,
    .request .quotaObservation, .observe 0, .clone 0, .reservePermit 0, .reserveControlSlot 0,
    .sendControl 0,
    .receive, .countReceived, .releaseReceived, .releaseReceived, .deliver]

/-- The observation flushes, which storage refuses for the access. -/
def flushedEvents : List TelemetryLabel :=
  [.receive, .countReceived, .releaseReceived, .releaseReceived, .releaseReceived, .deliver,
    .receive, .countReceived, .releaseReceived, .releaseReceived, .deliver,
    .flush, .append true, .settle, .settle, .settle, .settle,
    .flush, .append false, .settle, .settle, .settle, .settle, .flush, .afterFlush]

/-- One more record is in the channel when the writer is aborted. -/
def stoppedEvents : List TelemetryLabel :=
  [.offer .gatewayKey 3 8 100, .enter 3, .reserve 3, .reserve 3, .enqueue 3, .send 3 true,
    .takeSender, .abort] ++ List.replicate 8 .writerStopped

/-- Of four records one is persisted, and three are dropped by the time the writer is stopped. -/
theorem telemetry_accounts_of_stopped :
    ∃ middle final, run step recordedEvents initial = some middle ∧
      (∀ gauge, middle.counters.gauges gauge = contents middle gauge) ∧
      middle.counters.gauges .queueSlots = 2 ∧
      run step (recordedEvents ++ flushedEvents ++ stoppedEvents) initial = some final ∧
      final.counters.droppedRecords = 3 ∧ final.counters.persistedRecords = 1 ∧
      (final.fates.map Prod.fst).Perm (List.range 4) := by
  have hMiddle : (run step recordedEvents initial).any (fun middle =>
      decide (middle.stop = .running ∧ Quiet middle ∧
        middle.counters.gauges .queueSlots = 2)) = true := by decide +kernel
  have hFinal : (run step (recordedEvents ++ flushedEvents ++ stoppedEvents) initial).any
      (fun final => decide (final.stop = .stopped ∧
        (∀ producer ∈ final.producers, ∃ accepted, producer.stage = .done accepted) ∧
        final.producers.length = 4 ∧ tally final.fates false = 3 ∧
        tally final.fates true = 1)) = true := by decide +kernel
  obtain ⟨middle, hMiddleRun, hObserved⟩ := (Option.any_eq_true ..).mp hMiddle
  obtain ⟨hRunning, hQuiet, hSlots⟩ := of_decide_eq_true hObserved
  obtain ⟨final, hFinalRun, hObserved⟩ := (Option.any_eq_true ..).mp hFinal
  obtain ⟨hStopped, hDone, hLength, hFalse, hTrue⟩ := of_decide_eq_true hObserved
  obtain ⟨-, hGauges, -⟩ := telemetry_accounts hMiddleRun
  obtain ⟨-, -, -, hDropped, hPersisted, hPerm⟩ := telemetry_accounts hFinalRun
  exact ⟨middle, final, hMiddleRun, hGauges hRunning hQuiet, hSlots, hFinalRun,
    hDropped.trans hFalse, hPersisted.trans hTrue, hLength ▸ hPerm hStopped hDone⟩

end TelemetryState

end Any2Api.Runtime.Telemetry
