import Any2Api.Runtime.Telemetry.Fates

/-! The fence of a quota observation. A position is read under the lock that a call for an account
keeps from its sequence to the end of its send, so the flush for the position comes after every
record up to it. -/
namespace Any2Api.Runtime.Telemetry

open Runs Entries Function

/-- The call has the lock of the sequence. -/
def Producer.Locked (producer : Producer) : Prop :=
  producer.kind = .oauthRequest ∧ producer.stage ≠ .offered ∧
    ∀ accepted, producer.stage ≠ .done accepted

/-- The operation has read its position. -/
def Control.Observed (operation : Control) : Prop :=
  operation.kind = .quotaObservation ∧ operation.stage ≠ .started

def Control.Sent (operation : Control) : Prop :=
  operation.stage = .sent ∨ operation.stage = .replied

theorem Control.Sent.ne_started {operation : Control} (h : operation.Sent) :
    operation.stage ≠ .started := by
  rcases h with h | h <;> rw [h] <;> nofun

/-- A flush for a position and a later record have positions in their order. -/
def Ahead (first second : TelemetryEnvelope) : Prop :=
  ∀ position sequence, first.event = .quotaFlush position →
    second.event = .requestLog (some sequence) → position < sequence

/-- The writer has passed the request logs in its flush. -/
def WriterPhase.flushed : WriterPhase → Prop
  | .flushing rest _ | .settling rest _ => .requestLogs ∉ rest
  | .appending kind rest _ => .requestLogs ∉ kind :: rest
  | _ => False

variable {sequence : Nat}

theorem sequence_of_event {producer : Producer}
    (h : producer.event = .requestLog (some sequence)) : producer.sequence = some sequence := by
  unfold Producer.event at h
  cases hKind : producer.kind <;> rw [hKind] at h <;>
    first | exact TelemetryEvent.requestLog.inj h | cases h

namespace TelemetryState

variable {state base next old : TelemetryState} {index : Nat} {producer changed : Producer}
  {operation : Control} {label : TelemetryLabel}

/-- The calls of all requests up to a position are over. -/
def Passed (state : TelemetryState) (position : Nat) : Prop :=
  position ≤ state.quotaSequence ∧
    ∀ {index : Nat} {producer : Producer} {sequence : Nat},
      state.producers[index]? = some producer → producer.sequence = some sequence →
      sequence ≤ position → ∃ accepted, producer.stage = .done accepted

/-- Sequences and positions are in the order of the lock. -/
structure Sequenced (state : TelemetryState) : Prop where
  holder : ∀ {index : Nat} {producer : Producer}, state.producers[index]? = some producer →
    producer.Locked → state.sequenceHolder = some index
  sequence : ∀ {index : Nat} {producer : Producer} {sequence : Nat},
    state.producers[index]? = some producer → producer.sequence = some sequence →
    sequence ≤ state.quotaSequence ∧ producer.kind = .oauthRequest ∧ producer.stage ≠ .offered
  observed : ∀ {index : Nat} {operation : Control}, state.controls[index]? = some operation →
    operation.Observed → state.Passed operation.position

section

variable (h : Produces state index producer label base changed)
include h

theorem Produces.unfinished (accepted : Bool) : producer.stage ≠ .done accepted := by
  intro hDone
  cases h
  case findNoSender hTaken hStage | findSender hTaken hStage =>
    rw [hDone] at hStage
    split at hStage <;> cases hStage
  all_goals
    rename_i hStage
    rw [hDone] at hStage
    cases hStage

theorem Produces.sequence_cases :
    changed.kind = producer.kind ∧
      (changed.sequence = producer.sequence ∧ base.quotaSequence = state.quotaSequence ∨
        producer.kind = .oauthRequest ∧ changed.sequence = some (state.quotaSequence + 1) ∧
          base.quotaSequence = state.quotaSequence + 1) := by
  cases h
  case assign hKind hHolder hStage => exact ⟨rfl, .inr ⟨hKind, rfl, rfl⟩⟩
  all_goals exact ⟨rfl, .inl ⟨rfl, rfl⟩⟩

theorem Produces.stage_ne_offered : changed.stage ≠ .offered := by
  cases h <;> nofun

/-- A call takes the lock when it is free and releases its own. -/
theorem Produces.holder_cases :
    (base.sequenceHolder = state.sequenceHolder ∧ (changed.Locked → producer.Locked)) ∨
      (state.sequenceHolder = none ∧ base.sequenceHolder = some index) ∨
      (base.sequenceHolder = none ∧ producer.Locked ∧ ¬ changed.Locked) := by
  have hLocked {stage : ProducerStage} (hStage : producer.stage = stage)
      (hOffered : stage ≠ .offered) (hKind : producer.kind = .oauthRequest) : producer.Locked :=
    ⟨hKind, hStage ▸ hOffered, h.unfinished⟩
  cases h
  case assign hKind hHolder hStage => exact .inr (.inl ⟨hHolder, rfl⟩)
  case findNoSender hTaken hStage | findSender hTaken hStage =>
    refine .inl ⟨rfl, fun hChanged => ?_⟩
    have hKind : producer.kind = .oauthRequest := hChanged.1
    rw [if_pos hKind] at hStage
    exact hLocked hStage nofun hKind
  case reject hStage | send hOpen hStage | released hHeld hStage =>
    by_cases hKind : producer.kind = .oauthRequest
    · exact .inr (.inr ⟨if_pos hKind, hLocked hStage nofun hKind,
        fun hChanged => hChanged.2.2 _ rfl⟩)
    · exact .inl ⟨if_neg hKind, fun hChanged => absurd rfl (hChanged.2.2 _)⟩
  all_goals
    rename_i hStage
    exact .inl ⟨rfl, fun hChanged => hLocked hStage nofun hChanged.1⟩

theorem Produces.controls_eq : base.controls = state.controls := by
  cases h <;> rfl

theorem Produces.sequenced
    (hProducer : state.producers[index]? = some producer) (hSequenced : Sequenced state) :
    Sequenced (base.setProducer index changed) := by
  have hProducers : (base.setProducer index changed).producers =
      state.producers.set index changed :=
    congrArg (List.set · index changed) h.producers_eq
  obtain ⟨hKind, hSequence⟩ := h.sequence_cases
  refine ⟨fun {other found} hFound hLocked => ?_, fun {other found sequence} hFound hSome => ?_,
    fun {other found} hFound hObserved => ?_⟩
  · rw [hProducers] at hFound
    rcases getElem?_set_eq_some.mp hFound with ⟨hOther, hFound⟩ | ⟨rfl, -, rfl⟩
    · have hHolder := hSequenced.holder hFound hLocked
      rcases h.holder_cases with ⟨hSame, -⟩ | ⟨hNone, -⟩ | ⟨-, hOwn, -⟩
      · exact hSame.trans hHolder
      · exact absurd (hNone.symm.trans hHolder) nofun
      · exact absurd
          (Option.some.inj (hHolder.symm.trans (hSequenced.holder hProducer hOwn))) hOther
    · rcases h.holder_cases with ⟨hSame, hOwn⟩ | ⟨-, hTaken⟩ | ⟨-, -, hFree⟩
      · exact hSame.trans (hSequenced.holder hProducer (hOwn hLocked))
      · exact hTaken
      · exact absurd hLocked hFree
  · rw [hProducers] at hFound
    have hMono : state.quotaSequence ≤ base.quotaSequence := by
      rcases hSequence with ⟨-, hSame⟩ | ⟨-, -, hMore⟩ <;> omega
    rcases getElem?_set_eq_some.mp hFound with ⟨-, hFound⟩ | ⟨rfl, -, rfl⟩
    · exact (hSequenced.sequence hFound hSome).imp_left fun hLess => hLess.trans hMono
    · rcases hSequence with ⟨hSame, -⟩ | ⟨hOAuth, hNew, hMore⟩
      · obtain ⟨hLess, hOAuth, -⟩ := hSequenced.sequence hProducer (hSame ▸ hSome)
        exact ⟨hLess.trans hMono, hKind.trans hOAuth, h.stage_ne_offered⟩
      · have hEq : state.quotaSequence + 1 = sequence := Option.some.inj (hNew.symm.trans hSome)
        exact ⟨(hEq.symm.trans hMore.symm).le, hKind.trans hOAuth, h.stage_ne_offered⟩
  · have hControl : state.controls[other]? = some found := h.controls_eq ▸ hFound
    obtain ⟨hPosition, hDone⟩ := hSequenced.observed hControl hObserved
    refine ⟨?_, fun {place party sequence} hFound hSome hLess => ?_⟩
    · change _ ≤ base.quotaSequence
      rcases hSequence with ⟨-, hSame⟩ | ⟨-, -, hMore⟩ <;> omega
    · rw [hProducers] at hFound
      rcases getElem?_set_eq_some.mp hFound with ⟨-, hFound⟩ | ⟨rfl, -, rfl⟩
      · exact hDone hFound hSome hLess
      · rcases hSequence with ⟨hSame, -⟩ | ⟨-, hNew, -⟩
        · obtain ⟨accepted, hStage⟩ := hDone hProducer (hSame ▸ hSome) hLess
          exact absurd hStage (h.unfinished accepted)
        · have hEq : state.quotaSequence + 1 = sequence := Option.some.inj (hNew.symm.trans hSome)
          omega

end

theorem Controls.sequenced {changed : Control}
    (h : Controls state index operation label base changed)
    (hOperation : state.controls[index]? = some operation) (hSequenced : Sequenced state) :
    Sequenced (base.setControl index changed) := by
  have hPassed : changed.Observed → state.Passed changed.position := by
    have hKeep (hStage : operation.stage ≠ .started) (hKind : operation.kind = .quotaObservation) :
        state.Passed operation.position := hSequenced.observed hOperation ⟨hKind, hStage⟩
    intro hChanged
    cases h
    case observe hKind hHolder hStage =>
      -- The lock is free, so every call with a sequence is over.
      refine ⟨Nat.le_refl _, fun {other producer sequence} hProducer hSome _ => ?_⟩
      obtain ⟨-, hOAuth, hOffered⟩ := hSequenced.sequence hProducer hSome
      by_contra hOpen
      have hLocked := hSequenced.holder hProducer ⟨hOAuth, hOffered, not_exists.mp hOpen⟩
      exact absurd (hHolder.symm.trans hLocked) nofun
    case clone stage hNew hStage =>
      have hKind : operation.kind = .quotaObservation := hChanged.1
      rw [if_pos hKind] at hStage
      exact hKeep (by rw [hStage]; nofun) hKind
    all_goals
      rename_i hStage
      exact hKeep (by rw [hStage]; nofun) hChanged.1
  have hControls {other : Nat} {found : Control}
      (hFound : (state.controls.set index changed)[other]? = some found)
      (hObserved : found.Observed) : state.Passed found.position := by
    rcases getElem?_set_eq_some.mp hFound with ⟨-, hFound⟩ | ⟨-, -, rfl⟩
    · exact hSequenced.observed hFound hObserved
    · exact hPassed hObserved
  cases h <;> exact { hSequenced with observed := hControls }

theorem Steps.sequenced (h : Steps state label next) (hShape : Shape state)
    (hSequenced : Sequenced state) : Sequenced next := by
  cases h
  case produce index producer changed base hProducer hProduces =>
    exact hProduces.sequenced hProducer hSequenced
  case control index operation changed base hOperation hControls =>
    exact hControls.sequenced hOperation hSequenced
  case write hWrites =>
    cases hWrites
    case reply index count operation hOperation hWriter =>
      refine { hSequenced with observed := fun {other found} hFound hFoundObserved => ?_ }
      rcases getElem?_set_eq_some.mp hFound with ⟨-, hFound⟩ | ⟨-, -, rfl⟩
      · exact hSequenced.observed hFound hFoundObserved
      · obtain ⟨sent, hSent, hStage⟩ := hShape.target index (by rw [hWriter]; rfl)
        cases hSent.symm.trans hOperation
        have hKind : operation.kind = .quotaObservation := hFoundObserved.1
        have hBefore := hSequenced.observed hOperation ⟨hKind, Control.Sent.ne_started hStage⟩
        exact hBefore
    all_goals exact { hSequenced with }
  case writerStopped hStops => cases hStops <;> exact { hSequenced with }
  case takeSender hOutside => exact { hSequenced with }
  case request kind =>
    refine { hSequenced with observed := fun {other found} hFound hFoundObserved => ?_ }
    rcases getElem?_concat_eq_some.mp hFound with hFound | ⟨-, rfl⟩
    · exact hSequenced.observed hFound hFoundObserved
    · exact absurd rfl hFoundObserved.2
  case offer kind ownedBytes capacity maxBytes =>
    refine ⟨fun {other found} hFound hLocked => ?_, fun {other found sequence} hFound hSome => ?_,
      fun {other found} hFound hFoundObserved => ?_⟩
    · rcases getElem?_concat_eq_some.mp hFound with hFound | ⟨-, rfl⟩
      · exact hSequenced.holder hFound hLocked
      · exact absurd rfl hLocked.2.1
    · rcases getElem?_concat_eq_some.mp hFound with hFound | ⟨-, rfl⟩
      · exact hSequenced.sequence hFound hSome
      · cases hSome
    · refine (hSequenced.observed hFound hFoundObserved).imp_right
        fun hDone {place party sequence} hParty hSome hLess => ?_
      rcases getElem?_concat_eq_some.mp hParty with hParty | ⟨-, rfl⟩
      · exact hDone hParty hSome hLess
      · cases hSome

/-- A call that is not over has a sequence beyond every position that has been read. -/
theorem Sequenced.position_lt (hSequenced : Sequenced state) {other : Nat}
    (hOperation : state.controls[other]? = some operation) (hObserved : operation.Observed)
    (hProducer : state.producers[index]? = some producer)
    (hOpen : ∀ accepted, producer.stage ≠ .done accepted)
    (hSequence : producer.sequence = some sequence) : operation.position < sequence := by
  by_contra hLess
  obtain ⟨accepted, hDone⟩ := (hSequenced.observed hOperation hObserved).2 hProducer hSequence
    (Nat.le_of_not_lt hLess)
  exact hOpen accepted hDone

/-- The envelope is in the channel, in the hands of the writer or in the batch. -/
def Holds (state : TelemetryState) (envelope : TelemetryEnvelope) : Prop :=
  envelope ∈ state.writer.envelopes ++ state.channel ∨ ∃ kind, envelope ∈ state.batch kind

/-- The call that has sent a record is over. -/
def Recorded (state : TelemetryState) (envelope : TelemetryEnvelope) : Prop :=
  ∃ producer, state.producers[envelope.author]? = some producer ∧
    (∃ accepted, producer.stage = .done accepted) ∧ envelope.event = producer.event

/-- The operation has sent the command. -/
def Commanded (state : TelemetryState) (envelope : TelemetryEnvelope) : Prop :=
  ∃ operation, state.controls[envelope.author]? = some operation ∧ operation.Sent ∧
    envelope.event = operation.event

/-- No flush overtakes a record up to its position. -/
structure Fenced (state : TelemetryState) : Prop where
  record : ∀ envelope, state.Holds envelope → envelope.isRecord = true → state.Recorded envelope
  command : ∀ envelope ∈ state.writer.envelopes ++ state.channel, envelope.isRecord = false →
    state.Commanded envelope
  order : (state.writer.envelopes ++ state.channel).Pairwise Ahead
  target : ∀ index ∈ state.writer.target, ∀ operation, state.controls[index]? = some operation →
    operation.kind = .quotaObservation → ∀ envelope ∈ state.channel, ∀ sequence,
    envelope.event = .requestLog (some sequence) → operation.position < sequence
  flushed : state.writer.flushed → state.batch .requestLogs = []
  replied : ∀ {index : Nat} {operation : Control}, state.controls[index]? = some operation →
    operation.kind = .quotaObservation → operation.stage = .replied →
    ∀ {index : Nat} {producer : Producer} {sequence : Nat},
      state.producers[index]? = some producer → producer.sequence = some sequence →
      sequence ≤ operation.position → 0 < counts state.fates index

/-- A flush in the channel is for the position of its operation. -/
theorem Fenced.position_lt (h : Fenced state) (hSequenced : Sequenced state)
    (hProducer : state.producers[index]? = some producer)
    (hOpen : ∀ accepted, producer.stage ≠ .done accepted) :
    ∀ envelope ∈ state.writer.envelopes ++ state.channel,
      Ahead envelope (producer.envelope index) := by
  intro envelope hMem position sequence hFlush hRecord
  have hCommand : envelope.isRecord = false := by
    rw [TelemetryEnvelope.isRecord, hFlush]
    rfl
  obtain ⟨operation, hOperation, hSent, hEvent⟩ := h.command envelope hMem hCommand
  rw [hFlush] at hEvent
  unfold Control.event at hEvent
  cases hKind : operation.kind <;> rw [hKind] at hEvent <;> cases hEvent
  exact hSequenced.position_lt hOperation ⟨hKind, hSent.ne_started⟩ hProducer hOpen
    (sequence_of_event hRecord)

/-- An envelope joins the channel behind the flushes that are ahead of it. -/
theorem Fenced.enqueue (h : Fenced state) (envelope : TelemetryEnvelope)
    (hRecord : envelope.isRecord = true → state.Recorded envelope)
    (hCommand : envelope.isRecord = false → state.Commanded envelope)
    (hAhead : ∀ first ∈ state.writer.envelopes ++ state.channel, Ahead first envelope)
    (hTarget : ∀ index ∈ state.writer.target, ∀ operation, state.controls[index]? = some operation →
      operation.kind = .quotaObservation → ∀ sequence,
      envelope.event = .requestLog (some sequence) → operation.position < sequence) :
    Fenced { state with channel := state.channel ++ [envelope] } := by
  have hMem {other : TelemetryEnvelope}
      (hOther : other ∈ state.writer.envelopes ++ (state.channel ++ [envelope])) :
      other ∈ state.writer.envelopes ++ state.channel ∨ other = envelope := by
    rwa [← List.append_assoc, List.mem_append, List.mem_singleton] at hOther
  refine { h with
    record := fun other hHolds hOther => ?_
    command := fun other hOther hEvent => ?_
    order := ?_
    target := fun index hIndex operation hOperation hKind other hOther => ?_ }
  · rcases hHolds with hHolds | hBatch
    · rcases hMem hHolds with hHolds | rfl
      · exact h.record other (.inl hHolds) hOther
      · exact hRecord hOther
    · exact h.record other (.inr hBatch) hOther
  · rcases hMem hOther with hOther | rfl
    · exact h.command other hOther hEvent
    · exact hCommand hEvent
  · rw [← List.append_assoc]
    exact pairwise_concat h.order hAhead
  · exact forall_mem_concat (h.target index hIndex operation hOperation hKind)
      (hTarget index hIndex operation hOperation hKind) other hOther

/-- Fates are only added. -/
theorem Fenced.addFates (h : Fenced state) (fates : List (Nat × Bool)) :
    Fenced { state with fates := state.fates ++ fates } := by
  refine { h with replied := fun hControl hKind hStage _ _ _ hProducer hSequence hLess => ?_ }
  rw [counts_append]
  exact Nat.add_pos_left (h.replied hControl hKind hStage hProducer hSequence hLess) _

theorem Produces.fenced_setProducer (h : Produces state index producer label base changed)
    (hProducer : state.producers[index]? = some producer) (hSequenced : Sequenced state)
    (hFenced : Fenced state) : Fenced (state.setProducer index changed) := by
  refine { hFenced with
    record := fun envelope hHolds hRecord => ?_
    replied := fun {other found} hControl hKind hStage place party sequence hParty hSome
      hLess => ?_ }
  · obtain ⟨found, hFound, ⟨accepted, hDone⟩, hEvent⟩ := hFenced.record envelope hHolds hRecord
    refine ⟨found, ?_, ⟨accepted, hDone⟩, hEvent⟩
    refine (List.getElem?_set_ne ?_).trans hFound
    rintro rfl
    cases hFound.symm.trans hProducer
    exact h.unfinished accepted hDone
  · rcases getElem?_set_eq_some.mp hParty with ⟨-, hParty⟩ | ⟨-, -, rfl⟩
    · exact hFenced.replied hControl hKind hStage hParty hSome hLess
    · have hObserved : found.Observed := ⟨hKind, by rw [hStage]; nofun⟩
      rcases h.sequence_cases.2 with ⟨hSame, -⟩ | ⟨-, hNew, -⟩
      · have hMore := hSequenced.position_lt hControl hObserved hProducer h.unfinished
          (hSame ▸ hSome)
        omega
      · have hPosition := (hSequenced.observed hControl hObserved).1
        have hEq : state.quotaSequence + 1 = sequence := Option.some.inj (hNew.symm.trans hSome)
        omega

theorem Produces.fenced (h : Produces state index producer label base changed)
    (hProducer : state.producers[index]? = some producer) (hShape : Shape state)
    (hSequenced : Sequenced state) (hFenced : Fenced state) :
    Fenced (base.setProducer index changed) := by
  have hAhead := hFenced.position_lt hSequenced hProducer h.unfinished
  have hOpen := h.unfinished
  have hSet := h.fenced_setProducer hProducer hSequenced hFenced
  cases h
  case send hStage =>
    have hIsRecord : (producer.envelope index).isRecord = true :=
      decide_eq_true (recordCount_event producer)
    have hSent := hSet.enqueue (producer.envelope index)
      (fun _ => ⟨_, List.getElem?_set_self (List.getElem?_eq_some_iff.mp hProducer).1,
        ⟨true, rfl⟩, rfl⟩)
      (fun hCommand => absurd (hIsRecord.symm.trans hCommand) Bool.noConfusion) hAhead
      fun other hOther found hFound hKind sequence hEvent => by
        obtain ⟨sent, hSent, hStages⟩ := hShape.target other hOther
        cases hSent.symm.trans hFound
        exact hSequenced.position_lt hFound ⟨hKind, Control.Sent.ne_started hStages⟩ hProducer
          hOpen (sequence_of_event hEvent)
    exact { hSent with }
  case reject hStage | dropFailed hStage => exact { hSet.addFates [(index, false)] with }
  all_goals exact { hSet with }

theorem Controls.not_sent {changed : Control}
    (h : Controls state index operation label base changed) :
    ¬ operation.Sent ∧ changed.stage ≠ .replied := by
  cases h
  case clone stage hNew hStage =>
    refine ⟨fun hSent => ?_, by rcases hNew with rfl | rfl <;> nofun⟩
    unfold Control.Sent at hSent
    rw [hStage] at hSent
    split at hSent <;> rcases hSent with hSent | hSent <;> cases hSent
  case reservePermit stage hNew hStage =>
    refine ⟨fun hSent => ?_, by rcases hNew with rfl | rfl <;> nofun⟩
    rcases hSent with hSent | hSent <;> cases hStage.symm.trans hSent
  all_goals
    rename_i hStage
    refine ⟨fun hSent => ?_, nofun⟩
    rcases hSent with hSent | hSent <;> cases hStage.symm.trans hSent

theorem requestLog_ne_event (operation : Control) (sequence : Option Nat) :
    operation.event ≠ .requestLog sequence := by
  unfold Control.event
  cases operation.kind <;> nofun

theorem Controls.fenced_setControl {changed : Control}
    (h : Controls state index operation label base changed)
    (hOperation : state.controls[index]? = some operation) (hShape : Shape state)
    (hFenced : Fenced state) : Fenced (state.setControl index changed) := by
  obtain ⟨hNotSent, hNotReplied⟩ := h.not_sent
  have hKeep {other : Nat} {found : Control} (hFound : state.controls[other]? = some found)
      (hSent : found.Sent) : (state.controls.set index changed)[other]? = some found := by
    refine (List.getElem?_set_ne ?_).trans hFound
    rintro rfl
    cases hFound.symm.trans hOperation
    exact hNotSent hSent
  refine { hFenced with
    command := fun envelope hMem hEvent => ?_
    target := fun other hOther found hFound => ?_
    replied := fun {other found} hFound hKind hStage => ?_ }
  · obtain ⟨found, hFound, hSent, hEvent⟩ := hFenced.command envelope hMem hEvent
    exact ⟨found, hKeep hFound hSent, hSent, hEvent⟩
  · obtain ⟨sent, hSent, hStage⟩ := hShape.target other hOther
    cases (hKeep hSent hStage).symm.trans hFound
    exact hFenced.target other hOther found hSent
  · rcases getElem?_set_eq_some.mp hFound with ⟨-, hFound⟩ | ⟨-, -, rfl⟩
    · exact hFenced.replied hFound hKind hStage
    · exact absurd hStage hNotReplied

theorem Controls.fenced {changed : Control} (h : Controls state index operation label base changed)
    (hOperation : state.controls[index]? = some operation) (hShape : Shape state)
    (hFenced : Fenced state) : Fenced (base.setControl index changed) := by
  have hSet := h.fenced_setControl hOperation hShape hFenced
  cases h
  case sendControl hStage =>
    have hIsCommand : (operation.envelope index).isRecord = false := by
      unfold TelemetryEnvelope.isRecord Control.envelope Control.event
      cases operation.kind <;> rfl
    have hSent := hSet.enqueue (operation.envelope index)
      (fun hRecord => absurd (hRecord.symm.trans hIsCommand) Bool.noConfusion)
      (fun _ => ⟨_, List.getElem?_set_self (List.getElem?_eq_some_iff.mp hOperation).1, .inl rfl,
        rfl⟩)
      (fun _ _ _ _ _ hEvent => absurd hEvent (requestLog_ne_event operation _))
      fun _ _ _ _ _ _ hEvent => absurd hEvent (requestLog_ne_event operation _)
    exact { hSent with }
  all_goals exact { hSet with }

/-- At the time of the reply every record up to the position has a fate. -/
theorem counts_pos_of_reply {count other : Nat} (hAccounted : Accounted state)
    (hSequenced : Sequenced state) (hFenced : Fenced state)
    (hWriter : state.writer = .flushing [] (.reply index count))
    (hOperation : state.controls[index]? = some operation)
    (hKind : operation.kind = .quotaObservation)
    (hProducer : state.producers[other]? = some producer)
    (hSequence : producer.sequence = some sequence) (hLess : sequence ≤ operation.position) :
    0 < counts state.fates other := by
  have hTarget : index ∈ state.writer.target := by
    rw [hWriter]
    rfl
  obtain ⟨sent, hSent, hStage⟩ := hAccounted.shape.target index hTarget
  cases hSent.symm.trans hOperation
  have hObserved : operation.Observed := ⟨hKind, Control.Sent.ne_started hStage⟩
  obtain ⟨accepted, hDone⟩ := (hSequenced.observed hOperation hObserved).2 hProducer hSequence hLess
  obtain ⟨-, hOAuth, -⟩ := hSequenced.sequence hProducer hSequence
  -- A record of this producer is a request log with this sequence.
  have hEvent {envelope : TelemetryEnvelope} (hHolds : state.Holds envelope)
      (hOccurs : envelope.occurrence other ≠ 0) :
      envelope.event = .requestLog (some sequence) := by
    obtain ⟨⟨hRecord, rfl⟩, -⟩ := ite_ne_right_iff.mp hOccurs
    obtain ⟨found, hFound, -, hEvent⟩ := hFenced.record envelope hHolds hRecord
    cases hFound.symm.trans hProducer
    rw [hEvent, Producer.event, hOAuth, hSequence]
  have hChannel : (state.channel.map (TelemetryEnvelope.occurrence other)).sum = 0 := by
    refine List.sum_eq_zero fun amount hAmount => ?_
    obtain ⟨envelope, hMem, rfl⟩ := List.mem_map.mp hAmount
    by_contra hOccurs
    have hMore := hFenced.target index hTarget operation hOperation hKind envelope hMem sequence
      (hEvent (.inl (List.mem_append_right _ hMem)) hOccurs)
    omega
  have hBatch (kind : BatchKind) :
      ((state.batch kind).map (TelemetryEnvelope.occurrence other)).sum = 0 := by
    refine List.sum_eq_zero fun amount hAmount => ?_
    obtain ⟨envelope, hMem, rfl⟩ := List.mem_map.mp hAmount
    by_contra hOccurs
    have hKinds := hAccounted.shape.batch kind envelope hMem
    rw [hEvent (.inr ⟨kind, hMem⟩) hOccurs] at hKinds
    obtain rfl : .requestLogs = kind := Option.some.inj hKinds
    rw [hFenced.flushed (by rw [hWriter]; exact List.not_mem_nil)] at hMem
    cases hMem
  have hOnce := hAccounted.counted.once other
  unfold occurrences at hOnce
  rw [hChannel, hWriter, hProducer, Option.elim_some, hDone] at hOnce
  simp only [hBatch, WriterPhase.envelopes, List.map_nil, List.sum_nil, List.map_const',
    Nat.add_zero, ProducerStage.share, List.sum_replicate, smul_zero] at hOnce
  omega

theorem Writes.fenced (h : Writes state label next) (hAccounted : Accounted state)
    (hSequenced : Sequenced state) (hFenced : Fenced state) : Fenced next := by
  have hChannel (envelope : TelemetryEnvelope) (hMem : envelope ∈ state.channel) :
      envelope ∈ state.writer.envelopes ++ state.channel := List.mem_append_right _ hMem
  have hRest : Fenced { state with writer := .idle } := { hFenced with
    record := fun envelope hHolds => hFenced.record envelope (hHolds.imp_left (hChannel envelope))
    command := fun envelope hMem => hFenced.command envelope (hChannel envelope hMem)
    order := hFenced.order.sublist (List.sublist_append_right ..)
    target := nofun
    flushed := nofun }
  obtain ⟨hAllRecord, hAllCommand, hAllOrder, hTarget, hFlushed, -⟩ := hFenced
  cases h
  case receive envelope channel count hList hWriter =>
    have hHand : state.writer.envelopes = [] := by
      rcases hWriter with hWriter | hWriter <;> rw [hWriter] <;> rfl
    unfold Holds at hAllRecord
    rw [hHand, hList] at hAllRecord hAllCommand hAllOrder
    exact ⟨hAllRecord, hAllCommand, hAllOrder, nofun, nofun, hRest.replied⟩
  case countReceived hWriter | releaseReceived hWriter =>
    unfold Holds at hAllRecord
    rw [hWriter] at hAllRecord hAllCommand hAllOrder
    exact { hRest with record := hAllRecord, command := hAllCommand, order := hAllOrder }
  case deliver envelope count kind hEmpty hKind hWriter =>
    refine { hRest with record := fun other hHolds => ?_, flushed := nofun }
    rcases hHolds with hMem | ⟨place, hMem⟩
    · exact hRest.record other (.inl hMem)
    · by_cases hPlace : place = kind
      · subst hPlace
        dsimp only at hMem
        rw [update_self, List.mem_append, List.mem_singleton] at hMem
        rcases hMem with hMem | rfl
        · exact hRest.record other (.inr ⟨place, hMem⟩)
        · refine hAllRecord other (.inl (List.mem_append_left _ ?_))
          rw [hWriter]
          exact List.mem_singleton_self _
      · dsimp only at hMem
        rw [update_of_ne hPlace] at hMem
        exact hRest.record other (.inr ⟨place, hMem⟩)
  case command envelope count hEmpty hEvent hWriter =>
    rw [hWriter] at hAllCommand hAllOrder
    refine { hRest with
      target := fun index hIndex operation hOperation hKind other hMem sequence hSequence => ?_
      flushed := fun hNot => absurd List.mem_cons_self hNot }
    -- The flush for the position was ahead of all that is in the channel now.
    obtain rfl : envelope.author = index := Option.some.inj hIndex
    have hNotRecord : envelope.isRecord = false :=
      Bool.eq_false_iff.mpr fun hIsRecord => (isRecord_iff envelope).mp hIsRecord hEvent
    obtain ⟨sent, hSent, -, hFlush⟩ :=
      hAllCommand envelope (List.mem_append_left _ (List.mem_singleton_self _)) hNotRecord
    cases hSent.symm.trans hOperation
    refine List.rel_of_pairwise_cons hAllOrder hMem operation.position sequence ?_ hSequence
    rw [hFlush, Control.event, hKind]
  case append kind rest after ok hWriter =>
    rw [hWriter] at hTarget hFlushed
    have hFates := hRest.addFates ((state.batch kind).map fun record => (record.author, ok))
    refine { hFates with
      record := fun other hHolds => ?_
      target := hTarget
      flushed := fun hNot => ?_ }
    · refine hRest.record other (hHolds.imp_right fun ⟨place, hMem⟩ => ⟨place, ?_⟩)
      change other ∈ update state.batch kind [] place at hMem
      rw [update_apply] at hMem
      split at hMem
      · cases hMem
      · exact hMem
    · change update state.batch kind [] .requestLogs = []
      rw [update_apply]
      split
      · rfl
      · rename_i hKind
        exact hFlushed fun hMem => (List.mem_cons.mp hMem).elim hKind hNot
  case skip kind rest after hEmpty hWriter =>
    rw [hWriter] at hTarget hFlushed
    refine { hRest with target := hTarget, flushed := fun hNot => ?_ }
    by_cases hKind : .requestLogs = kind
    · exact hKind ▸ hEmpty
    · exact hFlushed fun hMem => (List.mem_cons.mp hMem).elim hKind hNot
  case reply index count operation hOperation hWriter =>
    refine { hRest with
      command := fun envelope hMem hEvent => ?_
      target := nofun
      replied := fun {other found} hControl hKind hStage _ producer sequence hProducer hSequence
        hLess => ?_ }
    · obtain ⟨found, hFound, hSent, hEvent⟩ := hRest.command envelope hMem hEvent
      by_cases hAuthor : index = envelope.author
      · subst hAuthor
        cases hFound.symm.trans hOperation
        exact ⟨_, List.getElem?_set_self (List.getElem?_eq_some_iff.mp hOperation).1, .inr rfl,
          hEvent⟩
      · exact ⟨found, (List.getElem?_set_ne hAuthor).trans hFound, hSent, hEvent⟩
    · rcases getElem?_set_eq_some.mp hControl with ⟨-, hControl⟩ | ⟨-, -, rfl⟩
      · exact hRest.replied hControl hKind hStage hProducer hSequence hLess
      · have hBefore : Fenced state :=
          ⟨hAllRecord, hAllCommand, hAllOrder, hTarget, hFlushed, hRest.replied⟩
        have hPositive := counts_pos_of_reply hAccounted hSequenced hBefore hWriter hOperation hKind
          hProducer hSequence hLess
        exact hPositive
  case endBatch count hWriter =>
    exact { hRest with flushed := fun hNot => absurd List.mem_cons_self hNot }
  case stop hWriter hLabel | finishBatch hWriter => exact { hRest with }
  all_goals
    rename_i hWriter
    rw [hWriter] at hTarget hFlushed
    exact { hRest with target := hTarget, flushed := hFlushed }

theorem Stops.fenced (h : Stops state next) (hFenced : Fenced state) : Fenced next := by
  cases h
  case finish lost hStop =>
    have hFates := hFenced.addFates (state.unfinished.map fun record => (record.author, false))
    refine { hFates with
      record := fun envelope hHolds => ?_
      command := fun envelope hMem => ?_
      order := hFenced.order.sublist (List.Sublist.append_left (List.nil_sublist _) _)
      target := nofun
      flushed := fun _ => rfl }
    · rcases hHolds with hMem | ⟨kind, hMem⟩
      · exact hFenced.record envelope (.inl (List.mem_append_left _ (by simpa using hMem)))
      · cases hMem
    · exact hFenced.command envelope (List.mem_append_left _ (by simpa using hMem))
  all_goals exact { hFenced with }

theorem Steps.fenced (h : Steps state label next) (hAccounted : Accounted state)
    (hSequenced : Sequenced state) (hFenced : Fenced state) : Fenced next := by
  cases h
  case produce index producer changed base hProducer hProduces =>
    exact hProduces.fenced hProducer hAccounted.shape hSequenced hFenced
  case control index operation changed base hOperation hControls =>
    exact hControls.fenced hOperation hAccounted.shape hFenced
  case write hWrites => exact hWrites.fenced hAccounted hSequenced hFenced
  case writerStopped hStops => exact hStops.fenced hFenced
  case takeSender hOutside => exact { hFenced with }
  case offer kind ownedBytes capacity maxBytes =>
    refine { hFenced with
      record := fun envelope hHolds hRecord => ?_
      replied := fun hControl hKind hStage _ _ _ hProducer hSequence hLess => ?_ }
    · obtain ⟨found, hFound, hDone, hEvent⟩ := hFenced.record envelope hHolds hRecord
      exact ⟨found, getElem?_concat_eq_some.mpr (.inl hFound), hDone, hEvent⟩
    · rcases getElem?_concat_eq_some.mp hProducer with hProducer | ⟨-, rfl⟩
      · exact hFenced.replied hControl hKind hStage hProducer hSequence hLess
      · cases hSequence
  case request kind =>
    refine { hFenced with
      command := fun envelope hMem hCommand => ?_
      target := fun index hIndex operation hOperation hKind => ?_
      replied := fun hControl hKind hStage => ?_ }
    · obtain ⟨found, hFound, hSent, hEvent⟩ := hFenced.command envelope hMem hCommand
      exact ⟨found, getElem?_concat_eq_some.mpr (.inl hFound), hSent, hEvent⟩
    · obtain ⟨sent, hSent, -⟩ := hAccounted.shape.target index hIndex
      rcases getElem?_concat_eq_some.mp hOperation with hOperation | ⟨rfl, -⟩
      · exact hFenced.target index hIndex operation hOperation hKind
      · exact absurd (List.getElem?_eq_some_iff.mp hSent).1 (Nat.lt_irrefl _)
    · rcases getElem?_concat_eq_some.mp hControl with hControl | ⟨-, rfl⟩
      · exact hFenced.replied hControl hKind hStage
      · cases hStage

theorem sequenced_initial : Sequenced initial := ⟨nofun, nofun, nofun⟩

theorem fenced_initial : Fenced initial where
  record _ hHolds := by rcases hHolds with hMem | ⟨kind, hMem⟩ <;> cases hMem
  command := nofun
  order := .nil
  target := nofun
  flushed := nofun
  replied := nofun

/-- The invariants of the pipeline and its fence. -/
structure Guarded (state : TelemetryState) : Prop where
  accounted : Accounted state
  sequenced : Sequenced state
  fenced : Fenced state

theorem Steps.guarded (h : Steps state label next) (hGuarded : Guarded state) : Guarded next where
  accounted := h.accounted hGuarded.accounted
  sequenced := h.sequenced hGuarded.accounted.shape hGuarded.sequenced
  fenced := h.fenced hGuarded.accounted hGuarded.sequenced hGuarded.fenced

theorem guarded_of_run {labels : List TelemetryLabel}
    (hRun : run step labels initial = some state) : Guarded state :=
  invariant_of_run (fun _ _ _ h hStep => (steps_of_step hStep).guarded h)
    ⟨accounted_initial, sequenced_initial, fenced_initial⟩ hRun

/-- The sequences that are assigned after a state. -/
def Later (old state : TelemetryState) : Prop :=
  old.quotaSequence ≤ state.quotaSequence ∧
    ∀ (index : Nat) (producer : Producer) (sequence : Nat),
      state.producers[index]? = some producer → producer.sequence = some sequence →
      (∀ before : Producer, old.producers[index]? = some before → before.sequence = none) →
      old.quotaSequence < sequence

theorem Steps.later (h : Steps state label next) (hLater : Later old state) : Later old next := by
  obtain ⟨hMono, hNew⟩ := hLater
  cases h
  case produce index producer changed base hProducer hProduces =>
    have hProducers : (base.setProducer index changed).producers =
        state.producers.set index changed :=
      congrArg (List.set · index changed) hProduces.producers_eq
    obtain ⟨-, hSequence⟩ := hProduces.sequence_cases
    refine ⟨?_, fun other found sequence hFound hSome hBefore => ?_⟩
    · change _ ≤ base.quotaSequence
      rcases hSequence with ⟨-, hSame⟩ | ⟨-, -, hMore⟩ <;> omega
    · rw [hProducers] at hFound
      rcases getElem?_set_eq_some.mp hFound with ⟨-, hFound⟩ | ⟨rfl, -, rfl⟩
      · exact hNew other found sequence hFound hSome hBefore
      · rcases hSequence with ⟨hSame, -⟩ | ⟨-, hNext, -⟩
        · exact hNew other producer sequence hProducer (hSame ▸ hSome) hBefore
        · have hEq : state.quotaSequence + 1 = sequence := Option.some.inj (hNext.symm.trans hSome)
          omega
  case control hControls => cases hControls <;> exact ⟨hMono, hNew⟩
  case write hWrites => cases hWrites <;> exact ⟨hMono, hNew⟩
  case writerStopped hStops => cases hStops <;> exact ⟨hMono, hNew⟩
  case takeSender hOutside | request kind => exact ⟨hMono, hNew⟩
  case offer kind ownedBytes capacity maxBytes =>
    refine ⟨hMono, fun other found sequence hFound hSome hBefore => ?_⟩
    rcases getElem?_concat_eq_some.mp hFound with hFound | ⟨-, rfl⟩
    · exact hNew other found sequence hFound hSome hBefore
    · cases hSome

theorem Stops.writer_eq (h : Stops state next) (hShape : Shape state) :
    state.writer = .stopped := by
  cases h
  case begin hWriter hTaken hStop => exact hWriter
  all_goals
    rename_i hStop
    exact (hShape.closed (by rw [hStop]; nofun)).1

/-- The fate of an accepted record comes from an append, or from the end of the writer. -/
theorem Steps.accepted_fate (h : Steps state label next) {persisted : Bool}
    (hProducer : state.producers[index]? = some producer) (hAccepted : producer.stage = .done true)
    (hFate : (index, persisted) ∈ next.fates) (hNew : (index, persisted) ∉ state.fates) :
    label = .append persisted ∨ label = .writerStopped := by
  cases h
  case produce actor other changed base hOther hProduces =>
    have hActor : index ≠ actor := by
      rintro rfl
      cases hProducer.symm.trans hOther
      exact hProduces.unfinished true hAccepted
    have hDropped (hMem : (index, persisted) ∈ state.fates ++ [(actor, false)]) :
        (index, persisted) ∈ state.fates := by
      rcases List.mem_append.mp hMem with hMem | hMem
      · exact hMem
      · exact absurd (congrArg Prod.fst (List.mem_singleton.mp hMem)) hActor
    cases hProduces
    case reject | dropFailed => exact absurd (hDropped hFate) hNew
    all_goals exact absurd hFate hNew
  case write hWrites =>
    cases hWrites
    case append kind rest after ok hWriter =>
      rcases List.mem_append.mp hFate with hFate | hFate
      · exact absurd hFate hNew
      · obtain ⟨record, -, hEq⟩ := List.mem_map.mp hFate
        exact .inl (congrArg TelemetryLabel.append (congrArg Prod.snd hEq))
    all_goals exact absurd hFate hNew
  case control hControls => cases hControls <;> exact absurd hFate hNew
  case writerStopped hStops => exact .inr rfl
  all_goals exact absurd hFate hNew

theorem exists_fate_of_counts_pos {fates : List (Nat × Bool)} (h : 0 < counts fates index) :
    ∃ persisted, (index, persisted) ∈ fates := by
  rw [counts_eq_count, List.count_pos_iff] at h
  obtain ⟨⟨_, persisted⟩, hMem, rfl⟩ := List.mem_map.mp h
  exact ⟨persisted, hMem⟩

/-- When a quota observation has its reply, the call of every request up to its position is over
and its record has been counted; the fate of an accepted record comes from its append unless the
writer ended before. Every sequence that is assigned after the position was read is beyond it. -/
theorem quota_fence {labels : List TelemetryLabel} (hRun : run step labels initial = some state) :
    (∀ (index : Nat) (operation : Control), state.controls[index]? = some operation →
      operation.kind = .quotaObservation → operation.stage = .replied →
      ∀ (other : Nat) (producer : Producer) (sequence : Nat),
        state.producers[other]? = some producer → producer.sequence = some sequence →
        sequence ≤ operation.position →
        (∃ accepted, producer.stage = .done accepted) ∧
          ∃ persisted, (other, persisted) ∈ state.fates) ∧
    (∀ (label : TelemetryLabel) (next : TelemetryState) (index : Nat) (producer : Producer)
      (persisted : Bool), step state label = some next →
      state.producers[index]? = some producer → producer.stage = .done true →
      (index, persisted) ∈ next.fates → (index, persisted) ∉ state.fates →
      label = .append persisted ∨ label = .writerStopped ∧ state.writer = .stopped) ∧
    (∀ (index : Nat) (operation : Control) (more : List TelemetryLabel) (final : TelemetryState),
      state.controls[index]? = some operation →
      operation.kind = .quotaObservation → operation.stage ≠ .started →
      run step more state = some final →
      ∀ (other : Nat) (producer : Producer) (sequence : Nat),
        final.producers[other]? = some producer → producer.sequence = some sequence →
        (∀ before : Producer, state.producers[other]? = some before → before.sequence = none) →
        operation.position < sequence) := by
  obtain ⟨hAccounted, hSequenced, hFenced⟩ := guarded_of_run hRun
  refine ⟨fun index operation hOperation hKind hStage other producer sequence hProducer
      hSome hLess => ⟨?_, ?_⟩,
    fun label next index producer persisted hStep hProducer hAccepted hFate hNew => ?_,
    fun index operation more final hOperation hKind hStage hMore other producer sequence hProducer
      hSome hBefore => ?_⟩
  · have hObserved : operation.Observed := ⟨hKind, by rw [hStage]; nofun⟩
    exact (hSequenced.observed hOperation hObserved).2 hProducer hSome hLess
  · exact exists_fate_of_counts_pos
      (hFenced.replied hOperation hKind hStage hProducer hSome hLess)
  · have hSteps := steps_of_step hStep
    refine (hSteps.accepted_fate hProducer hAccepted hFate hNew).imp_right fun hLabel =>
      ⟨hLabel, ?_⟩
    subst hLabel
    exact (stops_of_stopWriter hStep).writer_eq hAccounted.shape
  · have hLater : Later state final :=
      invariant_of_run (fun _ _ _ h hStep => (steps_of_step hStep).later h)
        ⟨Nat.le_refl _, fun other producer sequence hProducer hSome hBefore =>
          absurd (hSome.symm.trans (hBefore producer hProducer)) nofun⟩ hMore
    have hPosition := (hSequenced.observed hOperation ⟨hKind, hStage⟩).1
    exact hPosition.trans_lt (hLater.2 other producer sequence hProducer hSome hBefore)

/-- A quota observation is answered once the one record before it has its fate. -/
theorem quota_fence_of_reply :
    ∃ state final, run step (recordedEvents ++ flushedEvents) initial = some state ∧
      (∃ persisted, (0, persisted) ∈ state.fates) ∧
      run step [.offer .oauthRequest 1 8 100, .assign 3] state = some final ∧
      ∃ producer sequence, final.producers[3]? = some producer ∧
        producer.sequence = some sequence ∧ 1 < sequence := by
  have hReplied : (run step (recordedEvents ++ flushedEvents) initial).any (fun state =>
      (run step [.offer .oauthRequest 1 8 100, .assign 3] state).any fun final =>
        decide (state.controls[0]? = some ⟨.quotaObservation, 1, .replied⟩ ∧
          state.producers[0]? = some ⟨.oauthRequest, some 1, 10, 8, 100, .done true, []⟩ ∧
          state.producers.length = 3 ∧
          final.producers[3]? = some ⟨.oauthRequest, some 2, 1, 8, 100, .sequenced, []⟩)) =
      true := by decide +kernel
  obtain ⟨state, hState, hReplied⟩ := (Option.any_eq_true ..).mp hReplied
  obtain ⟨final, hFinal, hReplied⟩ := (Option.any_eq_true ..).mp hReplied
  obtain ⟨hControl, hProducer, hLength, hLast⟩ := of_decide_eq_true hReplied
  obtain ⟨hFates, -, hLater⟩ := quota_fence hState
  refine ⟨state, final, hState, ?_, hFinal, _, _, hLast, rfl, ?_⟩
  · exact (hFates 0 _ hControl rfl rfl 0 _ 1 hProducer rfl (Nat.le_refl _)).2
  · refine hLater 0 _ _ final hControl rfl nofun hFinal 3 _ 2 hLast rfl fun before hBefore => ?_
    rw [List.getElem?_eq_none (by omega)] at hBefore
    cases hBefore

end TelemetryState

end Any2Api.Runtime.Telemetry
