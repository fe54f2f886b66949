import Any2Api.Library.Entries
import Any2Api.Runtime.Health.WakeUps

/-! Which ends of temporary blocks are announced: all but those whose slot is cancelled between
the deadline and its removal by the worker, by the pruning of model cooldowns or by a success of
the endpoint. -/
namespace Any2Api.Runtime.Health

open Routing Runs TimedBlocks Function

namespace WakeState

variable {state next : WakeState} {label : WakeLabel} {slot : WakeSlot} {circuit : CircuitRef}
  {endpoint credential index : Nat} {value : CircuitState} {cooldown : ModelCooldown}
  {model : String} {now blockedUntil : Instant} {task : WakeTask} {drops : List WakeSlot}
  {advances : Bool} {rest : Option EndpointSection} {circuits : CircuitRef → CircuitState}
  {transients : Nat → Option Instant} {credentials : Nat → RoutingCredentialHealth}

/-- An advance is under way. -/
def announcing (state : WakeState) : Bool := state.tasks.any (·.advances)

/-- What the runtimes, the schedule and the calls under way say about a slot. -/
def view (state : WakeState) (slot : WakeSlot) : Slot where
  recorded := state.recordedAt slot
  scheduled := state.schedule.bySlot slot
  retired := state.tasks.any fun task => decide (slot ∈ task.drops)

theorem blocking_iff : state.blocking slot = true ↔ (state.view slot).Blocks state.clock := by
  simp only [blocking, Option.any_eq_true, decide_eq_true_eq]
  exact Iff.rfl

theorem announcing_leave : (state.leave task).announcing = (state.announcing || task.advances) := by
  simp [announcing, leave]

theorem view_leave : (state.leave task).view slot =
    { state.view slot with retired := (state.view slot).retired || slot ∈ task.drops } := by
  cases slot <;> simp [view, leave, recordedAt]

/-- A call with nothing to drop changes no slot when it goes on. -/
theorem view_leave_nil : (state.leave ⟨[], advances, rest⟩).view = state.view := by
  funext slot
  simp [view_leave]

theorem view_prepareSchedule (slot : WakeSlot) :
    (state.prepareSchedule slot blockedUntil).view =
      update state.view slot { state.view slot with scheduled := some blockedUntil } := by
  funext other
  by_cases h : other = slot
  · subst h
    cases other <;> simp [view, prepareSchedule, recordedAt, WakeSchedule.schedule_bySlot]
  · rw [update_of_ne h]
    cases other <;> simp [view, prepareSchedule, recordedAt, WakeSchedule.schedule_bySlot, h]

theorem view_prepareCancellation (slot : WakeSlot) :
    (state.prepareCancellation slot).view =
      update state.view slot { state.view slot with scheduled := none } := by
  funext other
  by_cases h : other = slot
  · subst h
    cases other <;> simp [view, prepareCancellation, recordedAt, WakeSchedule.cancel_bySlot]
  · rw [update_of_ne h]
    cases other <;> simp [view, prepareCancellation, recordedAt, WakeSchedule.cancel_bySlot, h]

theorem view_of_recorded {reached : Nat} (slot : WakeSlot) (h : ∀ other, other ≠ slot →
      recordedAt { state with circuits, transients, credentials, nextSerial := reached } other =
        state.recordedAt other) :
    view { state with circuits, transients, credentials, nextSerial := reached } =
      update state.view slot { state.view slot with recorded := recordedAt { state with
        circuits, transients, credentials, nextSerial := reached } slot } := by
  funext other
  by_cases hOther : other = slot
  · subst hOther
    exact (update_self other _ state.view).symm
  · rw [update_of_ne hOther]
    exact congrArg (fun recorded => { state.view other with recorded }) (h other hOther)

/-- The deadline of a slot changes with its runtime alone. -/
theorem recordedAt_setCircuit (h : slot ≠ .circuit circuit) :
    (state.setCircuit circuit value).recordedAt slot = state.recordedAt slot := by
  cases slot <;> simp_all [setCircuit, recordedAt]

theorem recordedAt_setTransient {found : Option Instant} (h : slot ≠ .transient endpoint) :
    (state.setTransient endpoint found).recordedAt slot = state.recordedAt slot := by
  cases slot <;> simp_all [setTransient, recordedAt]

theorem recordedAt_setCredentialCooldown {found : Option Instant}
    (h : slot ≠ .credentialCooldown credential) :
    (state.setCredential credential { state.credentials credential with
      credentialCooldownUntil := found }).recordedAt slot = state.recordedAt slot := by
  cases slot with
  | circuit | transient => rfl
  | _ other => by_cases hOther : other = credential <;> simp_all [setCredential, recordedAt]

theorem recordedAt_setQuotaExhaustion {found : Option Instant}
    (h : slot ≠ .quotaExhaustion credential) :
    (state.setCredential credential { state.credentials credential with
      quotaExhaustion := found }).recordedAt slot = state.recordedAt slot := by
  cases slot with
  | circuit | transient => rfl
  | _ other => by_cases hOther : other = credential <;> simp_all [setCredential, recordedAt]

/-- Every model cooldown, and every slot that is yet to be dropped, has an earlier serial than
the next. -/
structure Serials (state : WakeState) : Prop where
  fresh : ∀ credential model cooldown,
    (state.credentials credential).modelCooldowns.get? model = some cooldown →
      cooldown.serial < state.nextSerial
  retired : ∀ slot, (state.view slot).retired = true → ∃ credential model serial,
    slot = .modelCooldown credential model serial ∧ serial < state.nextSerial

/-- What the runs keep. -/
structure Valid (state : WakeState) : Prop where
  slots : ∀ slot, (state.view slot).Valid state.clock
  serials : state.Serials

theorem Valid.initial : WakeState.initial.Valid := by
  refine ⟨fun slot => ?_, nofun, nofun⟩
  cases slot <;> exact ⟨nofun, nofun, nofun⟩

/-- The step attends to every slot. -/
structure Follows (state next : WakeState) : Prop where
  clock : next.clock = state.clock
  announcing : state.announcing = true → next.announcing = true
  slots : ∀ slot, (state.view slot).Moves state.clock (next.announcing = true) (next.view slot)
  serials : next.Serials

theorem Follows.valid (h : state.Follows next) (hValid : state.Valid) : next.Valid :=
  ⟨fun slot => h.clock ▸ (h.slots slot).valid (hValid.slots slot), h.serials⟩

/-- A step that leaves the model cooldowns alone keeps the serials. -/
theorem Serials.of_eq (h : state.Serials) (hModels : ∀ credential,
      (next.credentials credential).modelCooldowns = (state.credentials credential).modelCooldowns)
    (hSerial : next.nextSerial = state.nextSerial) (hRetired : ∀ slot,
      (next.view slot).retired = true → (state.view slot).retired = true) : next.Serials where
  fresh := fun credential => by
    rw [hModels, hSerial]
    exact h.fresh credential
  retired := fun slot hSlot => by
    rw [hSerial]
    exact h.retired slot (hRetired slot hSlot)

/-- Only the slots of model cooldowns are dropped. -/
theorem Valid.not_retired (h : state.Valid)
    (hSlot : ∀ credential model serial, slot ≠ .modelCooldown credential model serial) :
    (state.view slot).retired = false := by
  refine Bool.eq_false_of_not_eq_true fun hRetired => ?_
  obtain ⟨credential, model, serial, hSame, -⟩ := h.serials.retired slot hRetired
  exact hSlot credential model serial hSame

/-- The call goes on with nothing to drop. -/
theorem Follows.leave (h : state.Follows next) :
    state.Follows (next.leave ⟨[], advances, rest⟩) where
  clock := h.clock
  announcing := fun hBefore => by
    rw [announcing_leave, h.announcing hBefore]
    rfl
  slots := fun slot => by
    rw [view_leave_nil]
    refine (h.slots slot).mono fun hNext => ?_
    rw [announcing_leave, hNext]
    rfl
  serials := h.serials.of_eq (fun _ => rfl) rfl fun slot hSlot => by
    rwa [view_leave_nil] at hSlot

/-- The step moves one slot. -/
theorem follows_update {after : Slot} (slot : WakeSlot)
    (hView : next.view = update state.view slot after)
    (hMoves : (state.view slot).Moves state.clock (next.announcing = true) after)
    (hSerials : next.Serials) (hClock : next.clock = state.clock)
    (hAnnouncing : state.announcing = true → next.announcing = true) : state.Follows next where
  clock := hClock
  announcing := hAnnouncing
  slots := fun other => by
    rw [hView]
    by_cases hOther : other = slot
    · subst hOther
      rwa [update_self]
    · rw [update_of_ne hOther]
      exact .stay
  serials := hSerials

section

variable (slot : WakeSlot) (h : state.Valid)
  (hSlot : ∀ credential model serial, slot ≠ .modelCooldown credential model serial)
  (hRecorded : ∀ other, other ≠ slot →
    recordedAt { state with circuits, transients, credentials } other = state.recordedAt other)
  (hModels : ∀ credential, (credentials credential).modelCooldowns =
    (state.credentials credential).modelCooldowns)
include h hRecorded hModels

/-- The deadline stays. -/
theorem follows_same (hSame : recordedAt { state with circuits, transients, credentials } slot =
      state.recordedAt slot) :
    state.Follows { state with circuits, transients, credentials } := by
  refine follows_update slot ?_ .stay (h.serials.of_eq hModels rfl fun _ => id) rfl id
  rw [view_of_recorded slot hRecorded, hSame]
  rfl

include hSlot

/-- A block of a runtime is recorded and its slot scheduled. -/
theorem follows_record
    (hFound : recordedAt { state with circuits, transients, credentials } slot =
      some blockedUntil) :
    state.Follows (prepareSchedule { state with circuits, transients, credentials } slot
      blockedUntil) := by
  refine follows_update slot ?_ (.record blockedUntil (h.not_retired hSlot))
    (h.serials.of_eq hModels rfl fun _ => id) rfl id
  rw [view_prepareSchedule, view_of_recorded slot hRecorded, hFound, update_self, update_idem]

/-- A block of a runtime is cleared and its slot cancelled, which the call goes on to announce
if there was a block. -/
theorem follows_clear
    (hNone : recordedAt { state with circuits, transients, credentials } slot = none)
    (hAnnounces : advances = true ∨ state.recordedAt slot = none) :
    state.Follows ((prepareCancellation { state with circuits, transients, credentials }
      slot).leave ⟨[], advances, rest⟩) := by
  refine follows_update slot ?_ (.clear (h.not_retired hSlot)
    (hAnnounces.imp_left fun hAdvances => ?_)) (h.serials.of_eq hModels rfl fun other hOld => ?_)
    rfl fun hBefore => ?_
  · rw [view_leave_nil, view_prepareCancellation, view_of_recorded slot hRecorded, hNone,
      update_self, update_idem]
  · exact announcing_leave.trans (Bool.or_inr hAdvances)
  · rwa [view_leave_nil] at hOld
  · exact announcing_leave.trans (Bool.or_inl hBefore)

end

theorem openUntil_tryAcquire {probes : Nat} :
    (value.tryAcquire now probes).2.openUntil = value.openUntil := by
  rcases CircuitState.tryAcquire_cases (Prod.mk.eta (p := value.tryAcquire now probes)).symm with
    ⟨_, -, h⟩ | ⟨-, h⟩ | ⟨-, -, h⟩
  all_goals rw [h]

/-- The circuit stays open, or closed. -/
theorem follows_setCircuit (h : state.Valid)
    (hOpen : value.openUntil = (state.circuits circuit).openUntil) :
    state.Follows (state.setCircuit circuit value) :=
  follows_same (.circuit circuit) h (fun _ => recordedAt_setCircuit) (fun _ => rfl)
    (by simp [recordedAt, hOpen])

theorem follows_circuitSuccess (h : state.Valid) (circuit : CircuitRef) (permit : CircuitPermit)
    (rest : Option EndpointSection) : state.Follows (state.circuitSuccess circuit permit rest) := by
  unfold circuitSuccess
  dsimp only
  rcases (state.circuits circuit).success_cases permit with ⟨hLate, hSame⟩ | ⟨hInTime, hClosed⟩
  · rw [if_pos hLate, hSame]
    exact .leave (follows_setCircuit h (CircuitState.returnProbe_openUntil _))
  · rw [if_neg (Bool.not_eq_true _ ▸ hInTime)]
    refine follows_clear (.circuit circuit) h (fun _ _ _ => nofun) (fun _ => recordedAt_setCircuit)
      (fun _ => rfl) (by simp [recordedAt, hClosed]) ?_
    cases hOpen : (state.circuits circuit).openUntil with
    | none => exact .inr hOpen
    | some openUntil => exact .inl (by simp)

theorem follows_circuitFailure (h : state.Valid) (circuit : CircuitRef) (permit : CircuitPermit)
    (now : Instant) (breaker : Breaker) :
    state.Follows (state.circuitFailure circuit permit now breaker) := by
  unfold circuitFailure
  rcases (state.circuits circuit).failure_cases permit now breaker
    with ⟨-, hFailure⟩ | ⟨-, hFailure⟩
  · rw [hFailure]
    exact follows_record (.circuit circuit) h (fun _ _ _ => nofun) (fun _ => recordedAt_setCircuit)
      (fun _ => rfl) (by simp [recordedAt])
  · rw [hFailure]
    exact follows_setCircuit h (CircuitState.returnProbe_openUntil _)

theorem follows_transient (h : state.Valid) (endpoint : Nat) (now : Instant) (delay : Duration) :
    state.Follows (state.transient endpoint now delay) :=
  follows_record (.transient endpoint) h (fun _ _ _ => nofun) (fun _ => recordedAt_setTransient)
    (fun _ => rfl) (by simp [recordedAt])

theorem modelCooldowns_setCredential {value : RoutingCredentialHealth}
    (h : value.modelCooldowns = (state.credentials credential).modelCooldowns) (other : Nat) :
    ((state.setCredential credential value).credentials other).modelCooldowns =
      (state.credentials other).modelCooldowns := by
  by_cases hOther : other = credential
  · subst hOther
    simp [setCredential, h]
  · simp [setCredential, hOther]

theorem follows_recordCredentialCooldown (h : state.Valid) (credential : Nat) (now : Instant)
    (delay : Duration) : state.Follows (state.recordCredentialCooldown credential now delay) :=
  follows_record (.credentialCooldown credential) h (fun _ _ _ => nofun)
    (fun _ => recordedAt_setCredentialCooldown) (modelCooldowns_setCredential rfl)
    (by simp [recordedAt])

theorem follows_recordQuotaExhaustion (h : state.Valid) (credential : Nat) (now : Instant)
    (delay : Duration) : state.Follows (state.recordQuotaExhaustion credential now delay) :=
  .leave (follows_record (.quotaExhaustion credential) h (fun _ _ _ => nofun)
    (fun _ => recordedAt_setQuotaExhaustion) (modelCooldowns_setCredential rfl)
    (by simp [recordedAt]))

theorem follows_refl (h : state.Valid) : state.Follows state :=
  ⟨rfl, id, fun _ => .stay, h.serials⟩

theorem follows_clearQuotaExhaustion (h : state.Valid) (credential : Nat) :
    state.Follows (state.clearQuotaExhaustion credential) := by
  unfold clearQuotaExhaustion
  by_cases hSome : (state.credentials credential).quotaExhaustion.isSome
  · rw [if_pos hSome]
    exact follows_clear (.quotaExhaustion credential) h (fun _ _ _ => nofun)
      (fun _ => recordedAt_setQuotaExhaustion) (modelCooldowns_setCredential rfl)
      (by simp [recordedAt]) (.inl rfl)
  · rw [if_neg hSome]
    exact follows_refl h

/-- The slots of the model cooldowns that a step forgets. -/
def forgotten (state : WakeState) (credential : Nat)
    (keep : ModelCooldown → Bool) : List WakeSlot :=
  modelSlots credential ((state.credentials credential).modelCooldowns.entries.filter
    fun entry => !keep entry.2)

section models

variable {health : RoutingCredentialHealth} {keep : ModelCooldown → Bool} {serial : Nat}

theorem recordedAt_modelCooldown {found : Instant} :
    state.recordedAt (.modelCooldown credential model serial) = some found ↔ ∃ cooldown,
      (state.credentials credential).modelCooldowns.get? model = some cooldown ∧
        cooldown.serial = serial ∧ cooldown.blockedUntil = found := by
  simp [recordedAt, Option.filter_eq_some_iff, and_assoc]

theorem mem_forgotten : slot ∈ state.forgotten credential keep ↔ ∃ model cooldown,
    (state.credentials credential).modelCooldowns.get? model = some cooldown ∧
      keep cooldown = false ∧ .modelCooldown credential model cooldown.serial = slot := by
  simp [forgotten, modelSlots, OrderedMap.get?_eq_some_iff, and_assoc]

/-- The cooldowns that are not kept lose their deadlines. -/
theorem recordedAt_retain {other : Nat}
    (hHealth : health.modelCooldowns = (state.credentials credential).modelCooldowns.retain keep) :
    (state.setCredential credential health).recordedAt (.modelCooldown other model serial) =
      if .modelCooldown other model serial ∈ state.forgotten credential keep then none
      else state.recordedAt (.modelCooldown other model serial) := by
  by_cases hOther : other = credential
  · subst hOther
    ext found
    rw [recordedAt_modelCooldown]
    simp only [setCredential, update_self, hHealth, OrderedMap.get?_retain_eq_some]
    split
    next hForgotten =>
      obtain ⟨_, cooldown, hFound, hKeep, hSlot⟩ := mem_forgotten.mp hForgotten
      cases hSlot
      simp [hFound, hKeep]
    next hKept =>
      rw [recordedAt_modelCooldown]
      refine exists_congr fun cooldown => ?_
      rw [and_assoc]
      refine and_congr_right fun hFound => and_iff_right_of_imp fun ⟨hSerial, _⟩ => ?_
      by_contra hKeep
      exact hKept (mem_forgotten.mpr
        ⟨model, cooldown, hFound, Bool.eq_false_of_not_eq_true hKeep, by rw [hSerial]⟩)
  · rw [if_neg fun hForgotten => ?_]
    · simp [setCredential, recordedAt, hOther]
    · obtain ⟨_, _, -, -, hSlot⟩ := mem_forgotten.mp hForgotten
      cases hSlot
      exact hOther rfl

/-- A step forgets model cooldowns and leaves their slots to be dropped, which the call announces
unless the cooldowns have ended. -/
theorem follows_forget (schedule : WakeSchedule WakeSlot) (h : state.Valid)
    (hHealth : health.modelCooldowns = (state.credentials credential).modelCooldowns.retain keep)
    (hAnnounced : advances = true ∨ ∀ model cooldown,
      (state.credentials credential).modelCooldowns.get? model = some cooldown →
        keep cooldown = false → cooldown.blockedUntil ≤ state.clock)
    (hSchedule : ∀ other model serial, schedule.bySlot (.modelCooldown other model serial) =
      state.schedule.bySlot (.modelCooldown other model serial))
    (hFixed : ∀ slot, (∀ other model serial, slot ≠ .modelCooldown other model serial) →
      (state.view slot).Moves state.clock (advances = true)
        (view { state.setCredential credential health with schedule } slot)) :
    state.Follows (leave { state.setCredential credential health with schedule }
      ⟨state.forgotten credential keep, advances, none⟩) where
  clock := rfl
  announcing := fun hBefore => by
    rw [announcing_leave]
    exact Bool.or_inl hBefore
  slots := fun slot => by
    suffices hMoves : (state.view slot).Moves state.clock (advances = true) _ from
      hMoves.mono fun hAdvances => announcing_leave.trans (Bool.or_inr hAdvances)
    rw [view_leave]
    by_cases hForgotten : slot ∈ state.forgotten credential keep
    · obtain ⟨model, cooldown, hFound, hKeep, rfl⟩ := mem_forgotten.mp hForgotten
      have hMoved : view { state.setCredential credential health with schedule }
          (.modelCooldown credential model cooldown.serial) =
            ⟨none, (state.view (.modelCooldown credential model cooldown.serial)).scheduled,
              (state.view (.modelCooldown credential model cooldown.serial)).retired⟩ :=
        congrArg₂ (Slot.mk · · _) ((recordedAt_retain hHealth).trans (if_pos hForgotten))
          (hSchedule ..)
      rw [hMoved, decide_eq_true hForgotten, Bool.or_true]
      refine .retire (hAnnounced.imp_right fun hEnded deadline hDeadline => ?_)
      obtain ⟨found, hSame, -, rfl⟩ := recordedAt_modelCooldown.mp hDeadline
      cases hFound.symm.trans hSame
      exact hEnded _ _ hFound hKeep
    · rw [decide_eq_false hForgotten, Bool.or_false]
      cases slot with
      | modelCooldown other model serial =>
        have hSame : view { state.setCredential credential health with schedule }
            (.modelCooldown other model serial) = state.view (.modelCooldown other model serial) :=
          congrArg₂ (Slot.mk · · _) ((recordedAt_retain hHealth).trans (if_neg hForgotten))
            (hSchedule ..)
        rw [hSame]
        exact .stay
      | _ => exact hFixed _ fun _ _ _ => nofun
  serials := by
    refine ⟨fun other model found hFound => ?_, fun slot hRetired => ?_⟩
    · refine h.serials.fresh other model found ?_
      by_cases hOther : other = credential
      · subst hOther
        simp only [leave, setCredential, update_self, hHealth,
          OrderedMap.get?_retain_eq_some] at hFound
        exact hFound.1
      · simpa only [leave, setCredential, update_of_ne hOther] using hFound
    · rw [view_leave, Bool.or_eq_true, decide_eq_true_eq] at hRetired
      rcases hRetired with hOld | hForgotten
      · exact h.serials.retired slot hOld
      · obtain ⟨model, cooldown, hFound, -, rfl⟩ := mem_forgotten.mp hForgotten
        exact ⟨credential, model, _, rfl, h.serials.fresh credential model cooldown hFound⟩

theorem follows_pruneExpiredModelCooldowns (h : state.Valid) (credential : Nat)
    (hNow : now ≤ state.clock) :
    state.Follows (state.pruneExpiredModelCooldowns credential now) := by
  have hExpired : modelSlots credential ((state.credentials credential).pruneExpiredModelCooldowns
      now).1 = state.forgotten credential (now < ·.blockedUntil) := by
    simp [RoutingCredentialHealth.pruneExpiredModelCooldowns, forgotten, ← decide_not]
  have hFixed : ∀ slot, (∀ other model serial, slot ≠ .modelCooldown other model serial) →
      (state.setCredential credential ((state.credentials
        credential).pruneExpiredModelCooldowns now).2).view slot = state.view slot := by
    intro slot hSlot
    cases slot with
    | circuit | transient => rfl
    | modelCooldown => exact absurd rfl (hSlot _ _ _)
    | _ other =>
      by_cases hOther : other = credential <;>
        simp [view, setCredential, recordedAt, hOther,
          RoutingCredentialHealth.pruneExpiredModelCooldowns]
  have hFollows : state.Follows (leave (state.setCredential credential ((state.credentials
      credential).pruneExpiredModelCooldowns now).2)
        ⟨state.forgotten credential (now < ·.blockedUntil), false, none⟩) :=
    follows_forget state.schedule h rfl
      (.inr fun _ cooldown _ hKeep => (Nat.le_of_not_lt (of_decide_eq_false hKeep)).trans hNow)
      (fun _ _ _ => rfl) fun slot hSlot => hFixed slot hSlot ▸ .stay
  rw [← hExpired] at hFollows
  exact hFollows

/-- Nothing is announced if there is nothing to clear. -/
theorem hasTemporaryCooldown_or (health : RoutingCredentialHealth) :
    health.hasTemporaryCooldown = true ∨ health.credentialCooldownUntil = none ∧
      health.quotaExhaustion = none ∧ ∀ model, health.modelCooldowns.get? model = none := by
  refine or_iff_not_imp_left.mpr fun h => ?_
  rw [Bool.not_eq_true] at h
  simp only [RoutingCredentialHealth.hasTemporaryCooldown, OrderedMap.isEmpty, Bool.or_eq_false_iff,
    Option.isSome_eq_false_iff, Option.isNone_iff_eq_none, Bool.not_eq_false',
    List.isEmpty_iff] at h
  refine ⟨h.1.1, h.2, fun model => Option.eq_none_iff_forall_ne_some.mpr fun cooldown hFound => ?_⟩
  rw [OrderedMap.get?_eq_some_iff, h.1.2] at hFound
  cases hFound

theorem follows_clearTemporaryCooldowns (h : state.Valid) (credential : Nat) :
    state.Follows (state.clearTemporaryCooldowns credential) := by
  have hAll : modelSlots credential (state.credentials credential).modelCooldowns.entries =
      state.forgotten credential fun _ => false := by
    simp [forgotten]
  let cleared := ((state.setCredential credential .new).prepareCancellation
    (.credentialCooldown credential)).prepareCancellation (.quotaExhaustion credential)
  have hBySlot : cleared.schedule.bySlot = update (update state.schedule.bySlot
      (.credentialCooldown credential) none) (.quotaExhaustion credential) none := by
    simp [cleared, prepareCancellation, WakeSchedule.cancel_bySlot, setCredential]
  have hNothing := hasTemporaryCooldown_or (state.credentials credential)
  have hFollows : state.Follows (cleared.leave ⟨state.forgotten credential fun _ => false,
      (state.credentials credential).hasTemporaryCooldown, none⟩) := by
    refine follows_forget cleared.schedule h (OrderedMap.ext_get? fun model => ?_) ?_
      (fun _ _ _ => ?_) fun slot hSlot => ?_
    · refine (Option.eq_none_iff_forall_ne_some.mpr fun found hFound => ?_).symm
      exact Bool.false_ne_true (OrderedMap.get?_retain_eq_some.mp hFound).2
    · refine hNothing.imp_right fun hNone model cooldown hFound => ?_
      rw [hNone.2.2] at hFound
      cases hFound
    · simp [hBySlot]
    · cases slot with
      | circuit | transient => simp [view, setCredential, recordedAt, hBySlot, Slot.Moves.stay]
      | modelCooldown => exact absurd rfl (hSlot _ _ _)
      | credentialCooldown other =>
        by_cases hOther : other = credential
        · subst hOther
          convert Slot.Moves.clear (h.not_retired hSlot) (hNothing.imp_right (·.1)) using 1
          simp [view, setCredential, recordedAt, hBySlot, RoutingCredentialHealth.new]
        · simp [view, setCredential, recordedAt, hBySlot, hOther, Slot.Moves.stay]
      | quotaExhaustion other =>
        by_cases hOther : other = credential
        · subst hOther
          convert Slot.Moves.clear (h.not_retired hSlot) (hNothing.imp_right (·.2.1)) using 1
          simp [view, setCredential, recordedAt, hBySlot, RoutingCredentialHealth.new]
        · simp [view, setCredential, recordedAt, hBySlot, hOther, Slot.Moves.stay]
  rw [← hAll] at hFollows
  exact hFollows

def inserted (state : WakeState) (credential : Nat) (model : String) (cooldown : ModelCooldown) :
    RoutingCredentialHealth :=
  { state.credentials credential with
    modelCooldowns := (state.credentials credential).modelCooldowns.insert model cooldown }

/-- The cooldown takes the serial of the one that it replaces, or a new one. -/
def Takes (state : WakeState) (credential : Nat) (model : String) (serial reached : Nat) : Prop :=
  (state.credentials credential).modelCooldowns.get? model = none ∧ serial = state.nextSerial ∧
      reached = state.nextSerial + 1 ∨
    ∃ before, (state.credentials credential).modelCooldowns.get? model = some before ∧
      serial = before.serial ∧ reached = state.nextSerial

theorem takes_recordModelCooldown (cause : TemporaryUnavailabilityCause) :
    let recorded := (state.credentials credential).recordModelCooldown model blockedUntil cause
      state.nextSerial
    state.Takes credential model recorded.1.serial recorded.2 := by
  unfold Takes RoutingCredentialHealth.recordModelCooldown
  cases hBefore : (state.credentials credential).modelCooldowns.get? model with
  | none => exact .inl ⟨rfl, rfl, rfl⟩
  | some before =>
    refine .inr ⟨before, rfl, ?_⟩
    dsimp only
    split
    · exact ⟨rfl, rfl⟩
    · exact ⟨rfl, rfl⟩

/-- A serial that is new has not been dropped, and that of a recorded cooldown is not yet. -/
theorem Takes.not_retired {reached : Nat} (hTakes : state.Takes credential model serial reached)
    (h : state.Valid) : (state.view (.modelCooldown credential model serial)).retired = false := by
  refine Bool.eq_false_of_not_eq_true fun hRetired => ?_
  rcases hTakes with ⟨-, hNew, -⟩ | ⟨before, hBefore, hSame, -⟩
  · obtain ⟨_, _, other, hSlot, hLess⟩ := h.serials.retired _ hRetired
    cases hSlot
    exact absurd hNew (Nat.ne_of_lt hLess)
  · have hSome : state.recordedAt (.modelCooldown credential model serial) =
        some before.blockedUntil :=
      recordedAt_modelCooldown.mpr ⟨before, hBefore, hSame.symm, rfl⟩
    cases ((h.slots _).gone hRetired).symm.trans hSome

theorem Takes.recordedAt_eq {reached : Nat}
    (hTakes : state.Takes credential model cooldown.serial reached)
    (hSlot : slot ≠ .modelCooldown credential model cooldown.serial) :
    recordedAt { state with
      credentials := update state.credentials credential (state.inserted credential model cooldown)
      nextSerial := reached } slot = state.recordedAt slot := by
  cases slot with
  | circuit | transient => rfl
  | credentialCooldown other | quotaExhaustion other =>
    by_cases hOther : other = credential <;>
      simp [inserted, recordedAt, hOther]
  | modelCooldown other another serial =>
    by_cases hOther : other = credential
    · subst hOther
      by_cases hModel : another = model
      · subst hModel
        have hSerial : cooldown.serial ≠ serial := fun hSerial => hSlot (by rw [hSerial])
        rcases hTakes with ⟨hNone, -, -⟩ | ⟨before, hBefore, hOld, -⟩
        · simp [inserted, recordedAt, Option.filter, hSerial, hNone]
        · simp [inserted, recordedAt, Option.filter, hSerial, hBefore, ← hOld]
      · simp [inserted, recordedAt, hModel]
    · simp [inserted, recordedAt, hOther]

theorem follows_insert {reached : Nat} (h : state.Valid)
    (hTakes : state.Takes credential model cooldown.serial reached) :
    state.Follows (prepareSchedule { state with
      credentials := update state.credentials credential (state.inserted credential model cooldown)
      nextSerial := reached } (.modelCooldown credential model cooldown.serial)
        cooldown.blockedUntil) := by
  refine follows_update (.modelCooldown credential model cooldown.serial) ?_
    (.record cooldown.blockedUntil (hTakes.not_retired h)) ?_ rfl id
  · rw [view_prepareSchedule]
    rw [view_of_recorded _ fun _ => hTakes.recordedAt_eq, update_self, update_idem]
    simp [recordedAt, inserted, Option.filter]
  · have hReached : cooldown.serial < reached ∧ state.nextSerial ≤ reached := by
      rcases hTakes with ⟨-, hSerial, rfl⟩ | ⟨before, hBefore, hSerial, rfl⟩
      · omega
      · exact ⟨hSerial ▸ h.serials.fresh credential model before hBefore, le_rfl⟩
    refine ⟨fun other another found hFound => ?_, fun other hOld => ?_⟩
    · by_cases hOther : other = credential
      · subst hOther
        simp only [prepareSchedule, inserted, update_self, OrderedMap.get?_insert] at hFound
        split at hFound
        · exact Option.some.inj hFound ▸ hReached.1
        · exact (h.serials.fresh _ _ _ hFound).trans_le hReached.2
      · simp only [prepareSchedule, update_of_ne hOther] at hFound
        exact (h.serials.fresh _ _ _ hFound).trans_le hReached.2
    · obtain ⟨_, _, serial, hSlot, hLess⟩ := h.serials.retired other hOld
      exact ⟨_, _, serial, hSlot, hLess.trans_le hReached.2⟩

end models

theorem follows_removeDue (h : state.Valid) : state.Follows state.removeDue where
  clock := rfl
  announcing := fun hBefore => announcing_leave.trans (Bool.or_inl hBefore)
  slots := fun slot => by
    unfold removeDue
    dsimp only
    rw [view_leave_nil]
    refine .removeDue _ (fun deadline => WakeSchedule.removeDue_bySlot)
      fun deadline hScheduled hDue => ?_
    exact announcing_leave.trans (Bool.or_inr (WakeSchedule.removeDue_fst hScheduled hDue))
  serials := by
    refine h.serials.of_eq (fun _ => rfl) rfl fun slot hSlot => ?_
    unfold removeDue at hSlot
    dsimp only at hSlot
    rwa [view_leave_nil] at hSlot

section tasks

variable (hTask : state.tasks[index]? = some task) (new : WakeTask)
include hTask

theorem any_setTask {test : WakeTask → Bool} (hTest : test new = test task) :
    (state.setTask index new).tasks.any test = state.tasks.any test := by
  rw [Bool.eq_iff_iff, List.any_eq_true, List.any_eq_true]
  exact ⟨Entries.exists_mem_of_set hTask fun h => hTest ▸ h,
    Entries.exists_mem_set hTask fun h => hTest.symm ▸ h⟩

theorem announcing_setTask (hAdvances : new.advances = task.advances) :
    (state.setTask index new).announcing = state.announcing := any_setTask hTask new hAdvances

theorem view_setTask (hDrops : slot ∈ new.drops ↔ slot ∈ task.drops) :
    (state.setTask index new).view slot = state.view slot :=
  congrArg (Slot.mk _ _) (any_setTask hTask new (decide_eq_decide.mpr hDrops))

end tasks

/-- A call that has nothing left to drop goes on. -/
theorem Valid.setTask (h : state.Valid) (hTask : state.tasks[index]? = some ⟨[], advances, rest⟩)
    (advanced : Bool) (left : Option EndpointSection) :
    (state.setTask index ⟨[], advanced, left⟩).Valid := by
  have hView : ∀ slot, (state.setTask index ⟨[], advanced, left⟩).view slot = state.view slot :=
    fun _ => view_setTask hTask _ Iff.rfl
  exact ⟨fun slot => hView slot ▸ h.slots slot,
    h.serials.of_eq (fun _ => rfl) rfl fun slot hSlot => hView slot ▸ hSlot⟩

theorem Follows.of_resumed (hTask : state.tasks[index]? = some ⟨[], false, rest⟩)
    (h : (state.setTask index ⟨[], false, none⟩).Follows next) : state.Follows next where
  clock := h.clock
  announcing :=
    fun hBefore => h.announcing ((announcing_setTask hTask ⟨[], false, none⟩ rfl).trans hBefore)
  slots := fun slot => by
    have hMoves := h.slots slot
    rwa [view_setTask hTask ⟨[], false, none⟩ Iff.rfl] at hMoves
  serials := h.serials

/-- The slot is dropped: it has no deadline any more. -/
theorem follows_drop (h : state.Valid)
    (hTask : state.tasks[index]? = some ⟨slot :: drops, advances, rest⟩)
    (hAnnounced : advances = true ∨ state.schedule.bySlot slot = none) :
    state.Follows ((state.prepareCancellation slot).setTask index ⟨drops, advances, rest⟩) := by
  let next := (state.prepareCancellation slot).setTask index ⟨drops, advances, rest⟩
  have hMem := List.mem_of_getElem? hTask
  have hTasks : (state.prepareCancellation slot).tasks[index]? = _ := hTask
  have hNone : state.recordedAt slot = none := (h.slots slot).gone
    (List.any_eq_true.mpr ⟨_, hMem, decide_eq_true List.mem_cons_self⟩)
  have hAnnouncing : next.announcing = state.announcing :=
    announcing_setTask hTasks ⟨drops, advances, rest⟩ rfl
  refine ⟨rfl, hAnnouncing.trans, fun other => ?_,
    h.serials.of_eq (fun _ => rfl) rfl fun other hOld => ?_⟩
  · by_cases hOther : other = slot
    · subst hOther
      have hView : next.view other = ⟨none, none, (next.view other).retired⟩ :=
        congrArg₂ (Slot.mk · · _) hNone
          ((congrFun WakeSchedule.cancel_bySlot other).trans (update_self ..))
      refine hView ▸ .cancel _ (fun deadline hFound => ?_) (hAnnounced.imp_left fun hAdvances =>
        hAnnouncing.trans (List.any_eq_true.mpr ⟨_, hMem, hAdvances⟩))
      cases hNone.symm.trans hFound
    · rw [view_setTask hTasks ⟨drops, advances, rest⟩ (by simp [hOther]),
        view_prepareCancellation, update_of_ne hOther]
      exact .stay
  · rw [view, List.any_eq_true] at hOld ⊢
    exact Entries.exists_mem_of_set hTask
      (fun hDrops => decide_eq_true (List.mem_cons_of_mem slot (of_decide_eq_true hDrops))) hOld

theorem follows_clearTransient {startedAt : Instant} (h : state.Valid)
    (hStarted : startedAt ≤ state.clock) (hRemoved : state.endsBefore endpoint startedAt = true →
      state.schedule.bySlot (.transient endpoint) = none) :
    state.Follows (state.clearTransient endpoint startedAt) := by
  unfold clearTransient
  by_cases hEnds : state.endsBefore endpoint startedAt = true
  · rw [if_pos hEnds]
    refine follows_update (.transient endpoint) ?_
      (.cancel (state.view (.transient endpoint)).retired (fun deadline hFound => ?_)
        (.inr (hRemoved hEnds)))
      (h.serials.of_eq (fun _ => rfl) rfl fun _ => id) rfl id
    · rw [view_prepareCancellation, setTransient, view_of_recorded _ fun _ =>
        recordedAt_setTransient, update_self, update_idem]
      simp [recordedAt]
    · have hRecorded : state.transients endpoint = some deadline := hFound
      exact (show deadline ≤ startedAt by simpa [endsBefore, hRecorded] using hEnds).trans hStarted
  · rw [if_neg hEnds]
    exact follows_refl h

/-- The slot that the step cancels without an advance to follow: that of a pruned model cooldown,
or that of a transient block which a success of the endpoint clears. -/
def cancelledSlot (state : WakeState) : WakeLabel → Option WakeSlot
  | .drop index =>
    match state.tasks[index]? with
    | some ⟨slot :: _, false, _⟩ => some slot
    | _ => none
  | .resume index _ =>
    match state.tasks[index]? with
    | some ⟨[], false, some (.clearTransient endpoint startedAt)⟩ =>
      if startedAt ≤ state.clock ∧ state.endsBefore endpoint startedAt = true then
        some (.transient endpoint)
      else
        none
    | _ => none
  | _ => none

/-- No expiry is unannounced: of every block that has ended since the last advance, the slot is
scheduled or an advance is under way. -/
def Announced (state : WakeState) : Prop :=
  ∀ slot, state.unannounced slot = true →
    (state.schedule.bySlot slot).isSome ∨ state.announcing = true

/-- The step does not cancel the slot of a pruned model cooldown or of a cleared transient block
between its deadline and its removal by the worker: the worker has removed it before. -/
def Timely (state : WakeState) (label : WakeLabel) : Prop :=
  ∀ slot, state.cancelledSlot label = some slot → state.schedule.bySlot slot = none

/-- Apart from the clock and the advances, every step attends to every slot. -/
theorem perform_follows (h : state.Valid) (hTimely : state.Timely label)
    (hPerform : state.perform label = some next) (hTick : ∀ now, label ≠ .tick now)
    (hAdvance : isAdvance label = false) : state.Follows next := by
  cases label <;> simp only [perform, Option.ite_none_right_eq_some, Option.some.injEq] at hPerform
  case tick now => exact absurd rfl (hTick now)
  case tryAcquire circuit now probes =>
    exact hPerform.2 ▸ follows_setCircuit h openUntil_tryAcquire
  case releaseProbe circuit => exact hPerform ▸ .leave (follows_setCircuit h rfl)
  case proxySuccess proxy permit =>
    exact hPerform ▸ follows_circuitSuccess h (.proxy proxy) permit none
  case proxyFailure proxy permit now breaker =>
    exact hPerform.2 ▸ follows_circuitFailure h (.proxy proxy) permit now breaker
  case endpointFailure endpoint permit now delay breaker =>
    exact hPerform.2 ▸ .leave (follows_transient h endpoint now delay)
  case endpointSuccess endpoint permit startedAt =>
    exact hPerform.2 ▸ follows_circuitSuccess h (.endpoint endpoint) permit _
  case pruneExpiredModelCooldowns credential now =>
    exact hPerform.2 ▸ follows_pruneExpiredModelCooldowns h credential hPerform.1
  case recordCredentialCooldown credential now delay =>
    exact hPerform.2 ▸ follows_recordCredentialCooldown h credential now delay
  case recordModelCooldown credential model now delay cause =>
    exact hPerform.2 ▸ follows_insert h (takes_recordModelCooldown cause)
  case recordQuotaExhaustion credential now delay =>
    exact hPerform.2 ▸ follows_recordQuotaExhaustion h credential now delay
  case clearQuotaExhaustion credential =>
    exact hPerform ▸ follows_clearQuotaExhaustion h credential
  case clearTemporaryCooldowns credential =>
    exact hPerform ▸ follows_clearTemporaryCooldowns h credential
  case removeDue => exact hPerform ▸ follows_removeDue h
  case drop index =>
    split at hPerform
    next slot drops advances rest hTask =>
      refine Option.some.inj hPerform ▸ follows_drop h hTask ?_
      -- The slots that are dropped without an advance to follow are the cancelled ones.
      cases advances with
      | true => exact .inl rfl
      | false => exact .inr (hTimely slot (by simp only [cancelledSlot, hTask]))
    next => cases hPerform
  case advance index => cases hAdvance
  case resume index now =>
    split at hPerform
    next endpoint permit breaker hTask =>
      obtain ⟨-, hNext⟩ := Option.ite_none_right_eq_some.mp hPerform
      exact Option.some.inj hNext ▸ .of_resumed hTask
        (follows_circuitFailure (h.setTask hTask _ _) (.endpoint endpoint) permit now breaker)
    next endpoint startedAt hTask =>
      obtain ⟨hStarted, hNext⟩ := Option.ite_none_right_eq_some.mp hPerform
      refine Option.some.inj hNext ▸ .of_resumed hTask (follows_clearTransient (h.setTask hTask _ _)
        hStarted fun hEnds => hTimely (.transient endpoint) ?_)
      simp only [cancelledSlot, hTask]
      exact if_pos ⟨hStarted, hEnds⟩
    next => cases hPerform

theorem unannounced_note {after : WakeState} :
    (state.note label after).unannounced slot = true ↔
      (state.view slot).Blocks state.clock ∧ ¬(after.view slot).Blocks after.clock ∨
        state.unannounced slot = true ∧ isAdvance label = false := by
  simp [note, ← blocking_iff]

/-- The history does not count for what is valid. -/
theorem valid_note {after : WakeState} : (state.note label after).Valid ↔ after.Valid :=
  ⟨fun h => ⟨h.slots, h.serials.fresh, h.serials.retired⟩,
    fun h => ⟨h.slots, h.serials.fresh, h.serials.retired⟩⟩

/-- What a run keeps that cancels no slot too early. -/
def Kept (state : WakeState) : Prop := state.Valid ∧ state.Announced

theorem Follows.kept {after : WakeState} (hFollows : state.Follows after) (h : state.Kept) :
    (state.note label after).Kept := by
  obtain ⟨hValid, hAnnounced⟩ := h
  refine ⟨valid_note.mpr (hFollows.valid hValid), fun slot hEnded => ?_⟩
  rw [unannounced_note, hFollows.clock] at hEnded
  rcases hEnded with ⟨hBefore, hAfter⟩ | ⟨hBefore, -⟩
  · exact (hFollows.slots slot).ended (hValid.slots slot) hBefore hAfter
  · exact (hAnnounced slot hBefore).elim ((hFollows.slots slot).kept (hValid.slots slot))
      fun hAnnouncing => .inr (hFollows.announcing hAnnouncing)

/-- Time passes: a block that ends is still scheduled. -/
theorem Kept.tick (h : state.Kept) (hNow : state.clock ≤ now) :
    (state.note (.tick now) { state with clock := now }).Kept := by
  obtain ⟨hValid, hAnnounced⟩ := h
  refine ⟨⟨fun slot => (hValid.slots slot).later hNow, hValid.serials.fresh,
    hValid.serials.retired⟩, fun slot hEnded => ?_⟩
  rcases unannounced_note.mp hEnded with ⟨hBefore, -⟩ | ⟨hBefore, -⟩
  · exact .inl ((hValid.slots slot).scheduled_of_blocks hBefore)
  · exact hAnnounced slot hBefore

/-- An advance announces all that have ended. -/
theorem Kept.advance (h : state.Kept) (hTask : state.tasks[index]? = some ⟨[], true, rest⟩) :
    (state.note (.advance index) (state.setTask index ⟨[], false, rest⟩)).Kept := by
  refine ⟨valid_note.mpr (h.1.setTask hTask _ _), fun slot hEnded => ?_⟩
  rw [unannounced_note, view_setTask hTask ⟨[], false, rest⟩ Iff.rfl] at hEnded
  rcases hEnded with ⟨hBefore, hAfter⟩ | ⟨-, hNot⟩
  · exact absurd hBefore hAfter
  · cases hNot

theorem Kept.step (h : state.Kept) (hTimely : state.Timely label)
    (hStep : state.step label = some next) : next.Kept := by
  obtain ⟨after, hPerform, rfl⟩ := Option.map_eq_some_iff.mp hStep
  cases label with
  | tick now =>
    obtain ⟨hNow, hNext⟩ := Option.ite_none_right_eq_some.mp hPerform
    exact Option.some.inj hNext ▸ h.tick hNow
  | advance index =>
    unfold perform at hPerform
    dsimp only at hPerform
    split at hPerform
    next rest hTask => exact Option.some.inj hPerform ▸ h.advance hTask
    next => cases hPerform
  | _ => exact (perform_follows h.1 hTimely hPerform (fun _ => nofun) rfl).kept h

/-- No expiry goes unannounced in a run in which the slots of pruned model cooldowns and of
cleared transient blocks are cancelled only after the worker has removed them. -/
theorem run_announced (labels : List WakeLabel) (hRun : run step labels initial = some state)
    (hTimely : Along step Timely labels initial) : state.Announced := by
  have hKept : state.Kept := invariant_of_along (fun _ _ _ h hTimely hStep => h.step hTimely hStep)
    ⟨.initial, fun _ => nofun⟩ hTimely hRun
  exact hKept.2

instance decidableTimely (state : WakeState) (label : WakeLabel) : Decidable (state.Timely label) :=
  match h : state.cancelledSlot label with
  | none => .isTrue fun slot hSlot => by simp [h] at hSlot
  | some slot => decidable_of_iff (state.schedule.bySlot slot = none) (by simp [Timely, h])

/-- A model cooldown and a transient block of an endpoint end, and the worker removes their slots
before the cooldown is pruned and a success clears the block. -/
def removedFirst : List WakeLabel :=
  [.recordModelCooldown 0 "model" 0 (seconds 15) .rateLimitCooldown,
    .tryAcquire (.endpoint 0) 0 1,
    .endpointFailure 0 ⟨false, 0⟩ 0 reliabilityPolicy.transientEndpoint reliabilityPolicy.endpoint,
    .resume 0 0, .tick (seconds 15), .removeDue, .pruneExpiredModelCooldowns 0 (seconds 15),
    .drop 2, .tryAcquire (.endpoint 0) (seconds 15) 1,
    .endpointSuccess 0 ⟨false, seconds 15⟩ (seconds 15), .advance 3, .resume 3 0]

/-- The ends of both blocks have been announced. -/
theorem run_announced_removedFirst :
    ∃ state, run step removedFirst initial = some state ∧ state.Announced := by
  have hSome : (run step removedFirst initial).isSome = true := by decide +kernel
  obtain ⟨state, hRun⟩ := Option.isSome_iff_exists.mp hSome
  exact ⟨state, hRun, run_announced removedFirst hRun (by decide +kernel)⟩

/-- The block of the slot has ended, and neither the worker nor an advance will announce it. -/
def missed (state : WakeState) (slot : WakeSlot) : Bool :=
  state.unannounced slot && (state.schedule.bySlot slot).isNone && !state.announcing

theorem exists_not_announced {labels : List WakeLabel}
    (h : (run step labels initial).any (missed · slot) = true) :
    ∃ state, run step labels initial = some state ∧ state.unannounced slot = true ∧
      ¬state.Announced := by
  obtain ⟨state, hRun, h⟩ := (Option.any_eq_true ..).mp h
  simp only [missed, Bool.and_eq_true, Option.isNone_iff_eq_none, Bool.not_eq_true'] at h
  obtain ⟨⟨hEnded, hScheduled⟩, hQuiet⟩ := h
  refine ⟨state, hRun, hEnded, fun hAnnounced => ?_⟩
  rcases hAnnounced slot hEnded with hSome | hAnnouncing
  · rw [hScheduled] at hSome
    cases hSome
  · cases hQuiet.symm.trans hAnnouncing

/-- A model cooldown ends, and before the worker removes its slot an availability check prunes
it. In the second run an attempt fails, which blocks the endpoint for 15 s and leaves a failure
in its circuit; an attempt that has passed the check of the block before takes its permit after
the failure, and its success closes the circuit and advances while the endpoint is blocked; at
the deadline a third attempt starts and succeeds, which finds nothing to change in the circuit
and clears the block before the worker removes its slot. In both runs the slot is gone and no
advance is under way. -/
theorem expiries_unannounced :
    (∃ state, run step [.recordModelCooldown 0 "model" 0 (seconds 1) .rateLimitCooldown,
        .tick (seconds 1), .pruneExpiredModelCooldowns 0 (seconds 1), .drop 0] initial =
          some state ∧
      state.unannounced (.modelCooldown 0 "model" 0) = true ∧ ¬state.Announced) ∧
    ∃ state, run step [.tryAcquire (.endpoint 0) 0 1,
        .endpointFailure 0 ⟨false, 0⟩ 0 reliabilityPolicy.transientEndpoint
          reliabilityPolicy.endpoint, .resume 0 0,
        .tick 1, .tryAcquire (.endpoint 0) 1 1, .tick (seconds 1),
        .endpointSuccess 0 ⟨false, 1⟩ 1, .advance 1, .resume 1 0,
        .tick (seconds 15), .tryAcquire (.endpoint 0) (seconds 15) 1,
        .endpointSuccess 0 ⟨false, seconds 15⟩ (seconds 15), .resume 2 0] initial = some state ∧
      state.unannounced (.transient 0) = true ∧ ¬state.Announced := by
  exact ⟨exists_not_announced (by decide +kernel), exists_not_announced (by decide +kernel)⟩

end WakeState

end Any2Api.Runtime.Health
