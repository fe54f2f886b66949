import Any2Api.Runtime.Credential.Permits

/-! What holds of permits, counters and windows in every run: each permit that has
its unit of a counter is one request in flight, and each reservation belongs to one
permit. -/
namespace Any2Api.Runtime.Credential

open Runs Function

/-- The reservation a permit was made with. -/
def RoutingPermit.owner (permit : RoutingPermit) : Nat × Option RateReservation :=
  (permit.handle, permit.rateReservation)

/-- Two permits do not have the same reservation of the same window. -/
def Apart (first second : Nat × Option RateReservation) : Prop :=
  first.1 = second.1 → ∀ reservation, first.2 = some reservation → second.2 ≠ some reservation

theorem Apart.symm {first second : Nat × Option RateReservation} (h : Apart first second) :
    Apart second first :=
  fun hHandle reservation hSecond hFirst => h hHandle.symm reservation hFirst hSecond

/-- The permit is one request in flight at the handle. -/
def RoutingPermit.countsFor (permit : RoutingPermit) (handle : Nat) : Bool :=
  permit.handle = handle ∧ permit.phase.counted

/-- A handle among the permits and waiters there are: its counters count them, and a
reservation is in its window until its permit returns it. -/
structure HandleKept (permits : List RoutingPermit) (waiters : List Nat) (clock : Instant)
    (index : Nat) (handle : CredentialRuntimeHandle) : Prop where
  counts : handle.inFlight = permits.countP (·.countsFor index)
  waits : handle.fixedWaiters = waiters.count index
  window : handle.window.Kept
  current : handle.window.clock ≤ clock
  holds : ∀ permit ∈ permits, permit.handle = index → ∀ reservation,
    permit.rateReservation = some reservation →
      reservation ∈ handle.window.issued ∧
        (reservation ∈ handle.window.granted ↔ permit.phase.returned = false)

section Handles

variable {permits : List RoutingPermit} {waiters : List Nat} {clock : Instant}
  {index place : Nat} {handle : CredentialRuntimeHandle} {permit next : RoutingPermit}

theorem each_update {handles : Nat → CredentialRuntimeHandle}
    (hOwn : HandleKept permits waiters clock index handle)
    (hOther : ∀ other, other ≠ index → HandleKept permits waiters clock other (handles other))
    (other : Nat) :
    HandleKept permits waiters clock other (update handles index handle other) := by
  by_cases h : other = index
  · rwa [h, update_self]
  · rw [update_of_ne h]
    exact hOther other h

theorem countP_set_add (hPermit : permits[place]? = some permit) (next : RoutingPermit)
    (test : RoutingPermit → Bool) :
    (permits.set place next).countP test + (if test permit then 1 else 0) =
      permits.countP test + if test next then 1 else 0 := by
  obtain ⟨hPlace, hGet⟩ := List.getElem?_eq_some_iff.mp hPermit
  have hPos : test permit = true → 0 < permits.countP test := fun hTest =>
    List.countP_pos_iff.mpr ⟨permit, List.mem_of_getElem? hPermit, hTest⟩
  rw [List.countP_set hPlace, hGet]
  split <;> grind

/-- The owners stay when a permit goes on with its handle and reservation. -/
theorem owners_set (hPermit : permits[place]? = some permit) (hOwner : next.owner = permit.owner) :
    (permits.set place next).map RoutingPermit.owner = permits.map RoutingPermit.owner := by
  have hSelf : (permits.map RoutingPermit.owner)[place]? = some permit.owner := by
    rw [List.getElem?_map, hPermit, Option.map_some]
  obtain ⟨hOwners, hSame⟩ := List.getElem?_eq_some_iff.mp hSelf
  rw [List.map_set, hOwner, ← hSame, List.set_getElem_self]

/-- A permit of another handle goes on. -/
theorem HandleKept.set_other (h : HandleKept permits waiters clock index handle)
    (hPermit : permits[place]? = some permit) (hOwner : next.owner = permit.owner)
    (hOther : index ≠ permit.handle) :
    HandleKept (permits.set place next) waiters clock index handle := by
  obtain ⟨hHandle, -⟩ := Prod.mk.inj hOwner
  refine ⟨?_, h.waits, h.window, h.current, fun found hFound hIndex => ?_⟩
  · have hSum := countP_set_add hPermit next (·.countsFor index)
    have hPermitElse : permit.countsFor index = false := by
      simp [RoutingPermit.countsFor, hOther.symm]
    have hNextElse : next.countsFor index = false := by
      simp [RoutingPermit.countsFor, hHandle, hOther.symm]
    rw [h.counts]
    simpa [hPermitElse, hNextElse] using hSum.symm
  · rcases List.mem_or_eq_of_mem_set hFound with hOld | rfl
    · exact h.holds found hOld hIndex
    · exact absurd (hHandle.symm.trans hIndex).symm hOther

/-- A permit goes on to another phase with its reservation. The counter of its
handle follows the phase. -/
theorem HandleKept.advance (h : HandleKept permits waiters clock permit.handle handle)
    (hPermit : permits[place]? = some permit) (next : RoutingPermit)
    (hOwner : next.owner = permit.owner)
    (hReturned : next.phase.returned = permit.phase.returned) {inFlight : Nat}
    (hCount : inFlight + (if permit.phase.counted then 1 else 0) =
      handle.inFlight + if next.phase.counted then 1 else 0) :
    HandleKept (permits.set place next) waiters clock permit.handle
      { handle with inFlight } := by
  obtain ⟨hHandle, hReservation⟩ := Prod.mk.inj hOwner
  refine ⟨?_, h.waits, h.window, h.current, fun found hFound hIndex => ?_⟩
  · have hSum := countP_set_add hPermit next (·.countsFor permit.handle)
    have hOld := h.counts
    have hOwn : ∀ found : RoutingPermit, found.handle = permit.handle →
        found.countsFor permit.handle = found.phase.counted := by
      intro found hFound
      simp [RoutingPermit.countsFor, hFound]
    rw [hOwn permit rfl, hOwn next hHandle] at hSum
    show inFlight = _
    omega
  · rcases List.mem_or_eq_of_mem_set hFound with hOld | rfl
    · exact h.holds found hOld hIndex
    · rw [hReturned, hReservation]
      exact h.holds permit (List.mem_of_getElem? hPermit) rfl

/-- A rollback takes its own reservation out of those that are granted. -/
theorem rollback_frame (handle : CredentialRuntimeHandle) (reservation : Option RateReservation) :
    (handle.rollback reservation).inFlight = handle.inFlight ∧
    (handle.rollback reservation).fixedWaiters = handle.fixedWaiters ∧
    (handle.rollback reservation).window.clock = handle.window.clock ∧
    (handle.rollback reservation).window.issued = handle.window.issued ∧
    ∀ other, other ∈ (handle.rollback reservation).window.granted ↔
      other ∈ handle.window.granted ∧ reservation ≠ some other := by
  cases reservation with
  | none => exact ⟨rfl, rfl, rfl, rfl, by simp [CredentialRuntimeHandle.rollback]⟩
  | some reservation =>
    refine ⟨rfl, rfl, rfl, rfl, fun other => ?_⟩
    change other ∈ handle.window.granted.filter _ ↔ _
    rw [List.mem_filter, decide_eq_true_eq, ne_eq, ne_eq, Option.some.injEq,
      eq_comm (a := reservation)]

/-- A permit gives its reservation back; the others have different ones. -/
theorem HandleKept.rollback (h : HandleKept permits waiters clock permit.handle handle)
    (hPermit : permits[place]? = some permit) (hPhase : permit.phase = .rollingBack)
    (hApart : ∀ other found, permits[other]? = some found → other ≠ place →
      found.handle = permit.handle → ∀ reservation, permit.rateReservation = some reservation →
        found.rateReservation ≠ some reservation) :
    HandleKept (permits.set place { permit with phase := .withdrawn }) waiters clock permit.handle
      (handle.rollback permit.rateReservation) := by
  have hMem := List.mem_of_getElem? hPermit
  obtain ⟨hInFlight, hWaiters, hClock, hIssued, hGranted⟩ :=
    rollback_frame handle permit.rateReservation
  refine ⟨?_, hWaiters.trans h.waits, ?_, hClock ▸ h.current, fun found hFound hHandle => ?_⟩
  · have hSum := countP_set_add hPermit { permit with phase := .withdrawn }
      (·.countsFor permit.handle)
    have hOld := h.counts
    simp only [RoutingPermit.countsFor, hPhase, Phase.counted] at hSum hOld ⊢
    omega
  · cases hReservation : permit.rateReservation with
    | none => exact h.window
    | some reservation => exact h.window.rollback (h.holds permit hMem rfl _ hReservation).1
  · intro reservation hReservation
    obtain ⟨other, hOther⟩ := List.mem_iff_getElem?.mp hFound
    rw [List.getElem?_set] at hOther
    rw [hIssued, hGranted]
    split at hOther
    next hSame =>
      obtain ⟨-, hNext⟩ := Option.ite_none_right_eq_some.mp hOther
      rw [← Option.some.inj hNext] at hReservation ⊢
      refine ⟨(h.holds permit hMem rfl reservation hReservation).1, iff_of_false ?_ ?_⟩
      · exact fun hBoth => hBoth.2 hReservation
      · exact Bool.noConfusion
    next hDifferent =>
      have hHeld := h.holds found (List.mem_of_getElem? hOther) hHandle reservation hReservation
      have hNot : permit.rateReservation ≠ some reservation := fun hSame =>
        hApart other found hOther (Ne.symm hDifferent) hHandle reservation hSame hReservation
      exact ⟨hHeld.1, (and_iff_left hNot).trans hHeld.2⟩

section

variable (h : HandleKept permits waiters clock index handle)
include h

theorem HandleKept.append_other (hOther : permit.handle ≠ index) :
    HandleKept (permits ++ [permit]) waiters clock index handle := by
  refine ⟨?_, h.waits, h.window, h.current, fun found hFound hHandle => ?_⟩
  · rw [h.counts, List.countP_append, List.countP_singleton]
    simp [RoutingPermit.countsFor, hOther]
  · rcases List.mem_append.mp hFound with hOld | hNew
    · exact h.holds found hOld hHandle
    · exact absurd (List.mem_singleton.mp hNew ▸ hHandle) hOther

/-- A call on the window leaves what the permits hold, since a new reservation is
none of theirs. -/
theorem HandleKept.tryReserve (limit : Option RequestsPerMinute) (fixed : Bool) :
    HandleKept permits waiters clock index { handle with
      window := (handle.window.tryReserve clock limit handle.fixedWaiters fixed).2 } := by
  refine ⟨h.counts, h.waits, h.window.tryReserve h.current limit handle.fixedWaiters fixed,
    le_refl _, fun permit hPermit hHandle reservation hReservation => ?_⟩
  obtain ⟨hIssued, hGranted⟩ := h.holds permit hPermit hHandle reservation hReservation
  refine ⟨List.mem_append_left _ hIssued, ?_⟩
  rw [← hGranted]
  change reservation ∈ handle.window.granted ++ _ ↔ _
  rw [List.mem_append]
  exact or_iff_left fun hNew => h.window.reservation_fresh (mem_reservations.mp hNew) hIssued

theorem HandleKept.setWaiters
    {changed : List Nat} {fixedWaiters : Nat} (hWaits : fixedWaiters = changed.count index) :
    HandleKept permits changed clock index { handle with fixedWaiters } :=
  { h with waits := hWaits }

end

end Handles

namespace Routing

structure Kept (state : Routing) : Prop where
  each : ∀ index, HandleKept state.permits state.waiters state.clock index (state.handles index)
  owners : (state.permits.map RoutingPermit.owner).Pairwise Apart
  bound : ∀ binding ∈ state.bindings, binding.handle < state.created
  made : ∀ permit ∈ state.permits, permit.handle < state.created
  awaited : ∀ handle ∈ state.waiters, handle < state.created
  registered : ∀ id handle, state.registry id = some handle → handle < state.created
  sound : state.underflowed = false

variable {state after : Routing} {index : Nat} {permit : RoutingPermit} {phase : Phase}
  {handle : CredentialRuntimeHandle} {label : RoutingLabel} {reservation : RateReservation}

theorem Kept.initial : initial.Kept where
  each := fun index => ⟨rfl, rfl, .initial, le_refl 0, fun _ h => absurd h List.not_mem_nil⟩
  owners := .nil
  bound := by simp [Routing.initial]
  made := by simp [Routing.initial]
  awaited := by simp [Routing.initial]
  registered := by simp [Routing.initial]
  sound := rfl

theorem permitIn_eq_some : state.permitIn index phase = some permit ↔
    state.permits[index]? = some permit ∧ permit.phase = phase := by
  simp only [permitIn, Option.bind_eq_bind, Option.bind_eq_some_iff, Option.ite_none_right_eq_some,
    Option.some.injEq]
  constructor
  · rintro ⟨_, hFound, hPhase, rfl⟩
    exact ⟨hFound, hPhase⟩
  · exact fun ⟨hFound, hPhase⟩ => ⟨permit, hFound, hPhase, rfl⟩

section

variable (h : state.Kept)
include h

section

variable (hPermit : state.permits[index]? = some permit)
include hPermit

/-- A permit goes on, together with its handle. -/
theorem Kept.set (next : RoutingPermit) (hOwner : next.owner = permit.owner)
    (hHandle : HandleKept (state.permits.set index next) state.waiters state.clock permit.handle
      handle) :
    ((state.setHandle permit.handle handle).setPermit index next).Kept := by
  refine { h with
    each := each_update hHandle fun other hOther => (h.each other).set_other hPermit hOwner hOther
    owners := (owners_set hPermit hOwner).symm ▸ h.owners
    made := fun found hFound => ?_ }
  rcases List.mem_or_eq_of_mem_set hFound with hOld | rfl
  · exact h.made found hOld
  · exact (Prod.mk.inj hOwner).1 ▸ h.made permit (List.mem_of_getElem? hPermit)

/-- A change of phase that leaves the handle alone. -/
theorem Kept.setPermit (next : RoutingPermit) (hOwner : next.owner = permit.owner)
    (hReturned : next.phase.returned = permit.phase.returned)
    (hCounted : next.phase.counted = permit.phase.counted) :
    (state.setPermit index next).Kept := by
  have hSet := h.set hPermit next hOwner ((h.each permit.handle).advance hPermit next hOwner
    hReturned (by rw [hCounted]))
  rwa [setHandle, update_eq_self] at hSet

theorem Kept.count (hPhase : permit.phase = .reserved) : (state.count index permit).Kept := by
  unfold Routing.count
  dsimp only
  split
  · refine h.set hPermit { permit with phase := .live } rfl
      ((h.each permit.handle).advance hPermit { permit with phase := .live } rfl ?_ ?_)
    · rw [hPhase]
      rfl
    · rw [hPhase]
      rfl
  · refine h.setPermit hPermit { permit with phase := .aborted } rfl ?_ ?_
    · rw [hPhase]
      rfl
    · rw [hPhase]
      rfl

/-- A permit that is counted finds a counter that it can decrement. -/
theorem Kept.inFlight_pos
    (hCounted : permit.phase.counted = true) : 1 ≤ (state.handles permit.handle).inFlight := by
  rw [(h.each permit.handle).counts]
  refine List.countP_pos_iff.mpr ⟨permit, List.mem_of_getElem? hPermit, ?_⟩
  simp [RoutingPermit.countsFor, hCounted]

theorem Kept.releaseInFlight
    (hCounted : permit.phase.counted = true) (hFree : phase.counted = false)
    (hReturned : phase.returned = permit.phase.returned) :
    (state.releaseInFlight index permit phase).Kept := by
  have hPos := h.inFlight_pos hPermit hCounted
  unfold Routing.releaseInFlight
  rw [if_pos hPos]
  refine h.set hPermit { permit with phase } rfl
    ((h.each permit.handle).advance hPermit { permit with phase } rfl hReturned ?_)
  rw [hCounted, hFree]
  simp only [if_true, Bool.false_eq_true, if_false]
  omega

/-- Another permit has another reservation of the window. -/
theorem Kept.apart
    {place : Nat} {other : RoutingPermit} (hOther : state.permits[place]? = some other)
    (hPlace : place ≠ index) (hHandle : other.handle = permit.handle)
    (hReservation : permit.rateReservation = some reservation) :
    other.rateReservation ≠ some reservation := by
  have hOwners := List.pairwise_iff_getElem.mp h.owners
  obtain ⟨hIndex, rfl⟩ := List.getElem?_eq_some_iff.mp hPermit
  obtain ⟨hBound, rfl⟩ := List.getElem?_eq_some_iff.mp hOther
  rcases lt_or_gt_of_ne hPlace with hLess | hLess
  · have hApart := hOwners place index (by simpa using hBound) (by simpa using hIndex) hLess
    simp only [List.getElem_map] at hApart
    exact hApart.symm hHandle.symm reservation hReservation
  · have hApart := hOwners index place (by simpa using hIndex) (by simpa using hBound) hLess
    simp only [List.getElem_map] at hApart
    exact hApart hHandle.symm reservation hReservation

theorem Kept.withdraw (hPhase : permit.phase = .rollingBack) : (state.withdraw index permit).Kept :=
  h.set hPermit { permit with phase := .withdrawn } rfl
    ((h.each permit.handle).rollback hPermit hPhase fun _ _ hOther hPlace hHandle _ =>
      h.apart hPermit hOther hPlace hHandle)

end

/-- A handle changes and the permits stay as they are. -/
theorem Kept.setHandle (hHandle : HandleKept state.permits state.waiters state.clock index handle) :
    (state.setHandle index handle).Kept :=
  { h with each := each_update hHandle fun other _ => h.each other }

/-- A stale reader prunes what is over by now. -/
theorem Kept.rateSnapshot {now : Instant} (hNow : now ≤ state.clock)
    (limit : Option RequestsPerMinute) :
    (state.setHandle index { state.handles index with window := { (state.handles index).window with
      window := ((state.handles index).window.window.snapshot now limit).2
      clock := state.clock } }).Kept := by
  have hHandle := h.each index
  exact h.setHandle { hHandle with
    window := hHandle.window.prune hNow hHandle.current
    current := le_rfl }

/-- A new permit with the reservation that its handle has just granted. -/
theorem Kept.append (permit : RoutingPermit)
    (hHandle : HandleKept state.permits state.waiters state.clock permit.handle handle)
    (hMade : permit.handle < state.created) (hPhase : permit.phase = .reserved)
    (hNew : ∀ reservation, permit.rateReservation = some reservation →
      reservation ∉ (state.handles permit.handle).window.issued ∧
        reservation ∈ handle.window.issued ∧ reservation ∈ handle.window.granted) :
    Kept { state.setHandle permit.handle handle with permits := state.permits ++ [permit] } := by
  refine ⟨each_update ⟨?_, hHandle.waits, hHandle.window, hHandle.current, ?_⟩
    fun other hOther => (h.each other).append_other (Ne.symm hOther), ?_, h.bound,
    fun found hFound => ?_, h.awaited, h.registered, h.sound⟩
  · rw [hHandle.counts, List.countP_append, List.countP_singleton]
    simp [RoutingPermit.countsFor, hPhase, Phase.counted]
  · intro found hFound hSame reservation hReservation
    rcases List.mem_append.mp hFound with hOld | hLast
    · exact hHandle.holds found hOld hSame reservation hReservation
    · rw [List.mem_singleton.mp hLast] at hReservation ⊢
      obtain ⟨-, hIssued, hGranted⟩ := hNew reservation hReservation
      exact ⟨hIssued, iff_of_true hGranted (by rw [hPhase]; rfl)⟩
  · rw [List.map_append]
    refine Entries.pairwise_concat h.owners ?_
    intro owner hOwner hSame reservation hReservation hTaken
    obtain ⟨found, hFound, rfl⟩ := List.mem_map.mp hOwner
    exact (hNew reservation hTaken).1
      ((h.each permit.handle).holds found hFound hSame reservation hReservation).1
  · exact Entries.forall_mem_concat h.made hMade found hFound

theorem Kept.tryReserve {binding : CredentialRuntimeBinding}
    (hBinding : binding ∈ state.bindings) (fixed : Bool) :
    (state.tryReserve binding fixed).Kept := by
  have hOld := h.each binding.handle
  have hHandle := hOld.tryReserve binding.requestsPerMinute fixed
  unfold Routing.tryReserve
  dsimp only
  split
  next => exact h.setHandle hHandle
  next reservation hResult =>
    refine h.append ⟨binding.handle, binding.generation, reservation, binding.routeAdmission,
      false, .reserved⟩ hHandle (h.bound binding hBinding) rfl ?_
    rintro granted rfl
    have hMem := mem_reservations.mpr hResult
    exact ⟨hOld.window.reservation_fresh hResult, List.mem_append_right _ hMem,
      List.mem_append_right _ hMem⟩

theorem Kept.registerFixedWaiter {handle : Nat} (hMade : handle < state.created) :
    Kept { state.setHandle handle { state.handles handle with
        fixedWaiters := (state.handles handle).fixedWaiters + 1 } with
      waiters := handle :: state.waiters } := by
  refine { h with
    each := each_update ((h.each handle).setWaiters ?_) fun other hOther => ?_
    awaited := by simpa using ⟨hMade, h.awaited⟩ }
  · rw [(h.each handle).waits, List.count_cons_self]
  · refine (h.each other).setWaiters ?_
    rw [(h.each other).waits, List.count_cons_of_ne (Ne.symm hOther)]

theorem Kept.releaseFixedWaiter {handle : Nat} :
    Kept { state.setHandle handle { state.handles handle with
        fixedWaiters := (state.handles handle).fixedWaiters - 1 } with
      waiters := state.waiters.erase handle } := by
  refine { h with
    each := each_update ((h.each handle).setWaiters ?_) fun other hOther => ?_
    awaited := fun other hOther => h.awaited other (List.mem_of_mem_erase hOther) }
  · rw [(h.each handle).waits, List.count_erase_self]
  · refine (h.each other).setWaiters ?_
    rw [(h.each other).waits, List.count_erase_of_ne hOther]

/-- A handle that nothing refers to yet. -/
theorem Kept.fresh (generation : CredentialGeneration) :
    HandleKept state.permits state.waiters state.clock state.created (.new generation) := by
  have hNone : ∀ permit ∈ state.permits, permit.handle ≠ state.created :=
    fun permit hPermit => ne_of_lt (h.made permit hPermit)
  refine ⟨?_, ?_, .initial, Nat.zero_le _, fun permit hPermit hHandle =>
    absurd hHandle (hNone permit hPermit)⟩
  · refine (List.countP_eq_zero.mpr fun permit hPermit => ?_).symm
    simp [RoutingPermit.countsFor, hNone permit hPermit]
  · refine (List.count_eq_zero.mpr fun hMem => ?_).symm
    exact lt_irrefl _ (h.awaited _ hMem)

theorem Kept.reconcileSpec (spec : RoutingCredentialSpec) : (state.reconcileSpec spec).Kept := by
  unfold Routing.reconcileSpec
  split
  next handle hHandle =>
    exact { h with
      each := each_update { h.each handle with } fun other _ => h.each other
      bound := Entries.forall_mem_concat h.bound (h.registered spec.id handle hHandle) }
  next =>
    refine { h with
      each := each_update (h.fresh spec.generation) fun other _ => h.each other
      bound := Entries.forall_mem_concat (fun binding hBinding =>
        Nat.lt_succ_of_lt (h.bound binding hBinding)) (Nat.lt_succ_self _)
      made := fun permit hPermit => Nat.lt_succ_of_lt (h.made permit hPermit)
      awaited := fun handle hHandle => Nat.lt_succ_of_lt (h.awaited handle hHandle)
      registered := fun id handle hHandle => ?_ }
    · have hBefore := h.registered id handle
      dsimp only [Routing.setHandle] at hHandle ⊢
      grind [update_apply]

theorem Kept.reconcileConfiguration (specs : List RoutingCredentialSpec) :
    (state.reconcileConfiguration specs).Kept := by
  have hLoop : (specs.foldl .reconcileSpec state).Kept := by
    induction specs generalizing state with
    | nil => exact h
    | cons spec specs ih => exact ih (h.reconcileSpec spec)
  exact { hLoop with
    registered := fun id handle hHandle =>
      hLoop.registered id handle (Option.ite_none_right_eq_some.mp hHandle).2 }

theorem Kept.tryStartAttempt (hPermit : state.permits[index]? = some permit)
    (hPhase : permit.phase = .live) (revoked : Nat → Bool) :
    (state.setPermit index (permit.tryStartAttempt revoked)).Kept := by
  have hSame : (permit.tryStartAttempt revoked).owner = permit.owner ∧
      (permit.tryStartAttempt revoked).phase.returned = permit.phase.returned ∧
      (permit.tryStartAttempt revoked).phase.counted = permit.phase.counted := by
    unfold RoutingPermit.tryStartAttempt
    rw [hPhase]
    split
    · exact ⟨rfl, by rw [hPhase], by rw [hPhase]⟩
    · split
      · exact ⟨rfl, rfl, rfl⟩
      · split
        · exact ⟨rfl, rfl, rfl⟩
        · exact ⟨rfl, rfl, rfl⟩
  exact h.setPermit hPermit _ hSame.1 hSame.2.1 hSame.2.2

theorem Kept.step (hStep : state.step label = some after) : after.Kept := by
  cases label <;> simp only [Routing.step, Option.bind_eq_bind, Option.bind_eq_some_iff,
    permitIn_eq_some, Option.ite_none_right_eq_some, Option.some.injEq] at hStep
  case tick now =>
    obtain ⟨hNow, rfl⟩ := hStep
    exact { h with
      each := fun index => { h.each index with current := (h.each index).current.trans hNow } }
  case reconcile specs => exact hStep ▸ h.reconcileConfiguration specs
  case revoke admission => exact hStep ▸ { h with }
  case registerFixedWaiter index =>
    obtain ⟨binding, hBinding, -, rfl⟩ := hStep
    exact h.registerFixedWaiter (h.bound binding (List.mem_of_getElem? hBinding))
  case releaseFixedWaiter index =>
    obtain ⟨hMem, hStep⟩ := hStep
    have hPos : 1 ≤ (state.handles index).fixedWaiters := by
      rw [(h.each index).waits]
      exact List.count_pos_iff.mpr hMem
    rw [if_pos hPos] at hStep
    exact Option.some.inj hStep ▸ h.releaseFixedWaiter
  case rateSnapshot index now =>
    obtain ⟨binding, -, hNow, rfl⟩ := hStep
    exact h.rateSnapshot hNow binding.requestsPerMinute
  case tryReserve index fixed =>
    obtain ⟨binding, hBinding, rfl⟩ := hStep
    exact h.tryReserve (List.mem_of_getElem? hBinding) fixed
  case count index =>
    obtain ⟨permit, ⟨hPermit, hPhase⟩, rfl⟩ := hStep
    exact h.count hPermit hPhase
  case tryStartAttempt index =>
    obtain ⟨permit, ⟨hPermit, hPhase⟩, rfl⟩ := hStep
    exact h.tryStartAttempt hPermit hPhase state.revoked
  case rollbackBeforeAttempt index =>
    obtain ⟨permit, ⟨hPermit, hPhase⟩, rfl⟩ := hStep
    exact h.setPermit hPermit { permit with phase := .rollingBack } rfl (by rw [hPhase]; rfl)
      (by rw [hPhase]; rfl)
  case withdraw index =>
    obtain ⟨permit, ⟨hPermit, hPhase⟩, rfl⟩ := hStep
    exact h.withdraw hPermit hPhase
  case release index | drop index =>
    obtain ⟨permit, ⟨hPermit, hPhase⟩, rfl⟩ := hStep
    exact h.releaseInFlight hPermit (by rw [hPhase]; rfl) rfl (by rw [hPhase]; rfl)

end

theorem reconcileConfiguration_permits (state : Routing) (specs : List RoutingCredentialSpec) :
    (state.reconcileConfiguration specs).permits = state.permits := by
  have hTurn : ∀ (state : Routing) spec, (state.reconcileSpec spec).permits = state.permits := by
    intro state spec
    unfold reconcileSpec
    split <;> rfl
  induction specs generalizing state with
  | nil => rfl
  | cons spec specs ih => exact (ih (state.reconcileSpec spec)).trans (hTurn state spec)

/-- What a step does to the permits. Only an explicit rollback and the rejection of a
start begin to give a permit back. -/
theorem step_permits (hStep : state.step label = some after) : after.permits = state.permits ∨
    (∃ permit, after.permits = state.permits ++ [permit]) ∨
    ∃ index permit next, state.permits[index]? = some permit ∧
      after.permits = state.permits.set index next ∧
      (next.phase = .rollingBack → label = .rollbackBeforeAttempt index ∨
        label = .tryStartAttempt index ∧ permit.attemptStarted = false) := by
  cases label <;> simp only [step, Option.bind_eq_bind, Option.bind_eq_some_iff, permitIn_eq_some,
    Option.ite_none_right_eq_some, Option.some.injEq] at hStep
  case reconcile specs => exact .inl (hStep ▸ state.reconcileConfiguration_permits specs)
  case revoke admission => exact .inl (hStep ▸ rfl)
  case tick now =>
    obtain ⟨-, rfl⟩ := hStep
    exact .inl rfl
  case registerFixedWaiter index | rateSnapshot index now =>
    obtain ⟨binding, -, -, rfl⟩ := hStep
    exact .inl rfl
  case releaseFixedWaiter index =>
    obtain ⟨-, hStep⟩ := hStep
    split at hStep
    all_goals exact .inl (Option.some.inj hStep ▸ rfl)
  case tryReserve index fixed =>
    obtain ⟨binding, -, rfl⟩ := hStep
    unfold tryReserve
    dsimp only
    split
    · exact .inl rfl
    · exact .inr (.inl ⟨_, rfl⟩)
  case tryStartAttempt index =>
    obtain ⟨permit, ⟨hPermit, hPhase⟩, rfl⟩ := hStep
    refine .inr (.inr ⟨index, permit, _, hPermit, rfl, fun hNext => .inr ⟨rfl, ?_⟩⟩)
    rw [← Bool.not_eq_true]
    intro hStarted
    rw [RoutingPermit.tryStartAttempt, if_pos hStarted, hPhase] at hNext
    cases hNext
  case rollbackBeforeAttempt index =>
    obtain ⟨permit, ⟨hPermit, -⟩, rfl⟩ := hStep
    exact .inr (.inr ⟨index, permit, _, hPermit, rfl, fun _ => .inl rfl⟩)
  case withdraw index =>
    obtain ⟨permit, ⟨hPermit, -⟩, rfl⟩ := hStep
    exact .inr (.inr ⟨index, permit, _, hPermit, rfl, fun h => by cases h⟩)
  case count index | release index | drop index =>
    obtain ⟨permit, ⟨hPermit, -⟩, rfl⟩ := hStep
    simp only [count, releaseInFlight]
    split
    all_goals exact .inr (.inr ⟨index, permit, _, hPermit, rfl, fun h => by cases h⟩)

theorem rollingBack_of_step (hStep : state.step label = some after)
    {next : RoutingPermit} (hPermit : state.permits[index]? = some permit)
    (hNext : after.permits[index]? = some next) (hBefore : permit.phase ≠ .rollingBack)
    (hAfter : next.phase = .rollingBack) :
    label = .rollbackBeforeAttempt index ∨
      label = .tryStartAttempt index ∧ permit.attemptStarted = false := by
  have hSame : next ≠ permit := by
    rintro rfl
    exact hBefore hAfter
  obtain ⟨hIndex, -⟩ := List.getElem?_eq_some_iff.mp hPermit
  obtain hPermits | ⟨new, hPermits⟩ | ⟨place, found, changed, hFound, hPermits, hBegins⟩ :=
    step_permits hStep
  · rw [hPermits, hPermit] at hNext
    exact absurd (Option.some.inj hNext).symm hSame
  · rw [hPermits, List.getElem?_append_left hIndex, hPermit] at hNext
    exact absurd (Option.some.inj hNext).symm hSame
  · rw [hPermits, List.getElem?_set] at hNext
    split at hNext
    next hPlace =>
      subst hPlace
      obtain ⟨-, hChanged⟩ := Option.ite_none_right_eq_some.mp hNext
      cases hChanged
      cases hFound.symm.trans hPermit
      exact hBegins hAfter
    next =>
      rw [hPermit] at hNext
      exact absurd (Option.some.inj hNext).symm hSame

/-- In the window a rollback filters out the reservation of its permit. -/
theorem Kept.withdraw_attempts (h : state.Kept) (hPermit : state.permits[index]? = some permit)
    (handle : Nat) :
    ((state.withdraw index permit).handles handle).window.window.attempts =
      (state.handles handle).window.window.attempts.filter fun reservation =>
        ¬(handle = permit.handle ∧ permit.rateReservation = some reservation) := by
  have hHandle := h.each permit.handle
  change (update state.handles permit.handle _ handle).window.window.attempts = _
  by_cases hOwn : handle = permit.handle
  · subst hOwn
    rw [update_self]
    cases hReservation : permit.rateReservation with
    | none => simp [CredentialRuntimeHandle.rollback]
    | some reservation =>
      have hIssued := (hHandle.holds permit (List.mem_of_getElem? hPermit) rfl _ hReservation).1
      change ((state.handles permit.handle).window.window.rollback reservation).2.attempts = _
      rw [hHandle.window.rollback_eq hIssued]
      refine List.filter_congr fun other _ => ?_
      simp [eq_comm]
  · rw [update_of_ne hOwn]
    simp [hOwn]

theorem Kept.mem_attempts_iff (h : state.Kept) (hPermit : permit ∈ state.permits)
    (hReservation : permit.rateReservation = some reservation)
    (hCounts : state.clock < reservation.startedAt + rateWindow) :
    reservation ∈ (state.handles permit.handle).window.window.attempts ↔
      permit.phase.returned = false := by
  have hHandle := h.each permit.handle
  obtain ⟨-, hGranted⟩ := hHandle.holds permit hPermit rfl reservation hReservation
  rw [← hGranted]
  constructor
  · intro hAttempt
    obtain ⟨expired, hSplit, -⟩ := hHandle.window.split
    exact hSplit ▸ List.mem_append_right expired hAttempt
  · exact fun hMem => hHandle.window.mem_attempts hMem (hHandle.current.trans_lt hCounts)

/-- In every run: the counter of a handle is the number of its permits that have not
given their unit back, and is never decremented at zero; only an explicit rollback
and the rejection of a start begin to give a permit back, and that takes the permit's
own reservation out of the window, which no other permit has; and a reservation
counts for its minute unless its permit was given back this way, in particular
when the attempt has started and the permit is in use or was dropped. -/
theorem run_permits (labels : List RoutingLabel) (state : Routing)
    (hRun : run step labels initial = some state) :
    state.underflowed = false ∧
    (∀ handle, (state.handles handle).inFlight = state.permits.countP (·.countsFor handle)) ∧
    (∀ label after index permit next, state.step label = some after →
      state.permits[index]? = some permit → after.permits[index]? = some next →
      permit.phase ≠ .rollingBack → next.phase = .rollingBack →
      label = .rollbackBeforeAttempt index ∨
        label = .tryStartAttempt index ∧ permit.attemptStarted = false) ∧
    (∀ index permit, state.permits[index]? = some permit → permit.phase = .rollingBack →
      state.step (.withdraw index) = some (state.withdraw index permit) ∧
      (∀ handle, ((state.withdraw index permit).handles handle).window.window.attempts =
        (state.handles handle).window.window.attempts.filter fun reservation =>
          ¬(handle = permit.handle ∧ permit.rateReservation = some reservation)) ∧
      ∀ place other, state.permits[place]? = some other → place ≠ index →
        other.handle = permit.handle → ∀ reservation, permit.rateReservation = some reservation →
          other.rateReservation ≠ some reservation) ∧
    (∀ permit ∈ state.permits, ∀ reservation, permit.rateReservation = some reservation →
      state.clock < reservation.startedAt + rateWindow →
      (reservation ∈ (state.handles permit.handle).window.window.attempts ↔
        permit.phase.returned = false)) := by
  have hKept : state.Kept := invariant_of_run (fun _ _ _ h hStep => h.step hStep) .initial hRun
  refine ⟨hKept.sound, fun handle => (hKept.each handle).counts, ?_, ?_, ?_⟩
  · intro label after index permit next hStep hPermit hNext hBefore hAfter
    exact rollingBack_of_step hStep hPermit hNext hBefore hAfter
  · intro index permit hPermit hPhase
    refine ⟨?_, hKept.withdraw_attempts hPermit, fun _ _ hOther hPlace hHandle _ =>
      hKept.apart hPermit hOther hPlace hHandle⟩
    simp [step, permitIn, hPermit, hPhase]
  · intro permit hPermit reservation hReservation hCounts
    exact hKept.mem_attempts_iff hPermit hReservation hCounts

/-- A credential in two configurations; the second has another limit and another
generation. -/
def sampleSpec (version limit : Nat) (hLimit : 1 ≤ limit ∧ limit ≤ maxRequestsPerMinute) :
    RoutingCredentialSpec :=
  ⟨.providerCredential 7, some ⟨limit, hLimit.1, hLimit.2⟩, ⟨version, version⟩, some 0⟩

/-- A permit whose attempt starts at 100 s, and that ends as the labels say. -/
def startedAttempt (ending : List RoutingLabel) : List RoutingLabel :=
  [.reconcile [sampleSpec 1 2 (by decide)], .tick (seconds 100), .tryReserve 0 false, .count 0,
    .tryStartAttempt 0, .reconcile [sampleSpec 2 1 (by decide)], .revoke 0,
    .tick (seconds 101)] ++ ending

def startedPermit (phase : Phase) : RoutingPermit :=
  ⟨0, ⟨1, 1⟩, some ⟨0, seconds 100⟩, some 0, true, phase⟩

/-- A permit that is dropped after its start gives back its unit of the counter and
keeps its reservation, although its admission was revoked and the limit changed. -/
theorem run_permits_dropped : ∃ state, run step (startedAttempt [.drop 0]) initial = some state ∧
      state.permits = [startedPermit .dropped] ∧ (state.handles 0).inFlight = 0 ∧
      (⟨0, seconds 100⟩ : RateReservation) ∈ (state.handles 0).window.window.attempts := by
  have hObserved : (run step (startedAttempt [.drop 0]) initial).map
      (fun state => (state.permits, state.clock)) =
        some ([startedPermit .dropped], seconds 101) := by
    decide +kernel
  obtain ⟨state, hRun, hState⟩ := Option.map_eq_some_iff.mp hObserved
  obtain ⟨hPermits, hClock⟩ := Prod.mk.inj hState
  obtain ⟨-, hCounts, -, -, hKeeps⟩ := run_permits _ state hRun
  refine ⟨state, hRun, hPermits, ?_, ?_⟩
  · rw [hCounts, hPermits]
    rfl
  · refine (hKeeps (startedPermit .dropped) (by simp [hPermits]) ⟨0, seconds 100⟩ rfl ?_).mpr rfl
    rw [hClock]
    decide

/-- The retry loop rolls back a permit whose attempt has started when its budget no
longer admits the attempt. The reservation does not count any more, one second
after it was made. -/
theorem started_permit_rolled_back : ∃ state permit reservation,
      run step (startedAttempt [.rollbackBeforeAttempt 0, .withdraw 0, .release 0]) initial =
        some state ∧
      permit ∈ state.permits ∧ permit.attemptStarted = true ∧
      permit.rateReservation = some reservation ∧
      state.clock < reservation.startedAt + rateWindow ∧
      reservation ∉ (state.handles permit.handle).window.window.attempts := by
  have hObserved : (run step (startedAttempt [.rollbackBeforeAttempt 0, .withdraw 0, .release 0])
      initial).map (fun state =>
        (state.permits, state.clock, (state.handles 0).window.window.attempts)) =
        some ([startedPermit .rolledBack], seconds 101, []) := by
    decide +kernel
  obtain ⟨state, hRun, hState⟩ := Option.map_eq_some_iff.mp hObserved
  obtain ⟨hPermits, hRest⟩ := Prod.mk.inj hState
  obtain ⟨hClock, hAttempts⟩ := Prod.mk.inj hRest
  refine ⟨state, startedPermit .rolledBack, ⟨0, seconds 100⟩, hRun, by simp [hPermits], rfl, rfl,
    ?_, ?_⟩
  · rw [hClock]
    decide
  · change _ ∉ (state.handles 0).window.window.attempts
    rw [hAttempts]
    exact List.not_mem_nil

end Routing

end Any2Api.Runtime.Credential
