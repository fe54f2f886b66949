import Any2Api.Library.Entries
import Any2Api.Library.ExpiringQueue
import Any2Api.Library.Runs
import Any2Api.Runtime.Domain
import Mathlib.Data.List.Nodup
import Mathlib.Order.Bounds.Defs

/-! The sliding window that limits the requests per minute of a credential, and
what holds along every sequence of calls on it. -/
namespace Any2Api.Runtime.Credential

open ExpiringQueue Runs

def rateWindow : Duration := seconds 60

structure CredentialRateSnapshot where
  requestsPerMinute : Option Nat
  requestsInWindow : Nat
  retryAt : Option Instant
  deriving DecidableEq

def CredentialRateSnapshot.remaining (snapshot : CredentialRateSnapshot) : Option Nat :=
  snapshot.requestsPerMinute.map (· - snapshot.requestsInWindow)

structure RateLimited where
  retryAt : Option Instant
  deriving DecidableEq

structure RateReservation where
  id : Nat
  startedAt : Instant
  deriving DecidableEq

structure CredentialRateWindow where
  attempts : List RateReservation
  nextReservationId : Nat
  deriving DecidableEq

variable {limit : Option RequestsPerMinute} {fixedWaiters : Nat}
  {result : Except RateLimited (Option RateReservation)} {reservation : RateReservation}

namespace CredentialRateWindow

def new : CredentialRateWindow where
  attempts := []
  nextReservationId := 0

variable (window : CredentialRateWindow)

def prune (now : Instant) : CredentialRateWindow :=
  { window with attempts := slide RateReservation.startedAt rateWindow now window.attempts }

def nextAvailableAt (limit : Nat) : Option Instant :=
  if limit ≤ window.attempts.length then
    window.attempts[window.attempts.length - limit]?.map (·.startedAt + rateWindow)
  else
    none

def tryReserve (now : Instant) (limit : Option RequestsPerMinute)
    (fixedWaiters : Nat) (fixed : Bool) :
    Except RateLimited (Option RateReservation) × CredentialRateWindow :=
  let window := window.prune now
  match limit with
  | none => (.ok none, window)
  | some limit =>
    if limit.get ≤ window.attempts.length then
      (.error ⟨window.nextAvailableAt limit.get⟩, window)
    else
      let available := limit.get - window.attempts.length
      if !fixed && decide (available ≤ fixedWaiters) then
        (.error ⟨none⟩, window)
      else
        let reservation : RateReservation := ⟨window.nextReservationId, now⟩
        (.ok (some reservation),
          ⟨window.attempts ++ [reservation], window.nextReservationId + 1⟩)

def rollback (reservation : RateReservation) : Bool × CredentialRateWindow :=
  match window.attempts.findIdx? fun current => current.id = reservation.id with
  | none => (false, window)
  | some index => (true, { window with attempts := window.attempts.eraseIdx index })

def snapshot (now : Instant) (limit : Option RequestsPerMinute) :
    CredentialRateSnapshot × CredentialRateWindow :=
  let window := window.prune now
  (⟨limit.map (·.get), if limit.isSome then window.attempts.length else 0,
    limit.bind fun limit => window.nextAvailableAt limit.get⟩, window)

variable {window : CredentialRateWindow} {now : Instant} {bound : RequestsPerMinute}

/-- A call of `tryReserve` prunes; it then grants a new reservation, answers that
no limit is set, or refuses and leaves the pruned window. -/
theorem tryReserve_cases {fixed : Bool} {after : CredentialRateWindow}
    (h : window.tryReserve now limit fixedWaiters fixed = (result, after)) :
    (∃ bound, limit = some bound ∧
      result = .ok (some ⟨window.nextReservationId, now⟩) ∧
      after.attempts = (window.prune now).attempts ++ [⟨window.nextReservationId, now⟩] ∧
      after.nextReservationId = window.nextReservationId + 1 ∧
      (window.prune now).attempts.length < bound.get ∧
      (fixed = false → (window.prune now).attempts.length + fixedWaiters < bound.get)) ∨
    (limit = none ∧ result = .ok none ∧ after = window.prune now) ∨
    (∃ bound, limit = some bound ∧ bound.get ≤ (window.prune now).attempts.length ∧
      result = .error ⟨(window.prune now).nextAvailableAt bound.get⟩ ∧ after = window.prune now) ∨
    (∃ bound, limit = some bound ∧ fixed = false ∧
      (window.prune now).attempts.length < bound.get ∧
      result = .error ⟨none⟩ ∧ after = window.prune now) := by
  unfold tryReserve at h
  cases limit with
  | none =>
    obtain ⟨rfl, rfl⟩ := Prod.mk.inj h
    exact .inr (.inl ⟨rfl, rfl, rfl⟩)
  | some bound =>
    dsimp only at h
    split at h
    next hFull =>
      obtain ⟨rfl, rfl⟩ := Prod.mk.inj h
      exact .inr (.inr (.inl ⟨bound, rfl, hFull, rfl, rfl⟩))
    next hFree =>
      split at h
      next hHeld =>
        obtain ⟨rfl, rfl⟩ := Prod.mk.inj h
        rw [Bool.and_eq_true, Bool.not_eq_true'] at hHeld
        exact .inr (.inr (.inr ⟨bound, rfl, hHeld.1, by omega, rfl, rfl⟩))
      next hOpen =>
        obtain ⟨rfl, rfl⟩ := Prod.mk.inj h
        refine .inl ⟨bound, rfl, rfl, rfl, rfl, by omega, fun hNormal => ?_⟩
        rw [hNormal, Bool.not_false, Bool.true_and, decide_eq_true_eq] at hOpen
        omega

/-- A fixed reservation needs one free place and nothing else. -/
theorem tryReserve_fixed_granted_iff :
    (∃ reservation, (window.tryReserve now (some bound) fixedWaiters true).1 =
        .ok (some reservation)) ↔
      (window.prune now).attempts.length < bound.get := by
  generalize hCall : window.tryReserve now (some bound) fixedWaiters true = answer
  obtain ⟨result, after⟩ := answer
  obtain ⟨_, hBound, rfl, _, _, hFree, _⟩ | ⟨hBound, _, _⟩ | ⟨_, hBound, hFull, rfl, _⟩ |
    ⟨_, _, hFixed, _⟩ := tryReserve_cases hCall
  · cases hBound
    exact iff_of_true ⟨_, rfl⟩ hFree
  · cases hBound
  · cases hBound
    refine iff_of_false (fun ⟨_, h⟩ => by cases h) (by omega)
  · cases hFixed

/-- The announced instant is the first at which a fixed reservation is granted. -/
theorem nextAvailableAt_isLeast (hOrdered : Ordered RateReservation.startedAt window.attempts)
    {retryAt : Instant} (h : window.nextAvailableAt bound.get = some retryAt) (fixedWaiters : Nat) :
    IsLeast { instant | ∃ reservation,
      (window.tryReserve instant (some bound) fixedWaiters true).1 = .ok (some reservation) }
      retryAt := by
  have hPos := bound.positive
  unfold nextAvailableAt at h
  split at h
  next hFull =>
    have hGranted : ∀ instant, (∃ reservation,
        (window.tryReserve instant (some bound) fixedWaiters true).1 = .ok (some reservation)) ↔
          retryAt ≤ instant := by
      intro instant
      rw [List.getElem?_eq_getElem (by omega), Option.map_some, Option.some.injEq] at h
      rw [tryReserve_fixed_granted_iff, prune, length_slide_lt_iff hOrdered hPos hFull, ← h,
        List.get_eq_getElem]
    constructor
    · exact (hGranted retryAt).mpr (le_refl _)
    · intro instant hInstant
      exact (hGranted instant).mp hInstant
  next => cases h

theorem eraseP_id_eq_filter {attempts : List RateReservation}
    (hIds : (attempts.map RateReservation.id).Nodup)
    (hOwn : ∀ attempt ∈ attempts, attempt.id = reservation.id → attempt = reservation) :
    attempts.eraseP (fun current => current.id = reservation.id) =
      attempts.filter (· ≠ reservation) := by
  induction attempts with
  | nil => rfl
  | cons attempt attempts ih =>
    rw [List.map_cons, List.nodup_cons] at hIds
    by_cases hSame : attempt.id = reservation.id
    · obtain rfl := hOwn attempt List.mem_cons_self hSame
      have hRest : ∀ other ∈ attempts, other ≠ attempt := by
        rintro other hOther rfl
        exact hIds.1 (List.mem_map_of_mem hOther)
      rw [List.eraseP_cons_of_pos (by simp), List.filter_cons_of_neg (by simp),
        List.filter_eq_self.mpr (by simpa using hRest)]
    · have hOther : attempt ≠ reservation := fun h => hSame (congrArg _ h)
      rw [List.eraseP_cons_of_neg (by simpa using hSame),
        List.filter_cons_of_pos (by simpa using hOther),
        ih hIds.2 fun other h => hOwn other (List.mem_cons_of_mem _ h)]

/-- Identifiers name reservations, so a rollback takes out this reservation and
leaves the others as they are. -/
theorem rollback_eq (hIds : (window.attempts.map RateReservation.id).Nodup)
    (hOwn : ∀ attempt ∈ window.attempts, attempt.id = reservation.id → attempt = reservation) :
    window.rollback reservation = (decide (reservation ∈ window.attempts),
      { window with attempts := window.attempts.filter (· ≠ reservation) }) := by
  have hErase : window.attempts.eraseP (fun current => current.id = reservation.id) =
      match window.attempts.findIdx? fun current => current.id = reservation.id with
      | none => window.attempts
      | some index => window.attempts.eraseIdx index :=
    List.eraseP_eq_eraseIdx
  rw [eraseP_id_eq_filter hIds hOwn] at hErase
  unfold rollback
  cases hIndex : window.attempts.findIdx? fun current => decide (current.id = reservation.id) with
  | none =>
    rw [hIndex] at hErase
    have hAbsent : reservation ∉ window.attempts := fun hMem => by
      simpa using List.findIdx?_eq_none_iff.mp hIndex reservation hMem
    rw [decide_eq_false hAbsent, hErase]
  | some index =>
    rw [hIndex] at hErase
    have hPresent : reservation ∈ window.attempts := by
      obtain ⟨hBound, hSame, _⟩ := List.findIdx?_eq_some_iff_getElem.mp hIndex
      have hMem := List.getElem_mem hBound
      rwa [hOwn _ hMem (of_decide_eq_true hSame)] at hMem
    rw [decide_eq_true hPresent, hErase]

end CredentialRateWindow

/-- The methods of the window. The limit is an argument of each call, so it may
change from call to call. -/
inductive WindowCall where
  | tryReserve (now : Instant) (limit : Option RequestsPerMinute) (fixedWaiters : Nat)
      (fixed : Bool)
  | rollback (reservation : RateReservation)
  | snapshot (now : Instant) (limit : Option RequestsPerMinute)

/-- The window beside what has happened to it. -/
structure WindowHistory where
  window : CredentialRateWindow
  clock : Instant
  /-- Every reservation that was ever granted. -/
  issued : List RateReservation
  /-- The granted reservations that were not rolled back. -/
  granted : List RateReservation

def reservations : Except RateLimited (Option RateReservation) → List RateReservation
  | .ok (some reservation) => [reservation]
  | _ => []

theorem mem_reservations : reservation ∈ reservations result ↔ result = .ok (some reservation) := by
  rcases result with _ | _ | _ <;> simp [reservations, eq_comm]

/-- A reservation counts at `now` during the minute that starts with it. -/
def RateReservation.CountsAt (reservation : RateReservation) (now : Instant) : Prop :=
  reservation.startedAt ≤ now ∧ now < reservation.startedAt + rateWindow

instance (reservation : RateReservation) (now : Instant) :
    Decidable (reservation.CountsAt now) :=
  inferInstanceAs (Decidable (_ ∧ _))

namespace WindowHistory

def initial : WindowHistory where
  window := .new
  clock := 0
  issued := []
  granted := []

def tryReserve (history : WindowHistory) (now : Instant) (limit : Option RequestsPerMinute)
    (fixedWaiters : Nat) (fixed : Bool) :
    Except RateLimited (Option RateReservation) × WindowHistory :=
  let answer := history.window.tryReserve now limit fixedWaiters fixed
  (answer.1, ⟨answer.2, now, history.issued ++ reservations answer.1,
    history.granted ++ reservations answer.1⟩)

def rollback (history : WindowHistory) (reservation : RateReservation) : WindowHistory :=
  { history with
    window := (history.window.rollback reservation).2
    granted := history.granted.filter (· ≠ reservation) }

/-- Instants do not decrease, and only a reservation that was handed out can be
rolled back, also more than once. -/
def step (history : WindowHistory) : WindowCall → Option WindowHistory
  | .tryReserve now limit fixedWaiters fixed =>
    if history.clock ≤ now then
      some (history.tryReserve now limit fixedWaiters fixed).2
    else
      none
  | .rollback reservation =>
    if reservation ∈ history.issued then
      some (history.rollback reservation)
    else
      none
  | .snapshot now limit =>
    if history.clock ≤ now then
      some { history with window := (history.window.snapshot now limit).2, clock := now }
    else
      none

/-- The window holds the newest of the granted reservations, and those it no
longer holds are over. -/
structure Kept (history : WindowHistory) : Prop where
  split : ∃ expired, history.granted = expired ++ history.window.attempts ∧
    ∀ reservation ∈ expired, reservation.startedAt + rateWindow ≤ history.clock
  ordered : Ordered RateReservation.startedAt history.window.attempts
  past : ∀ reservation ∈ history.issued, reservation.startedAt ≤ history.clock
  handedOut : history.granted.Sublist history.issued
  numbered : (history.issued.map RateReservation.id).Pairwise (· < ·)
  below : ∀ reservation ∈ history.issued, reservation.id < history.window.nextReservationId

variable {history after : WindowHistory} {reservation : RateReservation} {now : Instant}

theorem Kept.initial : initial.Kept where
  split := ⟨[], rfl, by simp⟩
  ordered := .nil
  past := by simp [WindowHistory.initial]
  handedOut := .slnil
  numbered := .nil
  below := by simp [WindowHistory.initial]

theorem Kept.attempts_sublist (h : history.Kept) :
    history.window.attempts.Sublist history.issued := by
  obtain ⟨expired, hSplit, _⟩ := h.split
  exact .trans (hSplit ▸ List.sublist_append_right ..) h.handedOut

theorem Kept.rollback_eq (h : history.Kept) (hIssued : reservation ∈ history.issued) :
    history.window.rollback reservation = (decide (reservation ∈ history.window.attempts),
      { history.window with
        attempts := history.window.attempts.filter (· ≠ reservation) }) := by
  have hNodup : (history.issued.map RateReservation.id).Nodup :=
    h.numbered.imp fun hLess => ne_of_lt hLess
  apply CredentialRateWindow.rollback_eq
  · exact hNodup.sublist (h.attempts_sublist.map _)
  · intro attempt hAttempt hSame
    exact List.inj_on_of_nodup_map hNodup (h.attempts_sublist.subset hAttempt) hIssued hSame

/-- Time that passes expires reservations at the front and changes nothing else.
A reader may prune with an instant that has passed by `later`. -/
theorem Kept.prune (h : history.Kept) {now later : Instant} (hNow : now ≤ later)
    (hLater : history.clock ≤ later) :
    Kept { history with window := history.window.prune now, clock := later } := by
  obtain ⟨expired, hSplit, hOver⟩ := h.split
  obtain ⟨pruned, hPruned, hOld⟩ :=
    exists_slid RateReservation.startedAt rateWindow now history.window.attempts
  refine ⟨⟨expired ++ pruned, ?_, ?_⟩, ?_, ?_, h.handedOut, h.numbered, h.below⟩
  · rw [List.append_assoc, CredentialRateWindow.prune, ← hPruned, hSplit]
  · intro reservation hMem
    rcases List.mem_append.mp hMem with hMem | hMem
    · exact (hOver reservation hMem).trans hLater
    · exact (hOld reservation hMem).trans hNow
  · exact (hPruned ▸ h.ordered : Ordered _ (pruned ++ _)).sublist (List.sublist_append_right ..)
  · exact fun reservation hMem => (h.past reservation hMem).trans hLater

/-- A granted reservation is the newest one, under an identifier of its own. -/
theorem Kept.grant (h : history.Kept) : Kept { history with
      window := ⟨history.window.attempts ++ [⟨history.window.nextReservationId, history.clock⟩],
        history.window.nextReservationId + 1⟩
      issued := history.issued ++ [⟨history.window.nextReservationId, history.clock⟩]
      granted := history.granted ++ [⟨history.window.nextReservationId, history.clock⟩] } := by
  obtain ⟨expired, hSplit, hOver⟩ := h.split
  refine ⟨⟨expired, ?_, hOver⟩, ?_, ?_, h.handedOut.append (.refl _), ?_, ?_⟩
  · rw [hSplit, List.append_assoc]
  · exact Entries.pairwise_concat h.ordered fun earlier hEarlier =>
      h.past earlier (h.attempts_sublist.subset hEarlier)
  · exact Entries.forall_mem_concat h.past le_rfl
  · rw [List.map_append]
    refine Entries.pairwise_concat h.numbered fun id hId => ?_
    obtain ⟨reservation, hMem, rfl⟩ := List.mem_map.mp hId
    exact h.below reservation hMem
  · exact Entries.forall_mem_concat (fun reservation hMem =>
      Nat.lt_succ_of_lt (h.below reservation hMem)) (Nat.lt_succ_self _)

theorem Kept.rollback (h : history.Kept) (hIssued : reservation ∈ history.issued) :
    (history.rollback reservation).Kept := by
  obtain ⟨expired, hSplit, hOver⟩ := h.split
  rw [WindowHistory.rollback, h.rollback_eq hIssued]
  refine ⟨⟨expired.filter (· ≠ reservation), ?_, ?_⟩, ?_, h.past, ?_, h.numbered, h.below⟩
  · rw [hSplit, List.filter_append]
  · exact fun other hMem => hOver other (List.mem_filter.mp hMem).1
  · exact h.ordered.sublist List.filter_sublist
  · exact List.filter_sublist.trans h.handedOut

theorem Kept.tryReserve (h : history.Kept) (hNow : history.clock ≤ now)
    (limit : Option RequestsPerMinute) (fixedWaiters : Nat) (fixed : Bool) :
    (history.tryReserve now limit fixedWaiters fixed).2.Kept := by
  unfold WindowHistory.tryReserve
  generalize hCall : history.window.tryReserve now limit fixedWaiters fixed = answer
  obtain ⟨result, window⟩ := answer
  obtain ⟨_, _, rfl, hAttempts, hNext, _⟩ | ⟨_, rfl, rfl⟩ | ⟨_, _, _, rfl, rfl⟩ |
    ⟨_, _, _, _, rfl, rfl⟩ := CredentialRateWindow.tryReserve_cases hCall
  · obtain ⟨attempts, next⟩ := window
    subst hAttempts hNext
    exact (h.prune (le_refl now) hNow).grant
  all_goals simpa [reservations] using h.prune (le_refl now) hNow

theorem Kept.step (h : history.Kept) {call : WindowCall} (hStep : history.step call = some after) :
    after.Kept := by
  cases call with
  | tryReserve now limit fixedWaiters fixed =>
    obtain ⟨hNow, hAfter⟩ := Option.ite_none_right_eq_some.mp hStep
    exact Option.some.inj hAfter ▸ h.tryReserve hNow limit fixedWaiters fixed
  | rollback reservation =>
    obtain ⟨hIssued, hAfter⟩ := Option.ite_none_right_eq_some.mp hStep
    exact Option.some.inj hAfter ▸ h.rollback hIssued
  | snapshot now limit =>
    obtain ⟨hNow, hAfter⟩ := Option.ite_none_right_eq_some.mp hStep
    exact Option.some.inj hAfter ▸ h.prune (le_refl now) hNow

/-- A granted reservation stays in the window until its minute is over. -/
theorem Kept.mem_attempts (h : history.Kept) (hGranted : reservation ∈ history.granted)
    (hCounts : history.clock < reservation.startedAt + rateWindow) :
    reservation ∈ history.window.attempts := by
  obtain ⟨expired, hSplit, hOver⟩ := h.split
  rw [hSplit] at hGranted
  rcases List.mem_append.mp hGranted with hExpired | hAttempt
  · exact absurd hCounts (not_lt.mpr (hOver reservation hExpired))
  · exact hAttempt

/-- A new reservation is not one that was issued before. -/
theorem Kept.reservation_fresh (h : history.Kept) {fixed : Bool}
    (hGranted : (history.tryReserve now limit fixedWaiters fixed).1 = .ok (some reservation)) :
    reservation ∉ history.issued := by
  unfold WindowHistory.tryReserve at hGranted
  generalize hCall : history.window.tryReserve now limit fixedWaiters fixed = answer at hGranted
  obtain ⟨result, window⟩ := answer
  intro hIssued
  have hBelow := h.below reservation hIssued
  obtain ⟨_, _, rfl, _⟩ | ⟨_, rfl, _⟩ | ⟨_, _, _, rfl, _⟩ | ⟨_, _, _, _, rfl, _⟩ :=
    CredentialRateWindow.tryReserve_cases hCall
  · cases hGranted
    exact absurd hBelow (lt_irrefl _)
  all_goals cases hGranted

/-- Of the granted reservations no more count than the pruned window holds. -/
theorem Kept.counting_le (h : history.Kept) (hNow : history.clock ≤ now) :
    history.granted.countP (·.CountsAt now) ≤ (history.window.prune now).attempts.length := by
  obtain ⟨expired, hSplit, hOver⟩ := (h.prune (le_refl now) hNow).split
  have hNone : expired.countP (·.CountsAt now) = 0 := by
    refine List.countP_eq_zero.mpr fun reservation hMem => ?_
    have hEnd : reservation.startedAt + rateWindow ≤ now := hOver reservation hMem
    rw [decide_eq_true_eq]
    exact fun hCounts => absurd hCounts.2 (not_lt.mpr hEnd)
  calc history.granted.countP (·.CountsAt now)
      = (history.window.prune now).attempts.countP (·.CountsAt now) := by
        rw [hSplit, List.countP_append, hNone, Nat.zero_add]
    _ ≤ (history.window.prune now).attempts.length := List.countP_le_length

/-- After every sequence of calls: a grant keeps to the limit it is asked under,
and a normal one leaves a place for each fixed waiter; a rollback takes out its
own reservation only; and an announced retry time is the first instant at which
the refused limit admits a fixed reservation. -/
theorem run_keeps_limit (calls : List WindowCall) (history : WindowHistory)
    (hRun : run step calls initial = some history) :
    (∀ now bound fixedWaiters fixed reservation, history.clock ≤ now →
      (history.window.tryReserve now (some bound) fixedWaiters fixed).1 = .ok (some reservation) →
      reservation.startedAt = now ∧
      (history.granted ++ [reservation]).countP (·.CountsAt now) ≤ bound.get ∧
      (fixed = false →
        (history.granted ++ [reservation]).countP (·.CountsAt now) + fixedWaiters ≤
          bound.get)) ∧
    (∀ reservation ∈ history.issued,
      history.window.rollback reservation = (decide (reservation ∈ history.window.attempts),
        { history.window with
          attempts := history.window.attempts.filter (· ≠ reservation) })) ∧
    (∀ now limit fixedWaiters fixed retryAt, history.clock ≤ now →
      (history.window.tryReserve now limit fixedWaiters fixed).1 = .error ⟨some retryAt⟩ →
      ∃ bound, limit = some bound ∧ ∀ waiters, IsLeast { instant | ∃ reservation,
        ((history.window.tryReserve now limit fixedWaiters fixed).2.tryReserve instant
          (some bound) waiters true).1 = .ok (some reservation) } retryAt) := by
  have hKept := invariant_of_run (fun _ _ _ h hStep => h.step hStep) Kept.initial hRun
  refine ⟨?_, fun _ hIssued => hKept.rollback_eq hIssued, ?_⟩
  · intro now bound fixedWaiters fixed reservation hNow hGranted
    have hCount := hKept.counting_le hNow
    generalize hCall : history.window.tryReserve now (some bound) fixedWaiters fixed = answer
      at hGranted
    obtain ⟨result, after⟩ := answer
    obtain ⟨_, hBound, hResult, _, _, hFree, hHeld⟩ | ⟨hBound, _, _⟩ | ⟨_, _, _, hResult, _⟩ |
      ⟨_, _, _, _, hResult, _⟩ := CredentialRateWindow.tryReserve_cases hCall
    · cases hBound
      cases hGranted.symm.trans hResult
      have hNew : ([⟨history.window.nextReservationId, now⟩] : List RateReservation).countP
          (·.CountsAt now) ≤ 1 := List.countP_le_length
      rw [List.countP_append]
      exact ⟨rfl, by omega, fun hNormal => by have := hHeld hNormal; omega⟩
    · cases hBound
    · cases hGranted.symm.trans hResult
    · cases hGranted.symm.trans hResult
  · intro now limit fixedWaiters fixed retryAt hNow hRefused
    generalize hCall : history.window.tryReserve now limit fixedWaiters fixed = answer
      at hRefused
    obtain ⟨result, after⟩ := answer
    obtain ⟨_, _, hResult, _⟩ | ⟨_, hResult, _⟩ | ⟨bound, hBound, hFull, hResult, hAfter⟩ |
      ⟨_, _, _, _, hResult, _⟩ := CredentialRateWindow.tryReserve_cases hCall
    · cases hRefused.symm.trans hResult
    · cases hRefused.symm.trans hResult
    · refine ⟨bound, hBound, fun waiters => ?_⟩
      have hRetry := congrArg RateLimited.retryAt
        (Except.error.inj (hRefused.symm.trans hResult)).symm
      rw [hAfter]
      exact CredentialRateWindow.nextAvailableAt_isLeast
        (hKept.prune (le_refl now) hNow).ordered hRetry waiters
    · cases hRefused.symm.trans hResult

/-- Of two reservations the first is rolled back. A third is granted at 30 s, the
next one is refused until the second reservation has counted for a minute. -/
def sampleCalls : List WindowCall :=
  [.tryReserve 0 (some twoPerMinute) 0 false, .tryReserve (seconds 1) (some twoPerMinute) 0 true,
    .rollback ⟨0, 0⟩, .tryReserve (seconds 30) (some twoPerMinute) 0 false]

/-- A third request within a minute is told the first instant at which it is admitted. -/
theorem run_keeps_limit_sample : ∃ history, run step sampleCalls initial = some history ∧
      (history.window.tryReserve (seconds 31) (some twoPerMinute) 0 false).1 =
        .error ⟨some (seconds 61)⟩ ∧
      IsLeast { instant | ∃ reservation,
        ((history.window.tryReserve (seconds 31) (some twoPerMinute) 0 false).2.tryReserve instant
          (some twoPerMinute) 0 true).1 = .ok (some reservation) } (seconds 61) := by
  have hRefused : ((run step sampleCalls initial).map fun history => (history.clock,
      (history.window.tryReserve (seconds 31) (some twoPerMinute) 0 false).1)) =
        some (seconds 30, .error ⟨some (seconds 61)⟩) := by
    decide +kernel
  obtain ⟨history, hRun, hAnswer⟩ := Option.map_eq_some_iff.mp hRefused
  obtain ⟨hClock, hAnswer⟩ := Prod.mk.inj hAnswer
  obtain ⟨_, _, hRetry⟩ := run_keeps_limit sampleCalls history hRun
  obtain ⟨_, hBound, hLeast⟩ := hRetry _ _ _ _ _ (hClock ▸ by decide) hAnswer
  cases hBound
  exact ⟨history, hRun, hAnswer, hLeast 0⟩

/-- Conversely all that the pruned window holds counts. -/
theorem Kept.counting_eq (h : history.Kept) (hNow : history.clock ≤ now) :
    history.granted.countP (·.CountsAt now) = (history.window.prune now).attempts.length := by
  refine le_antisymm (h.counting_le hNow) ?_
  have hPruned := h.prune (le_refl now) hNow
  obtain ⟨expired, hSplit, -⟩ := hPruned.split
  have hAll : ∀ reservation ∈ (history.window.prune now).attempts, reservation.CountsAt now :=
    fun reservation hMem => ⟨hPruned.past _ (hPruned.attempts_sublist.subset hMem),
      lt_of_mem_slide h.ordered hMem⟩
  calc (history.window.prune now).attempts.length
      = (history.window.prune now).attempts.countP (·.CountsAt now) :=
        (List.countP_eq_length.mpr (by simpa using hAll)).symm
    _ ≤ history.granted.countP (·.CountsAt now) :=
        (hSplit ▸ List.sublist_append_right expired _).countP_le

/-- After every sequence of calls a snapshot under a limit counts the reservations
of the last minute that were not rolled back, and one without a limit shows zero. It
shows that none remains exactly if a fixed reservation would be refused, which is
never the case without a limit. -/
theorem run_snapshot (calls : List WindowCall) (history : WindowHistory)
    (hRun : run step calls initial = some history) (now : Instant) (hNow : history.clock ≤ now)
    (limit : Option RequestsPerMinute) :
    let answer := (history.window.snapshot now limit).1
    answer.requestsInWindow =
        (if limit.isSome then history.granted.countP (·.CountsAt now) else 0) ∧
    (answer.remaining = some 0 ↔ ∀ waiters, ∃ refusal,
      (history.window.tryReserve now limit waiters true).1 = .error refusal) := by
  intro answer
  have hKept : history.Kept :=
    invariant_of_run (fun _ _ _ h hStep => h.step hStep) Kept.initial hRun
  cases limit with
  | none => simp [answer, CredentialRateWindow.snapshot, CredentialRateSnapshot.remaining,
      CredentialRateWindow.tryReserve]
  | some bound =>
    refine ⟨(hKept.counting_eq hNow).symm, ?_⟩
    have hRemaining : answer.remaining = some 0 ↔
        bound.get ≤ (history.window.prune now).attempts.length := by
      simp [answer, CredentialRateWindow.snapshot, CredentialRateSnapshot.remaining,
        Nat.sub_eq_zero_iff_le]
    rw [hRemaining]
    by_cases hFull : bound.get ≤ (history.window.prune now).attempts.length <;>
      simp [CredentialRateWindow.tryReserve, hFull]

/-- With a limit the snapshot counts the granted requests, without one it shows none. -/
theorem run_snapshot_sample : ∃ history, run step sampleCalls initial = some history ∧
    history.clock ≤ seconds 31 ∧
    (history.window.snapshot (seconds 31) (some twoPerMinute)).1.requestsInWindow =
      history.granted.countP (·.CountsAt (seconds 31)) ∧
    (history.window.snapshot (seconds 31) none).1.requestsInWindow = 0 := by
  have hRun : (run step sampleCalls initial).any (·.clock ≤ seconds 31) = true := by
    decide +kernel
  obtain ⟨history, hRun, hClock⟩ := (Option.any_eq_true ..).mp hRun
  have hClock := of_decide_eq_true hClock
  exact ⟨history, hRun, hClock,
    (run_snapshot sampleCalls history hRun _ hClock (some twoPerMinute)).1,
    (run_snapshot sampleCalls history hRun _ hClock none).1⟩

end WindowHistory

end Any2Api.Runtime.Credential
