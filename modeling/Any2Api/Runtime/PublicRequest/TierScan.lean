import Any2Api.Library.Result
import Any2Api.Runtime.Domain

/-! Selection from a tier. The cursor of the tier says where the ring of its candidates is entered,
and a selection moves it behind the candidate that was selected. -/
namespace Any2Api.Runtime.PublicRequest

inductive TemporaryUnavailabilityCause where
  | outage
  | rateLimitCooldown

inductive HealthAcquireError where
  | temporary (deadline : Instant) (cause : TemporaryUnavailabilityCause)
  | permanent

/-- What a scan learns of a candidate, in the order in which it asks. -/
structure TierCandidate where
  admissionActive : Bool
  attempted : Bool
  newCredential : Bool
  newEgress : Bool
  allowed : Bool
  credentialEligible : Bool
  deferredUntil : Option Instant
  healthAvailability : Except HealthAcquireError Unit
  tryReserve : Except (Option Instant) Unit
  acquireHealth : Except HealthAcquireError Unit

def retryPreferenceLevels : Nat := 5

variable (candidate : TierCandidate)

def TierCandidate.retryPreference : Nat :=
  if candidate.attempted then 4
  else
    match candidate.newCredential, candidate.newEgress with
    | true, true => 0
    | true, false => 1
    | false, true => 2
    | false, false => 3

def earliestOptional (current : Option Instant) : Option Instant → Option Instant
  | some candidate => some (current.elim candidate (min · candidate))
  | none => current

/-- The variables of a scan. -/
structure ScanNotes where
  outageRetryAt : Option Instant
  cooldownRetryAt : Option Instant
  rateRetryAt : Option Instant
  deferredRetryAt : Option Instant
  sawRateLimit : Bool

def ScanNotes.empty : ScanNotes := ⟨none, none, none, none, false⟩

def ScanNotes.noteHealthError (notes : ScanNotes) : HealthAcquireError → ScanNotes
  | .temporary deadline .outage =>
    { notes with outageRetryAt := earliestOptional notes.outageRetryAt (some deadline) }
  | .temporary deadline .rateLimitCooldown =>
    { notes with cooldownRetryAt := earliestOptional notes.cooldownRetryAt (some deadline) }
  | .permanent => notes

/-- One turn of the scan, without a result when the candidate has been acquired. -/
def TierCandidate.visit (now : Instant) (preference : Nat) (notes : ScanNotes) : Option ScanNotes :=
  if candidate.admissionActive = false ∨ candidate.retryPreference ≠ preference ∨
      candidate.allowed = false ∨ candidate.credentialEligible = false then
    some notes
  else
    match candidate.deferredUntil.filter (now < ·) with
    | some notBefore =>
      some { notes with deferredRetryAt := earliestOptional notes.deferredRetryAt (some notBefore) }
    | none =>
      match candidate.healthAvailability with
      | .error error => some (notes.noteHealthError error)
      | .ok () =>
        match candidate.tryReserve with
        | .error retryAt =>
          some { notes with
            sawRateLimit := true
            rateRetryAt := earliestOptional notes.rateRetryAt retryAt }
        | .ok () =>
          match candidate.acquireHealth with
          | .error error => some (notes.noteHealthError error)
          | .ok () => none

inductive TierScan where
  | acquired (position skipped : Nat)
  | rateLimited (retryAt outageRetryAt cooldownRetryAt deferredRetryAt : Option Instant)
  | exhausted (outageRetryAt cooldownRetryAt deferredRetryAt : Option Instant)

/-- The turn for an offset; a candidate that has been acquired ends the loops. -/
def scanOffset (candidates : List TierCandidate) (now : Instant) (start preference : Nat)
    (notes : ScanNotes) (offset : Nat) : Except (Nat × Nat) ScanNotes :=
  let position := (start + offset) % candidates.length
  match candidates[position]? with
  | none => .ok notes
  | some candidate =>
    match candidate.visit now preference notes with
    | some notes => .ok notes
    | none => .error (position, offset)

def scan (candidates : List TierCandidate) (now : Instant) (tieBreaker : Nat) : TierScan :=
  if candidates = [] then .exhausted none none none
  else
    let start := tieBreaker % candidates.length
    let outcome := (List.range retryPreferenceLevels).foldlM (fun notes preference =>
      (List.range candidates.length).foldlM (scanOffset candidates now start preference) notes)
      ScanNotes.empty
    match outcome with
    | .error (position, skipped) => .acquired position skipped
    | .ok notes =>
      if notes.sawRateLimit then
        .rateLimited notes.rateRetryAt notes.outageRetryAt notes.cooldownRetryAt
          notes.deferredRetryAt
      else
        .exhausted notes.outageRetryAt notes.cooldownRetryAt notes.deferredRetryAt

structure RouteTierCursor where
  next : Nat

namespace RouteTierCursor

variable (cursor : RouteTierCursor)

def reserve : Nat × RouteTierCursor :=
  (cursor.next, ⟨(cursor.next + 1) % wordSize⟩)

def advanceBy (skipped : Nat) : RouteTierCursor :=
  if 0 < skipped then ⟨(cursor.next + skipped) % wordSize⟩ else cursor

/-- What a selection does in a tier, with the position that was selected. -/
def trySelect (candidates : List TierCandidate) (now : Instant) : Option Nat × RouteTierCursor :=
  let (tieBreaker, cursor) := cursor.reserve
  match scan candidates now tieBreaker with
  | .acquired position skipped => (some position, cursor.advanceBy skipped)
  | .rateLimited .. | .exhausted .. => (none, cursor)

/-- One selection after the other, each at its own time and with the candidates as they are then. -/
def selections (cursor : RouteTierCursor) : List (Instant × List TierCandidate) → List (Option Nat)
  | [] => []
  | (now, candidates) :: rest =>
    let (position, cursor) := cursor.trySelect candidates now
    position :: cursor.selections rest

end RouteTierCursor

def TierCandidate.selectable (now : Instant) : Bool :=
  candidate.admissionActive && candidate.allowed && candidate.credentialEligible &&
    (candidate.deferredUntil.filter (now < ·)).isNone && candidate.healthAvailability.isOk &&
    candidate.tryReserve.isOk && candidate.acquireHealth.isOk

variable {candidates : List TierCandidate} {now : Instant} {n : Nat} {selectable : Nat → Bool}

theorem visit_eq_none (now : Instant) (preference : Nat) (notes : ScanNotes) :
    candidate.visit now preference notes = none ↔
      candidate.retryPreference = preference ∧ candidate.selectable now = true := by
  unfold TierCandidate.visit TierCandidate.selectable
  by_cases hSkipped : candidate.admissionActive = false ∨ candidate.retryPreference ≠ preference ∨
      candidate.allowed = false ∨ candidate.credentialEligible = false
  · rw [if_pos hSkipped]
    rcases hSkipped with h | h | h | h <;> simp [h]
  · rw [if_neg hSkipped]
    simp only [not_or, not_not, Bool.not_eq_false] at hSkipped
    obtain ⟨hActive, hPreference, hAllowed, hEligible⟩ := hSkipped
    cases hDeferred : candidate.deferredUntil.filter (now < ·) <;>
      cases hHealth : candidate.healthAvailability <;> cases hReserve : candidate.tryReserve <;>
      cases hAcquire : candidate.acquireHealth <;>
      simp [hActive, hPreference, hAllowed, hEligible, Except.isOk, Except.toBool]

theorem retryPreference_lt : candidate.retryPreference < retryPreferenceLevels := by
  unfold TierCandidate.retryPreference retryPreferenceLevels
  cases candidate.attempted <;> cases candidate.newCredential <;> cases candidate.newEgress <;>
    decide

/-- The candidates of a ring that can be selected, all with the same preference. -/
structure Offers (n : Nat) (selectable : Nat → Bool) (now : Instant)
    (candidates : List TierCandidate) : Prop where
  length : candidates.length = n
  selectable : ∀ (position : Nat) (candidate : TierCandidate),
    candidates[position]? = some candidate → candidate.selectable now = selectable position
  preference : ∃ preference, ∀ candidate ∈ candidates,
    candidate.selectable now = true → candidate.retryPreference = preference

/-- A turn ends the loops where the preference is the common one and the position selectable. -/
theorem Offers.scanOffset_eq (h : Offers n selectable now candidates) {preference : Nat}
    (hPreference : ∀ candidate ∈ candidates,
      candidate.selectable now = true → candidate.retryPreference = preference)
    (hPositive : 0 < n) (start level : Nat) (notes : ScanNotes) (offset : Nat) :
    (level = preference ∧ selectable ((start + offset) % n) = true →
      scanOffset candidates now start level notes offset = .error ((start + offset) % n, offset)) ∧
    (¬ (level = preference ∧ selectable ((start + offset) % n) = true) →
      ∃ next, scanOffset candidates now start level notes offset = .ok next) := by
  have hLess : (start + offset) % n < candidates.length := h.length.symm ▸ Nat.mod_lt _ hPositive
  have hFound := List.getElem?_eq_getElem hLess
  generalize candidates[(start + offset) % n] = candidate at hFound
  have hSame := h.selectable _ _ hFound
  have hCommon := hPreference _ (List.mem_of_getElem? hFound)
  have hVisit := visit_eq_none candidate now level notes
  unfold scanOffset
  dsimp only
  rw [h.length, hFound]
  dsimp only
  cases hResult : candidate.visit now level notes with
  | none =>
    obtain ⟨rfl, hMeets⟩ := hVisit.mp hResult
    exact ⟨fun _ => rfl, fun hNot => absurd ⟨hCommon hMeets, hSame ▸ hMeets⟩ hNot⟩
  | some next =>
    refine ⟨fun ⟨hLevel, hMeets⟩ => ?_, fun _ => ⟨next, rfl⟩⟩
    rw [hVisit.mpr ⟨(hCommon (hSame.trans hMeets)).trans hLevel.symm, hSame.trans hMeets⟩]
      at hResult
    cases hResult

/-- The scan ends at the first selectable position of the ring. -/
theorem Offers.scan_eq (h : Offers n selectable now candidates) {tieBreaker offset : Nat}
    (hFirst : (List.range n).find? (fun offset => selectable ((tieBreaker + offset) % n)) =
      some offset) :
    scan candidates now tieBreaker = .acquired ((tieBreaker + offset) % n) offset := by
  obtain ⟨hSelectable, hOffset, -⟩ := List.find?_range_eq_some.mp hFirst
  obtain ⟨preference, hPreference⟩ := h.preference
  have hPositive := Nat.zero_lt_of_lt (List.mem_range.mp hOffset)
  have hTurn := h.scanOffset_eq hPreference hPositive (tieBreaker % n)
  simp only [Nat.mod_add_mod] at hTurn
  have hLevel : preference < retryPreferenceLevels := by
    have hLess : (tieBreaker + offset) % n < candidates.length :=
      h.length.symm ▸ Nat.mod_lt _ hPositive
    have hMeets := (h.selectable _ _ (List.getElem?_eq_getElem hLess)).trans hSelectable
    exact hPreference _ (List.getElem_mem hLess) hMeets ▸ retryPreference_lt _
  have hInner (notes : ScanNotes) : (List.range n).foldlM
      (scanOffset candidates now (tieBreaker % n) preference) notes =
        .error ((tieBreaker + offset) % n, offset) :=
    Except.foldlM_eq_error _ hFirst
      (fun notes => (hTurn preference notes offset).1 ⟨rfl, hSelectable⟩)
      fun notes offset hNot => (hTurn preference notes offset).2 (by simp [hNot])
  have hOuter : (List.range retryPreferenceLevels).foldlM (fun notes level =>
      (List.range n).foldlM (scanOffset candidates now (tieBreaker % n) level) notes)
        .empty = .error ((tieBreaker + offset) % n, offset) := by
    refine Except.foldlM_eq_error (· == preference)
      (List.find?_range_eq_some.mpr ⟨beq_self_eq_true _, List.mem_range.mpr hLevel, ?_⟩) hInner ?_
    · exact fun level hLess => by simp [hLess.ne]
    · intro notes level hOther
      exact Except.foldlM_isOk fun notes offset _ => (hTurn level notes offset).2 (by simp_all)
  have hSome : candidates ≠ [] := List.length_pos_iff.mp (h.length.symm ▸ hPositive)
  unfold scan
  rw [if_neg hSome]
  dsimp only
  rw [h.length, hOuter]

theorem dvd_ring {position : Nat} (hPosition : position < n) (place : Nat) :
    n ∣ place + (n - 1 - position) + 1 ↔ place % n = position := by
  have hLess : place % n < n := Nat.mod_lt _ (Nat.zero_lt_of_lt hPosition)
  rw [show place + (n - 1 - position) + 1 = place + (n - position) by omega,
    Nat.dvd_iff_mod_eq_zero, ← Nat.mod_add_mod]
  rcases Nat.lt_or_ge (place % n) position with hBefore | hBehind
  · rw [Nat.mod_eq_of_lt (by omega)]
    omega
  · rw [show place % n + (n - position) = place % n - position + n by omega, Nat.add_mod_right,
      Nat.mod_eq_of_lt (by omega)]
    omega

/-- How often a position comes up on a walk around the ring. -/
theorem count_ring {position : Nat} (hPosition : position < n) (start steps : Nat) :
    ((List.range' start steps).map (· % n)).count position = steps / n ∨
      ((List.range' start steps).map (· % n)).count position = steps / n + 1 := by
  have hCount : ((List.range' start steps).map (· % n)).count position +
      (start + (n - 1 - position)) / n = (start + (n - 1 - position) + steps) / n := by
    induction steps with
    | zero => simp
    | succ steps ih =>
      have hPlace := dvd_ring hPosition (start + steps)
      rw [Nat.add_right_comm start] at hPlace
      rw [List.range'_concat, List.map_append, List.count_append, ← Nat.add_assoc _ steps,
        Nat.succ_div, ← ih]
      simp only [hPlace, List.map_cons, List.map_nil, List.count_singleton, Nat.one_mul, beq_iff_eq]
      omega
  generalize start + (n - 1 - position) = base at hCount
  rw [Nat.add_div (Nat.zero_lt_of_lt hPosition)] at hCount
  split at hCount <;> omega

theorem exists_first (hSome : ∃ position < n, selectable position = true) (cursor : Nat) :
    ∃ offset, (List.range n).find? (fun offset => selectable ((cursor + offset) % n)) =
      some offset := by
  obtain ⟨position, hPosition, hSelectable⟩ := hSome
  have hLess := Nat.mod_lt cursor (Nat.zero_lt_of_lt hPosition)
  refine Option.isSome_iff_exists.mp (List.find?_isSome.mpr
    ⟨(position + (n - cursor % n)) % n, List.mem_range.mpr (Nat.mod_lt _ (by omega)), ?_⟩)
  rw [Nat.add_mod_mod, ← Nat.mod_add_mod,
    show cursor % n + (position + (n - cursor % n)) = position + n by omega, Nat.add_mod_right,
    Nat.mod_eq_of_lt hPosition]
  exact hSelectable

/-- The selections of a run are what a walk around the ring finds selectable. -/
theorem selections_eq {scans : List (Instant × List TierCandidate)} {cursor : Nat}
    (hScans : ∀ scan ∈ scans, Offers n selectable scan.1 scan.2)
    (hSome : ∃ position < n, selectable position = true)
    (hFar : cursor + scans.length * n < wordSize) :
    ∃ passed, RouteTierCursor.selections ⟨cursor⟩ scans =
      (((List.range' cursor passed).map (· % n)).filter selectable).map some := by
  induction scans generalizing cursor with
  | nil => exact ⟨0, rfl⟩
  | cons scan scans ih =>
    obtain ⟨offset, hOffset⟩ := exists_first hSome cursor
    have hScan := (hScans scan List.mem_cons_self).scan_eq hOffset
    obtain ⟨hSelectable, hOffset, hFirst⟩ := List.find?_range_eq_some.mp hOffset
    rw [List.mem_range] at hOffset
    rw [List.length_cons, Nat.succ_mul] at hFar
    have hSelect : RouteTierCursor.trySelect ⟨cursor⟩ scan.2 scan.1 =
        (some ((cursor + offset) % n), ⟨cursor + 1 + offset⟩) := by
      have hNext : (cursor + 1) % wordSize = cursor + 1 := Nat.mod_eq_of_lt (by omega)
      have hMore : (cursor + 1 + offset) % wordSize = cursor + 1 + offset :=
        Nat.mod_eq_of_lt (by omega)
      unfold RouteTierCursor.trySelect RouteTierCursor.reserve
      dsimp only
      rw [hScan, hNext]
      dsimp only
      unfold RouteTierCursor.advanceBy
      split
      · rw [hMore]
      · rw [show offset = 0 by omega]
    have hRest : cursor + 1 + offset + scans.length * n < wordSize := by omega
    obtain ⟨passed, hPassed⟩ :=
      ih (fun scan hMem => hScans scan (List.mem_cons_of_mem _ hMem)) hRest
    refine ⟨offset + 1 + passed, ?_⟩
    have hSkipped : ((List.range' cursor offset).map (· % n)).filter selectable = [] := by
      refine List.filter_eq_nil_iff.mpr fun position hMem => ?_
      obtain ⟨place, hPlace, rfl⟩ := List.mem_map.mp hMem
      obtain ⟨earlier, hEarlier, rfl⟩ := List.mem_range'.mp hPlace
      simpa using hFirst earlier hEarlier
    unfold RouteTierCursor.selections
    rw [hSelect]
    dsimp only
    rw [hPassed, ← List.range'_append, ← List.range'_append]
    simp [hSkipped, hSelectable, Nat.add_right_comm _ 1, Nat.add_assoc]

/-- Selections from a ring of which the same positions stay selectable, with equal preference, go
around it position by position, so two of these have been selected equally often up to one. -/
theorem tier_selections_fair {scans : List (Instant × List TierCandidate)} {cursor : Nat}
    (hScans : ∀ scan ∈ scans, Offers n selectable scan.1 scan.2)
    (hSome : ∃ position < n, selectable position = true)
    (hFar : cursor + scans.length * n < wordSize) :
    ∃ passed selected, RouteTierCursor.selections ⟨cursor⟩ scans = List.map some selected ∧
      selected = ((List.range' cursor passed).map (· % n)).filter selectable ∧
      ∀ first second, first < n → second < n → selectable first = true →
        selectable second = true → selected.count first ≤ selected.count second + 1 := by
  obtain ⟨passed, hPassed⟩ := selections_eq hScans hSome hFar
  refine ⟨passed, _, hPassed, rfl, fun first second hFirst hSecond hMeets hOther => ?_⟩
  rw [List.count_filter hMeets, List.count_filter hOther]
  have hCounts := count_ring hFirst cursor passed
  have hOthers := count_ring hSecond cursor passed
  omega

def readyCandidate : TierCandidate :=
  ⟨true, false, true, true, true, true, none, .ok (), .ok (), .ok ()⟩

def limitedCandidate : TierCandidate := { readyCandidate with tryReserve := .error (some 7) }

/-- The middle one of three candidates has reached its rate limit. -/
def limitedScans : List (Instant × List TierCandidate) :=
  List.replicate 3 (0, [readyCandidate, limitedCandidate, readyCandidate])

/-- The cursor alternates between the two candidates around a rate-limited one. -/
theorem tier_selections_fair_around :
    RouteTierCursor.selections ⟨4⟩ limitedScans = [some 2, some 0, some 2] ∧
      ∃ selected, RouteTierCursor.selections ⟨4⟩ limitedScans = List.map some selected ∧
        selected.count 2 ≤ selected.count 0 + 1 := by
  have hScans : ∀ scan ∈ limitedScans, Offers 3 (· != 1) scan.1 scan.2 := by
    intro scan hScan
    rw [List.eq_of_mem_replicate hScan]
    refine ⟨rfl, fun position candidate hFound => ?_, 0, by decide⟩
    match position with
    | 0 | 1 | 2 =>
      cases hFound
      rfl
  have hFar : 4 + limitedScans.length * 3 < wordSize := by decide
  obtain ⟨passed, selected, hSelected, -, hCounts⟩ :=
    tier_selections_fair hScans ⟨0, by decide, rfl⟩ hFar
  exact ⟨rfl, selected, hSelected, hCounts 2 0 (by decide) (by decide) rfl rfl⟩

end Any2Api.Runtime.PublicRequest
