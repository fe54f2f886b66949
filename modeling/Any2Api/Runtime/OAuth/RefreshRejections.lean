import Any2Api.Runtime.OAuth.RefreshRuns

/-! Permanent rejections. A rejection is recorded for an account at a version and is meant to keep
later callers from a request until another version is published. The record is removed by a
lookup at another version, by the record of a success and by the worker; the last two may remove
one that still counts. -/
namespace Any2Api.Runtime.OAuth

open Runs

/-- From the snapshot to the answer of the request. -/
def RefreshPhase.looking : RefreshPhase → Bool
  | .current | .allowed | .cleared | .requesting => true
  | _ => false

theorem RefreshPhase.holds_of_looking {phase : RefreshPhase} (h : phase.looking = true) :
    phase.holds = true := by
  cases phase <;> first | rfl | exact absurd h Bool.false_ne_true

namespace RefreshState

variable {material : Nat → Nat → TokenMaterial} {state base next : RefreshState} {index : Nat}
  {caller changed : RefreshCaller} {action : CallerAction} {label : RefreshLabel}

/-- The account for which the step starts a request. -/
def starts (material : Nat → Nat → TokenMaterial) (state : RefreshState) : RefreshLabel → Option Nat
  | .act index (.attempt due) => do
      let caller ← state.callers[index]?
      if caller.phase = .cleared ∧ mayAttempt material caller due = true then some caller.account
      else none
  | _ => none

/-- No request starts for an account whose published version has been rejected. -/
def respects (material : Nat → Nat → TokenMaterial) (state : RefreshState) (label : RefreshLabel) :
    Bool :=
  (starts material state label).all fun account =>
    (state.published account).all fun version => decide ((account, version) ∉ state.rejected)

/-- Neither the record of a success nor the worker removes the rejection of a published version. -/
def keeps (state : RefreshState) : RefreshLabel → Bool
  | .act index .forgetRejection => state.callers[index]?.all fun caller =>
    (state.permanentRejections caller.account).all fun version =>
      decide (state.published caller.account ≠ some version)
  | .pruneRejections index => state.scans[index]?.all fun scan =>
    state.rejected.all fun (account, version) =>
      decide (state.permanentRejections account = some version →
        state.published account = some version → scan.active account = some version)
  | _ => true

/-- What a run keeps whose steps keep the rejections of published versions. -/
structure Remembers (material : Nat → Nat → TokenMaterial) (state : RefreshState) : Prop where
  valid : Valid material state
  recorded : ∀ {account version}, state.permanentRejections account = some version →
    (account, version) ∈ state.rejected
  latest : ∀ {account version}, (account, version) ∈ state.rejected →
    version ≤ state.latest account
  kept : ∀ {account version}, (account, version) ∈ state.rejected →
    state.published account = some version → state.permanentRejections account = some version
  bound : ∀ {index : Nat} {caller : RefreshCaller} {version : Nat},
    state.callers[index]? = some caller → caller.phase.looking = true →
    (caller.account, version) ∈ state.rejected → version ≤ caller.observed
  unseen : ∀ {index : Nat} {caller : RefreshCaller}, state.callers[index]? = some caller →
    caller.phase = .allowed ∨ caller.phase = .cleared →
    (caller.account, caller.observed) ∈ state.rejected →
    state.published caller.account ≠ some caller.observed

namespace Remembers

/-- A rejection of the published version is one of the version that a caller past the snapshot has
observed. -/
theorem eq_observed (h : Remembers material state) {version : Nat}
    (hCaller : state.callers[index]? = some caller) (hLooking : caller.phase.looking = true)
    (hRejected : (caller.account, version) ∈ state.rejected)
    (hPublished : state.published caller.account = some version) : version = caller.observed := by
  refine Nat.le_antisymm (h.bound hCaller hLooking hRejected) ?_
  rw [← h.valid.versions hPublished]
  exact h.valid.observed hCaller

theorem respects (h : Remembers material state) (label : RefreshLabel) :
    respects material state label = true := by
  refine (Option.all_eq_true ..).mpr fun account hStarts =>
    (Option.all_eq_true ..).mpr fun version hPublished => decide_eq_true fun hRejected => ?_
  unfold starts at hStarts
  split at hStarts
  · obtain ⟨caller, hCaller, hStarts⟩ := Option.bind_eq_some_iff.mp hStarts
    obtain ⟨⟨hPhase, -⟩, hAccount⟩ := Option.ite_none_right_eq_some.mp hStarts
    obtain rfl := Option.some.inj hAccount
    have hEq := h.eq_observed hCaller (by rw [hPhase]; rfl) hRejected hPublished
    exact h.unseen hCaller (.inr hPhase) (hEq ▸ hRejected) (hEq ▸ hPublished)
  · cases hStarts

end Remembers

section Rejections

variable {account : Nat} {version : Option Nat}

@[simp]
theorem permanentRejections_setRejection_self :
    (state.setRejection account version).permanentRejections account = version :=
  Function.update_self ..

theorem permanentRejections_setRejection_of_ne {other : Nat} (h : other ≠ account) :
    (state.setRejection account version).permanentRejections other =
      state.permanentRejections other :=
  Function.update_of_ne h ..

end Rejections

namespace Acts

section

variable (h : Acts material state index caller action base changed)
include h

theorem rejected {account version : Nat} (hRejected : (account, version) ∈ base.rejected) :
    (account, version) ∈ state.rejected ∨
      account = caller.account ∧ version = caller.observed ∧ caller.phase = .requesting ∧
        base.permanentRejections account = some version := by
  cases h
  case reject hPhase =>
    obtain hNew | hOld := List.mem_cons.mp hRejected
    · obtain ⟨rfl, rfl⟩ := Prod.mk.inj hNew
      exact .inr ⟨rfl, rfl, hPhase, permanentRejections_setRejection_self⟩
    · exact .inl hOld
  all_goals exact .inl hRejected

theorem recorded (hOld : ∀ {account version}, state.permanentRejections account = some version →
      (account, version) ∈ state.rejected) {account version : Nat}
    (hRejection : base.permanentRejections account = some version) :
    (account, version) ∈ base.rejected := by
  cases h
  case reject hPhase =>
    by_cases hAccount : account = caller.account
    · subst hAccount
      rw [permanentRejections_setRejection_self] at hRejection
      exact Option.some.inj hRejection ▸ List.mem_cons_self
    · rw [permanentRejections_setRejection_of_ne hAccount] at hRejection
      exact List.mem_cons_of_mem _ (hOld hRejection)
  case findNoRejection | forgetRejection =>
    by_cases hAccount : account = caller.account
    · subst hAccount
      rw [permanentRejections_setRejection_self] at hRejection
      cases hRejection
    · rw [permanentRejections_setRejection_of_ne hAccount] at hRejection
      exact hOld hRejection
  all_goals exact hOld hRejection

theorem published (account : Nat) :
    base.published account = state.published account ∨
      account = caller.account ∧ caller.phase.holds = true ∧
        state.published account = some caller.observed ∧
        base.published account = some (caller.observed + 1) := by
  cases h
  case publishRefresh hPublished hPhase =>
    by_cases hAccount : account = caller.account
    · subst hAccount
      exact .inr ⟨rfl, by rw [hPhase]; rfl, hPublished, published_setPublished_self⟩
    · exact .inl (published_setPublished_of_ne hAccount)
  all_goals exact .inl rfl

end

end Acts

namespace Remembers

section

variable (h : Remembers material state)
include h

section

variable (hCaller : state.callers[index]? = some caller)
include hCaller

/-- Another caller past the snapshot keeps the acting one from all that needs the gate. -/
theorem not_holds {other : Nat} {found : RefreshCaller}
    (hFound : state.callers[other]? = some found)
    (hNe : other ≠ index) (hLooking : found.phase.looking = true)
    (hAccount : found.account = caller.account) : caller.phase.holds ≠ true := fun hHolds =>
  hNe (h.valid.exclusive hFound hCaller (RefreshPhase.holds_of_looking hLooking) hHolds
    hAccount.symm)

section

variable (hActs : Acts material state index caller action base changed)
include hActs

theorem kept_act (hKeeps : keeps state (.act index action) = true) {account version : Nat}
    (hRejected : (account, version) ∈ base.rejected)
    (hPublished : base.published account = some version) :
    base.permanentRejections account = some version := by
  cases hActs
  case reject hPhase =>
    obtain hNew | hOld := List.mem_cons.mp hRejected
    · obtain ⟨rfl, rfl⟩ := Prod.mk.inj hNew
      exact permanentRejections_setRejection_self
    · by_cases hAccount : account = caller.account
      · subst hAccount
        rw [h.eq_observed hCaller (by rw [hPhase]; rfl) hOld hPublished]
        exact permanentRejections_setRejection_self
      · exact (permanentRejections_setRejection_of_ne hAccount).trans (h.kept hOld hPublished)
  case findNoRejection hFound hPhase =>
    by_cases hAccount : account = caller.account
    · subst hAccount
      have hEq := h.eq_observed hCaller (by rw [hPhase]; rfl) hRejected hPublished
      exact absurd (hEq ▸ h.kept hRejected hPublished) hFound
    · exact (permanentRejections_setRejection_of_ne hAccount).trans (h.kept hRejected hPublished)
  case forgetRejection hPhase =>
    have hRecorded := h.kept hRejected hPublished
    by_cases hAccount : account = caller.account
    · subst hAccount
      rw [keeps, hCaller, Option.all_some, hRecorded, Option.all_some] at hKeeps
      exact absurd hPublished (of_decide_eq_true hKeeps)
    · exact (permanentRejections_setRejection_of_ne hAccount).trans hRecorded
  case publishRefresh hBefore hPhase =>
    by_cases hAccount : account = caller.account
    · -- The new version has not been rejected yet.
      subst hAccount
      have hLatest := h.latest hRejected
      rw [h.valid.versions hBefore] at hLatest
      cases published_setPublished_self.symm.trans hPublished
      exact absurd hLatest (Nat.not_succ_le_self _)
    · exact h.kept hRejected ((published_setPublished_of_ne hAccount).symm.trans hPublished)
  all_goals exact h.kept hRejected hPublished

theorem bound_act {version : Nat} (hLooking : changed.phase.looking = true)
    (hRejected : (changed.account, version) ∈ base.rejected) : version ≤ changed.observed := by
  have hOld : caller.phase.looking = true → (caller.account, version) ∈ state.rejected →
      version ≤ caller.observed := h.bound hCaller
  cases hActs
  case readObserved hRead hPhase =>
    exact (h.latest hRejected).trans (h.valid.versions hRead).le
  case dropGate records _ => cases records <;> exact absurd hLooking Bool.false_ne_true
  all_goals
    rename_i hPhase
    first
    | exact absurd hLooking Bool.false_ne_true
    | exact hOld (by rw [hPhase]; rfl) hRejected

theorem unseen_act (hPhase : changed.phase = .allowed ∨ changed.phase = .cleared)
    (hRejected : (changed.account, changed.observed) ∈ base.rejected) :
    base.published changed.account ≠ some changed.observed := by
  have hOld : caller.phase = .allowed ∨ caller.phase = .cleared →
      (caller.account, caller.observed) ∈ state.rejected →
      state.published caller.account ≠ some caller.observed := h.unseen hCaller
  cases hActs
  case findNoRejection hFound hCurrent =>
    exact fun hPublished => hFound (h.kept hRejected hPublished)
  case retry hRetry hAllowed => exact hOld (.inl hAllowed) hRejected
  case dropGate records _ => cases records <;> rcases hPhase with hPhase | hPhase <;> cases hPhase
  all_goals rcases hPhase with hPhase | hPhase <;> cases hPhase

theorem act (hKeeps : keeps state (.act index action) = true) :
    Remembers material (base.setCaller index changed) where
  valid := h.valid.act hCaller hActs
  recorded := hActs.recorded h.recorded
  latest := fun {account version} hRejected => by
    obtain hOld | ⟨rfl, rfl, -⟩ := hActs.rejected hRejected
    · exact (h.latest hOld).trans (hActs.latest_le h.valid.versions account)
    · exact (h.valid.observed hCaller).trans (hActs.latest_le h.valid.versions _)
  kept := h.kept_act hCaller hActs hKeeps
  bound := fun {other found version} hFound hLooking hRejected => by
    obtain ⟨hNe, hOld⟩ | ⟨-, -, rfl⟩ := Entries.getElem?_set_eq_some.mp hFound
    · rw [hActs.callers_eq] at hOld
      obtain hBefore | ⟨hAccount, -, hPhase, -⟩ := hActs.rejected hRejected
      · exact h.bound hOld hLooking hBefore
      · exact absurd (by rw [hPhase]; rfl) (h.not_holds hCaller hOld hNe hLooking hAccount)
    · exact h.bound_act hCaller hActs hLooking hRejected
  unseen := fun {other found} hFound hPhase hRejected => by
    obtain ⟨hNe, hOld⟩ | ⟨-, -, rfl⟩ := Entries.getElem?_set_eq_some.mp hFound
    · rw [hActs.callers_eq] at hOld
      have hLooking : found.phase.looking = true := by
        rcases hPhase with hPhase | hPhase <;> rw [hPhase] <;> rfl
      have hNot := h.not_holds hCaller hOld hNe hLooking
      obtain hBefore | ⟨hAccount, -, hRequesting, -⟩ := hActs.rejected hRejected
      · obtain hSame | ⟨hAccount, hHolds, -⟩ := hActs.published found.account
        · exact hSame ▸ h.unseen hOld hPhase hBefore
        · exact absurd hHolds (hNot hAccount)
      · exact absurd (by rw [hRequesting]; rfl) (hNot hAccount)
    · exact (h.unseen_act hCaller hActs hPhase hRejected : base.published _ ≠ _)

end

end

end

end Remembers

namespace Remembers

theorem publishExternally (h : Remembers material state) {account : Nat} {version : Option Nat}
    (hNewer : ∀ new ∈ version, state.latest account < new)
    (hValid : Valid material (state.setPublished account version)) :
    Remembers material (state.setPublished account version) where
  valid := hValid
  recorded := h.recorded
  latest := fun hRejected => (h.latest hRejected).trans (latest_le_setPublished hNewer _)
  kept := fun {other rejected} hRejected hPublished => by
    by_cases hOther : other = account
    · subst hOther
      rw [published_setPublished_self] at hPublished
      exact absurd (h.latest hRejected) (Nat.not_le_of_lt (hNewer _ hPublished))
    · rw [published_setPublished_of_ne hOther] at hPublished
      exact h.kept hRejected hPublished
  bound := h.bound
  unseen := fun {index found} hFound hPhase hRejected hPublished => by
    by_cases hOther : found.account = account
    · subst hOther
      rw [published_setPublished_self] at hPublished
      exact absurd (h.valid.observed hFound) (Nat.not_le_of_lt (hNewer _ hPublished))
    · rw [published_setPublished_of_ne hOther] at hPublished
      exact h.unseen hFound hPhase hRejected hPublished

theorem step (h : Remembers material state) (hKeeps : keeps state label = true)
    (hNext : RefreshState.step material state label = some next) : Remembers material next := by
  have hValid := h.valid.step hNext
  cases steps_of_step hNext
  case arrive =>
    refine { h with valid := hValid, bound := ?_, unseen := ?_ }
    · intro index caller version hCaller hLooking
      obtain hOld | ⟨-, rfl⟩ := Entries.getElem?_concat_eq_some.mp hCaller
      · exact h.bound hOld hLooking
      · exact absurd hLooking Bool.false_ne_true
    · intro index caller hCaller hPhase
      obtain hOld | ⟨-, rfl⟩ := Entries.getElem?_concat_eq_some.mp hCaller
      · exact h.unseen hOld hPhase
      · rcases hPhase with hPhase | hPhase <;> cases hPhase
  case act hCaller hActs => exact h.act hCaller hActs hKeeps
  case publishExternally hNewer => exact h.publishExternally hNewer hValid
  case pruneRejections hScan =>
    refine { h with valid := hValid, recorded := ?_, kept := ?_ }
    · intro account version hRejection
      exact h.recorded (Option.filter_eq_some_iff.mp hRejection).1
    · intro account version hRejected hPublished
      have hRecorded := h.kept hRejected hPublished
      rw [keeps, hScan, Option.all_some] at hKeeps
      refine Option.filter_eq_some_iff.mpr ⟨hRecorded, decide_eq_true ?_⟩
      exact of_decide_eq_true (List.all_eq_true.mp hKeeps _ hRejected) hRecorded hPublished
  all_goals exact { h with valid := hValid }

end Remembers

theorem initial_remembers (material : Nat → Nat → TokenMaterial) : Remembers material initial where
  valid := initial_valid material
  recorded := fun h => nomatch h
  latest := fun h => nomatch h
  kept := fun h => nomatch h
  bound := fun h => nomatch h
  unseen := fun h => nomatch h

/-- In every run that keeps the rejections of published versions, no request starts for an account
whose published version has been rejected. -/
theorem respects_of_keeps (material : Nat → Nat → TokenMaterial) (labels : List RefreshLabel)
    (hKeeps : Along (step material) (fun state label => keeps state label = true) labels initial) :
    Along (step material) (fun state label => respects material state label = true) labels
      initial :=
  along_of_along (fun _ label h _ => h.respects label)
    (fun _ _ _ h hKeeps hNext => h.step hKeeps hNext)
    (initial_remembers material) hKeeps

/-- The actions of a caller up to the start of its request. -/
def request (index : Nat) : List RefreshLabel :=
  [.act index .gate, .act index .tryLock, .act index .readSnapshot,
    .act index .permanentRejection, .act index .compareFailures, .act index (.attempt false)]

/-- The actions of a caller whose request is rejected for good. -/
def rejection (index : Nat) : List RefreshLabel :=
  request index ++ [.act index .reject, .act index .recordFailedAttempt, .act index .leave]

/-- The worker finds version 1 published. A caller of it is rejected for good, the worker prunes,
and the next caller leaves without a request. -/
def rejectedRefresh : List RefreshLabel :=
  [.publishExternally 0 (some 1), .scan, .arrive 0 1 .authenticationFailure] ++ rejection 0 ++
    [.pruneGates 0, .pruneRejections 0, .pruneAttempts 0, .arrive 0 1 .authenticationFailure,
      .act 1 .gate, .act 1 .tryLock, .act 1 .readSnapshot, .act 1 .permanentRejection,
      .act 1 .leave]

/-- No caller of this run sends a second request for the rejected version. -/
theorem respects_of_keeps_rejected :
    (run (step fun _ _ => .refreshable) rejectedRefresh initial).isSome = true ∧
      Along (step fun _ _ => .refreshable)
        (fun state label => respects (fun _ _ => .refreshable) state label = true)
        rejectedRefresh initial :=
  ⟨by decide +kernel, respects_of_keeps (fun _ _ => .refreshable) rejectedRefresh
    (by decide +kernel)⟩

/-- The refresh of version 1 is published as version 2, and before its caller records the success,
a caller of version 2 is rejected for good. -/
def lateSuccess : List RefreshLabel :=
  [.publishExternally 0 (some 1), .arrive 0 1 .authenticationFailure] ++ request 0 ++
    [.act 0 .succeed, .act 0 .startPublication, .act 0 (.publish true), .act 0 .dropGate,
      .arrive 0 2 .authenticationFailure] ++ rejection 1 ++
    [.act 0 .forgetRejection, .act 0 .forgetAttempts, .arrive 0 2 .authenticationFailure] ++
    request 2

/-- A scan has found version 1, and prunes after version 2 is published and rejected for good. -/
def lateScan : List RefreshLabel :=
  [.publishExternally 0 (some 1), .scan, .pruneGates 0, .publishExternally 0 (some 2),
    .arrive 0 2 .authenticationFailure] ++ rejection 0 ++
    [.pruneRejections 0, .pruneAttempts 0, .arrive 0 2 .authenticationFailure] ++ request 1

/-- Both runs end with a request for the rejected version. -/
theorem rejection_forgotten :
    (run (step fun _ _ => .refreshable) lateSuccess initial).isSome = true ∧
    (run (step fun _ _ => .refreshable) lateScan initial).isSome = true ∧
    ¬ Along (step fun _ _ => .refreshable)
      (fun state label => respects (fun _ _ => .refreshable) state label = true)
      lateSuccess initial ∧
    ¬ Along (step fun _ _ => .refreshable)
      (fun state label => respects (fun _ _ => .refreshable) state label = true)
      lateScan initial := by
  decide +kernel

end RefreshState

end Any2Api.Runtime.OAuth
