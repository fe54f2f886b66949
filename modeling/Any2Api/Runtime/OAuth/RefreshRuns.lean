import Any2Api.Library.Entries
import Any2Api.Library.FifoGates
import Any2Api.Runtime.OAuth.Refresh

/-! What holds in every run of the refresh callers: one of them at a time has the gate of an
account, and what it has read there is still so when its attempt starts. -/
namespace Any2Api.Runtime.OAuth

open Runs FifoGates Entries Function

variable {material : Nat → Nat → TokenMaterial} {state base next : RefreshState} {index : Nat}
  {caller changed : RefreshCaller} {action : CallerAction}

namespace RefreshPhase

/-- The call has found no permanent rejection and has recorded none. -/
def unrejected : RefreshPhase → Bool
  | .allowed | .cleared | .requesting | .failing false => true
  | _ => false

/-- The call is not past the snapshot, or ends. -/
def idle : RefreshPhase → Bool
  | .entering | .gated | .contended | .counted | .queued | .locked | .leaving | .finished => true
  | _ => false

variable {phase : RefreshPhase}

theorem live_of_inLine (h : phase.inLine = true) : phase.live = true := by
  cases phase <;> first | rfl | exact h

theorem inLine_of_holds (h : phase.holds = true) : phase.inLine = true :=
  (Bool.and_eq_true_iff.mp h).1

theorem holds_of_inFlight (h : phase.inFlight = true) : phase.holds = true := by
  cases phase <;> first | rfl | exact absurd h Bool.false_ne_true

theorem holds_of_unrejected (h : phase.unrejected = true) : phase.holds = true := by
  cases phase <;> first | rfl | exact absurd h Bool.false_ne_true

end RefreshPhase

/-- What a call has read and done by the time it is in a phase. -/
def RefreshCaller.Sound (material : Nat → Nat → TokenMaterial) (caller : RefreshCaller) : Prop :=
  match caller.phase with
  | .entering | .gated | .contended | .locked => caller.read = none ∧ caller.attempted = false
  | .counted | .queued =>
    caller.read = none ∧ caller.attempted = false ∧ caller.reading.isSome = true
  | .current | .allowed | .cleared =>
    caller.read = some caller.observed ∧ caller.attempted = false
  | .requesting | .failing _ | .prepared | .publishing _ | .published _ =>
    caller.read = some caller.observed ∧ caller.attempted = true ∧
      material caller.account caller.observed = .refreshable
  | .leaving | .succeeded | .forgetting | .finished =>
    caller.attempted = true → caller.read = some caller.observed

namespace RefreshState

variable (material) (state) (index) (caller) in
/-- What a caller does: how it changes and what it does to the rest of the state. -/
inductive Acts : CallerAction → RefreshState → RefreshCaller → Prop where
  | reuseGate {gate : Nat} : state.upgrade caller.account = some gate → caller.phase = .entering →
      Acts .gate state { caller with phase := .gated, gate }
  | newGate : state.upgrade caller.account = none → caller.phase = .entering → Acts .gate
        { state with
          gates := update state.gates caller.account (some state.nextGate)
          nextGate := state.nextGate + 1 }
        { caller with phase := .gated, gate := state.nextGate }
  | lockFree : state.lines caller.gate = [] → caller.phase = .gated →
      Acts .tryLock (state.enqueue index caller) { caller with phase := .locked }
  | contend : state.lines caller.gate ≠ [] → caller.phase = .gated →
      Acts .tryLock state { caller with phase := .contended }
  | readFailures : caller.phase = .contended → Acts .readFailures state { caller with
        phase := .counted
        reading := some (state.failedRefreshAttempts caller.account caller.observed) }
  | lock : caller.phase = .counted → Acts .lock (state.enqueue index caller)
        { caller with phase := .queued }
  | wake : (state.lines caller.gate).head? = some index → caller.phase = .queued →
      Acts .wake state { caller with phase := .locked }
  | readObserved : state.published caller.account = some caller.observed →
      caller.phase = .locked → Acts .readSnapshot state
        { caller with phase := .current, read := some caller.observed }
  | readOther : state.published caller.account ≠ some caller.observed →
      caller.phase = .locked → Acts .readSnapshot state
        { caller with phase := .leaving, read := state.published caller.account }
  | findRejection : state.permanentRejections caller.account = some caller.observed →
      caller.phase = .current → Acts .permanentRejection state { caller with phase := .leaving }
  | findNoRejection : state.permanentRejections caller.account ≠ some caller.observed →
      caller.phase = .current → Acts .permanentRejection
        (state.setRejection caller.account none) { caller with phase := .allowed }
  | retry : state.mayRetry caller = true → caller.phase = .allowed →
      Acts .compareFailures state { caller with phase := .cleared }
  | backOff : state.mayRetry caller = false → caller.phase = .allowed →
      Acts .compareFailures state { caller with phase := .leaving }
  | attempt {due : Bool} : mayAttempt material caller due = true → caller.phase = .cleared →
      Acts (.attempt due) state { caller with phase := .requesting, attempted := true }
  | decline {due : Bool} : mayAttempt material caller due = false → caller.phase = .cleared →
      Acts (.attempt due) state { caller with phase := .leaving }
  | fail : caller.phase = .requesting → Acts .fail state { caller with phase := .failing false }
  | reject : caller.phase = .requesting → Acts .reject
        { state.setRejection caller.account (some caller.observed) with
          rejected := (caller.account, caller.observed) :: state.rejected }
        { caller with phase := .failing true }
  | succeed : caller.phase = .requesting → Acts .succeed state { caller with phase := .prepared }
  | recordFailedAttempt {permanent : Bool} : caller.phase = .failing permanent →
      Acts .recordFailedAttempt
        (state.recordFailedAttempt caller.account caller.observed)
        { caller with phase := .leaving }
  | leave : caller.phase = .leaving → Acts .leave (state.release index caller)
        { caller with phase := .finished }
  | startPublication : caller.phase = .prepared → Acts .startPublication state
        { caller with phase := .publishing false }
  | publishNothing {stored abandoned records : Bool} :
      (stored = true → state.published caller.account ≠ some caller.observed) →
      caller.phase = .publishing abandoned → Acts (.publish stored) state
        { caller with phase := .published records }
  | publishRefresh {abandoned records : Bool} :
      state.published caller.account = some caller.observed →
      caller.phase = .publishing abandoned → Acts (.publish true)
        (state.setPublished caller.account (some (caller.observed + 1)))
        { caller with phase := .published records }
  | dropGate {records : Bool} : caller.phase = .published records →
      Acts .dropGate (state.release index caller)
        { caller with phase := if records then .succeeded else .finished }
  | forgetRejection : caller.phase = .succeeded →
      Acts .forgetRejection (state.setRejection caller.account none)
        { caller with phase := .forgetting }
  | forgetAttempts : caller.phase = .forgetting → Acts .forgetAttempts
        { state with failedAttempts := update state.failedAttempts caller.account none }
        { caller with phase := .finished }
  | cancelInLine : caller.phase = .queued ∨ caller.phase = .requesting ∨ caller.phase = .prepared →
      Acts .cancel (state.release index caller) { caller with phase := .finished }
  | cancelPublication {abandoned : Bool} : caller.phase = .publishing abandoned →
      Acts .cancel state { caller with phase := .publishing true }
  | cancelPublished {records : Bool} : caller.phase = .published records →
      Acts .cancel state { caller with phase := .published false }
  | cancelSuccess : caller.phase = .succeeded →
      Acts .cancel state { caller with phase := .finished }

theorem acts_of_cancel (material : Nat → Nat → TokenMaterial)
    (hNext : state.cancel index caller = some next) :
    ∃ base changed, Acts material state index caller .cancel base changed ∧
      base.setCaller index changed = next := by
  unfold cancel at hNext
  cases hPhase : caller.phase <;> rw [hPhase] at hNext <;> cases hNext
  case queued => exact ⟨_, _, .cancelInLine (.inl hPhase), rfl⟩
  case requesting => exact ⟨_, _, .cancelInLine (.inr (.inl hPhase)), rfl⟩
  case prepared => exact ⟨_, _, .cancelInLine (.inr (.inr hPhase)), rfl⟩
  case publishing => exact ⟨_, _, .cancelPublication hPhase, rfl⟩
  case published => exact ⟨_, _, .cancelPublished hPhase, rfl⟩
  case succeeded => exact ⟨_, _, .cancelSuccess hPhase, rfl⟩

theorem acts_of_act (hNext : state.act material index caller action = some next) :
    ∃ base changed, Acts material state index caller action base changed ∧
      base.setCaller index changed = next := by
  unfold act at hNext
  -- Only the phases in which the action is possible remain.
  cases action <;> cases hPhase : caller.phase <;> rw [hPhase] at hNext <;>
    first
    | exact absurd hNext (Option.some_ne_none next).symm
    | exact acts_of_cancel material hNext
    | obtain rfl := Option.some.inj hNext
    | skip
  case gate.entering =>
    unfold RefreshState.gate
    cases hUpgrade : state.upgrade caller.account with
    | some gate => exact ⟨_, _, .reuseGate hUpgrade hPhase, rfl⟩
    | none => exact ⟨_, _, .newGate hUpgrade hPhase, rfl⟩
  case tryLock.gated =>
    by_cases hLine : state.lines caller.gate = []
    · exact ⟨_, _, .lockFree hLine hPhase, Option.some.inj ((if_pos hLine).symm.trans hNext)⟩
    · exact ⟨_, _, .contend hLine hPhase, Option.some.inj ((if_neg hLine).symm.trans hNext)⟩
  case readFailures.contended => exact ⟨_, _, .readFailures hPhase, rfl⟩
  case lock.counted => exact ⟨_, _, .lock hPhase, rfl⟩
  case wake.queued =>
    obtain ⟨hHead, hEq⟩ := Option.ite_none_right_eq_some.mp hNext
    exact ⟨_, _, .wake hHead hPhase, Option.some.inj hEq⟩
  case readSnapshot.locked =>
    by_cases hRead : state.published caller.account = some caller.observed
    · exact ⟨_, _, .readObserved hRead hPhase, by rw [if_pos hRead, hRead]⟩
    · exact ⟨_, _, .readOther hRead hPhase, by rw [if_neg hRead]⟩
  case permanentRejection.current =>
    unfold permanentRejection
    by_cases hRejection : state.permanentRejections caller.account = some caller.observed
    · exact ⟨_, _, .findRejection hRejection hPhase, (if_pos hRejection).symm⟩
    · exact ⟨_, _, .findNoRejection hRejection hPhase, (if_neg hRejection).symm⟩
  case compareFailures.allowed =>
    cases hRetry : state.mayRetry caller with
    | true => exact ⟨_, _, .retry hRetry hPhase, rfl⟩
    | false => exact ⟨_, _, .backOff hRetry hPhase, rfl⟩
  case attempt.cleared due =>
    by_cases hMay : mayAttempt material caller due = true
    · exact ⟨_, _, .attempt hMay hPhase, Option.some.inj ((if_pos hMay).symm.trans hNext)⟩
    · exact ⟨_, _, .decline (Bool.eq_false_of_not_eq_true hMay) hPhase,
        Option.some.inj ((if_neg hMay).symm.trans hNext)⟩
  case fail.requesting => exact ⟨_, _, .fail hPhase, rfl⟩
  case reject.requesting => exact ⟨_, _, .reject hPhase, rfl⟩
  case succeed.requesting => exact ⟨_, _, .succeed hPhase, rfl⟩
  case recordFailedAttempt.failing => exact ⟨_, _, .recordFailedAttempt hPhase, rfl⟩
  case leave.leaving => exact ⟨_, _, .leave hPhase, rfl⟩
  case startPublication.prepared => exact ⟨_, _, .startPublication hPhase, rfl⟩
  case publish.publishing stored abandoned =>
    cases stored with
    | false => exact ⟨_, _, .publishNothing (fun h => absurd h Bool.false_ne_true) hPhase, rfl⟩
    | true =>
      rw [if_pos rfl]
      unfold RefreshState.publishRefresh
      by_cases hPublished : state.published caller.account = some caller.observed
      · rw [if_pos hPublished]
        exact ⟨_, _, .publishRefresh hPublished hPhase, rfl⟩
      · rw [if_neg hPublished]
        exact ⟨_, _, .publishNothing (fun _ => hPublished) hPhase, rfl⟩
  case dropGate.published => exact ⟨_, _, .dropGate hPhase, rfl⟩
  case forgetRejection.succeeded => exact ⟨_, _, .forgetRejection hPhase, rfl⟩
  case forgetAttempts.forgetting => exact ⟨_, _, .forgetAttempts hPhase, rfl⟩

theorem acts_of_step {index : Nat} (hNext : step material state (.act index action) = some next) :
    ∃ caller base changed, state.callers[index]? = some caller ∧
      Acts material state index caller action base changed ∧
        base.setCaller index changed = next := by
  obtain ⟨caller, hCaller, hAct⟩ := Option.bind_eq_some_iff.mp hNext
  obtain ⟨base, changed, hActs, hEq⟩ := acts_of_act hAct
  exact ⟨caller, base, changed, hCaller, hActs, hEq⟩

theorem prune_cases {stage following : ScanStage}
    {retain : RefreshState → (Nat → Option Nat) → RefreshState}
    (h : state.prune index stage following retain = some next) :
    ∃ scan, state.scans[index]? = some scan ∧
      next = { retain state scan.active with
        scans := state.scans.set index ⟨scan.active, following⟩ } := by
  obtain ⟨scan, hScan, hPrune⟩ := Option.bind_eq_some_iff.mp h
  obtain ⟨-, hNext⟩ := Option.ite_none_right_eq_some.mp hPrune
  exact ⟨scan, hScan, (Option.some.inj hNext).symm⟩

variable (material) (state) in
/-- What a step does. -/
inductive Steps : RefreshLabel → RefreshState → Prop where
  | arrive {account observed : Nat} {trigger : OAuthRefreshTrigger} :
      observed ≤ state.latest account → Steps (.arrive account observed trigger)
        { state with
          callers := state.callers ++
            [⟨account, observed, trigger, .entering, 0, none, none, false⟩] }
  | act {index : Nat} {caller changed : RefreshCaller} {action : CallerAction}
      {base : RefreshState} : state.callers[index]? = some caller →
      Acts material state index caller action base changed →
      Steps (.act index action) (base.setCaller index changed)
  | publishExternally {account : Nat} {version : Option Nat} :
      (∀ new ∈ version, state.latest account < new) →
      Steps (.publishExternally account version) (state.setPublished account version)
  | scan : Steps .scan { state with scans := state.scans ++ [⟨state.published, .gates⟩] }
  | pruneGates {index : Nat} {scan : RefreshScan} : state.scans[index]? = some scan →
      Steps (.pruneGates index) { state.pruneGates scan.active with
        scans := state.scans.set index ⟨scan.active, .rejections⟩ }
  | pruneRejections {index : Nat} {scan : RefreshScan} : state.scans[index]? = some scan →
      Steps (.pruneRejections index) { state.pruneRejections scan.active with
        scans := state.scans.set index ⟨scan.active, .attempts⟩ }
  | pruneAttempts {index : Nat} {scan : RefreshScan} : state.scans[index]? = some scan →
      Steps (.pruneAttempts index) { state.pruneAttempts scan.active with
        scans := state.scans.set index ⟨scan.active, .done⟩ }

variable {label : RefreshLabel} {gate : Nat}

/-- All that a step of the model can do. -/
theorem steps_of_step (hNext : step material state label = some next) :
    Steps material state label next := by
  cases label with
  | arrive account observed trigger =>
    obtain ⟨hObserved, hEq⟩ := Option.ite_none_right_eq_some.mp hNext
    exact Option.some.inj hEq ▸ .arrive hObserved
  | act index action =>
    obtain ⟨caller, base, changed, hCaller, hActs, rfl⟩ := acts_of_step hNext
    exact .act hCaller hActs
  | publishExternally account version =>
    obtain ⟨hNewer, hEq⟩ := Option.ite_none_right_eq_some.mp hNext
    refine Option.some.inj hEq ▸ .publishExternally fun new hNew => ?_
    rw [Option.mem_def.mp hNew] at hNewer
    exact of_decide_eq_true hNewer
  | scan => exact Option.some.inj hNext ▸ .scan
  | pruneGates index =>
    obtain ⟨scan, hScan, rfl⟩ := prune_cases hNext
    exact .pruneGates hScan
  | pruneRejections index =>
    obtain ⟨scan, hScan, rfl⟩ := prune_cases hNext
    exact .pruneRejections hScan
  | pruneAttempts index =>
    obtain ⟨scan, hScan, rfl⟩ := prune_cases hNext
    exact .pruneAttempts hScan

namespace Acts

section

variable (h : Acts material state index caller action base changed)
include h

theorem callers_eq : base.callers = state.callers := by
  cases h <;> rfl

theorem account_eq : changed.account = caller.account := by
  cases h <;> rfl

theorem observed_eq : changed.observed = caller.observed := by
  cases h <;> rfl

end

end Acts

/-- The gate in whose line a caller is. -/
def place (callers : List RefreshCaller) (index : Nat) : Option Nat :=
  callers[index]?.bind fun caller => if caller.phase.inLine then some caller.gate else none

def Holder (callers : List RefreshCaller) (index : Nat) : Prop :=
  ∃ caller, callers[index]? = some caller ∧ caller.phase.holds = true

section Callers

variable {callers : List RefreshCaller} {lines : Nat → List Nat} {other : Nat}

theorem place_of_inLine (hCaller : callers[index]? = some caller)
    (hIn : caller.phase.inLine = true) : place callers index = some caller.gate := by
  rw [place, hCaller, Option.bind_some, if_pos hIn]

theorem place_of_not_inLine (hCaller : callers[index]? = some caller)
    (hOut : caller.phase.inLine = false) : place callers index = none := by
  rw [place, hCaller, Option.bind_some, hOut]
  rfl

theorem exists_of_place (h : place callers index = some gate) :
    ∃ caller, callers[index]? = some caller ∧ caller.phase.inLine = true ∧ caller.gate = gate := by
  obtain ⟨caller, hCaller, hPlace⟩ := Option.bind_eq_some_iff.mp h
  obtain ⟨hIn, hGate⟩ := Option.ite_none_right_eq_some.mp hPlace
  exact ⟨caller, hCaller, hIn, Option.some.inj hGate⟩

theorem place_set (hCaller : callers[index]? = some caller) : place (callers.set index changed) =
      update (place callers) index (if changed.phase.inLine then some changed.gate else none) := by
  funext other
  unfold place
  by_cases hOther : other = index
  · subst hOther
    rw [update_self, List.getElem?_set_self (List.getElem?_eq_some_iff.mp hCaller).1]
    rfl
  · rw [update_of_ne hOther, List.getElem?_set_ne (Ne.symm hOther)]

theorem place_set_of_same (hCaller : callers[index]? = some caller)
    (hIn : changed.phase.inLine = caller.phase.inLine)
    (hGate : caller.phase.inLine = true → changed.gate = caller.gate) :
    place (callers.set index changed) = place callers := by
  rw [place_set hCaller, hIn]
  refine update_eq_self_iff.mpr ?_
  rw [place, hCaller, Option.bind_some]
  exact if_ctx_congr Iff.rfl (fun hLine => by rw [hGate hLine]) fun _ => rfl

theorem holder_set (h : Holder (callers.set index changed) other) :
    Holder callers other ∧ other ≠ index ∨ other = index ∧ changed.phase.holds = true := by
  obtain ⟨found, hFound, hHolds⟩ := h
  obtain ⟨hNe, hOld⟩ | ⟨rfl, -, rfl⟩ := getElem?_set_eq_some.mp hFound
  · exact .inl ⟨⟨found, hOld, hHolds⟩, hNe⟩
  · exact .inr ⟨rfl, hHolds⟩

section

variable (h : Ordered lines (place callers) (Holder callers))
include h

section

variable (hCaller : callers[index]? = some caller)
include hCaller

/-- A caller that stays where it is in its line, or stays out of all lines. -/
theorem ordered_stay (hIn : changed.phase.inLine = caller.phase.inLine)
    (hGate : caller.phase.inLine = true → changed.gate = caller.gate)
    (hHolds : changed.phase.holds = true → caller.phase.holds = true) :
    Ordered lines (place (callers.set index changed)) (Holder (callers.set index changed)) := by
  rw [place_set_of_same hCaller hIn hGate]
  refine h.mono fun other hHolder => ?_
  obtain ⟨hOld, -⟩ | ⟨rfl, hNew⟩ := holder_set hHolder
  · exact hOld
  · exact ⟨caller, hCaller, hHolds hNew⟩

theorem ordered_join (hOut : caller.phase.inLine = false)
    (hIn : changed.phase.inLine = true) (hGate : changed.gate = caller.gate)
    (hHolds : changed.phase.holds = true → lines caller.gate = []) :
    Ordered (update lines caller.gate (lines caller.gate ++ [index]))
      (place (callers.set index changed)) (Holder (callers.set index changed)) := by
  rw [place_set hCaller, if_pos hIn, hGate]
  refine h.join (place_of_not_inLine hCaller hOut) fun other hOther => ?_
  obtain ⟨hOld, -⟩ | ⟨hEq, hNew⟩ := holder_set hOther
  · exact .inl hOld
  · exact .inr ⟨hEq, hHolds hNew⟩

theorem ordered_depart (hIn : caller.phase.inLine = true) (hOut : changed.phase.inLine = false) :
    Ordered (update lines caller.gate ((lines caller.gate).erase index))
      (place (callers.set index changed)) (Holder (callers.set index changed)) := by
  rw [place_set hCaller, hOut]
  refine h.depart (place_of_inLine hCaller hIn) fun other hOther => ?_
  obtain hOld | ⟨-, hNew⟩ := holder_set hOther
  · exact hOld
  · rw [RefreshPhase.holds, hOut] at hNew
    exact absurd hNew Bool.false_ne_true

theorem ordered_grant (hIn : changed.phase.inLine = caller.phase.inLine)
    (hGate : caller.phase.inLine = true → changed.gate = caller.gate)
    (hHead : (lines caller.gate).head? = some index) :
    Ordered lines (place (callers.set index changed)) (Holder (callers.set index changed)) := by
  rw [place_set_of_same hCaller hIn hGate]
  refine h.grant hHead fun other hOther => ?_
  obtain ⟨hOld, -⟩ | ⟨hEq, -⟩ := holder_set hOther
  · exact .inl hOld
  · exact .inr hEq

end

end

end Callers

theorem Acts.ordered (h : Acts material state index caller action base changed)
    (hCaller : state.callers[index]? = some caller)
    (hOrdered : Ordered state.lines (place state.callers) (Holder state.callers)) :
    Ordered base.lines (place (base.callers.set index changed))
      (Holder (base.callers.set index changed)) := by
  rw [h.callers_eq]
  cases h
  case lockFree hEmpty hPhase =>
    exact ordered_join hOrdered hCaller (by rw [hPhase]; rfl) rfl rfl fun _ => hEmpty
  case lock hPhase =>
    exact ordered_join hOrdered hCaller (by rw [hPhase]; rfl) rfl rfl
      fun hHolds => absurd hHolds Bool.false_ne_true
  case wake hHead hPhase =>
    exact ordered_grant hOrdered hCaller (by rw [hPhase]; rfl) (fun _ => rfl) hHead
  case leave hPhase =>
    exact ordered_depart hOrdered hCaller (by rw [hPhase]; rfl) rfl
  case dropGate records hPhase =>
    exact ordered_depart hOrdered hCaller (by rw [hPhase]; rfl) (by cases records <;> rfl)
  case cancelInLine hPhase =>
    refine ordered_depart hOrdered hCaller ?_ rfl
    rcases hPhase with hPhase | hPhase | hPhase <;> rw [hPhase] <;> rfl
  case reuseGate hPhase | newGate hPhase =>
    refine ordered_stay hOrdered hCaller (by rw [hPhase]; rfl) (fun hLine => ?_)
      (by rw [hPhase]; exact id)
    rw [hPhase] at hLine
    exact absurd hLine Bool.false_ne_true
  all_goals
    rename_i hPhase
    exact ordered_stay hOrdered hCaller (by rw [hPhase]; rfl) (fun _ => rfl)
      (by rw [hPhase]; exact id)

theorem Acts.sound (h : Acts material state index caller action base changed)
    (hSound : caller.Sound material) : changed.Sound material := by
  unfold RefreshCaller.Sound at hSound ⊢
  cases h
  case readFailures hPhase =>
    rw [hPhase] at hSound
    exact ⟨hSound.1, hSound.2, rfl⟩
  case wake hHead hPhase =>
    rw [hPhase] at hSound
    exact ⟨hSound.1, hSound.2.1⟩
  case readObserved hRead hPhase =>
    rw [hPhase] at hSound
    exact ⟨rfl, hSound.2⟩
  case readOther hRead hPhase =>
    rw [hPhase] at hSound
    exact fun hAttempted => absurd (hSound.2.symm.trans hAttempted) Bool.false_ne_true
  case attempt due hMay hPhase =>
    rw [hPhase] at hSound
    exact ⟨hSound.1, rfl, of_decide_eq_true (Bool.and_eq_true_iff.mp hMay).2⟩
  case dropGate records hPhase =>
    rw [hPhase] at hSound
    cases records <;> exact fun _ => hSound.1
  case cancelInLine hPhase =>
    rcases hPhase with hPhase | hPhase | hPhase <;> rw [hPhase] at hSound
    · exact fun hAttempted => absurd (hSound.2.1.symm.trans hAttempted) Bool.false_ne_true
    · exact fun _ => hSound.1
    · exact fun _ => hSound.1
  all_goals
    rename_i hPhase
    rw [hPhase] at hSound
    first
    | exact hSound
    | exact fun _ => hSound.1

/-- The handles in the table are those of the callers that have one. -/
structure Gated (callers : List RefreshCaller) (gates : Nat → Option Nat) (nextGate : Nat) :
    Prop where
  gate : ∀ {index : Nat} {caller : RefreshCaller}, callers[index]? = some caller →
    caller.phase.live = true → gates caller.account = some caller.gate
  distinct : ∀ {account other gate}, gates account = some gate → gates other = some gate →
    account = other
  fresh : ∀ {account gate}, gates account = some gate → gate < nextGate

section Gates

variable {callers : List RefreshCaller} {gates : Nat → Option Nat} {nextGate account : Nat}

theorem Gated.set (h : Gated callers gates nextGate)
    (hLive : changed.phase.live = true → gates changed.account = some changed.gate) :
    Gated (callers.set index changed) gates nextGate where
  gate := fun hFound hPhase => by
    obtain ⟨-, hOld⟩ | ⟨-, -, rfl⟩ := getElem?_set_eq_some.mp hFound
    · exact h.gate hOld hPhase
    · exact hLive hPhase
  distinct := h.distinct
  fresh := h.fresh

theorem strong_of_live (hCaller : callers[index]? = some caller)
    (hLive : caller.phase.live = true) (hGate : caller.gate = gate) :
    strong callers gate = true := by
  refine List.any_eq_true.mpr ⟨caller, List.mem_of_getElem? hCaller, ?_⟩
  rw [hLive, hGate, decide_eq_true rfl]
  rfl

theorem gates_of_upgrade (h : state.upgrade account = some gate) :
    state.gates account = some gate :=
  (Option.filter_eq_some_iff.mp h).1

theorem not_live_of_upgrade (h : Gated state.callers state.gates state.nextGate)
    (hUpgrade : state.upgrade account = none) (hCaller : state.callers[index]? = some caller)
    (hLive : caller.phase.live = true) : caller.account ≠ account := by
  rintro rfl
  rw [upgrade, h.gate hCaller hLive, Option.filter_some,
    if_pos (strong_of_live hCaller hLive rfl)] at hUpgrade
  exact Option.some_ne_none _ hUpgrade

/-- No caller has a handle of the account, so a new gate separates nobody. -/
theorem Gated.newGate (h : Gated state.callers state.gates state.nextGate)
    (hUpgrade : state.upgrade caller.account = none) :
    Gated (state.callers.set index { caller with phase := .gated, gate := state.nextGate })
      (update state.gates caller.account (some state.nextGate)) (state.nextGate + 1) where
  gate := fun {_ found} hFound hLive => by
    obtain ⟨-, hOld⟩ | ⟨-, -, rfl⟩ := getElem?_set_eq_some.mp hFound
    · rw [update_of_ne (not_live_of_upgrade h hUpgrade hOld hLive)]
      exact h.gate hOld hLive
    · exact update_self ..
  distinct := fun {account other gate} hAccount hOther => by
    have hNew : ∀ {account : Nat}, state.gates account ≠ some state.nextGate := fun hEq =>
      Nat.lt_irrefl _ (h.fresh hEq)
    by_cases hA : account = caller.account <;> by_cases hB : other = caller.account
    · rw [hA, hB]
    · rw [hA, update_self] at hAccount
      rw [update_of_ne hB, ← hAccount] at hOther
      exact absurd hOther hNew
    · rw [hB, update_self] at hOther
      rw [update_of_ne hA, ← hOther] at hAccount
      exact absurd hAccount hNew
    · rw [update_of_ne hA] at hAccount
      rw [update_of_ne hB] at hOther
      exact h.distinct hAccount hOther
  fresh := fun {account gate} hAccount => by
    by_cases hA : account = caller.account
    · rw [hA, update_self] at hAccount
      exact Option.some.inj hAccount ▸ Nat.lt_succ_self _
    · rw [update_of_ne hA] at hAccount
      exact Nat.lt_succ_of_lt (h.fresh hAccount)

theorem Acts.gated (h : Acts material state index caller action base changed)
    (hCaller : state.callers[index]? = some caller)
    (hGated : Gated state.callers state.gates state.nextGate) :
    Gated (base.callers.set index changed) base.gates base.nextGate := by
  have hOld : caller.phase.live = true → state.gates caller.account = some caller.gate :=
    hGated.gate hCaller
  rw [h.callers_eq]
  cases h
  case reuseGate gate hUpgrade hPhase => exact hGated.set fun _ => gates_of_upgrade hUpgrade
  case newGate hUpgrade hPhase => exact hGated.newGate hUpgrade
  case dropGate records hPhase =>
    refine hGated.set fun hLive => ?_
    cases records <;> exact absurd hLive Bool.false_ne_true
  all_goals
    rename_i hPhase
    refine hGated.set fun hLive => ?_
    first
    | exact absurd hLive Bool.false_ne_true
    | exact hOld (by rw [hPhase]; rfl)

end Gates

/-- What every run keeps. -/
structure Valid (material : Nat → Nat → TokenMaterial) (state : RefreshState) : Prop where
  ordered : Ordered state.lines (place state.callers) (Holder state.callers)
  gated : Gated state.callers state.gates state.nextGate
  versions : ∀ {account version}, state.published account = some version →
    state.latest account = version
  sound : ∀ {index : Nat} {caller : RefreshCaller}, state.callers[index]? = some caller →
    caller.Sound material
  observed : ∀ {index : Nat} {caller : RefreshCaller}, state.callers[index]? = some caller →
    caller.observed ≤ state.latest caller.account
  unrejected : ∀ {index : Nat} {caller : RefreshCaller}, state.callers[index]? = some caller →
    caller.phase.unrejected = true →
    state.permanentRejections caller.account ≠ some caller.observed

namespace Valid

theorem gate_of_holds (h : Valid material state) (hCaller : state.callers[index]? = some caller)
    (hHolds : caller.phase.holds = true) : state.gates caller.account = some caller.gate :=
  h.gated.gate hCaller (RefreshPhase.live_of_inLine (RefreshPhase.inLine_of_holds hHolds))

/-- One caller at a time holds the gate of an account. -/
theorem exclusive (h : Valid material state) {other : Nat} {another : RefreshCaller}
    (hCaller : state.callers[index]? = some caller)
    (hAnother : state.callers[other]? = some another) (hHolds : caller.phase.holds = true)
    (hHolds' : another.phase.holds = true) (hAccount : another.account = caller.account) :
    index = other := by
  have hGate := h.gate_of_holds hAnother hHolds'
  rw [hAccount, h.gate_of_holds hCaller hHolds, Option.some.injEq] at hGate
  refine h.ordered.exclusive ⟨caller, hCaller, hHolds⟩ ⟨another, hAnother, hHolds'⟩ ?_
  rw [place_of_inLine hCaller (RefreshPhase.inLine_of_holds hHolds),
    place_of_inLine hAnother (RefreshPhase.inLine_of_holds hHolds'), hGate]

/-- Those in line behind the holder of a gate are queued for the same account. -/
theorem queued_behind (h : Valid material state) {waiter : Nat}
    (hCaller : state.callers[index]? = some caller) (hHolds : caller.phase.holds = true)
    (hWaiter : waiter ∈ state.lines caller.gate) (hNe : waiter ≠ index) :
    ∃ waiting, state.callers[waiter]? = some waiting ∧ waiting.phase = .queued ∧
      waiting.account = caller.account := by
  obtain ⟨waiting, hWaiting, hIn, hGate⟩ := exists_of_place (h.ordered.member.mp hWaiter)
  have hAccount : waiting.account = caller.account := by
    refine h.gated.distinct (h.gated.gate hWaiting (RefreshPhase.live_of_inLine hIn)) ?_
    rw [hGate]
    exact h.gate_of_holds hCaller hHolds
  refine ⟨waiting, hWaiting, ?_, hAccount⟩
  by_contra hPhase
  have hHolds' : waiting.phase.holds = true := by
    rw [RefreshPhase.holds, hIn, decide_eq_true hPhase]
    rfl
  exact hNe (h.exclusive hCaller hWaiting hHolds hHolds' hAccount).symm

end Valid

theorem initial_valid (material : Nat → Nat → TokenMaterial) : Valid material initial where
  ordered :=
    { member := iff_of_false List.not_mem_nil fun h => nomatch h
      nodup := fun _ => List.nodup_nil
      head := fun ⟨_, hCaller, _⟩ => nomatch hCaller }
  gated := ⟨fun h => (nomatch h), fun h => (nomatch h), fun h => (nomatch h)⟩
  versions := fun h => nomatch h
  sound := fun h => nomatch h
  observed := fun h => nomatch h
  unrejected := fun h => nomatch h

section Versions

variable {account : Nat} {version : Option Nat} {other : Nat}

@[simp]
theorem published_setPublished_self :
    (state.setPublished account version).published account = version :=
  update_self ..

theorem published_setPublished_of_ne (h : other ≠ account) :
    (state.setPublished account version).published other = state.published other :=
  update_of_ne h ..

@[simp]
theorem latest_setPublished_self :
    (state.setPublished account version).latest account = version.getD (state.latest account) :=
  update_self ..

theorem latest_setPublished_of_ne (h : other ≠ account) :
    (state.setPublished account version).latest other = state.latest other :=
  update_of_ne h ..

theorem versions_setPublished (h : ∀ {account version}, state.published account = some version →
      state.latest account = version) {published : Nat}
    (hPublished : (state.setPublished account version).published other = some published) :
    (state.setPublished account version).latest other = published := by
  by_cases hOther : other = account
  · subst hOther
    rw [published_setPublished_self] at hPublished
    rw [latest_setPublished_self, hPublished, Option.getD_some]
  · rw [published_setPublished_of_ne hOther] at hPublished
    rw [latest_setPublished_of_ne hOther]
    exact h hPublished

theorem latest_le_setPublished (hNewer : ∀ new ∈ version, state.latest account < new)
    (other : Nat) : state.latest other ≤ (state.setPublished account version).latest other := by
  by_cases hOther : other = account
  · subst hOther
    rw [latest_setPublished_self]
    cases version with
    | none => exact le_rfl
    | some new => exact (hNewer new rfl).le
  · rw [latest_setPublished_of_ne hOther]

end Versions

namespace Acts

section

variable (h : Acts material state index caller action base changed)
include h

theorem versions
    (hVersions : ∀ {account version}, state.published account = some version →
      state.latest account = version) {account version : Nat}
    (hPublished : base.published account = some version) : base.latest account = version := by
  cases h
  case publishRefresh => exact versions_setPublished hVersions hPublished
  all_goals exact hVersions hPublished

theorem latest_le
    (hVersions : ∀ {account version}, state.published account = some version →
      state.latest account = version) (account : Nat) :
    state.latest account ≤ base.latest account := by
  cases h
  case publishRefresh hPublished _ =>
    refine latest_le_setPublished (fun new hNew => ?_) account
    rw [hVersions hPublished, ← Option.some.inj hNew]
    exact Nat.lt_succ_self _
  all_goals exact le_rfl

theorem permanentRejections (account : Nat) :
    base.permanentRejections account = state.permanentRejections account ∨
      base.permanentRejections account = none ∨
      account = caller.account ∧ caller.phase = .requesting := by
  have hUpdate (value : Option Nat) : account = caller.account ∨
      update state.permanentRejections caller.account value account =
        state.permanentRejections account := by
    by_cases hAccount : account = caller.account
    · exact .inl hAccount
    · exact .inr (update_of_ne hAccount ..)
  cases h
  case reject hPhase =>
    exact (hUpdate _).elim (fun hAccount => .inr (.inr ⟨hAccount, hPhase⟩)) .inl
  case findNoRejection | forgetRejection =>
    refine (hUpdate none).elim (fun hAccount => .inr (.inl ?_)) .inl
    rw [hAccount]
    exact update_self ..
  all_goals exact .inl rfl

/-- A caller that has found no rejection keeps that until it records one itself. -/
theorem unrejected
    (hOld : caller.phase.unrejected = true →
      state.permanentRejections caller.account ≠ some caller.observed)
    (hNew : changed.phase.unrejected = true) :
    base.permanentRejections changed.account ≠ some changed.observed := by
  cases h
  case findNoRejection hRejection hPhase =>
    change update _ _ _ _ ≠ _
    rw [update_self]
    exact (Option.some_ne_none _).symm
  case dropGate records _ => cases records <;> exact absurd hNew Bool.false_ne_true
  all_goals
    rename_i hPhase
    first
    | exact absurd hNew Bool.false_ne_true
    | exact hOld (by rw [hPhase]; rfl)

end

end Acts

/-- A caller acts only on what it has read under its gate. -/
theorem Valid.act (h : Valid material state) (hCaller : state.callers[index]? = some caller)
    (hActs : Acts material state index caller action base changed) :
    Valid material (base.setCaller index changed) where
  ordered := hActs.ordered hCaller h.ordered
  gated := hActs.gated hCaller h.gated
  versions := hActs.versions h.versions
  sound := fun hFound => by
    obtain ⟨-, hOld⟩ | ⟨-, -, rfl⟩ := getElem?_set_eq_some.mp hFound
    · exact h.sound (hActs.callers_eq ▸ hOld)
    · exact hActs.sound (h.sound hCaller)
  observed := fun {_ found} hFound => by
    obtain ⟨-, hOld⟩ | ⟨-, -, rfl⟩ := getElem?_set_eq_some.mp hFound
    · exact (h.observed (hActs.callers_eq ▸ hOld)).trans (hActs.latest_le h.versions _)
    · rw [hActs.observed_eq, hActs.account_eq]
      exact (h.observed hCaller).trans (hActs.latest_le h.versions _)
  unrejected := fun {other found} hFound hPhase => by
    obtain ⟨hNe, hOld⟩ | ⟨-, -, rfl⟩ := getElem?_set_eq_some.mp hFound
    · rw [hActs.callers_eq] at hOld
      obtain hSame | hNone | ⟨hAccount, hRequesting⟩ := hActs.permanentRejections found.account
      · exact hSame ▸ h.unrejected hOld hPhase
      · exact hNone ▸ (Option.some_ne_none _).symm
      · -- Another caller that holds the gate of the account cannot be there.
        refine absurd (h.exclusive hOld hCaller (RefreshPhase.holds_of_unrejected hPhase) ?_
          hAccount.symm) hNe
        rw [hRequesting]
        rfl
    · exact hActs.unrejected (h.unrejected hCaller) hPhase

theorem Gated.prune (h : Gated state.callers state.gates state.nextGate)
    (active : Nat → Option Nat) :
    Gated state.callers (state.pruneGates active).gates state.nextGate where
  gate := fun hCaller hLive => by
    refine Option.filter_eq_some_iff.mpr ⟨h.gate hCaller hLive, ?_⟩
    rw [strong_of_live hCaller hLive rfl, Bool.or_true]
  distinct := fun hAccount hOther =>
    h.distinct (Option.filter_eq_some_iff.mp hAccount).1 (Option.filter_eq_some_iff.mp hOther).1
  fresh := fun hAccount => h.fresh (Option.filter_eq_some_iff.mp hAccount).1

theorem place_concat {callers : List RefreshCaller} (hOut : caller.phase.inLine = false) :
    place (callers ++ [caller]) = place callers := by
  funext index
  refine Option.ext fun gate => ?_
  unfold place
  rw [Option.bind_eq_some_iff, Option.bind_eq_some_iff]
  refine exists_congr fun found => ?_
  rw [getElem?_concat_eq_some]
  refine ⟨?_, fun ⟨hFound, hGate⟩ => ⟨.inl hFound, hGate⟩⟩
  rintro ⟨hFound | ⟨-, rfl⟩, hGate⟩
  · exact ⟨hFound, hGate⟩
  · rw [hOut] at hGate
    exact nomatch hGate

theorem Valid.arrive (h : Valid material state) {account observed : Nat}
    (trigger : OAuthRefreshTrigger) (hObserved : observed ≤ state.latest account) :
    Valid material { state with
      callers := state.callers ++
        [⟨account, observed, trigger, .entering, 0, none, none, false⟩] } where
  ordered := by
    rw [place_concat rfl]
    refine h.ordered.mono fun _ ⟨found, hFound, hHolds⟩ => ?_
    obtain hOld | ⟨-, rfl⟩ := getElem?_concat_eq_some.mp hFound
    · exact ⟨found, hOld, hHolds⟩
    · exact absurd hHolds Bool.false_ne_true
  gated :=
    { gate := fun hFound hLive => by
        obtain hOld | ⟨-, rfl⟩ := getElem?_concat_eq_some.mp hFound
        · exact h.gated.gate hOld hLive
        · exact absurd hLive Bool.false_ne_true
      distinct := h.gated.distinct
      fresh := h.gated.fresh }
  versions := h.versions
  sound := fun hFound => by
    obtain hOld | ⟨-, rfl⟩ := getElem?_concat_eq_some.mp hFound
    · exact h.sound hOld
    · exact ⟨rfl, rfl⟩
  observed := fun hFound => by
    obtain hOld | ⟨-, rfl⟩ := getElem?_concat_eq_some.mp hFound
    · exact h.observed hOld
    · exact hObserved
  unrejected := fun hFound hPhase => by
    obtain hOld | ⟨-, rfl⟩ := getElem?_concat_eq_some.mp hFound
    · exact h.unrejected hOld hPhase
    · exact absurd hPhase Bool.false_ne_true

theorem Valid.step (h : Valid material state)
    (hNext : step material state label = some next) : Valid material next := by
  cases steps_of_step hNext
  case arrive hObserved => exact h.arrive _ hObserved
  case act hCaller hActs => exact h.act hCaller hActs
  case publishExternally hNewer =>
    exact { h with
      versions := versions_setPublished h.versions
      observed := fun hCaller => (h.observed hCaller).trans (latest_le_setPublished hNewer _) }
  case pruneGates scan _ => exact { h with gated := h.gated.prune scan.active }
  case pruneRejections =>
    exact { h with
      unrejected := fun hCaller hPhase hRejection =>
        h.unrejected hCaller hPhase (Option.filter_eq_some_iff.mp hRejection).1 }
  all_goals exact { h with }

/-- The invariant of every run. -/
theorem valid_of_run {labels : List RefreshLabel}
    (hRun : run (step material) labels initial = some state) : Valid material state :=
  invariant_of_run (fun _ _ _ h => h.step) (initial_valid material) hRun

/-- A caller of the state before a step is still there, and only its own action changes it. -/
theorem caller_of_step (hNext : step material state label = some next)
    (hCaller : state.callers[index]? = some caller) :
    ∃ found, next.callers[index]? = some found ∧ (found = caller ∨ ∃ action base,
      label = .act index action ∧ Acts material state index caller action base found ∧
        base.setCaller index found = next) := by
  cases steps_of_step hNext
  case arrive => exact ⟨caller, getElem?_concat_eq_some.mpr (.inl hCaller), .inl rfl⟩
  case act actor acting changed action base hActing hActs =>
    rw [← hActs.callers_eq] at hCaller
    by_cases hActor : index = actor
    · subst hActor
      cases hActing.symm.trans (hActs.callers_eq ▸ hCaller)
      refine ⟨changed, ?_, .inr ⟨action, base, rfl, hActs, rfl⟩⟩
      exact List.getElem?_set_self (List.getElem?_eq_some_iff.mp hCaller).1
    · exact ⟨caller, getElem?_set_eq_some.mpr (.inl ⟨hActor, hCaller⟩), .inl rfl⟩
  all_goals exact ⟨caller, hCaller, .inl rfl⟩

/-- A caller of the state after a step was there before it or has just arrived. -/
theorem caller_before_step (hNext : step material state label = some next)
    (hCaller : next.callers[index]? = some caller) :
    state.callers[index]? = some caller ∨ caller.phase = .entering ∨
      ∃ before action base, state.callers[index]? = some before ∧ label = .act index action ∧
        Acts material state index before action base caller := by
  cases steps_of_step hNext
  case arrive =>
    obtain hOld | ⟨-, rfl⟩ := getElem?_concat_eq_some.mp hCaller
    · exact .inl hOld
    · exact .inr (.inl rfl)
  case act acting changed action base hActing hActs =>
    obtain ⟨-, hOld⟩ | ⟨rfl, -, rfl⟩ := getElem?_set_eq_some.mp hCaller
    · exact .inl (hActs.callers_eq ▸ hOld)
    · exact .inr (.inr ⟨acting, action, base, hActing, rfl, hActs⟩)
  all_goals exact .inl hCaller

/-- What a step can do to the highest version of an account. -/
theorem latest_le_step (h : Valid material state)
    (hNext : step material state label = some next) (account : Nat) :
    state.latest account ≤ next.latest account := by
  cases steps_of_step hNext
  case act hActing hActs => exact hActs.latest_le h.versions account
  case publishExternally hNewer => exact latest_le_setPublished hNewer account
  all_goals exact le_rfl

theorem Acts.attempted (h : Acts material state index caller action base changed)
    (hAttempted : changed.attempted = true) :
    caller.attempted = true ∨
      caller.phase = .cleared ∧ changed.phase = .requesting ∧ base = state := by
  cases h
  case attempt hMay hPhase => exact .inr ⟨hPhase, rfl, rfl⟩
  all_goals exact .inl hAttempted

/-- Only a caller that finds the observed version published goes on to attempt. -/
theorem Acts.idle (h : Acts material state index caller action base changed)
    (hIdle : caller.phase.idle = true) :
    changed.phase.idle = true ∨ state.published caller.account = some caller.observed := by
  cases h
  case readObserved hRead hPhase => exact .inr hRead
  all_goals
    rename_i hPhase
    first
    | exact .inl rfl
    | rw [hPhase] at hIdle
      exact absurd hIdle Bool.false_ne_true

/-- A caller of an old version that has not read the snapshot yet, or has left without an
attempt. -/
def Outdated (index : Nat) (state : RefreshState) : Prop :=
  ∃ caller, state.callers[index]? = some caller ∧ caller.attempted = false ∧
    caller.observed < state.latest caller.account ∧ caller.phase.idle = true

theorem Outdated.step (h : Outdated index state) (hValid : Valid material state)
    (hNext : step material state label = some next) :
    Outdated index next := by
  obtain ⟨caller, hCaller, hAttempted, hOld, hIdle⟩ := h
  obtain ⟨found, hFound, rfl | ⟨action, base, rfl, hActs, rfl⟩⟩ := caller_of_step hNext hCaller
  · exact ⟨found, hFound, hAttempted, hOld.trans_le (latest_le_step hValid hNext _), hIdle⟩
  refine ⟨found, hFound, ?_, ?_, ?_⟩
  · refine Bool.eq_false_of_not_eq_true fun hNew => ?_
    obtain hBefore | ⟨hCleared, -⟩ := hActs.attempted hNew
    · exact Bool.false_ne_true (hAttempted.symm.trans hBefore)
    · rw [hCleared] at hIdle
      exact Bool.false_ne_true hIdle
  · rw [hActs.account_eq, hActs.observed_eq]
    exact hOld.trans_le (hActs.latest_le hValid.versions caller.account)
  · obtain hIdle | hPublished := hActs.idle hIdle
    · exact hIdle
    · exact absurd (hValid.versions hPublished) hOld.ne'

/-- Those who queue behind a refresh when it is published make no attempt. -/
theorem outdated_of_publish (h : Valid material state) {waiter : Nat}
    (hCaller : state.callers[index]? = some caller)
    (hPublished : state.published caller.account = some caller.observed)
    (hWaiter : waiter ∈ state.lines caller.gate) (hNe : waiter ≠ index)
    (hNext : step material state (.act index (.publish true)) = some next) :
    Outdated waiter next := by
  obtain ⟨acting, base, changed, hActing, hActs, rfl⟩ := acts_of_step hNext
  cases hActing.symm.trans hCaller
  cases hActs with
  | publishNothing hNothing _ => exact absurd hPublished (hNothing rfl)
  | publishRefresh _ hPhase =>
    obtain ⟨waiting, hWaiting, hQueued, hAccount⟩ :=
      h.queued_behind hCaller (by rw [hPhase]; rfl) hWaiter hNe
    refine ⟨waiting, getElem?_set_eq_some.mpr (.inl ⟨hNe, hWaiting⟩), ?_, ?_, ?_⟩
    · have hSound := h.sound hWaiting
      rw [RefreshCaller.Sound, hQueued] at hSound
      exact hSound.2.1
    · have hObserved := h.observed hWaiting
      rw [hAccount] at hObserved ⊢
      rw [h.versions hPublished] at hObserved
      change _ < (state.setPublished _ _).latest _
      rw [latest_setPublished_self]
      exact Nat.lt_succ_of_le hObserved
    · rw [hQueued]
      rfl

end RefreshState

end Any2Api.Runtime.OAuth
