import Mathlib.Data.Option.Basic

/-! Runs of a system whose steps are chosen by labels. A label that is not
possible in a state ends the run without a result, so a result belongs to a run
of possible steps. -/
namespace Runs

variable {σ ℓ : Type*} (step : σ → ℓ → Option σ)

def run (labels : List ℓ) (state : σ) : Option σ := labels.foldlM step state

/-- Every step of the run meets the condition in the state it is taken from. -/
def Along (condition : σ → ℓ → Prop) : List ℓ → σ → Prop
  | [], _ => True
  | label :: labels, state =>
    condition state label ∧ ∀ next, step state label = some next → Along condition labels next

variable {step} {labels more : List ℓ} {label : ℓ} {state middle final : σ} {invariant : σ → Prop}
  {condition other : σ → ℓ → Prop}

instance decidableAlong {condition : σ → ℓ → Prop}
    [∀ state label, Decidable (condition state label)] :
    (labels : List ℓ) → (state : σ) → Decidable (Along step condition labels state)
  | [], _ => isTrue trivial
  | label :: labels, state =>
    match h : step state label with
    | none => decidable_of_iff (condition state label) (by simp [Along, h])
    | some next =>
      have : Decidable (Along step condition labels next) := decidableAlong labels next
      decidable_of_iff (condition state label ∧ Along step condition labels next)
        (by simp [Along, h])

theorem run_cons_iff :
    run step (label :: labels) state = some final ↔
      ∃ next, step state label = some next ∧ run step labels next = some final :=
  Option.bind_eq_some_iff

theorem run_append_iff :
    run step (labels ++ more) state = some final ↔
      ∃ middle, run step labels state = some middle ∧ run step more middle = some final := by
  rw [run, List.foldlM_append]
  exact Option.bind_eq_some_iff

theorem Along.cons (h : condition state label) (hStep : step state label = some middle)
    (hAlong : Along step condition labels middle) : Along step condition (label :: labels) state :=
  ⟨h, fun _ hOther => Option.some.inj (hStep.symm.trans hOther) ▸ hAlong⟩

/-- What a step keeps under a condition holds after a run along which the
condition is met. -/
theorem invariant_of_along {condition : σ → ℓ → Prop}
    (hStep : ∀ state label next, invariant state → condition state label →
      step state label = some next → invariant next)
    (h : invariant state) (hAlong : Along step condition labels state)
    (hRun : run step labels state = some final) : invariant final := by
  induction labels generalizing state with
  | nil => exact Option.some.inj hRun ▸ h
  | cons label labels ih =>
    obtain ⟨next, hNext, hRest⟩ := run_cons_iff.mp hRun
    exact ih (hStep state label next h hAlong.1 hNext) (hAlong.2 next hNext) hRest

theorem invariant_of_run
    (hStep : ∀ state label next, invariant state → step state label = some next → invariant next)
    (h : invariant state) (hRun : run step labels state = some final) : invariant final := by
  induction labels generalizing state with
  | nil => exact Option.some.inj hRun ▸ h
  | cons label labels ih =>
    obtain ⟨next, hNext, hRest⟩ := run_cons_iff.mp hRun
    exact ih (hStep state label next h hNext) hRest

/-- A condition is met along a run when an invariant gives it that is kept where another
condition is met. -/
theorem along_of_along
    (hCondition : ∀ state label, invariant state → other state label → condition state label)
    (hStep : ∀ state label next, invariant state → other state label →
      step state label = some next → invariant next)
    (h : invariant state) (hOther : Along step other labels state) :
    Along step condition labels state := by
  induction labels generalizing state with
  | nil => trivial
  | cons label labels ih =>
    refine ⟨hCondition state label h hOther.1, fun next hNext => ?_⟩
    exact ih (hStep state label next h hOther.1 hNext) (hOther.2 next hNext)

/-- Two conditions are met along the same runs when they agree wherever the second
has been met so far. -/
theorem along_iff_along
    (hIff : ∀ state label, invariant state → (condition state label ↔ other state label))
    (hStep : ∀ state label next, invariant state → other state label →
      step state label = some next → invariant next) (h : invariant state) :
    Along step condition labels state ↔ Along step other labels state := by
  induction labels generalizing state with
  | nil => exact Iff.rfl
  | cons label labels ih =>
    refine (and_congr_right fun hCondition => ?_).trans (and_congr_left' (hIff state label h))
    have hOther := (hIff state label h).mp hCondition
    exact forall₂_congr fun next hNext => ih (hStep state label next h hOther hNext)

end Runs
