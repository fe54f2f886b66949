import Mathlib.Logic.Basic

/-! Loops as an explicit turn function: a turn either yields the next state or
leaves the loop with a result. Runs carry fuel so that they compute; the rule
below turns a decreasing measure into enough fuel. -/
namespace Loop

variable {σ ρ : Type*} {turn : σ → σ ⊕ ρ}

/-- Run turns until one leaves the loop or the fuel is spent. -/
def run (turn : σ → σ ⊕ ρ) : Nat → σ → Option ρ
  | 0, _ => none
  | fuel + 1, state =>
    match turn state with
    | .inl next => run turn fuel next
    | .inr result => some result

theorem run_inl {state next : σ} (h : turn state = .inl next) (fuel : Nat) :
    run turn (fuel + 1) state = run turn fuel next := by
  simp [run, h]

theorem run_inr {state : σ} {result : ρ} (h : turn state = .inr result)
    (fuel : Nat) : run turn (fuel + 1) state = some result := by
  simp [run, h]

/-- Total correctness of a loop. Every turn keeps the invariant, lowers the
measure and hands the postcondition of the next state back to this one. -/
theorem run_total (measure : σ → Nat) (invariant : σ → Prop) (post : σ → ρ → Prop)
    (hTurn : ∀ state next, invariant state → turn state = .inl next →
      invariant next ∧ measure next < measure state ∧
        ∀ result, post next result → post state result)
    (hExit : ∀ state result, invariant state → turn state = .inr result → post state result)
    (fuel : Nat) (state : σ) (hState : invariant state) (hFuel : measure state < fuel) :
    ∃ result, run turn fuel state = some result ∧ post state result := by
  induction fuel generalizing state with
  | zero => omega
  | succ fuel ih =>
    cases h : turn state with
    | inl next =>
      obtain ⟨hNext, hLess, hBack⟩ := hTurn state next hState h
      obtain ⟨result, hRun, hPost⟩ := ih next hNext (by omega)
      exact ⟨result, (run_inl h fuel).trans hRun, hBack result hPost⟩
    | inr result => exact ⟨result, run_inr h fuel, hExit state result hState h⟩

/-- Partial correctness: an invariant of the turns holds up to the exit. -/
theorem run_invariant {invariant : σ → Prop} {post : ρ → Prop}
    (hTurn : ∀ state next, invariant state → turn state = .inl next → invariant next)
    (hExit : ∀ state result, invariant state → turn state = .inr result → post result)
    {fuel : Nat} {state : σ} {result : ρ} (hState : invariant state)
    (hRun : run turn fuel state = some result) : post result := by
  induction fuel generalizing state with
  | zero => cases hRun
  | succ fuel ih =>
    cases h : turn state with
    | inl next => exact ih (hTurn state next hState h) ((run_inl h fuel).symm.trans hRun)
    | inr found =>
      cases (run_inr h fuel).symm.trans hRun
      exact hExit state result hState h

end Loop
