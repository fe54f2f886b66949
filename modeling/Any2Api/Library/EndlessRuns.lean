import Mathlib
import Any2Api.Library.Runs

/-! Runs that do not end, and how often they take a step of some kind. -/
namespace Runs

variable {σ ℓ : Type*} {step : σ → ℓ → Option σ} {states : Nat → σ} {labels : Nat → ℓ}
  {counted : ℓ → Prop} {ready : σ → Prop} {start final : σ} {path : List ℓ}

def Endless (step : σ → ℓ → Option σ) (states : Nat → σ) (labels : Nat → ℓ) : Prop :=
  ∀ n, step (states n) (labels n) = some (states (n + 1))

theorem Endless.invariant {invariant : σ → Prop} (hEndless : Endless step states labels)
    (hStep : ∀ state label next, invariant state → step state label = some next → invariant next)
    (h : invariant (states 0)) (n : Nat) : invariant (states n) := by
  induction n with
  | zero => exact h
  | succ n ih => exact hStep _ _ _ ih (hEndless n)

/-- A potential that no step raises and that every counted step lowers bounds their number. -/
theorem finite_of_potential (counted : ℓ → Prop) (potential : σ → Nat)
    (hKept : ∀ n, potential (states (n + 1)) ≤ potential (states n))
    (hLowered : ∀ n, counted (labels n) → potential (states (n + 1)) < potential (states n)) :
    {n | counted (labels n)}.Finite := by
  have hAntitone : Antitone fun n => potential (states n) := antitone_nat_of_succ_le hKept
  have hLess : ∀ n later, counted (labels n) → n < later →
      potential (states later) < potential (states n) :=
    fun n later hCounted hLater => (hAntitone hLater).trans_lt (hLowered n hCounted)
  refine Set.Finite.of_injOn (f := fun n => potential (states n))
    (t := Set.Iic (potential (states 0))) (fun n _ => hAntitone (Nat.zero_le n)) ?_
    (Set.finite_Iic _)
  intro n hn m hm hSame
  rcases lt_trichotomy n m with hBefore | hEqual | hAfter
  · exact absurd hSame (hLess n m hn hBefore).ne'
  · exact hEqual
  · exact absurd hSame (hLess m n hm hAfter).ne

/-- A state together with the steps that are planned from it, which lead to a ready state. -/
structure Plan (step : σ → ℓ → Option σ) (ready : σ → Prop) where
  state : σ
  path : List ℓ
  leads : ∃ final, run step path state = some final ∧ ready final

namespace Plan

/-- The first planned step. A ready state gets a new plan, which begins with a counted step. -/
theorem exists_next
    (hRound : ∀ state, ready state → ∃ label path final, counted label ∧
      run step (label :: path) state = some final ∧ ready final)
    (plan : Plan step ready) :
    ∃ (label : ℓ) (next : Plan step ready), step plan.state label = some next.state ∧
      (plan.path = [] ∧ counted label ∨ plan.path = label :: next.path) := by
  obtain ⟨state, path, final, hRun, hReady⟩ := plan
  cases path with
  | nil =>
    cases Option.some.inj hRun
    obtain ⟨label, path, last, hCounted, hLast, hAgain⟩ := hRound state hReady
    obtain ⟨next, hNext, hRest⟩ := run_cons_iff.mp hLast
    exact ⟨label, ⟨next, path, last, hRest, hAgain⟩, hNext, .inl ⟨rfl, hCounted⟩⟩
  | cons label path =>
    obtain ⟨next, hNext, hRest⟩ := run_cons_iff.mp hRun
    exact ⟨label, ⟨next, path, final, hRest, hReady⟩, hNext, .inr rfl⟩

end Plan

/-- Rounds that begin with a counted step and lead from ready states to ready states join to a
run that takes infinitely many of these steps. -/
theorem exists_endless (counted : ℓ → Prop) (ready : σ → Prop)
    (hRound : ∀ state, ready state → ∃ label path final, counted label ∧
      run step (label :: path) state = some final ∧ ready final)
    (hStart : run step path start = some final) (hReady : ready final) :
    ∃ states labels, Endless step states labels ∧ states 0 = start ∧
      {n | counted (labels n)}.Infinite := by
  choose label next hStep hPath using Plan.exists_next hRound
  let plans : Nat → Plan step ready :=
    fun n => n.rec ⟨start, path, final, hStart, hReady⟩ fun _ plan => next plan
  refine ⟨fun n => (plans n).state, fun n => label (plans n), fun n => hStep (plans n), rfl, ?_⟩
  -- A plan of `length` steps is used up after as many of them.
  have hUsed : ∀ length n, (plans n).path.length = length →
      ∃ later, n ≤ later ∧ (plans later).path = [] := by
    intro length
    induction length with
    | zero => exact fun n hLength => ⟨n, le_rfl, List.eq_nil_of_length_eq_zero hLength⟩
    | succ length ih =>
      intro n hLength
      rcases hPath (plans n) with ⟨hNil, -⟩ | hCons
      · exact ⟨n, le_rfl, hNil⟩
      · rw [hCons, List.length_cons] at hLength
        obtain ⟨later, hLater, hNil⟩ := ih (n + 1) (Nat.succ.inj hLength)
        exact ⟨later, Nat.le_of_succ_le hLater, hNil⟩
  refine Set.infinite_of_forall_exists_gt fun n => ?_
  obtain ⟨later, hLater, hNil⟩ := hUsed _ (n + 1) rfl
  refine ⟨later, ?_, hLater⟩
  rcases hPath (plans later) with ⟨-, hCounted⟩ | hCons
  · exact hCounted
  · rw [hNil] at hCons
    cases hCons

end Runs
