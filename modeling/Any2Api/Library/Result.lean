import Mathlib.Control.Basic

/-! Computations that may fail, as the `Except` monad: how `do` blocks reduce
on known results, and what a successful block says about its steps. -/
namespace Except

variable {ε α β : Type*}

@[simp] theorem ok_bind {α β : Type _} (a : α) (next : α → Except ε β) :
    (Except.ok a >>= next) = next a := rfl

@[simp] theorem error_bind {α β : Type _} (error : ε) (next : α → Except ε β) :
    (Except.error error >>= next) = Except.error error := rfl

@[simp] theorem pure_eq_ok (a : α) : (pure a : Except ε α) = .ok a := rfl

@[simp] theorem bind_ok {α : Type _} (first : Except ε α) :
    (first >>= fun a => Except.ok a) = first := by
  cases first <;> rfl

/-- A block succeeds exactly when its first step does and so does the rest. -/
theorem bind_eq_ok_iff {α β : Type _} {first : Except ε α} {next : α → Except ε β} {b : β} :
    first >>= next = .ok b ↔ ∃ a, first = .ok a ∧ next a = .ok b := by
  cases first <;> simp

theorem of_bind {α β : Type _} {first : Except ε α} {next : α → Except ε β} {b : β}
    (h : first >>= next = .ok b) : ∃ a, first = .ok a ∧ next a = .ok b :=
  bind_eq_ok_iff.mp h

/-- A block whose rest succeeds or fails whatever the first step gives. -/
theorem exists_bind_eq_ok_iff {α β : Type _} {first : Except ε α} {next : α → Except ε β}
    {p : Prop} (h : ∀ a, (∃ b, next a = .ok b) ↔ p) :
    (∃ b, first >>= next = .ok b) ↔ (∃ a, first = .ok a) ∧ p := by
  cases first <;> simp [h]

@[simp] theorem throw_eq_error (error : ε) : (throw error : Except ε α) = .error error := rfl

variable {σ α : Type _} {step : σ → α → Except ε σ} {items : List α} {state final : σ}

/-- What every step of a fallible fold keeps, the whole fold keeps. -/
theorem foldlM_keeps {invariant : σ → Prop}
    (hStep : ∀ state item next, step state item = .ok next → invariant state → invariant next)
    (hRun : items.foldlM step state = .ok final) (hState : invariant state) : invariant final := by
  induction items generalizing state with
  | nil =>
    cases hRun
    exact hState
  | cons item items ih =>
    rw [List.foldlM_cons] at hRun
    obtain ⟨next, hNext, hRest⟩ := bind_eq_ok_iff.mp hRun
    exact ih hRest (hStep state item next hNext hState)

/-- What a fold ends with says something about where it began and about every item. -/
theorem foldlM_back (holds : σ → Prop)
    {each : α → Prop} (hStep : ∀ state item next, step state item = .ok next → holds next →
      holds state ∧ each item) (hRun : items.foldlM step state = .ok final)
    (hFinal : holds final) : holds state ∧ ∀ item ∈ items, each item := by
  induction items generalizing state with
  | nil =>
    cases hRun
    exact ⟨hFinal, nofun⟩
  | cons item items ih =>
    rw [List.foldlM_cons] at hRun
    obtain ⟨next, hNext, hRest⟩ := bind_eq_ok_iff.mp hRun
    obtain ⟨hHolds, hItems⟩ := ih hRest
    obtain ⟨hState, hItem⟩ := hStep state item next hNext hHolds
    exact ⟨hState, List.forall_mem_cons.mpr ⟨hItem, hItems⟩⟩

/-- A fold without an item that fails succeeds. -/
theorem foldlM_isOk (h : ∀ state, ∀ item ∈ items, ∃ next, step state item = .ok next) :
    ∃ final, items.foldlM step state = .ok final := by
  induction items generalizing state with
  | nil => exact ⟨state, rfl⟩
  | cons item items ih =>
    obtain ⟨next, hNext⟩ := h state item List.mem_cons_self
    rw [List.foldlM_cons, hNext]
    exact ih fun state item hItem => h state item (List.mem_cons_of_mem _ hItem)

/-- Where an item succeeds in every state or in none, a fold succeeds exactly when all of them
do. -/
theorem exists_foldlM_eq_ok_iff {each : α → Prop}
    (h : ∀ state item, (∃ next, step state item = .ok next) ↔ each item) :
    (∃ final, items.foldlM step state = .ok final) ↔ ∀ item ∈ items, each item := by
  induction items generalizing state with
  | nil => simp
  | cons item items ih =>
    rw [List.foldlM_cons, exists_bind_eq_ok_iff fun _ => ih, h, List.forall_mem_cons]

/-- A fold ends at the first item that fails. -/
theorem foldlM_eq_error (fails : α → Bool) {error : ε} {item : α}
    (hFirst : items.find? fails = some item) (hFails : ∀ state, step state item = .error error)
    (hPasses : ∀ state item, fails item = false → ∃ next, step state item = .ok next) :
    items.foldlM step state = .error error := by
  induction items generalizing state with
  | nil => cases hFirst
  | cons first items ih =>
    rw [List.foldlM_cons]
    cases hItem : fails first with
    | true =>
      rw [List.find?_cons_of_pos hItem] at hFirst
      cases hFirst
      rw [hFails]
      rfl
    | false =>
      obtain ⟨next, hNext⟩ := hPasses state first hItem
      rw [List.find?_cons_of_neg (by simp [hItem])] at hFirst
      rw [hNext]
      exact ih hFirst

/-- A step function that succeeds more often gives a fold that does. -/
theorem foldlM_mono {step other : σ → α → Except ε σ}
    (h : ∀ state item next, step state item = .ok next → other state item = .ok next)
    (hRun : items.foldlM step state = .ok final) :
    items.foldlM other state = .ok final := by
  induction items generalizing state with
  | nil => exact hRun
  | cons item items ih =>
    rw [List.foldlM_cons] at hRun ⊢
    obtain ⟨next, hNext, hRest⟩ := bind_eq_ok_iff.mp hRun
    exact bind_eq_ok_iff.mpr ⟨next, h state item next hNext, ih hRest⟩

end Except
