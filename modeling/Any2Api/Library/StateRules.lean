import Any2Api.Library.Result

/-! Invariant rules for stateful computations. `Keeps` is about a computation
that cannot fail and `Maintains` about one that can; a failure keeps the state
it has reached. Both are closed under the constructs of a `do` block. -/
namespace StateRules

universe u
variable {σ ε α β : Type u} {invariant : σ → Prop} {action : ExceptT ε (StateM σ) α}
  {next : α → ExceptT ε (StateM σ) β}

/-- Every run of the computation leaves the invariant in place. -/
def Keeps (invariant : σ → Prop) (action : StateM σ α) : Prop :=
  ∀ state, invariant state → invariant (action.run state).2

/-- The same for a computation that may fail, whether or not it does. -/
def Maintains (invariant : σ → Prop) (action : ExceptT ε (StateM σ) α) : Prop :=
  ∀ state, invariant state → invariant (action.run.run state).2

theorem Keeps.pure (a : α) : Keeps invariant (pure a) := fun _ h => h

theorem Keeps.bind {action : StateM σ α} {next : α → StateM σ β} (h : Keeps invariant action)
    (hNext : ∀ a, Keeps invariant (next a)) : Keeps invariant (action >>= next) :=
  fun state hState => hNext _ _ (h state hState)

theorem Keeps.get : Keeps invariant (get : StateM σ σ) := fun _ h => h

/-- A step that reads the state may rely on it until the state changes. -/
theorem Keeps.withState {next : σ → StateM σ α}
    (h : ∀ state, invariant state → invariant ((next state).run state).2) :
    Keeps invariant (MonadState.get >>= next) := h

theorem Keeps.modify {update : σ → σ} (h : ∀ state, invariant state → invariant (update state)) :
    Keeps invariant (modify update : StateM σ PUnit) := h

theorem Keeps.ite {condition : Prop} [Decidable condition] {yes no : StateM σ α}
    (hYes : Keeps invariant yes) (hNo : Keeps invariant no) :
    Keeps invariant (if condition then yes else no) := by
  split
  · exact hYes
  · exact hNo

theorem Maintains.pure (a : α) :
    Maintains invariant (pure a : ExceptT ε (StateM σ) α) := fun _ h => h

theorem Maintains.throw (error : ε) :
    Maintains invariant (throw error : ExceptT ε (StateM σ) α) := fun _ h => h

theorem Maintains.lift {action : StateM σ α} (h : Keeps invariant action) :
    Maintains invariant (liftM action : ExceptT ε (StateM σ) α) := h

theorem Maintains.get : Maintains invariant (get : ExceptT ε (StateM σ) σ) := fun _ h => h

theorem Maintains.withState {next : σ → ExceptT ε (StateM σ) α}
    (h : ∀ state, invariant state → invariant ((next state).run.run state).2) :
    Maintains invariant (MonadState.get >>= next) := h

theorem Maintains.modify {update : σ → σ}
    (h : ∀ state, invariant state → invariant (update state)) :
    Maintains invariant (modify update : ExceptT ε (StateM σ) PUnit) := h

/-- Both parts of a sequence run from a state with the invariant. -/
theorem Maintains.bind
    (h : Maintains invariant action) (hNext : ∀ a, Maintains invariant (next a)) :
    Maintains invariant (action >>= next) := by
  intro state hState
  have hAction := h state hState
  show invariant ((ExceptT.bindCont next) (action.run.run state).1 (action.run.run state).2).2
  generalize action.run.run state = outcome at hAction
  obtain ⟨result, after⟩ := outcome
  cases result with
  | ok a => exact hNext a after hAction
  | error error => exact hAction

theorem Maintains.ite {condition : Prop} [Decidable condition] {yes no : ExceptT ε (StateM σ) α}
    (hYes : Maintains invariant yes) (hNo : Maintains invariant no) :
    Maintains invariant (if condition then yes else no) := by
  split
  · exact hYes
  · exact hNo

/-- A loop maintains what its body maintains. -/
theorem Maintains.forM {items : List α} {body : α → ExceptT ε (StateM σ) PUnit}
    (h : ∀ item ∈ items, Maintains invariant (body item)) :
    Maintains invariant (items.forM body) := by
  induction items with
  | nil => exact .pure _
  | cons item items ih =>
    exact .bind (h item List.mem_cons_self) fun _ =>
      ih fun other hOther => h other (List.mem_cons_of_mem item hOther)

/-- Every successful run ends in a state with the postcondition. -/
def Ensures (post : σ → Prop) (action : ExceptT ε (StateM σ) α) : Prop :=
  ∀ state a after, action.run.run state = (.ok a, after) → post after

/-- The end of a block decides what it ensures. -/
theorem Ensures.bind {post : σ → Prop} (h : ∀ a, Ensures post (next a)) :
    Ensures post (action >>= next) := by
  intro state b after hRun
  change (ExceptT.bindCont next) (action.run.run state).1 (action.run.run state).2 = _ at hRun
  generalize action.run.run state = outcome at hRun
  obtain ⟨result, middle⟩ := outcome
  cases result with
  | ok a => exact h a middle b after hRun
  | error error => cases hRun

end StateRules
