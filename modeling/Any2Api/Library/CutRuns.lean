import Any2Api.Library.Threads

/-! Runs of a program that may be cut off between any two instructions. The environment decides
how each instruction goes, and the run is over when it decides no more. The rules prove what holds
wherever a run is cut off together with what holds where it returns. -/
namespace CutRuns

variable {σ Instr Choice α β ε : Type} {Answer : Instr → Type}
  (perform : Choice → (instr : Instr) → σ → Answer instr × σ)

/-- What the program returns, `none` when it has been cut off, and the state that is left. -/
def execute : Program Answer α → List Choice → σ → Option α × σ
  | .pure a, _, state => (some a, state)
  | .act _ _, [], state => (none, state)
  | .act instr next, choice :: choices, state =>
    let (answer, changed) := perform choice instr state
    execute (next answer) choices changed

/-- Where every choice is the given one, the program returns, and only as the postcondition
says. -/
def Ends (choice : Choice) (program : Program Answer α) (post : α → σ → Prop) (state : σ) : Prop :=
  (∃ count, (execute perform program (List.replicate count choice) state).1.isSome = true) ∧
  ∀ count a, (execute perform program (List.replicate count choice) state).1 = some a →
    post a (execute perform program (List.replicate count choice) state).2

/-- With the allowed choices, the program is always in states with the property `always`, and
returns only as the postcondition says. -/
def Meets (allowed : Choice → Prop) (always : σ → Prop) :
    Program Answer α → (α → σ → Prop) → σ → Prop
  | .pure a, post, state => always state ∧ post a state
  | .act instr next, post, state =>
    always state ∧ ∀ choice, allowed choice →
      Meets allowed always (next (perform choice instr state).1) post (perform choice instr state).2

variable {perform} {allowed : Choice → Prop} {always : σ → Prop} {state : σ}
  {program : Program Answer α}

theorem Meets.execute {post : α → σ → Prop} {choices : List Choice}
    (h : Meets perform allowed always program post state)
    (hAllowed : ∀ choice ∈ choices, allowed choice) :
    always (execute perform program choices state).2 ∧
      ∀ a, (CutRuns.execute perform program choices state).1 = some a →
        post a (CutRuns.execute perform program choices state).2 := by
  induction program generalizing choices state with
  | pure a => exact ⟨h.1, fun _ hResult => Option.some.inj hResult ▸ h.2⟩
  | act instr next ih =>
    cases choices with
    | nil => exact ⟨h.1, nofun⟩
    | cons choice choices =>
      exact ih _ (h.2 choice (hAllowed choice List.mem_cons_self))
        fun other hOther => hAllowed other (List.mem_cons_of_mem _ hOther)

theorem exists_execute_isSome (perform : Choice → (instr : Instr) → σ → Answer instr × σ)
    (choice : Choice) (program : Program Answer α) (state : σ) :
    ∃ count, (execute perform program (List.replicate count choice) state).1.isSome = true := by
  induction program generalizing state with
  | pure a => exact ⟨0, rfl⟩
  | act instr next ih =>
    obtain ⟨count, hCount⟩ := ih (perform choice instr state).1 (perform choice instr state).2
    exact ⟨count + 1, hCount⟩

/-- What holds where a program returns holds at its end, if the choice is an allowed one. -/
theorem Meets.ends {post : α → σ → Prop} {choice : Choice}
    (h : Meets perform allowed always program post state) (hChoice : allowed choice) :
    Ends perform choice program (fun a state => always state ∧ post a state) state := by
  refine ⟨exists_execute_isSome perform choice program state, fun count a hResult => ?_⟩
  obtain ⟨hAlways, hPost⟩ := h.execute fun _ hMem => (List.mem_replicate.mp hMem).2 ▸ hChoice
  exact ⟨hAlways, hPost a hResult⟩

theorem Ends.mono {post weaker : α → σ → Prop} {choice : Choice}
    (h : Ends perform choice program post state)
    (hPost : ∀ a state, post a state → weaker a state) :
    Ends perform choice program weaker state :=
  ⟨h.1, fun count a hResult => hPost a _ (h.2 count a hResult)⟩

theorem Meets.mono {post weaker : α → σ → Prop}
    (h : Meets perform allowed always program post state)
    (hPost : ∀ a state, always state → post a state → weaker a state) :
    Meets perform allowed always program weaker state := by
  induction program generalizing state with
  | pure a => exact ⟨h.1, hPost a state h.1 h.2⟩
  | act instr next ih => exact ⟨h.1, fun choice hChoice => ih _ (h.2 choice hChoice)⟩

theorem Meets.bind {next : α → Program Answer β} {post : β → σ → Prop}
    (h : Meets perform allowed always program
      (fun a state => Meets perform allowed always (next a) post state) state) :
    Meets perform allowed always (program >>= next) post state := by
  induction program generalizing state with
  | pure a => exact h.2
  | act instr rest ih => exact ⟨h.1, fun choice hChoice => ih _ (h.2 choice hChoice)⟩

/-- A program that goes on only when its first part succeeds. -/
theorem Meets.tryBind {program : ExceptT ε (Program Answer) α}
    {next : α → ExceptT ε (Program Answer) β} {post : Except ε β → σ → Prop}
    (h : Meets perform allowed always program.run
      (fun result state =>
        match result with
        | .ok a => Meets perform allowed always (next a).run post state
        | .error error => post (.error error) state) state) :
    Meets perform allowed always (program >>= next).run post state := by
  rw [ExceptT.run_bind]
  refine (h.mono fun result state hAlways hResult => ?_).bind
  cases result with
  | ok a => exact hResult
  | error error => exact ⟨hAlways, hResult⟩

theorem Meets.lift {post : Except ε α → σ → Prop}
    (h : Meets perform allowed always program (fun a state => post (.ok a) state) state) :
    Meets perform allowed always (ExceptT.lift program : ExceptT ε (Program Answer) α).run post
      state := by
  rw [ExceptT.run_lift, map_eq_pure_bind]
  exact (h.mono fun a state hAlways hPost => ⟨hAlways, hPost⟩).bind

end CutRuns
