import Mathlib.Algebra.BigOperators.Group.Finset.Basic

/-! Programs of atomic instructions that several threads run side by side on one
state. A step is one instruction of one thread, so a run is an interleaving of
the instructions of all calls. The rules below prove a property of every run
from a proof about each call alone: a thread knows its own part of the state,
which the other threads leave alone, and may rely on an invariant that all
threads keep. -/

/-- A program returns, or performs an instruction and goes on with its answer. -/
inductive Program {Instr : Type} (Answer : Instr → Type) (α : Type) where
  | pure (a : α)
  | act (instr : Instr) (next : Answer instr → Program Answer α)

namespace Program

variable {Instr : Type} {Answer : Instr → Type} {α β : Type}

def bind : Program Answer α → (α → Program Answer β) → Program Answer β
  | .pure a, f => f a
  | .act instr next, f => .act instr fun answer => (next answer).bind f

instance : Monad (Program Answer) where
  pure := .pure
  bind := .bind

/-- The program that performs one instruction and returns its answer. -/
def perform (instr : Instr) : Program Answer (Answer instr) := .act instr .pure

@[simp] theorem pure_bind (a : α) (f : α → Program Answer β) : (Pure.pure a >>= f) = f a := rfl

instance : LawfulMonad (Program Answer) :=
  .mk' (Program Answer)
    (by
      intro α program
      induction program with
      | pure a => rfl
      | act instr next ih => exact congrArg (Program.act instr) (funext ih))
    (by
      intro α β a f
      rfl)
    (by
      intro α β γ program f g
      induction program with
      | pure a => rfl
      | act instr next ih => exact congrArg (Program.act instr) (funext ih))

end Program

/-- Threads `ι` that make calls. What the environment decides for an
instruction is a `Choice`; an instruction without a result has to wait. -/
structure Machine (ι : Type) where
  State : Type
  Instr : Type
  Answer : Instr → Type
  Choice : Type
  Call : Type
  Result : Call → Type
  Event : Type
  perform : ι → Choice → (instr : Instr) → State → Option (Answer instr × State)
  body : (call : Call) → Program Answer (Result call)
  /-- A call may begin here. -/
  enter : ι → Call → State → Option State
  /-- What happens outside of the threads. -/
  react : Event → State → Option State

namespace Machine

variable {ι : Type} (m : Machine ι)

/-- A call and what is left of its program. -/
structure Thread where
  call : m.Call
  rest : Program m.Answer (m.Result call)

structure Config where
  state : m.State
  threads : ι → Option m.Thread

inductive Label where
  | start (thread : ι) (call : m.Call)
  | advance (thread : ι) (choice : m.Choice)
  | finish (thread : ι)
  | occur (event : m.Event)

variable {m}

def Config.initial (state : m.State) : m.Config := ⟨state, fun _ => none⟩

variable [DecidableEq ι] {config : m.Config} {choices : List m.Choice}

def Config.put (config : m.Config) (thread : ι) (state : m.State) (next : Option m.Thread) :
    m.Config :=
  ⟨state, Function.update config.threads thread next⟩

def step (config : m.Config) : m.Label → Option m.Config
  | .start thread call =>
    match config.threads thread with
    | some _ => none
    | none => do
        let state ← m.enter thread call config.state
        some (config.put thread state (some ⟨call, m.body call⟩))
  | .advance thread choice =>
    match config.threads thread with
    | some ⟨call, .act instr next⟩ => do
        let (answer, state) ← m.perform thread choice instr config.state
        some (config.put thread state (some ⟨call, next answer⟩))
    | _ => none
  | .finish thread =>
    match config.threads thread with
    | some ⟨_, .pure _⟩ => some (config.put thread config.state none)
    | _ => none
  | .occur event => do
      let state ← m.react event config.state
      some { config with state }

def run (labels : List m.Label) (config : m.Config) : Option m.Config :=
  labels.foldlM step config

/-- What a step does. -/
theorem step_cases {next : m.Config} {label : m.Label} (h : step config label = some next) :
    (∃ thread call state, label = .start thread call ∧ config.threads thread = none ∧
      m.enter thread call config.state = some state ∧
      next = config.put thread state (some ⟨call, m.body call⟩)) ∨
    (∃ thread choice call instr rest answer state, label = .advance thread choice ∧
      config.threads thread = some ⟨call, .act instr rest⟩ ∧
      m.perform thread choice instr config.state = some (answer, state) ∧
      next = config.put thread state (some ⟨call, rest answer⟩)) ∨
    (∃ thread call result, label = .finish thread ∧
      config.threads thread = some ⟨call, .pure result⟩ ∧
      next = config.put thread config.state none) ∨
    ∃ event state, label = .occur event ∧ m.react event config.state = some state ∧
      next = { config with state } := by
  cases label with
  | start thread call =>
    simp only [step] at h
    split at h
    · cases h
    · next hIdle =>
        obtain ⟨state, hState, h⟩ := Option.bind_eq_some_iff.mp h
        exact .inl ⟨thread, call, state, rfl, hIdle, hState, (Option.some.inj h).symm⟩
  | advance thread choice =>
    simp only [step] at h
    split at h
    · next call instr rest hThread =>
        obtain ⟨⟨answer, state⟩, hState, h⟩ := Option.bind_eq_some_iff.mp h
        exact .inr (.inl ⟨thread, choice, call, instr, rest, answer, state, rfl, hThread, hState,
          (Option.some.inj h).symm⟩)
    · cases h
  | finish thread =>
    simp only [step] at h
    split at h
    · next call result hThread =>
        exact .inr (.inr (.inl ⟨thread, call, result, rfl, hThread, (Option.some.inj h).symm⟩))
    · cases h
  | occur event =>
    obtain ⟨state, hState, h⟩ := Option.bind_eq_some_iff.mp h
    exact .inr (.inr (.inr ⟨event, state, rfl, hState, (Option.some.inj h).symm⟩))

theorem run_append (labels more : List m.Label) (config : m.Config) :
    run (labels ++ more) config = (run labels config).bind (run more) :=
  List.foldlM_append

/-- A thread performs a program alone, with these choices of the environment. -/
def alone {α : Type} (thread : ι) :
    List m.Choice → Program m.Answer α → m.State → Option (α × m.State)
  | [], .pure a, state => some (a, state)
  | choice :: choices, .act instr next, state => do
      let (answer, state) ← m.perform thread choice instr state
      alone thread choices (next answer) state
  | _, _, _ => none

theorem run_alone {thread : ι} {call : m.Call}
    {rest : Program m.Answer (m.Result call)} {result : m.Result call}
    {state : m.State} (hThread : config.threads thread = some ⟨call, rest⟩)
    (h : alone thread choices rest config.state = some (result, state)) :
    run (choices.map (.advance thread)) config =
      some (config.put thread state (some ⟨call, .pure result⟩)) := by
  induction choices generalizing rest config with
  | nil =>
    cases rest with
    | act instr next => cases h
    | pure a =>
      cases h
      rw [Config.put, ← hThread, Function.update_eq_self]
      rfl
  | cons choice choices ih =>
    cases rest with
    | pure a => cases h
    | act instr next =>
      obtain ⟨⟨answer, after⟩, hPerform, hRest⟩ := Option.bind_eq_some_iff.mp h
      have hStep : step config (.advance thread choice) =
          some (config.put thread after (some ⟨call, next answer⟩)) := by
        simp only [step, hThread, hPerform]
        rfl
      have hLeft : (config.put thread after (some ⟨call, next answer⟩)).threads thread =
          some ⟨call, next answer⟩ := Function.update_self ..
      rw [List.map_cons, run, List.foldlM_cons, hStep]
      refine (ih hLeft hRest).trans ?_
      simp only [Config.put, Function.update_idem]

/-- A call that no other thread interrupts. -/
theorem run_call {thread : ι} {call : m.Call} {result : m.Result call} {entered state : m.State}
    (hIdle : config.threads thread = none)
    (hEnter : m.enter thread call config.state = some entered)
    (h : alone thread choices (m.body call) entered = some (result, state)) :
    run (.start thread call :: choices.map (.advance thread) ++ [.finish thread]) config =
      some { config with state } := by
  have hStart : step config (.start thread call) =
      some (config.put thread entered (some ⟨call, m.body call⟩)) := by
    simp only [step, hIdle, hEnter]
    rfl
  have hLeft : (config.put thread entered (some ⟨call, m.body call⟩)).threads thread =
      some ⟨call, m.body call⟩ := Function.update_self ..
  have hBody := run_alone hLeft h
  rw [List.cons_append, run, List.foldlM_cons, hStart]
  refine (run_append _ _ _).trans ?_
  rw [hBody]
  simp only [Config.put, Function.update_idem, Option.bind_some, run, List.foldlM_cons,
    List.foldlM_nil, step, Function.update_self]
  rw [← hIdle, Function.update_eq_self]
  rfl

/-- What every step keeps, a run keeps. -/
theorem run_keeps {property : m.Config → Prop}
    (hStep : ∀ config label next, step config label = some next → property config → property next)
    {labels : List m.Label} {final : m.Config} (h : run labels config = some final)
    (hConfig : property config) : property final := by
  induction labels generalizing config with
  | nil =>
    cases h
    exact hConfig
  | cons label labels ih =>
    rw [run, List.foldlM_cons] at h
    obtain ⟨next, hNext, h⟩ := Option.bind_eq_some_iff.mp h
    exact ih h (hStep config label next hNext hConfig)

end Machine

namespace Machine

variable {ι : Type} (m : Machine ι)

/-- How the threads share the state. -/
structure Discipline where
  Local : Type
  /-- The part of the state that belongs to a thread. -/
  own : m.State → ι → Local
  invariant : m.State → Prop
  /-- What an instruction of a call may do. -/
  allowed : ι → m.Call → m.Instr → m.State → m.State → Prop
  /-- The part of a thread between two calls. -/
  idle : Local → Prop
  /-- The part of a thread when a call has returned. -/
  returned : (call : m.Call) → m.Result call → Local → Prop

variable {m}

namespace Discipline

variable (d : m.Discipline) (thread : ι) (call : m.Call) {α β : Type}

/-- Every instruction of the program keeps the invariant and does what it may,
and the program ends in the postcondition. -/
def Safe : Program m.Answer α → (α → d.Local → Prop) → d.Local → Prop
  | .pure a, post, part => post a part
  | .act instr next, post, part =>
    ∀ choice state answer after, d.invariant state → d.own state thread = part →
      m.perform thread choice instr state = some (answer, after) →
      d.invariant after ∧ d.allowed thread call instr state after ∧
        Safe (next answer) post (d.own after thread)

variable {d thread call} {part : d.Local} {program : Program m.Answer α} {config : m.Config}
  {f : α → Program m.Answer β} {post : β → d.Local → Prop}

theorem Safe.bind (h : d.Safe thread call program
      (fun a part => d.Safe thread call (f a) post part) part) :
    d.Safe thread call (program >>= f) post part := by
  induction program generalizing part with
  | pure a => exact h
  | act instr next ih =>
    intro choice state answer after hState hPart hPerform
    obtain ⟨hAfter, hAllowed, hNext⟩ := h choice state answer after hState hPart hPerform
    exact ⟨hAfter, hAllowed, ih answer hNext⟩

theorem Safe.mono {post weaker : α → d.Local → Prop} (h : d.Safe thread call program post part)
    (hPost : ∀ a part, post a part → weaker a part) :
    d.Safe thread call program weaker part := by
  induction program generalizing part with
  | pure a => exact hPost a part h
  | act instr next ih =>
    intro choice state answer after hState hPart hPerform
    obtain ⟨hAfter, hAllowed, hNext⟩ := h choice state answer after hState hPart hPerform
    exact ⟨hAfter, hAllowed, ih answer hNext⟩

/-- The rule of a sequence with a stated middle. -/
theorem Safe.seq {middle : α → d.Local → Prop} (h : d.Safe thread call program middle part)
    (hNext : ∀ a part, middle a part → d.Safe thread call (f a) post part) :
    d.Safe thread call (program >>= f) post part :=
  .bind (h.mono hNext)

variable (d)

/-- The obligations of a discipline. -/
structure Valid : Prop where
  frame : ∀ {thread choice instr state answer after}, d.invariant state →
    m.perform thread choice instr state = some (answer, after) →
    ∀ other ≠ thread, d.own after other = d.own state other
  enter : ∀ {thread call state after}, d.invariant state → d.idle (d.own state thread) →
    m.enter thread call state = some after →
    d.invariant after ∧ (∀ other ≠ thread, d.own after other = d.own state other) ∧
      d.Safe thread call (m.body call) (d.returned call) (d.own after thread)
  leave : ∀ {call result part}, d.returned call result part → d.idle part
  react : ∀ {event state after}, d.invariant state → m.react event state = some after →
    d.invariant after ∧ ∀ thread, d.own after thread = d.own state thread

/-- A thread is between two calls, or its program is safe. -/
def ThreadSound (state : m.State) (thread : ι) : Option m.Thread → Prop
  | none => d.idle (d.own state thread)
  | some running =>
    d.Safe thread running.call running.rest (d.returned running.call) (d.own state thread)

structure Sound (config : m.Config) : Prop where
  invariant : d.invariant config.state
  threads : ∀ thread, d.ThreadSound config.state thread (config.threads thread)

variable {d}

theorem Sound.initial {state : m.State} (h : d.invariant state)
    (hIdle : ∀ thread, d.idle (d.own state thread)) : d.Sound (Config.initial state) :=
  ⟨h, hIdle⟩

theorem Sound.advance (hSound : d.Sound config) {thread : ι} {choice : m.Choice}
    {call : m.Call} {instr : m.Instr} {rest : m.Answer instr → Program m.Answer (m.Result call)}
    {answer : m.Answer instr} {after : m.State}
    (hThread : config.threads thread = some ⟨call, .act instr rest⟩)
    (hPerform : m.perform thread choice instr config.state = some (answer, after)) :
    d.invariant after ∧ d.allowed thread call instr config.state after ∧
      d.Safe thread call (rest answer) (d.returned call) (d.own after thread) := by
  have hSafe := hSound.threads thread
  rw [hThread] at hSafe
  exact hSafe choice config.state answer after hSound.invariant rfl hPerform

/-- A call that has returned is in its postcondition. -/
theorem Sound.returned (hSound : d.Sound config) {thread : ι} {call : m.Call}
    {result : m.Result call} (hThread : config.threads thread = some ⟨call, .pure result⟩) :
    d.returned call result (d.own config.state thread) := by
  have hSafe := hSound.threads thread
  rw [hThread] at hSafe
  exact hSafe

variable [DecidableEq ι]

theorem Sound.put (hSound : d.Sound config) {thread : ι} {state : m.State}
    {next : Option m.Thread} (hInvariant : d.invariant state)
    (hFrame : ∀ other ≠ thread, d.own state other = d.own config.state other)
    (hThread : d.ThreadSound state thread next) : d.Sound (config.put thread state next) := by
  refine ⟨hInvariant, fun other => ?_⟩
  rcases eq_or_ne other thread with rfl | hOther
  · simpa [Config.put] using hThread
  · have hSame : (config.put thread state next).threads other = config.threads other :=
      Function.update_of_ne hOther _ _
    have hOld := hSound.threads other
    rw [hSame]
    unfold ThreadSound at hOld ⊢
    rw [← hFrame other hOther] at hOld
    exact hOld

theorem Valid.step (hValid : d.Valid) {next : m.Config} {label : m.Label}
    (hStep : step config label = some next) (hSound : d.Sound config) : d.Sound next := by
  obtain ⟨thread, call, state, -, hIdle, hEnter, rfl⟩ |
    ⟨thread, choice, call, instr, rest, answer, state, -, hThread, hPerform, rfl⟩ |
    ⟨thread, call, result, -, hThread, rfl⟩ | ⟨event, state, -, hReact, rfl⟩ := step_cases hStep
  · have hPart := hSound.threads thread
    rw [hIdle] at hPart
    obtain ⟨hInvariant, hFrame, hSafe⟩ := hValid.enter hSound.invariant hPart hEnter
    exact hSound.put hInvariant hFrame hSafe
  · obtain ⟨hInvariant, -, hSafe⟩ := hSound.advance hThread hPerform
    exact hSound.put hInvariant (hValid.frame hSound.invariant hPerform) hSafe
  · exact hSound.put hSound.invariant (fun _ _ => rfl) (hValid.leave (hSound.returned hThread))
  · obtain ⟨hInvariant, hFrame⟩ := hValid.react hSound.invariant hReact
    refine ⟨hInvariant, fun thread => ?_⟩
    have hOld := hSound.threads thread
    unfold ThreadSound at hOld ⊢
    rw [hFrame thread]
    exact hOld

/-- Every run keeps the invariant and the safety of what the threads have left. -/
theorem Valid.run (hValid : d.Valid) {labels : List m.Label} {final : m.Config}
    (hRun : Machine.run labels config = some final) (hSound : d.Sound config) : d.Sound final :=
  run_keeps (fun _ _ _ => hValid.step) hRun hSound

end Discipline

end Machine

/-- A quantity that is spread over the members of a family, when one changes. -/
theorem Fintype.sum_update_add {ι α M : Type*} [Fintype ι] [DecidableEq ι] [AddCommMonoid M]
    (family : ι → α) (quantity : α → M) (i : ι) (a : α) :
    ∑ j, quantity (Function.update family i a j) + quantity (family i) =
      ∑ j, quantity (family j) + quantity a := by
  rw [← Finset.add_sum_erase Finset.univ _ (Finset.mem_univ i),
    ← Finset.add_sum_erase Finset.univ (fun j => quantity (family j)) (Finset.mem_univ i),
    Function.update_self]
  have hRest : ∑ j ∈ Finset.univ.erase i, quantity (Function.update family i a j) =
      ∑ j ∈ Finset.univ.erase i, quantity (family j) := by
    refine Finset.sum_congr rfl fun j hj => ?_
    rw [Function.update_of_ne (Finset.ne_of_mem_erase hj)]
  rw [hRest]
  ac_rfl
