import Any2Api.Library.Entries
import Any2Api.Library.ExpiringQueue
import Any2Api.Library.Runs
import Any2Api.Runtime.Domain
import Mathlib.Data.List.Induction
import Mathlib.Logic.Function.Basic

/-! The limiter of the requests per minute of a gateway API key. A request reads
the clock before it takes the lock of the limiter, so a run is an interleaving of
arrivals, admissions and reconfigurations. -/
namespace Any2Api.Runtime.GatewayApiKey

open ExpiringQueue Runs Function

def rateWindow : Duration := seconds 60

abbrev GatewayApiKeyId := Nat

structure GatewayApiKeyRateLimitExceeded where
  retryAfterSeconds : Nat
  deriving DecidableEq

/-- A binding holds its handle by reference; handles are numbered as they are
created. -/
structure GatewayApiKeyRateBinding where
  handle : Nat
  requestsPerMinute : Option RequestsPerMinute
  deriving DecidableEq

abbrev GatewayApiKeyRateBindings := GatewayApiKeyId → Option GatewayApiKeyRateBinding

/-- Two keys never share a handle. -/
structure GatewayApiKeyRateRegistry where
  handles : GatewayApiKeyId → Option Nat
  /-- The number of handles that were ever created. -/
  created : Nat
  below : ∀ id handle, handles id = some handle → handle < created
  injective : ∀ id other handle, handles id = some handle → handles other = some handle →
    id = other

namespace GatewayApiKeyRateRegistry

def empty : GatewayApiKeyRateRegistry where
  handles := fun _ => none
  created := 0
  below := by simp
  injective := by simp

/-- Enter a new handle for a key. -/
def create (registry : GatewayApiKeyRateRegistry) (id : GatewayApiKeyId) :
    GatewayApiKeyRateRegistry where
  handles := update registry.handles id (some registry.created)
  created := registry.created + 1
  below := by
    intro other handle h
    rw [update_apply] at h
    split at h
    · rw [← Option.some.inj h]
      exact Nat.lt_succ_self _
    · exact Nat.lt_succ_of_lt (registry.below other handle h)
  injective := by
    intro first second handle hFirst hSecond
    have hFirstBelow := registry.below first handle
    have hSecondBelow := registry.below second handle
    have hInjective := registry.injective first second handle
    grind [update_apply]

def retain (registry : GatewayApiKeyRateRegistry) (activeIds : List GatewayApiKeyId) :
    GatewayApiKeyRateRegistry where
  handles := fun id => if id ∈ activeIds then registry.handles id else none
  created := registry.created
  below := fun id handle h =>
    registry.below id handle (Option.ite_none_right_eq_some.mp h).2
  injective := fun id other handle h hOther =>
    registry.injective id other handle (Option.ite_none_right_eq_some.mp h).2
      (Option.ite_none_right_eq_some.mp hOther).2

end GatewayApiKeyRateRegistry

/-- A key and its limit in a configuration. -/
abbrev Spec := GatewayApiKeyId × Option RequestsPerMinute

/-- One turn of the loop over the configured keys: a key keeps its handle or gets
a new one. -/
def reconcileSpec (state : GatewayApiKeyRateRegistry × GatewayApiKeyRateBindings) (spec : Spec) :
    GatewayApiKeyRateRegistry × GatewayApiKeyRateBindings :=
  let (registry, bindings) := state
  match registry.handles spec.1 with
  | some handle => (registry, update bindings spec.1 (some ⟨handle, spec.2⟩))
  | none =>
    (registry.create spec.1,
      update bindings spec.1 (some ⟨registry.created, spec.2⟩))

def GatewayApiKeyRateRegistry.reconcileSpecs (registry : GatewayApiKeyRateRegistry)
    (specs : List Spec) : GatewayApiKeyRateRegistry × GatewayApiKeyRateBindings :=
  let (registry, bindings) := specs.foldl reconcileSpec (registry, fun _ => none)
  (registry.retain (specs.map Prod.fst), bindings)

/-- What the loop has done to a registry after some of the keys. -/
structure Reconciled (before : GatewayApiKeyRateRegistry) (specs : List Spec)
    (state : GatewayApiKeyRateRegistry × GatewayApiKeyRateBindings) : Prop where
  grows : before.created ≤ state.1.created
  keeps : ∀ id handle, before.handles id = some handle → state.1.handles id = some handle
  origin : ∀ id handle, state.1.handles id = some handle →
    before.handles id = some handle ∨ before.created ≤ handle ∧ id ∈ specs.map Prod.fst
  bound : ∀ id binding, state.2 id = some binding →
    state.1.handles id = some binding.handle ∧ (id, binding.requestsPerMinute) ∈ specs

theorem Reconciled.step {before : GatewayApiKeyRateRegistry} {specs : List Spec} {spec : Spec}
    {state : GatewayApiKeyRateRegistry × GatewayApiKeyRateBindings}
    (h : Reconciled before specs state) :
    Reconciled before (specs ++ [spec]) (reconcileSpec state spec) := by
  obtain ⟨registry, bindings⟩ := state
  obtain ⟨id, limit⟩ := spec
  obtain ⟨hGrows, hKeeps, hOrigin, hBound⟩ := h
  unfold reconcileSpec
  cases hHandle : registry.handles id with
  | some handle =>
    simp only [hHandle]
    refine ⟨hGrows, hKeeps, ?_, ?_⟩
    all_goals grind [update_apply]
  | none =>
    simp only [hHandle]
    refine ⟨hGrows.trans (Nat.le_succ _), ?_, ?_, ?_⟩
    all_goals
      simp only [GatewayApiKeyRateRegistry.create, update_apply]
      grind

theorem reconciled (before : GatewayApiKeyRateRegistry) (specs : List Spec) :
    Reconciled before specs (specs.foldl reconcileSpec (before, fun _ => none)) := by
  induction specs using List.reverseRecOn with
  | nil => exact ⟨le_refl _, fun _ _ h => h, fun _ _ h => .inl h, fun _ _ h => by cases h⟩
  | append_singleton specs spec ih =>
    rw [List.foldl_append]
    exact ih.step

/-- `try_admit` of a handle, on the queue that its lock protects. -/
def tryAdmit (attempts : List Instant) (now : Instant) (limit : RequestsPerMinute) :
    Except GatewayApiKeyRateLimitExceeded Unit × List Instant :=
  let attempts := slide id rateWindow now attempts
  if limit.get ≤ attempts.length then
    let retryAt := attempts.getD (attempts.length - limit.get) 0 + rateWindow
    let retryAfter := retryAt - now
    let partialSecond := if retryAfter % seconds 1 = 0 then 0 else 1
    (.error ⟨max (retryAfter / seconds 1 + partialSecond) 1⟩, attempts)
  else
    (.ok (), attempts ++ [now])

/-- A request between its arrival and its admission. -/
structure Request where
  id : GatewayApiKeyId
  binding : GatewayApiKeyRateBinding
  now : Instant

structure Limiter where
  registry : GatewayApiKeyRateRegistry
  attempts : Nat → List Instant
  /-- The bindings of every configuration; a request may still use old ones. -/
  published : List GatewayApiKeyRateBindings
  clock : Instant
  waiting : List Request
  /-- The requests that had their turn, in that order, and whether they were
  admitted. -/
  served : List (Request × Bool)

inductive Label where
  | reconcile (specs : List Spec)
  | arrive (configuration : Nat) (id : GatewayApiKeyId) (now : Instant)
  | tryAdmit (position : Nat)

namespace Limiter

def initial : Limiter where
  registry := .empty
  attempts := fun _ => []
  published := []
  clock := 0
  waiting := []
  served := []

/-- The turn of a request. Without a limit it does not touch the handle. -/
def serve (limiter : Limiter) (request : Request) : Limiter :=
  match request.binding.requestsPerMinute with
  | none => { limiter with served := limiter.served ++ [(request, true)] }
  | some limit =>
    let answer := tryAdmit (limiter.attempts request.binding.handle) request.now limit
    { limiter with
      attempts := update limiter.attempts request.binding.handle answer.2
      served := limiter.served ++ [(request, answer.1.toBool)] }

def step (limiter : Limiter) : Label → Option Limiter
  | .reconcile specs =>
    let (registry, bindings) := limiter.registry.reconcileSpecs specs
    some { limiter with registry, published := limiter.published ++ [bindings] }
  | .arrive configuration id now => do
      let bindings ← limiter.published[configuration]?
      let binding ← bindings id
      if limiter.clock ≤ now then
        some { limiter with
          clock := now
          waiting := limiter.waiting ++ [⟨id, binding, now⟩] }
      else
        none
  | .tryAdmit position => do
      let request ← limiter.waiting[position]?
      some (serve { limiter with waiting := limiter.waiting.eraseIdx position } request)

/-- The arrival instants of the admitted requests of a key. -/
def admitted (served : List (Request × Bool)) (key : GatewayApiKeyId) : List Instant :=
  (served.filter fun entry => entry.1.id = key ∧ entry.2).map (·.1.now)

/-- A reconfiguration that has the key keeps it and its limit. -/
def KeepsLimit (limiter : Limiter) (key : GatewayApiKeyId) (limit : RequestsPerMinute) :
    Label → Prop
  | .reconcile specs =>
    (∀ spec ∈ specs, spec.1 = key → spec.2 = some limit) ∧
      ((limiter.registry.handles key).isSome → key ∈ specs.map Prod.fst)
  | _ => True

instance (limiter : Limiter) (key : GatewayApiKeyId) (limit : RequestsPerMinute) :
    (label : Label) → Decidable (limiter.KeepsLimit key limit label)
  | .reconcile _ => inferInstanceAs (Decidable (_ ∧ _))
  | .arrive .. => isTrue trivial
  | .tryAdmit _ => isTrue trivial

/-- The arrival instants of the requests of a key that had their turn. -/
def turns (served : List (Request × Bool)) (key : GatewayApiKeyId) : List Instant :=
  (served.filter fun entry => entry.1.id = key).map (·.1.now)

/-- No request of the key that arrived later had its turn earlier. -/
def ServesInOrder (limiter : Limiter) (key : GatewayApiKeyId) : Label → Prop
  | .tryAdmit position => ∀ request ∈ limiter.waiting[position]?,
      request.id = key → ∀ instant ∈ turns limiter.served key, instant ≤ request.now
  | _ => True

instance (limiter : Limiter) (key : GatewayApiKeyId) :
    (label : Label) → Decidable (limiter.ServesInOrder key label)
  | .tryAdmit position => inferInstanceAs (Decidable (∀ request ∈ limiter.waiting[position]?, _))
  | .reconcile _ => isTrue trivial
  | .arrive .. => isTrue trivial

end Limiter

def InSpan (start instant : Instant) : Prop := start ≤ instant ∧ instant < start + rateWindow

instance (start instant : Instant) : Decidable (InSpan start instant) :=
  inferInstanceAs (Decidable (_ ∧ _))

/-- The queue of a key holds the newest of its admitted requests, and none of the
others counts for a request that arrives after the turns so far. -/
structure Fits (limit : RequestsPerMinute) (admitted turns attempts : List Instant) : Prop where
  split : ∃ expired, admitted = expired ++ attempts ∧
    ∀ instant ∈ expired, ∃ turn ∈ turns, instant + rateWindow ≤ turn
  limited : ∀ start, admitted.countP (InSpan start) ≤ limit.get

theorem Fits.empty (limit : RequestsPerMinute) : Fits limit [] [] [] where
  split := ⟨[], rfl, by simp⟩
  limited := by simp

variable {limit : RequestsPerMinute} {result : Except GatewayApiKeyRateLimitExceeded Unit}

theorem tryAdmit_cases {attempts after : List Instant} {now : Instant}
    (h : tryAdmit attempts now limit = (result, after)) :
    (result.toBool = false ∧ after = slide id rateWindow now attempts) ∨
    (result.toBool = true ∧ after = slide id rateWindow now attempts ++ [now] ∧
      (slide id rateWindow now attempts).length < limit.get) := by
  simp only [tryAdmit] at h
  split at h
  next =>
    obtain ⟨rfl, rfl⟩ := Prod.mk.inj h
    exact .inl ⟨rfl, rfl⟩
  next hFree =>
    obtain ⟨rfl, rfl⟩ := Prod.mk.inj h
    exact .inr ⟨rfl, rfl, by omega⟩

/-- A turn after all earlier instants sees every admitted request that is in a
window with it. -/
theorem Fits.turn {admitted turns attempts after : List Instant} {now : Instant}
    (h : Fits limit admitted turns attempts) (hOrder : ∀ turn ∈ turns, turn ≤ now)
    (hAdmit : tryAdmit attempts now limit = (result, after)) :
    Fits limit (admitted ++ if result.toBool then [now] else []) (turns ++ [now]) after := by
  obtain ⟨expired, hSplit, hOver⟩ := h.split
  obtain ⟨slid, hSlid, hOld⟩ := exists_slid id rateWindow now attempts
  have hGone : ∀ instant ∈ expired ++ slid, instant + rateWindow ≤ now := by
    intro instant hMem
    rcases List.mem_append.mp hMem with hMem | hMem
    · obtain ⟨turn, hTurn, hEnd⟩ := hOver instant hMem
      exact hEnd.trans (hOrder turn hTurn)
    · exact hOld instant hMem
  have hAll : admitted = (expired ++ slid) ++ slide id rateWindow now attempts := by
    rw [List.append_assoc, ← hSlid, hSplit]
  have hExpired : ∀ instant ∈ expired ++ slid, ∃ turn ∈ turns ++ [now],
      instant + rateWindow ≤ turn :=
    fun instant hMem => ⟨now, by simp, hGone instant hMem⟩
  rcases tryAdmit_cases hAdmit with ⟨hRefused, rfl⟩ | ⟨hAdmitted, rfl, hFree⟩
  · rw [hRefused, if_neg Bool.false_ne_true, List.append_nil]
    exact ⟨⟨expired ++ slid, hAll, hExpired⟩, h.limited⟩
  · rw [hAdmitted, if_pos rfl]
    refine ⟨⟨expired ++ slid, by rw [hAll, List.append_assoc], hExpired⟩, fun start => ?_⟩
    rw [List.countP_append]
    by_cases hSpan : InSpan start now
    · -- What the queue no longer holds is over before the window starts.
      have hNone : (expired ++ slid).countP (InSpan start) = 0 := by
        refine List.countP_eq_zero.mpr fun instant hMem => ?_
        have hEnd := hGone instant hMem
        rw [decide_eq_true_eq]
        rintro ⟨hStart, -⟩
        exact absurd hSpan.2 (not_lt.mpr ((Nat.add_le_add_right hStart _).trans hEnd))
      have hKept : (slide id rateWindow now attempts).countP (InSpan start) ≤
          (slide id rateWindow now attempts).length := List.countP_le_length
      have hNew : ([now] : List Instant).countP (InSpan start) ≤ 1 := List.countP_le_length
      rw [hAll, List.countP_append, hNone]
      omega
    · rw [List.countP_singleton, if_neg (by simpa using hSpan), Nat.add_zero]
      exact h.limited start

namespace Limiter

variable {key : GatewayApiKeyId} {limit : RequestsPerMinute} {limiter after : Limiter}

/-- A binding that is in use: the key has its current handle and its limit, and
another key has another handle. -/
structure InUse (key : GatewayApiKeyId) (limit : RequestsPerMinute)
    (registry : GatewayApiKeyRateRegistry) (id : GatewayApiKeyId)
    (binding : GatewayApiKeyRateBinding) : Prop where
  below : binding.handle < registry.created
  own : id = key → registry.handles key = some binding.handle ∧
    binding.requestsPerMinute = some limit
  other : id ≠ key → registry.handles key ≠ some binding.handle

structure Kept (key : GatewayApiKeyId) (limit : RequestsPerMinute) (limiter : Limiter) :
    Prop where
  published : ∀ bindings ∈ limiter.published, ∀ id binding, bindings id = some binding →
    InUse key limit limiter.registry id binding
  waiting : ∀ request ∈ limiter.waiting,
    InUse key limit limiter.registry request.id request.binding
  unused : ∀ handle, limiter.registry.created ≤ handle → limiter.attempts handle = []
  silent : limiter.registry.handles key = none → admitted limiter.served key = [] ∧
    turns limiter.served key = []
  fits : ∀ handle, limiter.registry.handles key = some handle →
    Fits limit (admitted limiter.served key) (turns limiter.served key) (limiter.attempts handle)

theorem Kept.initial : Kept key limit initial where
  published := by simp [Limiter.initial]
  waiting := by simp [Limiter.initial]
  unused := by simp [Limiter.initial]
  silent := by simp [Limiter.initial, admitted, turns]
  fits := by simp [Limiter.initial, GatewayApiKeyRateRegistry.empty]

/-- A reconfiguration that keeps the key leaves every binding in use. -/
theorem Kept.reconcile (h : Kept key limit limiter) {specs : List Spec}
    (hKeeps : limiter.KeepsLimit key limit (.reconcile specs)) :
    Kept key limit { limiter with
      registry := (limiter.registry.reconcileSpecs specs).1
      published := limiter.published ++ [(limiter.registry.reconcileSpecs specs).2] } := by
  obtain ⟨hLimit, hStays⟩ := hKeeps
  have hLoop := reconciled limiter.registry specs
  unfold GatewayApiKeyRateRegistry.reconcileSpecs
  generalize specs.foldl reconcileSpec (limiter.registry, fun _ => none) = state at hLoop
  obtain ⟨registry, bindings⟩ := state
  obtain ⟨hGrows, hKept, hOrigin, hBound⟩ := hLoop
  dsimp only at hGrows hKept hOrigin hBound ⊢
  have hKey : ∀ handle, limiter.registry.handles key = some handle →
      (registry.retain (specs.map Prod.fst)).handles key = some handle := by
    intro handle hHandle
    have hActive := hStays (by rw [hHandle]; rfl)
    exact (if_pos hActive).trans (hKept key handle hHandle)
  have hBack : ∀ handle, (registry.retain (specs.map Prod.fst)).handles key = some handle →
      limiter.registry.handles key = some handle ∨ limiter.registry.created ≤ handle := by
    intro handle hHandle
    exact (hOrigin key handle (Option.ite_none_right_eq_some.mp hHandle).2).imp_right And.left
  have hUse : ∀ id binding, InUse key limit limiter.registry id binding →
      InUse key limit (registry.retain (specs.map Prod.fst)) id binding := by
    intro id binding hUse
    refine ⟨hUse.below.trans_le hGrows, fun hId => ?_, fun hId hHandle => ?_⟩
    · exact ⟨hKey _ (hUse.own hId).1, (hUse.own hId).2⟩
    · rcases hBack _ hHandle with hOld | hNew
      · exact hUse.other hId hOld
      · exact absurd hUse.below (not_lt.mpr hNew)
  refine ⟨?_, fun request hRequest => hUse _ _ (h.waiting request hRequest),
    fun handle hHandle => h.unused handle (hGrows.trans hHandle), fun hNone => ?_,
    fun handle hHandle => ?_⟩
  · intro entry hEntry id binding hBinding
    rcases List.mem_append.mp hEntry with hOld | hNew
    · exact hUse _ _ (h.published entry hOld id binding hBinding)
    · obtain rfl := List.mem_singleton.mp hNew
      obtain ⟨hHandle, hSpec⟩ := hBound id binding hBinding
      have hActive : id ∈ specs.map Prod.fst := List.mem_map_of_mem hSpec
      refine ⟨registry.below id _ hHandle, ?_, fun hId hShared => hId ?_⟩
      · rintro rfl
        exact ⟨(if_pos hActive).trans hHandle, hLimit _ hSpec rfl⟩
      · exact registry.injective _ _ _ hHandle (Option.ite_none_right_eq_some.mp hShared).2
  · refine h.silent (Option.eq_none_iff_forall_ne_some.mpr fun handle hHandle => ?_)
    rw [hKey handle hHandle] at hNone
    cases hNone
  · rcases hBack handle hHandle with hOld | hNew
    · exact h.fits handle hOld
    · -- The key is new; it was never asked for before.
      have hAbsent : limiter.registry.handles key = none := by
        refine Option.eq_none_iff_forall_ne_some.mpr fun found hFound => ?_
        have hSame := Option.some.inj ((hKey found hFound).symm.trans hHandle)
        have := limiter.registry.below key found hFound
        omega
      obtain ⟨hAdmitted, hTurns⟩ := h.silent hAbsent
      rw [hAdmitted, hTurns, h.unused handle hNew]
      exact .empty limit

/-- A turn changes the queue of its handle and is recorded. -/
theorem serve_eq (limiter : Limiter) (request : Request) :
    ∃ admission queue,
      limiter.serve request = { limiter with
        attempts := update limiter.attempts request.binding.handle queue
        served := limiter.served ++ [(request, admission)] } ∧
      ∀ limit, request.binding.requestsPerMinute = some limit →
        ∃ result, tryAdmit (limiter.attempts request.binding.handle) request.now limit =
          (result, queue) ∧ result.toBool = admission := by
  unfold serve
  cases request.binding.requestsPerMinute with
  | none =>
    refine ⟨true, limiter.attempts request.binding.handle, ?_, fun _ h => by cases h⟩
    rw [update_eq_self]
  | some limit =>
    refine ⟨_, _, rfl, fun _ h => ?_⟩
    cases h
    exact ⟨_, rfl, rfl⟩

theorem admitted_append (served : List (Request × Bool)) (request : Request) (admission : Bool) :
    admitted (served ++ [(request, admission)]) key =
      admitted served key ++ if request.id = key ∧ admission then [request.now] else [] := by
  simp only [admitted, List.filter_append, List.map_append, List.filter_cons, List.filter_nil]
  split <;> simp_all

theorem turns_append (served : List (Request × Bool)) (request : Request) (admission : Bool) :
    turns (served ++ [(request, admission)]) key =
      turns served key ++ if request.id = key then [request.now] else [] := by
  simp only [turns, List.filter_append, List.map_append, List.filter_cons, List.filter_nil]
  split <;> simp_all

theorem Kept.serve (h : Kept key limit limiter) {request : Request}
    (hUse : InUse key limit limiter.registry request.id request.binding)
    (hOrder : request.id = key → ∀ instant ∈ turns limiter.served key, instant ≤ request.now) :
    Kept key limit (limiter.serve request) := by
  obtain ⟨admission, queue, hServe, hQueue⟩ := limiter.serve_eq request
  rw [hServe]
  refine ⟨h.published, h.waiting, fun handle hNew => ?_, fun hNone => ?_, fun handle hHandle => ?_⟩
  · have hHandle : handle ≠ request.binding.handle := by
      rintro rfl
      exact absurd hUse.below (not_lt.mpr hNew)
    exact (update_of_ne hHandle _ _).trans (h.unused handle hNew)
  · have hId : request.id ≠ key := fun hId => by
      cases (hUse.own hId).1.symm.trans hNone
    rw [admitted_append, turns_append, if_neg fun hBoth => hId hBoth.1, if_neg hId,
      List.append_nil, List.append_nil]
    exact h.silent hNone
  · rw [admitted_append, turns_append]
    by_cases hId : request.id = key
    · obtain ⟨hSame, hLimit⟩ := hUse.own hId
      cases hSame.symm.trans hHandle
      obtain ⟨result, hAdmit, rfl⟩ := hQueue limit hLimit
      dsimp only
      rw [update_self, if_pos hId]
      simpa only [hId, true_and] using (h.fits _ hSame).turn (hOrder hId) hAdmit
    · have hOther : handle ≠ request.binding.handle := by
        rintro rfl
        exact hUse.other hId hHandle
      dsimp only
      rw [update_of_ne hOther, if_neg fun hBoth => hId hBoth.1, if_neg hId,
        List.append_nil, List.append_nil]
      exact h.fits handle hHandle

theorem Kept.step {label : Label} (h : Kept key limit limiter)
    (hKeeps : limiter.KeepsLimit key limit label) (hOrder : limiter.ServesInOrder key label)
    (hStep : limiter.step label = some after) : Kept key limit after := by
  cases label with
  | reconcile specs => exact Option.some.inj hStep ▸ h.reconcile hKeeps
  | arrive configuration id now =>
    simp only [Limiter.step, Option.bind_eq_bind, Option.bind_eq_some_iff,
      Option.ite_none_right_eq_some, Option.some.injEq] at hStep
    obtain ⟨bindings, hBindings, binding, hBinding, -, rfl⟩ := hStep
    exact { h with
      waiting := Entries.forall_mem_concat h.waiting
        (h.published bindings (List.mem_of_getElem? hBindings) id binding hBinding) }
  | tryAdmit position =>
    obtain ⟨request, hRequest, hAfter⟩ := Option.bind_eq_some_iff.mp hStep
    rw [← Option.some.inj hAfter]
    have hLeft : Kept key limit { limiter with waiting := limiter.waiting.eraseIdx position } :=
      { h with waiting := fun other hOther => h.waiting other (List.mem_of_mem_eraseIdx hOther) }
    exact hLeft.serve (h.waiting request (List.mem_of_getElem? hRequest)) (hOrder request hRequest)

/-- As long as the requests of a key have their turns in the order of their
arrival and reconfigurations keep its limit, no minute contains more admitted
requests than the limit. -/
theorem run_admits_within_limit (key : GatewayApiKeyId) (limit : RequestsPerMinute)
    (labels : List Label) (limiter : Limiter)
    (hRun : run step labels initial = some limiter)
    (hAlong : Along step (fun limiter label =>
      limiter.KeepsLimit key limit label ∧ limiter.ServesInOrder key label) labels initial)
    (start : Instant) : (admitted limiter.served key).countP (InSpan start) ≤ limit.get := by
  have hKept : Kept key limit limiter :=
    invariant_of_along (fun _ _ _ h hBoth hStep => h.step hBoth.1 hBoth.2 hStep) .initial
      hAlong hRun
  cases hHandle : limiter.registry.handles key with
  | none =>
    rw [(hKept.silent hHandle).1]
    exact Nat.zero_le _
  | some handle => exact (hKept.fits handle hHandle).limited start

/-- A request that arrives at 159 s has its turn before or after one that arrives
at 161 s; the positions say which. -/
def lateArrivals (first second : Nat) : List Label :=
  [.reconcile [(0, some twoPerMinute)], .arrive 0 0 (seconds 100), .tryAdmit 0,
    .arrive 0 0 (seconds 101), .reconcile [(1, none), (0, some twoPerMinute)], .tryAdmit 0,
    .arrive 1 0 (seconds 159), .arrive 0 0 (seconds 161), .tryAdmit first, .tryAdmit second]

/-- In the order of arrival the request of 159 s is refused. -/
theorem run_admits_within_limit_in_order :
    ∃ limiter, run step (lateArrivals 0 0) initial = some limiter ∧
      admitted limiter.served 0 = [seconds 100, seconds 101, seconds 161] ∧
      (admitted limiter.served 0).countP (InSpan (seconds 100)) ≤ 2 := by
  have hAdmitted : (run step (lateArrivals 0 0) initial).map (admitted ·.served 0) =
      some [seconds 100, seconds 101, seconds 161] := by
    decide +kernel
  obtain ⟨limiter, hRun, hInstants⟩ := Option.map_eq_some_iff.mp hAdmitted
  exact ⟨limiter, hRun, hInstants,
    run_admits_within_limit 0 twoPerMinute _ limiter hRun (by decide +kernel) (seconds 100)⟩

/-- When the later request has its turn first, it takes the first two out of the
queue, and the earlier one is admitted as the third within a minute. -/
theorem overtaking_admits_beyond_limit :
    ∃ limiter, run step (lateArrivals 1 0) initial = some limiter ∧
      Along step (fun limiter label => limiter.KeepsLimit 0 twoPerMinute label)
        (lateArrivals 1 0) initial ∧
      twoPerMinute.get < (admitted limiter.served 0).countP (InSpan (seconds 100)) := by
  have hAdmitted : (run step (lateArrivals 1 0) initial).map (admitted ·.served 0) =
      some [seconds 100, seconds 101, seconds 161, seconds 159] := by
    decide +kernel
  obtain ⟨limiter, hRun, hInstants⟩ := Option.map_eq_some_iff.mp hAdmitted
  refine ⟨limiter, hRun, by decide +kernel, ?_⟩
  rw [hInstants]
  decide

end Limiter

end Any2Api.Runtime.GatewayApiKey
