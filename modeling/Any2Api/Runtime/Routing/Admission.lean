import Any2Api.Library.Entries
import Any2Api.Library.Runs
import Any2Api.Runtime.Domain
import Mathlib.Data.Finmap

/-! Admissions of routes. An admission is shared by the configurations that have its
route; a publication revokes those that are not in the new configuration. The
registry holds its entries weakly and is protected by a lock, but a start reads the
flag of an admission without it, so a publication is visible step by step. -/
namespace Any2Api.Runtime.Routing

open Runs Entries

structure RouteAdmissionIdentity where
  credentialId : RoutingCredentialId
  routingGeneration : Nat
  endpointId : Nat
  endpointConfigVersion : Nat
  proxyId : Nat
  proxyConfigVersion : Nat
  deriving DecidableEq

structure RouteAdmission where
  identity : RouteAdmissionIdentity
  incarnation : Nat
  active : Bool
  /-- The number of strong references; without one the object is gone. -/
  strong : Nat
  /-- The publication that revoked the admission. It is not in the program. -/
  revokedBy : Option Nat
  deriving DecidableEq

/-- A call of `publish_current` with the incarnations it has collected. -/
structure Publication where
  /-- The admissions of the new configuration. -/
  members : List Nat
  current : List Nat
  deriving DecidableEq

/-- Admissions are objects on the heap and are named by their number. -/
structure RouteAdmissionRegistry where
  nextIncarnation : Nat
  byIdentity : Finmap fun _ : RouteAdmissionIdentity => Nat
  objects : List RouteAdmission
  /-- Calls that wait for the lock. -/
  waiting : List Publication
  /-- The call that has the lock, and the entries it has not seen. -/
  publishing : Option (Publication × List RouteAdmissionIdentity)
  /-- The number of publications that are finished. -/
  published : Nat
  /-- The attempts to start, and whether they succeeded. -/
  starts : List (Nat × Bool)

inductive AdmissionLabel where
  | prepare (identity : RouteAdmissionIdentity)
  | clone (admission : Nat)
  | drop (admission : Nat)
  | tryStart (admission : Nat)
  | collect (members : List Nat)
  | lock (call : Nat) (order : List RouteAdmissionIdentity)
  | visit
  | unlock

namespace RouteAdmissionRegistry

def initial : RouteAdmissionRegistry where
  nextIncarnation := 1
  byIdentity := ∅
  objects := []
  waiting := []
  publishing := none
  published := 0
  starts := []

/-- An object that still has strong references. -/
def upgrade (registry : RouteAdmissionRegistry) (index : Nat) : Option RouteAdmission := do
  let admission ← registry.objects[index]?
  if 0 < admission.strong then some admission else none

def setObject (registry : RouteAdmissionRegistry) (index : Nat) (admission : RouteAdmission) :
    RouteAdmissionRegistry :=
  { registry with objects := registry.objects.set index admission }

/-- The active admission of an identity that is still alive. -/
def activeOf (registry : RouteAdmissionRegistry) (identity : RouteAdmissionIdentity) :
    Option (Nat × RouteAdmission) := do
  let index ← registry.byIdentity.lookup identity
  let admission ← registry.upgrade index
  if admission.active then some (index, admission) else none

/-- The caller gets a strong reference, to a new object if there is no active one. -/
def prepare (registry : RouteAdmissionRegistry) (identity : RouteAdmissionIdentity) :
    RouteAdmissionRegistry :=
  match registry.activeOf identity with
  | some (index, admission) =>
    registry.setObject index { admission with strong := admission.strong + 1 }
  | none =>
    { registry with
      nextIncarnation := registry.nextIncarnation + 1
      byIdentity := registry.byIdentity.insert identity registry.objects.length
      objects := registry.objects ++ [⟨identity, registry.nextIncarnation, true, 1, none⟩] }

/-- A successful start keeps a reference to the admission. -/
def tryStart (registry : RouteAdmissionRegistry) (index : Nat) (admission : RouteAdmission) :
    RouteAdmissionRegistry :=
  if admission.active then
    { registry.setObject index { admission with strong := admission.strong + 1 } with
      starts := registry.starts ++ [(index, true)] }
  else
    { registry with starts := registry.starts ++ [(index, false)] }

/-- One turn of `retain`. -/
def visit (registry : RouteAdmissionRegistry) (current : List Nat)
    (identity : RouteAdmissionIdentity) : RouteAdmissionRegistry :=
  match registry.byIdentity.lookup identity with
  | none => registry
  | some index =>
    match registry.upgrade index with
    | none => { registry with byIdentity := registry.byIdentity.erase identity }
    | some admission =>
      if admission.incarnation ∈ current then
        registry
      else
        { registry.setObject index { admission with
            active := false
            revokedBy := admission.revokedBy.or (some registry.published) } with
          byIdentity := registry.byIdentity.erase identity }

def step (registry : RouteAdmissionRegistry) : AdmissionLabel → Option RouteAdmissionRegistry
  | .prepare identity =>
    if registry.publishing = none then some (registry.prepare identity) else none
  | .clone index => do
      let admission ← registry.upgrade index
      some (registry.setObject index { admission with strong := admission.strong + 1 })
  | .drop index => do
      let admission ← registry.upgrade index
      some (registry.setObject index { admission with strong := admission.strong - 1 })
  | .tryStart index => do
      let admission ← registry.upgrade index
      some (registry.tryStart index admission)
  | .collect members => do
      let admissions ← members.mapM registry.upgrade
      some { registry with
        waiting := registry.waiting ++ [⟨members, admissions.map (·.incarnation)⟩] }
  | .lock position order => do
      let call ← registry.waiting[position]?
      -- The order in which a hash map shows its entries is arbitrary.
      if registry.publishing = none ∧ order.Nodup ∧ order.toFinset = registry.byIdentity.keys then
        some { registry with
          waiting := registry.waiting.eraseIdx position
          publishing := some (call, order) }
      else
        none
  | .visit =>
    match registry.publishing with
    | some (call, identity :: rest) =>
      some { registry.visit call.current identity with publishing := some (call, rest) }
    | _ => none
  | .unlock =>
    match registry.publishing with
    | some (_, []) =>
      some { registry with publishing := none, published := registry.published + 1 }
    | _ => none

/-- What holds of every admission that was handed out. -/
structure ObjectKept (byIdentity : Finmap fun _ : RouteAdmissionIdentity => Nat)
    (publishing : Option (Publication × List RouteAdmissionIdentity)) (published index : Nat)
    (admission : RouteAdmission) : Prop where
  numbered : admission.incarnation = index + 1
  entered : admission.active = true → 0 < admission.strong →
    byIdentity.lookup admission.identity = some index
  flagged : admission.active = true ↔ admission.revokedBy = none
  dated : ∀ publication, admission.revokedBy = some publication →
    publication < published ∨ publication = published ∧
      ∃ call rest, publishing = some (call, rest) ∧ index ∉ call.members

/-- Incarnations number the objects, an active object that is alive is the entry of
its identity, and of the entries that a publication has seen only members are left. -/
structure Kept (registry : RouteAdmissionRegistry) : Prop where
  next : registry.nextIncarnation = registry.objects.length + 1
  each : ∀ index admission, registry.objects[index]? = some admission →
    ObjectKept registry.byIdentity registry.publishing registry.published index admission
  entry : ∀ identity index, registry.byIdentity.lookup identity = some index →
    ∃ admission, registry.objects[index]? = some admission ∧ admission.identity = identity
  waits : ∀ call ∈ registry.waiting, call.current = call.members.map (· + 1)
  seen : ∀ call rest, registry.publishing = some (call, rest) →
    call.current = call.members.map (· + 1) ∧
      ∀ identity index, registry.byIdentity.lookup identity = some index → identity ∉ rest →
        index ∈ call.members

variable {registry after : RouteAdmissionRegistry} {index : Nat} {admission : RouteAdmission}
  {identity : RouteAdmissionIdentity} {other : Nat} {call : Publication}
  {rest : List RouteAdmissionIdentity} {label : AdmissionLabel}

theorem Kept.initial : initial.Kept where
  next := rfl
  each := by simp [RouteAdmissionRegistry.initial]
  entry := by simp [RouteAdmissionRegistry.initial]
  waits := by simp [RouteAdmissionRegistry.initial]
  seen := by simp [RouteAdmissionRegistry.initial]

theorem upgrade_eq_some : registry.upgrade index = some admission ↔
    registry.objects[index]? = some admission ∧ 0 < admission.strong := by
  simp only [upgrade, Option.bind_eq_bind, Option.bind_eq_some_iff, Option.ite_none_right_eq_some,
    Option.some.injEq]
  constructor
  · rintro ⟨_, hFound, hStrong, rfl⟩
    exact ⟨hFound, hStrong⟩
  · exact fun ⟨hFound, hStrong⟩ => ⟨admission, hFound, hStrong, rfl⟩

theorem activeOf_eq_some (h : registry.activeOf identity = some (index, admission)) :
    registry.objects[index]? = some admission ∧ 0 < admission.strong := by
  simp only [activeOf, Option.bind_eq_bind, Option.bind_eq_some_iff, upgrade_eq_some,
    Option.ite_none_right_eq_some, Option.some.injEq, Prod.mk.injEq] at h
  obtain ⟨_, -, _, hObject, -, rfl, rfl⟩ := h
  exact hObject

section

variable (h : registry.Kept)
include h

/-- References come and go; an object without one does not get any. -/
theorem Kept.setStrong (hObject : registry.objects[index]? = some admission)
    {strong : Nat} (hStrong : 0 < strong → 0 < admission.strong) :
    (registry.setObject index { admission with strong }).Kept := by
  refine { h with
    next := by simpa [setObject] using h.next
    each := fun other found hFound => ?_
    entry := fun key other hLookup =>
      exists_getElem?_set hObject id (h.entry key other hLookup) }
  rcases getElem?_set_eq_some.mp hFound with ⟨-, hOld⟩ | ⟨rfl, -, rfl⟩
  · exact h.each other found hOld
  · have hOwn := h.each other admission hObject
    exact { hOwn with entered := fun hActive hAlive => hOwn.entered hActive (hStrong hAlive) }

theorem Kept.prepare (hFree : registry.publishing = none)
    (identity : RouteAdmissionIdentity) : (registry.prepare identity).Kept := by
  unfold RouteAdmissionRegistry.prepare
  split
  next index admission hActive =>
    obtain ⟨hObject, hAlive⟩ := activeOf_eq_some hActive
    exact h.setStrong hObject fun _ => hAlive
  next hNone =>
    -- An active admission of the identity that is alive would have been found.
    have hAbsent : ∀ (index : Nat) (admission : RouteAdmission),
        registry.objects[index]? = some admission → admission.active = true →
          0 < admission.strong → admission.identity ≠ identity := by
      rintro index admission hObject hActive hAlive rfl
      have hLookup := (h.each index admission hObject).entered hActive hAlive
      simp [activeOf, upgrade, hLookup, hObject, hActive, hAlive] at hNone
    refine { h with
      next := by simp [h.next]
      each := fun index admission hObject => ?_
      entry := fun key index hLookup => ?_
      seen := fun call rest hPublishing => by cases hFree.symm.trans hPublishing }
    · rcases getElem?_concat_eq_some.mp hObject with hObject | ⟨rfl, rfl⟩
      · have hOld := h.each index admission hObject
        refine { hOld with entered := fun hActive hAlive => ?_ }
        have hOther := hAbsent index admission hObject hActive hAlive
        exact (Finmap.lookup_insert_of_ne _ hOther).trans (hOld.entered hActive hAlive)
      · exact ⟨h.next, fun _ _ => Finmap.lookup_insert _, by simp, by simp⟩
    · by_cases hKey : key = identity
      · subst hKey
        rw [Finmap.lookup_insert] at hLookup
        cases hLookup
        exact ⟨⟨key, registry.nextIncarnation, true, 1, none⟩, by simp, rfl⟩
      · rw [Finmap.lookup_insert_of_ne _ hKey] at hLookup
        obtain ⟨found, hFound, hIdentity⟩ := h.entry key index hLookup
        exact ⟨found, getElem?_concat_eq_some.mpr (.inl hFound), hIdentity⟩

/-- The rest of a publication is one entry shorter. -/
theorem Kept.skip (hPublishing : registry.publishing = some (call, identity :: rest))
    (hSeen : ∀ index, registry.byIdentity.lookup identity = some index → index ∈ call.members) :
    Kept { registry with publishing := some (call, rest) } := by
  obtain ⟨hCurrent, hMembers⟩ := h.seen call _ hPublishing
  refine { h with each := fun index admission hObject => ?_, seen := ?_ }
  · have hOld := h.each index admission hObject
    refine { hOld with dated := fun publication hRevoked => ?_ }
    refine (hOld.dated publication hRevoked).imp_right ?_
    rintro ⟨hNow, found, left, hFound, hNot⟩
    cases hPublishing.symm.trans hFound
    exact ⟨hNow, call, rest, rfl, hNot⟩
  · intro found left hFound
    cases hFound
    refine ⟨hCurrent, fun key index hLookup hKey => ?_⟩
    by_cases hSame : key = identity
    · exact hSeen index (hSame ▸ hLookup)
    · exact hMembers key index hLookup (by simp [hSame, hKey])

/-- An entry can go when no active object that is alive needs it. -/
theorem Kept.erase (identity : RouteAdmissionIdentity)
    (hGone : ∀ (index : Nat) (admission : RouteAdmission),
      registry.objects[index]? = some admission → admission.active = true →
        0 < admission.strong → admission.identity ≠ identity) :
    Kept { registry with byIdentity := registry.byIdentity.erase identity } := by
  have hLess : ∀ key index, (registry.byIdentity.erase identity).lookup key = some index →
      registry.byIdentity.lookup key = some index := by
    intro key index hLookup
    by_cases hKey : key = identity
    · rw [hKey, Finmap.lookup_erase] at hLookup
      cases hLookup
    · rwa [Finmap.lookup_erase_ne hKey] at hLookup
  refine { h with
    each := fun index admission hObject => ?_
    entry := fun key index hLookup => h.entry key index (hLess key index hLookup)
    seen := fun call rest hPublishing => (h.seen call rest hPublishing).imp_right
      fun hMembers key index hLookup => hMembers key index (hLess key index hLookup) }
  have hOld := h.each index admission hObject
  refine { hOld with entered := fun hActive hAlive => ?_ }
  exact (Finmap.lookup_erase_ne (hGone index admission hObject hActive hAlive)).trans
    (hOld.entered hActive hAlive)

/-- A publication revokes an object that is not among its members. -/
theorem Kept.revoke (hPublishing : registry.publishing = some (call, rest))
    (hObject : registry.objects[index]? = some admission) (hNot : index ∉ call.members) :
    (registry.setObject index { admission with
      active := false
      revokedBy := admission.revokedBy.or (some registry.published) }).Kept := by
  refine { h with
    next := by simpa [setObject] using h.next
    each := fun other found hFound => ?_
    entry := fun key other hLookup =>
      exists_getElem?_set hObject id (h.entry key other hLookup) }
  rcases getElem?_set_eq_some.mp hFound with ⟨-, hOld⟩ | ⟨rfl, -, rfl⟩
  · exact h.each other found hOld
  · have hOwn := h.each other admission hObject
    refine ⟨hOwn.numbered, (fun hActive => by cases hActive), by simp,
      fun publication hRevoked => ?_⟩
    rcases Option.or_eq_some_iff.mp hRevoked with hBefore | ⟨-, hNow⟩
    · exact hOwn.dated publication hBefore
    · exact .inr ⟨(Option.some.inj hNow).symm, call, rest, hPublishing, hNot⟩

theorem Kept.visit (hPublishing : registry.publishing = some (call, identity :: rest)) :
    Kept { registry.visit call.current identity with publishing := some (call, rest) } := by
  obtain ⟨hCurrent, -⟩ := h.seen call _ hPublishing
  unfold RouteAdmissionRegistry.visit
  cases hLookup : registry.byIdentity.lookup identity with
  | none => exact h.skip hPublishing fun index hIndex => by cases hLookup.symm.trans hIndex
  | some index =>
    -- The entry is the only object that can be active and alive under the identity.
    have hOnly : ∀ (other : Nat) (found : RouteAdmission),
        registry.objects[other]? = some found → found.active = true → 0 < found.strong →
          found.identity = identity → other = index := by
      rintro other found hFound hActive hAlive rfl
      exact Option.some.inj
        (((h.each other found hFound).entered hActive hAlive).symm.trans hLookup)
    have hErased : (registry.byIdentity.erase identity).lookup identity = none :=
      Finmap.lookup_erase _ _
    dsimp only
    cases hUpgrade : registry.upgrade index with
    | none =>
      have hKept := h.erase identity fun other found hFound hActive hAlive hSame => by
        cases hOnly other found hFound hActive hAlive hSame
        simp [upgrade, hFound, hAlive] at hUpgrade
      exact hKept.skip hPublishing fun _ hIndex => by cases hErased.symm.trans hIndex
    | some admission =>
      obtain ⟨hObject, hAlive⟩ := upgrade_eq_some.mp hUpgrade
      have hNumber := (h.each index admission hObject).numbered
      have hMember : admission.incarnation ∈ call.current ↔ index ∈ call.members := by
        rw [hCurrent, hNumber]
        simp
      dsimp only
      split
      next hKeep =>
        refine h.skip hPublishing fun found hFound => ?_
        cases hLookup.symm.trans hFound
        exact hMember.mp hKeep
      next hRevoke =>
        have hRevoked := h.revoke hPublishing hObject (fun hIn => hRevoke (hMember.mpr hIn))
        have hKept := hRevoked.erase identity
          fun other found hFound hActive hStrong hSame => by
            rcases getElem?_set_eq_some.mp hFound with ⟨hOther, hOld⟩ | ⟨-, -, rfl⟩
            · exact hOther (hOnly other found hOld hActive hStrong hSame)
            · cases hActive
        exact hKept.skip hPublishing fun _ hIndex => by cases hErased.symm.trans hIndex

theorem Kept.tryStart (hObject : registry.objects[index]? = some admission)
    (hAlive : 0 < admission.strong) : (registry.tryStart index admission).Kept := by
  unfold RouteAdmissionRegistry.tryStart
  split
  · exact { h.setStrong hObject (fun _ : 0 < admission.strong + 1 => hAlive) with }
  · exact { h with }

theorem Kept.incarnations {members : List Nat} {admissions : List RouteAdmission}
    (hMembers : members.mapM registry.upgrade = some admissions) :
    admissions.map (·.incarnation) = members.map (· + 1) := by
  induction members generalizing admissions with
  | nil =>
    cases hMembers
    rfl
  | cons index members ih =>
    rw [List.mapM_cons] at hMembers
    obtain ⟨admission, hUpgrade, hMembers⟩ := Option.bind_eq_some_iff.mp hMembers
    obtain ⟨rest, hRest, hAll⟩ := Option.bind_eq_some_iff.mp hMembers
    cases hAll
    obtain ⟨hObject, -⟩ := upgrade_eq_some.mp hUpgrade
    rw [List.map_cons, List.map_cons, ih hRest, (h.each index admission hObject).numbered]

theorem Kept.lock (hFree : registry.publishing = none)
    (hCall : call ∈ registry.waiting) (position : Nat) {order : List RouteAdmissionIdentity}
    (hOrder : order.toFinset = registry.byIdentity.keys) :
    Kept { registry with
      waiting := registry.waiting.eraseIdx position
      publishing := some (call, order) } := by
  refine { h with
    each := fun index admission hObject => ?_
    waits := fun other hOther => h.waits other (List.mem_of_mem_eraseIdx hOther)
    seen := ?_ }
  · have hOld := h.each index admission hObject
    refine { hOld with dated := fun publication hRevoked => .inl ?_ }
    rcases hOld.dated publication hRevoked with hBefore | ⟨-, found, rest, hFound, -⟩
    · exact hBefore
    · cases hFree.symm.trans hFound
  · intro found rest hFound
    cases hFound
    refine ⟨h.waits call hCall, fun identity index hLookup hNot => absurd ?_ hNot⟩
    rw [← List.mem_toFinset, hOrder, Finmap.mem_keys]
    exact Finmap.mem_of_lookup_eq_some hLookup

theorem Kept.unlock :
    Kept { registry with publishing := none, published := registry.published + 1 } := by
  refine { h with each := fun index admission hObject => ?_, seen := nofun }
  have hOld := h.each index admission hObject
  refine { hOld with dated := fun publication hRevoked => .inl ?_ }
  rcases hOld.dated publication hRevoked with hBefore | ⟨hNow, -⟩
  · exact Nat.lt_succ_of_lt hBefore
  · exact hNow ▸ Nat.lt_succ_self _

end

theorem Kept.step (h : registry.Kept) (hStep : registry.step label = some after) : after.Kept := by
  cases label <;> simp only [RouteAdmissionRegistry.step, Option.bind_eq_bind,
    Option.bind_eq_some_iff, upgrade_eq_some, Option.ite_none_right_eq_some,
    Option.some.injEq] at hStep
  case prepare identity =>
    obtain ⟨hFree, rfl⟩ := hStep
    exact h.prepare hFree identity
  case clone index | drop index =>
    obtain ⟨admission, ⟨hObject, hAlive⟩, rfl⟩ := hStep
    exact h.setStrong hObject fun _ => hAlive
  case tryStart index =>
    obtain ⟨admission, ⟨hObject, hAlive⟩, rfl⟩ := hStep
    exact h.tryStart hObject hAlive
  case collect members =>
    obtain ⟨admissions, hMembers, rfl⟩ := hStep
    exact { h with waits := forall_mem_concat h.waits (h.incarnations hMembers) }
  case lock position order =>
    obtain ⟨call, hCall, ⟨hFree, -, hOrder⟩, rfl⟩ := hStep
    exact h.lock hFree (List.mem_of_getElem? hCall) position hOrder
  case visit =>
    split at hStep
    next call identity rest hPublishing => exact Option.some.inj hStep ▸ h.visit hPublishing
    next => cases hStep
  case unlock =>
    split at hStep
    next => exact Option.some.inj hStep ▸ h.unlock
    next => cases hStep

/-- What is revoked stays so, and its later starts fail. -/
def Follows (registry after : RouteAdmissionRegistry) : Prop :=
  ∃ started, after.starts = registry.starts ++ started ∧
    ∀ (index : Nat) (admission : RouteAdmission), registry.objects[index]? = some admission →
      admission.active = false →
        (∃ later, after.objects[index]? = some later ∧ later.active = false) ∧
          ∀ entry ∈ started, entry.1 = index → entry.2 = false

theorem Follows.refl (registry : RouteAdmissionRegistry) : registry.Follows registry :=
  ⟨[], (List.append_nil _).symm, fun _ admission hObject hInactive =>
    ⟨⟨admission, hObject, hInactive⟩, by simp⟩⟩

theorem Follows.trans {middle : RouteAdmissionRegistry} (h : registry.Follows middle)
    (hNext : middle.Follows after) : registry.Follows after := by
  obtain ⟨started, hStarts, hKeeps⟩ := h
  obtain ⟨more, hMore, hKeepsNext⟩ := hNext
  refine ⟨started ++ more, by rw [hMore, hStarts, List.append_assoc], ?_⟩
  intro index admission hObject hInactive
  obtain ⟨⟨later, hLater, hLaterInactive⟩, hStarted⟩ := hKeeps index admission hObject hInactive
  obtain ⟨hLast, hMoreStarted⟩ := hKeepsNext index later hLater hLaterInactive
  refine ⟨hLast, fun entry hEntry => ?_⟩
  rcases List.mem_append.mp hEntry with hFirst | hSecond
  · exact hStarted entry hFirst
  · exact hMoreStarted entry hSecond

/-- A step without a start that leaves the flags, or clears one. -/
theorem Follows.of_objects (hStarts : after.starts = registry.starts)
    (hObjects : ∀ (index : Nat) (admission : RouteAdmission),
      registry.objects[index]? = some admission → admission.active = false →
        ∃ later, after.objects[index]? = some later ∧ later.active = false) :
    registry.Follows after :=
  ⟨[], hStarts.trans (List.append_nil _).symm, fun index admission hObject hInactive =>
    ⟨hObjects index admission hObject hInactive, by simp⟩⟩

theorem Follows.set {changed : RouteAdmission} (hObject : registry.objects[index]? = some admission)
    (hChanged : admission.active = false → changed.active = false) :
    registry.Follows (registry.setObject index changed) :=
  .of_objects rfl fun _ found hFound hInactive =>
    exists_getElem?_set hObject hChanged ⟨found, hFound, hInactive⟩

theorem follows_prepare (registry : RouteAdmissionRegistry) (identity : RouteAdmissionIdentity) :
    registry.Follows (registry.prepare identity) := by
  unfold prepare
  split
  next index admission hActive =>
    obtain ⟨hObject, -⟩ := activeOf_eq_some hActive
    exact .set hObject id
  next =>
    exact .of_objects rfl fun index admission hOld hInactive =>
      ⟨admission, getElem?_concat_eq_some.mpr (.inl hOld), hInactive⟩

theorem follows_visit (registry : RouteAdmissionRegistry) (current : List Nat)
    (identity : RouteAdmissionIdentity) : registry.Follows (registry.visit current identity) := by
  unfold visit
  split
  next => exact .refl registry
  next index _ =>
    split
    next => exact .of_objects rfl fun _ admission hObject hInactive =>
      ⟨admission, hObject, hInactive⟩
    next admission hUpgrade =>
      split
      next => exact .refl registry
      next =>
        exact .set (upgrade_eq_some.mp hUpgrade).1 fun _ => rfl

theorem follows_tryStart (hObject : registry.objects[index]? = some admission) :
    registry.Follows (registry.tryStart index admission) := by
  unfold tryStart
  split
  next hActive =>
    refine ⟨[(index, true)], rfl, fun other found hFound hInactive =>
      ⟨exists_getElem?_set hObject id ⟨found, hFound, hInactive⟩,
        fun entry hEntry hSame => ?_⟩⟩
    rw [List.mem_singleton.mp hEntry] at hSame
    cases hSame
    cases hObject.symm.trans hFound
    exact absurd hActive (by simp [hInactive])
  next =>
    refine ⟨[(index, false)], rfl, fun other found hFound hInactive =>
      ⟨⟨found, hFound, hInactive⟩, fun entry hEntry _ => ?_⟩⟩
    rw [List.mem_singleton.mp hEntry]

theorem follows_step (hStep : registry.step label = some after) : registry.Follows after := by
  have hSame : after.starts = registry.starts → after.objects = registry.objects →
      registry.Follows after := fun hStarts hObjects =>
    .of_objects hStarts fun _ admission hObject hInactive =>
      ⟨admission, hObjects ▸ hObject, hInactive⟩
  cases label <;> simp only [step, Option.bind_eq_bind, Option.bind_eq_some_iff, upgrade_eq_some,
    Option.ite_none_right_eq_some, Option.some.injEq] at hStep
  case prepare identity =>
    obtain ⟨-, rfl⟩ := hStep
    exact registry.follows_prepare identity
  case clone index | drop index =>
    obtain ⟨admission, ⟨hObject, -⟩, rfl⟩ := hStep
    exact .set hObject id
  case tryStart index =>
    obtain ⟨admission, ⟨hObject, -⟩, rfl⟩ := hStep
    exact follows_tryStart hObject
  case collect members =>
    obtain ⟨admissions, -, rfl⟩ := hStep
    exact hSame rfl rfl
  case lock position order =>
    obtain ⟨call, -, -, rfl⟩ := hStep
    exact hSame rfl rfl
  case visit =>
    split at hStep
    next call identity rest _ =>
      exact Option.some.inj hStep ▸ registry.follows_visit call.current identity
    next => cases hStep
  case unlock =>
    split at hStep
    next =>
      cases hStep
      exact hSame rfl rfl
    next => cases hStep

theorem follows_run {labels : List AdmissionLabel} (hRun : run step labels registry = some after) :
    registry.Follows after :=
  invariant_of_run (fun _ _ _ h hStep => h.trans (follows_step hStep)) (.refl registry) hRun

/-- In every run: when a publication ends, the admissions that are alive and active are
its members that no earlier publication revoked; an identity has at most one admission
that is alive and active; and an admission that is revoked stays revoked and admits no
start any more. -/
theorem run_admissions (labels : List AdmissionLabel) (registry : RouteAdmissionRegistry)
    (hRun : run step labels initial = some registry) :
    (∀ after call rest, registry.publishing = some (call, rest) →
      registry.step .unlock = some after →
      ∀ (index : Nat) (admission : RouteAdmission), after.objects[index]? = some admission →
        0 < admission.strong →
        (admission.active = true ↔ index ∈ call.members ∧
          ∀ earlier, earlier < registry.published → admission.revokedBy ≠ some earlier)) ∧
    (∀ (first second : Nat) (one two : RouteAdmission), registry.objects[first]? = some one →
      registry.objects[second]? = some two → one.active = true → two.active = true →
      0 < one.strong → 0 < two.strong → one.identity = two.identity → first = second) ∧
    (∀ more after, run step more registry = some after → registry.Follows after) := by
  have hKept : registry.Kept := invariant_of_run (fun _ _ _ h hStep => h.step hStep) .initial hRun
  refine ⟨?_, ?_, fun more after hMore => follows_run hMore⟩
  · intro after call rest hPublishing hStep index admission hObject hAlive
    simp only [step, hPublishing] at hStep
    cases rest with
    | cons identity rest => cases hStep
    | nil =>
      rw [← Option.some.inj hStep] at hObject
      have hOwn := hKept.each index admission hObject
      obtain ⟨-, hSeen⟩ := hKept.seen call [] hPublishing
      rw [hOwn.flagged]
      constructor
      · intro hNone
        refine ⟨?_, fun earlier _ hRevoked => by cases hNone.symm.trans hRevoked⟩
        exact hSeen _ _ (hOwn.entered (hOwn.flagged.mpr hNone) hAlive) List.not_mem_nil
      · rintro ⟨hMember, hEarlier⟩
        refine Option.eq_none_iff_forall_ne_some.mpr fun publication hRevoked => ?_
        rcases hOwn.dated publication hRevoked with hBefore | ⟨-, found, left, hFound, hNot⟩
        · exact hEarlier publication hBefore hRevoked
        · cases hPublishing.symm.trans hFound
          exact hNot hMember
  · intro first second one two hOne hTwo hOneActive hTwoActive hOneAlive hTwoAlive hSame
    have hFirst := (hKept.each first one hOne).entered hOneActive hOneAlive
    have hSecond := (hKept.each second two hTwo).entered hTwoActive hTwoAlive
    rw [hSame] at hFirst
    exact Option.some.inj (hFirst.symm.trans hSecond)

def sampleIdentity (endpoint : Nat) : RouteAdmissionIdentity :=
  ⟨.providerCredential 1, 7, endpoint, 3, 0, 5⟩

/-- The first route is published and starts an attempt; the second publication has
another route and is about to end. -/
def samplePublications : List AdmissionLabel :=
  [.prepare (sampleIdentity 1), .collect [0], .lock 0 [sampleIdentity 1], .visit, .unlock,
    .prepare (sampleIdentity 2), .tryStart 0, .collect [1],
    .lock 0 [sampleIdentity 2, sampleIdentity 1], .visit, .visit]

/-- The second publication is about to end; the work of the first has started. -/
theorem run_admissions_second_publication :
    ∃ registry after, run step samplePublications initial = some registry ∧
      registry.step .unlock = some after ∧ registry.starts = [(0, true)] ∧
      ∀ (index : Nat) (admission : RouteAdmission), after.objects[index]? = some admission →
        0 < admission.strong → (admission.active = true ↔ index ∈ [1] ∧
          ∀ earlier, earlier < 1 → admission.revokedBy ≠ some earlier) := by
  have hObserved : (run step samplePublications initial).map (fun registry =>
      (registry.publishing, registry.published, registry.starts)) =
        some (some (⟨[1], [2]⟩, []), 1, [(0, true)]) := by
    decide +kernel
  obtain ⟨registry, hRun, hState⟩ := Option.map_eq_some_iff.mp hObserved
  obtain ⟨hPublishing, hRest⟩ := Prod.mk.inj hState
  obtain ⟨hPublished, hStarts⟩ := Prod.mk.inj hRest
  obtain ⟨hEnds, -, -⟩ := run_admissions samplePublications registry hRun
  have hStep : registry.step .unlock = some
      { registry with publishing := none, published := registry.published + 1 } := by
    simp only [step, hPublishing]
  refine ⟨registry, _, hRun, hStep, hStarts, ?_⟩
  have hMembers := hEnds _ _ _ hPublishing hStep
  rwa [hPublished] at hMembers

end RouteAdmissionRegistry

end Any2Api.Runtime.Routing
