import Any2Api.Library.Entries
import Any2Api.Runtime.Configuration.Publisher

/-! What publications leave behind. The publish lock orders them, so the revision of the latest
operator tells whether everything after a given revision was automatic. -/
namespace Any2Api.Runtime.Configuration

open Runs

variable {Content : Type} {compile : Content → Except String Unit} {expected actual : Nat}
  {publications : List Publication} {start : Nat}

theorem eq_of_compileCandidate {candidate snapshot : StoredConfiguration Content}
    (h : compileCandidate compile expected candidate = .ok snapshot) :
    snapshot = candidate := by
  unfold compileCandidate at h
  by_cases hOverflow : wordSize ≤ expected + 1
  · rw [if_pos hOverflow] at h
    cases h
  · rw [if_neg hOverflow] at h
    by_cases hNext : candidate.revision ≠ expected + 1
    · rw [if_pos hNext] at h
      cases h
    · rw [if_neg hNext] at h
      cases hCompile : compile candidate.content <;> rw [hCompile] at h <;> cases h
      rfl

theorem transactConfiguration_cases (compile : Content → Except String Unit)
    (stored : StoredConfiguration Content) (expected : Nat) (mutation : Mutation Content) :
    (∃ error, transactConfiguration compile stored expected mutation = (.error error, stored)) ∨
    transactConfiguration compile stored expected mutation = (.ok .noChange, stored) ∨
    (∃ error, transactConfiguration compile stored expected mutation =
      (.ok (.rejected error), stored)) ∨
    ∃ content, mutation.execute stored.content = .ok (some content) ∧
      transactConfiguration compile stored expected mutation =
        (.ok (.committed ⟨stored.revision + 1, content⟩), ⟨stored.revision + 1, content⟩) := by
  unfold transactConfiguration
  by_cases hRevision : stored.revision = expected
  · rw [if_neg (not_not.mpr hRevision)]
    cases hExecute : mutation.execute stored.content with
    | error failure => exact .inl ⟨_, rfl⟩
    | ok changed =>
      cases changed with
      | none => exact .inr (.inl rfl)
      | some content =>
        dsimp only
        by_cases hMax : stored.revision < maxRevision
        · rw [if_pos hMax]
          cases hCompile : compileCandidate compile expected
              ⟨stored.revision + 1, content⟩ with
          | error error => exact .inr (.inr (.inl ⟨error, rfl⟩))
          | ok snapshot =>
            obtain rfl := eq_of_compileCandidate hCompile
            exact .inr (.inr (.inr ⟨content, rfl, rfl⟩))
        · rw [if_neg hMax]
          exact .inl ⟨_, rfl⟩
  · rw [if_pos hRevision]
    exact .inl ⟨_, rfl⟩

/-- The revision of the latest publication of an operator. -/
def lastOperator (start : Nat) (publications : List Publication) : Nat :=
  publications.foldl
    (fun latest publication =>
      if publication.request.source = .operator then publication.revision else latest) start

theorem lastOperator_concat (start : Nat) (publications : List Publication)
    (publication : Publication) :
    lastOperator start (publications ++ [publication]) =
      if publication.request.source = .operator then publication.revision
      else lastOperator start publications := by
  unfold lastOperator
  rw [List.foldl_append]
  rfl

/-- A mutation prepared against a revision may be applied: everything after it was automatic. -/
def Applicable (start actual : Nat) (publications : List Publication) (expected : Nat) : Prop :=
  start ≤ expected ∧ expected ≤ actual ∧ ∀ publication ∈ publications,
    expected < publication.revision → publication.request.source = .automaticOAuthRefresh

/-- The revisions after the start, in their order. -/
structure Numbered (start actual : Nat) (publications : List Publication) : Prop where
  count : actual = start + publications.length
  sorted : publications.Pairwise (·.revision < ·.revision)
  bounds : ∀ publication ∈ publications,
    start < publication.revision ∧ publication.revision ≤ actual

theorem Numbered.start_le
    (h : Numbered start actual publications) : start ≤ actual := h.count ▸ Nat.le_add_right ..

theorem Numbered.concat
    (h : Numbered start actual publications) (author : Nat) (request : PublishRequest) :
    Numbered start (actual + 1) (publications ++ [⟨author, request, actual + 1⟩]) := by
  refine ⟨?_, ?_, ?_⟩
  · rw [List.length_append, ← Nat.add_assoc, ← h.count]
    rfl
  · exact Entries.pairwise_concat h.sorted fun publication hMem =>
      Nat.lt_succ_of_le (h.bounds publication hMem).2
  · exact Entries.forall_mem_concat (fun publication hMem =>
      (h.bounds publication hMem).imp_right Nat.le_succ_of_le)
      ⟨Nat.lt_succ_of_le h.start_le, Nat.le_refl _⟩

theorem source_ne_operator {source : PublicationSource} :
    source ≠ .operator ↔ source = .automaticOAuthRefresh := by
  cases source <;> decide

theorem lastOperator_le_iff (hSorted : publications.Pairwise (·.revision < ·.revision))
    (hStart : ∀ publication ∈ publications, start < publication.revision) :
    lastOperator start publications ≤ expected ↔ start ≤ expected ∧
      ∀ publication ∈ publications, expected < publication.revision →
        publication.request.source = .automaticOAuthRefresh := by
  induction publications using List.reverseRecOn with
  | nil => exact ⟨fun h => ⟨h, nofun⟩, And.left⟩
  | append_singleton publications last ih =>
    obtain ⟨hBefore, -, hLast⟩ := List.pairwise_append.mp hSorted
    have hOld := ih hBefore fun publication hMem => hStart publication (List.mem_append_left _ hMem)
    have hAfter := hStart last (List.mem_append_right _ (List.mem_singleton_self _))
    rw [lastOperator_concat]
    by_cases hOperator : last.request.source = .operator
    · rw [if_pos hOperator]
      refine ⟨fun hLess => ⟨by omega, fun publication hMem hMore => ?_⟩, fun h => ?_⟩
      · rcases List.mem_append.mp hMem with hMem | hMem
        · have hEarlier := hLast publication hMem last (List.mem_singleton_self _)
          omega
        · rw [List.mem_singleton.mp hMem] at hMore
          omega
      · by_contra hMore
        have hAutomatic := h.2 last (List.mem_append_right _ (List.mem_singleton_self _))
          (Nat.lt_of_not_le hMore)
        exact source_ne_operator.mpr hAutomatic hOperator
    · rw [if_neg hOperator, hOld]
      refine and_congr_right fun _ => ⟨fun h => ?_, fun h publication hMem => ?_⟩
      · exact Entries.forall_mem_concat h fun _ => source_ne_operator.mp hOperator
      · exact h publication (List.mem_append_left _ hMem)

/-- The decision of an operator's publication. -/
theorem transactionRevision_publish (hNumbered : Numbered start actual publications) :
    (Applicable start actual publications expected →
      transactionRevision (lastOperator start publications) actual (.publish expected) =
        (.ok actual : Except ConfigPublishError Nat)) ∧
    (¬ Applicable start actual publications expected →
      transactionRevision (lastOperator start publications) actual (.publish expected) =
        (.error (.revisionConflict expected actual) : Except ConfigPublishError Nat)) := by
  have hIff : lastOperator start publications ≤ expected ↔ _ :=
    lastOperator_le_iff hNumbered.sorted fun publication hMem =>
      (hNumbered.bounds publication hMem).1
  unfold transactionRevision Applicable canRebaseAfterAutomaticPublications
  dsimp only
  by_cases hEqual : actual = expected
  · subst hEqual
    rw [if_pos rfl]
    refine ⟨fun _ => rfl, fun hNot => absurd ?_ hNot⟩
    refine ⟨hNumbered.start_le, Nat.le_refl _, fun publication hMem hMore => ?_⟩
    have hBound := (hNumbered.bounds publication hMem).2
    omega
  · rw [if_neg hEqual]
    refine ⟨fun ⟨hStart, hLess, hAutomatic⟩ => if_pos ?_, fun hNot => if_neg fun hRebase => hNot ?_⟩
    · have hLatest := hIff.mpr ⟨hStart, hAutomatic⟩
      simp only [Bool.and_eq_true, decide_eq_true_eq]
      omega
    · simp only [Bool.and_eq_true, decide_eq_true_eq] at hRebase
      obtain ⟨hStart, hAutomatic⟩ := hIff.mp hRebase.1.2
      exact ⟨hStart, hRebase.1.1.le, hAutomatic⟩

/-- The publication has committed a change. -/
def PublishStage.hasCommitted : PublishStage Content → Bool
  | .committed _ | .replaced _ | .marked _ | .finished (.ok (_, true)) => true
  | _ => false

namespace PublisherState

variable {state base next : PublisherState Content} {index : Nat} {call : PublishCall Content}
  {stage : PublishStage Content} {label : PublisherLabel Content} {start : Nat}
  {current : StoredConfiguration Content}

variable (state) (index) (call) in
/-- What a publication does: what becomes of it and of the rest of the state. -/
inductive Acts : PublisherState Content → PublishStage Content → Prop where
  | acquire : state.holder = none → call.stage = .waiting →
      Acts { state with holder := some index } .locked
  | load : call.stage = .locked → Acts state (.loaded state.current)
  | proceed {current : StoredConfiguration Content} {revision : Nat} :
      transactionRevision state.latestOperatorRevision current.revision call.request =
        (.ok revision : Except ConfigPublishError Nat) →
      call.stage = .loaded current → Acts state (.transacting current revision)
  | refuse {current : StoredConfiguration Content} {error : ConfigPublishError} :
      call.stage = .loaded current → Acts { state with holder := none } (.finished (.error error))
  | abandon {current : StoredConfiguration Content} {revision : Nat}
      {result : Except ConfigPublishError (StoredConfiguration Content × Bool)} :
      (∀ snapshot, result ≠ .ok (snapshot, true)) → call.stage = .transacting current revision →
      Acts { state with holder := none } (.finished result)
  | commit {current : StoredConfiguration Content} {revision : Nat} {content : Content} :
      call.mutation.execute state.stored.content = .ok (some content) →
      call.stage = .transacting current revision → Acts
        { state with
          stored := ⟨state.stored.revision + 1, content⟩
          publications :=
            state.publications ++ [⟨index, call.request, state.stored.revision + 1⟩] }
        (.committed ⟨state.stored.revision + 1, content⟩)
  | store {snapshot : StoredConfiguration Content} : call.stage = .committed snapshot →
      Acts { state with current := snapshot } (.replaced snapshot)
  | mark {snapshot : StoredConfiguration Content} : call.stage = .replaced snapshot → Acts
        { state with
          latestOperatorRevision :=
            if call.request.source = PublicationSource.operator then snapshot.revision
            else state.latestOperatorRevision }
        (.marked snapshot)
  | announce {snapshot : StoredConfiguration Content} : call.stage = .marked snapshot → Acts
        { state with announced := snapshot.revision, holder := none }
        (.finished (.ok (snapshot, true)))
  | cancel : call.stage = .waiting → Acts state (.finished (.error .shuttingDown))

theorem Acts.abandonError {revision : Nat}
    {error : ConfigPublishError} (hStage : call.stage = .transacting current revision) :
    Acts state index call { state with holder := none } (.finished (.error error)) :=
  .abandon (fun _ hEq => by cases hEq) hStage

theorem acts_of_transact {revision : Nat}
    (failure : Option String) (hStage : call.stage = .transacting current revision) :
    ∃ base stage, Acts state index call base stage ∧
      base.setStage index call stage =
        state.transact compile index call current revision failure := by
  cases failure with
  | some failure => exact ⟨_, _, .abandonError hStage, rfl⟩
  | none =>
    unfold transact
    rcases transactConfiguration_cases compile state.stored revision call.mutation with
      ⟨error, hResult⟩ | hResult | ⟨error, hResult⟩ | ⟨content, hExecute, hResult⟩ <;>
      rw [hResult]
    · exact ⟨_, _, .abandonError hStage, rfl⟩
    · refine ⟨_, _, .abandon (fun snapshot hEq => ?_) hStage, rfl⟩
      exact Bool.false_ne_true (congrArg Prod.snd (Except.ok.inj hEq))
    · exact ⟨_, _, .abandonError hStage, rfl⟩
    · exact ⟨_, _, .commit hExecute hStage, rfl⟩

theorem acts_of_decide (hStage : call.stage = .loaded current) :
    ∃ base stage, Acts state index call base stage ∧
      base.setStage index call stage = state.decide index call current := by
  unfold PublisherState.decide
  cases hRevision : transactionRevision state.latestOperatorRevision current.revision
      call.request with
  | error error => exact ⟨_, _, .refuse hStage, rfl⟩
  | ok revision =>
    cases hValid : validate current.content call with
    | error failure => exact ⟨_, _, .refuse hStage, rfl⟩
    | ok _ => exact ⟨_, _, .proceed hRevision hStage, rfl⟩

theorem acts_of_act (h : state.act compile index call label = some next) :
    ∃ base stage, Acts state index call base stage ∧
      base.setStage index call stage = next := by
  unfold act at h
  cases label
  case request => cases h
  case acquirePublish actor =>
    dsimp only at h
    cases hHolder : state.holder with
    | some other => cases hStage : call.stage <;> rw [hStage, hHolder] at h <;> cases h
    | none =>
      cases hStage : call.stage <;> rw [hStage, hHolder] at h <;> cases h
      exact ⟨_, _, .acquire hHolder hStage, rfl⟩
  case decide actor =>
    dsimp only at h
    cases hStage : call.stage <;> rw [hStage] at h <;> cases h
    exact acts_of_decide hStage
  case transact actor failure =>
    dsimp only at h
    cases hStage : call.stage <;> rw [hStage] at h <;> cases h
    exact acts_of_transact failure hStage
  case load actor | store actor | storeOperatorRevision actor | announce actor =>
    dsimp only at h
    cases hStage : call.stage <;> rw [hStage] at h <;> cases h
    refine ⟨_, _, ?_, rfl⟩
    constructor
    exact hStage
  case cancel actor =>
    dsimp only at h
    cases hStage : call.stage <;> rw [hStage] at h <;> cases h
    · exact ⟨_, _, .cancel hStage, rfl⟩
    · exact ⟨_, _, .abandonError hStage, rfl⟩

/-- The lock is where the published snapshot, the repository and the revision of the latest
operator agree. -/
def Settled (start : Nat) (state : PublisherState Content) : Prop :=
  state.current = state.stored ∧
    state.latestOperatorRevision = lastOperator start state.publications

/-- What a publication knows in its stage. -/
def Knows (start : Nat) (state : PublisherState Content) (index : Nat)
    (call : PublishCall Content) : Prop :=
  match call.stage with
  | .waiting | .finished _ => True
  | .locked => state.Settled start
  | .loaded current => state.Settled start ∧ current = state.stored
  | .transacting current _ => state.Settled start ∧ current = state.stored ∧
      ∀ expected, call.request = .publish expected →
        Applicable start state.stored.revision state.publications expected
  | .committed snapshot => state.stored = snapshot ∧
      ∃ before, state.publications = before ++ [⟨index, call.request, snapshot.revision⟩] ∧
        state.latestOperatorRevision = lastOperator start before
  | .replaced snapshot => state.stored = snapshot ∧ state.current = snapshot ∧
      ∃ before, state.publications = before ++ [⟨index, call.request, snapshot.revision⟩] ∧
        state.latestOperatorRevision = lastOperator start before
  | .marked _ => state.Settled start

/-- No operator's publication has overwritten another one. -/
def Kept (start : Nat) (publications : List Publication) : Prop :=
  ∀ publication ∈ publications, ∀ expected, publication.request = .publish expected →
    start ≤ expected ∧ expected < publication.revision ∧
      ∀ other ∈ publications, expected < other.revision → other.revision < publication.revision →
        other.request.source = .automaticOAuthRefresh

theorem Kept.concat {actual : Nat} {publications : List Publication} {request : PublishRequest}
    (h : Kept start publications) (hNumbered : Numbered start actual publications) (author : Nat)
    (hApplicable : ∀ expected, request = .publish expected →
      Applicable start actual publications expected) :
    Kept start (publications ++ [⟨author, request, actual + 1⟩]) := by
  intro publication hMem expected hRequest
  rcases List.mem_append.mp hMem with hMem | hMem
  · obtain ⟨hStart, hLess, hOthers⟩ := h publication hMem expected hRequest
    refine ⟨hStart, hLess, fun other hOther hMore hBefore => ?_⟩
    rcases List.mem_append.mp hOther with hOther | hOther
    · exact hOthers other hOther hMore hBefore
    · have hBound := (hNumbered.bounds publication hMem).2
      have hBefore : actual + 1 < publication.revision := by
        rwa [List.mem_singleton.mp hOther] at hBefore
      omega
  · obtain rfl := List.mem_singleton.mp hMem
    obtain ⟨hStart, hLess, hAutomatic⟩ := hApplicable expected hRequest
    refine ⟨hStart, Nat.lt_succ_of_le hLess, fun other hOther hMore hBefore => ?_⟩
    rcases List.mem_append.mp hOther with hOther | hOther
    · exact hAutomatic other hOther hMore
    · rw [List.mem_singleton.mp hOther] at hBefore
      exact absurd hBefore (Nat.lt_irrefl _)

structure Valid (start : Nat) (state : PublisherState Content) : Prop where
  lock : ∀ {index : Nat} {call : PublishCall Content},
    state.calls[index]? = some call → call.stage.holds = true → state.holder = some index
  free : state.holder = none → state.Settled start
  knows : ∀ {index : Nat} {call : PublishCall Content},
    state.calls[index]? = some call → state.Knows start index call
  numbered : Numbered start state.stored.revision state.publications
  kept : Kept start state.publications
  author : ∀ publication ∈ state.publications, ∃ call,
    state.calls[publication.author]? = some call ∧ call.stage.hasCommitted = true

theorem knows_of_not_holds (h : call.stage.holds = false) : state.Knows start index call := by
  unfold Knows
  cases hStage : call.stage <;> rw [hStage] at h <;> trivial

/-- The parties of a publication's step, put together. -/
theorem valid_setStage (hValid : Valid start state) (hCall : state.calls[index]? = some call)
    (hCalls : base.calls = state.calls)
    (hLock : ∀ {other : Nat} {found : PublishCall Content}, other ≠ index →
      state.calls[other]? = some found → found.stage.holds = true → base.holder = some other)
    (hOwn : stage.holds = true → base.holder = some index)
    (hFree : base.holder = none → base.Settled start)
    (hKnows : ∀ {other : Nat} {found : PublishCall Content}, other ≠ index →
      state.calls[other]? = some found → base.Knows start other found)
    (hOwnKnows : base.Knows start index { call with stage })
    (hNumbered : Numbered start base.stored.revision base.publications)
    (hKept : Kept start base.publications)
    (hNew : ∀ publication ∈ base.publications, publication ∈ state.publications ∨
      publication.author = index)
    (hCommitted : call.stage.hasCommitted = true ∨ base.publications ≠ state.publications →
      stage.hasCommitted = true) :
    Valid start (base.setStage index call stage) := by
  have hSet {other : Nat} {found : PublishCall Content}
      (hFound : (base.setStage index call stage).calls[other]? = some found) :
      other ≠ index ∧ state.calls[other]? = some found ∨
        other = index ∧ found = { call with stage } := by
    rcases Entries.getElem?_set_eq_some.mp hFound with ⟨hOther, hFound⟩ | ⟨hOther, -, hFound⟩
    · exact .inl ⟨hOther, hCalls ▸ hFound⟩
    · exact .inr ⟨hOther, hFound⟩
  have hLength : index < base.calls.length := hCalls ▸ (List.getElem?_eq_some_iff.mp hCall).1
  refine ⟨fun hFound hHolds => ?_, hFree, fun hFound => ?_, hNumbered, hKept,
    fun publication hMem => ?_⟩
  · rcases hSet hFound with ⟨hOther, hFound⟩ | ⟨rfl, rfl⟩
    · exact hLock hOther hFound hHolds
    · exact hOwn hHolds
  · rcases hSet hFound with ⟨hOther, hFound⟩ | ⟨rfl, rfl⟩
    · exact hKnows hOther hFound
    · exact hOwnKnows
  · by_cases hAuthor : publication.author = index
    · refine ⟨{ call with stage }, ?_, hCommitted ?_⟩
      · rw [hAuthor]
        exact List.getElem?_set_self hLength
      · by_cases hSame : base.publications = state.publications
        · obtain ⟨found, hFound, hDone⟩ := hValid.author publication (hSame ▸ hMem)
          rw [hAuthor] at hFound
          cases hFound.symm.trans hCall
          exact .inl hDone
        · exact .inr hSame
    · obtain hOld | hOld := hNew publication hMem
      · obtain ⟨found, hFound, hDone⟩ := hValid.author publication hOld
        refine ⟨found, ?_, hDone⟩
        change (base.calls.set index { call with stage })[publication.author]? = some found
        rw [List.getElem?_set_ne (Ne.symm hAuthor), hCalls]
        exact hFound
      · exact absurd hOld hAuthor

/-- A call keeps what it and the others know. -/
theorem Acts.valid (h : Acts state index call base stage)
    (hCall : state.calls[index]? = some call) (hValid : Valid start state) :
    Valid start (base.setStage index call stage) := by
  have hKnow := hValid.knows hCall
  have hHold := hValid.lock hCall
  have hSame (publication : Publication) (hMem : publication ∈ state.publications) :
      publication ∈ state.publications ∨ publication.author = index := .inl hMem
  -- Nobody else is past the lock when this publication is.
  have hAlone (hHolds : call.stage.holds = true) {other : Nat}
      {found : PublishCall Content} (hOther : other ≠ index)
      (hFound : state.calls[other]? = some found) : found.stage.holds = false := by
    cases hFoundHolds : found.stage.holds with
    | false => rfl
    | true =>
      have hEq := (hValid.lock hFound hFoundHolds).symm.trans (hHold hHolds)
      exact absurd (Option.some.inj hEq) hOther
  have hQuiet (hNot : call.stage.hasCommitted = false) {after : PublishStage Content} :
      call.stage.hasCommitted = true ∨ state.publications ≠ state.publications →
        after.hasCommitted = true := by
    rintro (hDone | hDone)
    · exact absurd (hDone.symm.trans hNot) Bool.noConfusion
    · exact absurd rfl hDone
  unfold Knows at hKnow
  cases h
  case acquire hHolder hStage =>
    refine valid_setStage hValid hCall rfl (fun _ hFound hHolds => ?_) (fun _ => rfl) nofun
      (fun _ hFound => hValid.knows hFound) (hValid.free hHolder) hValid.numbered hValid.kept hSame
      (hQuiet (by rw [hStage]; rfl))
    exact absurd (hHolder.symm.trans (hValid.lock hFound hHolds)) nofun
  case load hStage =>
    rw [hStage] at hKnow hHold
    exact valid_setStage hValid hCall rfl (fun _ => hValid.lock) (fun _ => hHold rfl) hValid.free
      (fun _ hFound => hValid.knows hFound) ⟨hKnow, hKnow.1⟩ hValid.numbered hValid.kept hSame
      (hQuiet (by rw [hStage]; rfl))
  case proceed current revision hRevision hStage =>
    rw [hStage] at hKnow hHold
    obtain ⟨hSettled, hCurrent⟩ := hKnow
    refine valid_setStage hValid hCall rfl (fun _ => hValid.lock) (fun _ => hHold rfl) hValid.free
      (fun _ hFound => hValid.knows hFound) ⟨hSettled, hCurrent, fun expected hRequest => ?_⟩
      hValid.numbered hValid.kept hSame
      (hQuiet (by rw [hStage]; rfl))
    have hRequest : call.request = .publish expected := hRequest
    by_contra hNot
    rw [hRequest, hSettled.2, hCurrent, (transactionRevision_publish hValid.numbered).2 hNot]
      at hRevision
    cases hRevision
  case refuse current error hStage | abandon current revision result hResult hStage =>
    rw [hStage] at hKnow hAlone
    refine valid_setStage hValid hCall rfl (fun hOther hFound hHolds => ?_) nofun (fun _ => hKnow.1)
      (fun _ hFound => hValid.knows hFound) trivial hValid.numbered hValid.kept hSame
      (hQuiet (by rw [hStage]; rfl))
    exact absurd (hHolds.symm.trans (hAlone rfl hOther hFound)) Bool.noConfusion
  case commit current revision content hExecute hStage =>
    rw [hStage] at hKnow hHold hAlone
    obtain ⟨hSettled, -, hApplicable⟩ := hKnow
    refine valid_setStage hValid hCall rfl (fun _ => hValid.lock) (fun _ => hHold rfl)
      (fun hNone => absurd (hNone.symm.trans (hHold rfl)) nofun)
      (fun hOther hFound => knows_of_not_holds (hAlone rfl hOther hFound))
      ⟨rfl, _, rfl, hSettled.2⟩ (hValid.numbered.concat index call.request)
      (hValid.kept.concat hValid.numbered index hApplicable) (fun publication hMem => ?_)
      fun _ => rfl
    exact (List.mem_append.mp hMem).imp_right fun hMem => by rw [List.mem_singleton.mp hMem]
  case store snapshot hStage =>
    rw [hStage] at hKnow hHold hAlone
    obtain ⟨hStored, hBefore⟩ := hKnow
    exact valid_setStage hValid hCall rfl (fun _ => hValid.lock) (fun _ => hHold rfl)
      (fun hNone => absurd (hNone.symm.trans (hHold rfl)) nofun)
      (fun hOther hFound => knows_of_not_holds (hAlone rfl hOther hFound))
      ⟨hStored, rfl, hBefore⟩ hValid.numbered hValid.kept hSame fun _ => rfl
  case mark snapshot hStage =>
    rw [hStage] at hKnow hHold hAlone
    obtain ⟨hStored, hCurrent, before, hPublications, hLatest⟩ := hKnow
    refine valid_setStage hValid hCall rfl (fun _ => hValid.lock) (fun _ => hHold rfl)
      (fun hNone => absurd (hNone.symm.trans (hHold rfl)) nofun)
      (fun hOther hFound => knows_of_not_holds (hAlone rfl hOther hFound))
      ⟨hCurrent.trans hStored.symm, ?_⟩ hValid.numbered hValid.kept hSame fun _ => rfl
    rw [hPublications, lastOperator_concat, hLatest]
  case announce snapshot hStage =>
    rw [hStage] at hKnow hAlone
    refine valid_setStage hValid hCall rfl (fun hOther hFound hHolds => ?_) nofun (fun _ => hKnow)
      (fun _ hFound => hValid.knows hFound) trivial hValid.numbered hValid.kept hSame fun _ => rfl
    exact absurd (hHolds.symm.trans (hAlone rfl hOther hFound)) Bool.noConfusion
  case cancel hStage =>
    exact valid_setStage hValid hCall rfl (fun _ => hValid.lock) nofun hValid.free
      (fun _ hFound => hValid.knows hFound) trivial hValid.numbered hValid.kept hSame
      (hQuiet (by rw [hStage]; rfl))

theorem Acts.calls (h : Acts state index call base stage) : base.calls = state.calls := by
  cases h <;> rfl

variable (state) in
/-- What a step of the publisher does. -/
inductive Steps : PublisherState Content → Prop where
  | request {request : PublishRequest} {mutation : Mutation Content} :
      Steps { state with calls := state.calls ++ [⟨request, mutation, .waiting⟩] }
  | act {index : Nat} {call : PublishCall Content}
      {base : PublisherState Content} {stage : PublishStage Content} :
      state.calls[index]? = some call → Acts state index call base stage →
      Steps (base.setStage index call stage)

theorem steps_of_step (h : step compile state label = some next) : Steps state next := by
  have hAct {actor : Nat}
      (h : (state.calls[actor]? >>= fun call => state.act compile actor call label) = some next) :
      Steps state next := by
    obtain ⟨call, hCall, hNext⟩ := Option.bind_eq_some_iff.mp h
    obtain ⟨base, stage, hActs, rfl⟩ := acts_of_act hNext
    exact .act hCall hActs
  cases label
  case request request mutation => exact Option.some.inj h ▸ .request
  all_goals exact hAct h

theorem Steps.valid (h : Steps state next) (hValid : Valid start state) : Valid start next := by
  cases h
  case act hCall hActs => exact hActs.valid hCall hValid
  case request request mutation =>
    have hFound {index : Nat} {call : PublishCall Content}
        (h : (state.calls ++ [⟨request, mutation, .waiting⟩])[index]? = some call) :
        state.calls[index]? = some call ∨ call.stage = .waiting := by
      refine (Entries.getElem?_concat_eq_some.mp h).imp_right fun ⟨_, hCall⟩ => ?_
      rw [hCall]
    refine ⟨fun hCall hHolds => ?_, hValid.free, fun hCall => ?_, hValid.numbered, hValid.kept,
      fun publication hMem => ?_⟩
    · rcases hFound hCall with hCall | hStage
      · exact hValid.lock hCall hHolds
      · rw [hStage] at hHolds
        cases hHolds
    · rcases hFound hCall with hCall | hStage
      · exact hValid.knows hCall
      · exact knows_of_not_holds (by rw [hStage]; rfl)
    · obtain ⟨call, hCall, hDone⟩ := hValid.author publication hMem
      exact ⟨call, Entries.getElem?_concat_eq_some.mpr (.inl hCall), hDone⟩

theorem valid_initial (start : StoredConfiguration Content) :
    Valid start.revision (initial start : PublisherState Content) :=
  ⟨nofun, fun _ => ⟨rfl, rfl⟩, nofun, ⟨rfl, .nil, nofun⟩, nofun, nofun⟩

/-- The invariant of every run. -/
theorem valid_of_run {labels : List (PublisherLabel Content)} {start : StoredConfiguration Content}
    (hRun : run (step compile) labels (initial start) = some state) :
    Valid start.revision state :=
  invariant_of_run (fun _ _ _ hValid hStep => (steps_of_step hStep).valid hValid)
    (valid_initial start) hRun

/-- A step commits what the mutation of a publication makes of the stored configuration. -/
structure Commits (start : Nat)
    (state next : PublisherState Content) (index : Nat)
    (call : PublishCall Content) (content : Content) : Prop where
  executes : call.mutation.execute state.stored.content = .ok (some content)
  stored : next.stored = ⟨state.stored.revision + 1, content⟩
  publications : next.publications =
    state.publications ++ [⟨index, call.request, state.stored.revision + 1⟩]
  applicable : ∀ expected, call.request = .publish expected →
    Applicable start state.stored.revision state.publications expected

theorem Acts.commits (h : Acts state index call base stage)
    (hCall : state.calls[index]? = some call) (hValid : Valid start state) :
    base.stored = state.stored ∧ base.publications = state.publications ∨
      ∃ content, Commits start state (base.setStage index call stage) index call content ∧
        stage = .committed ⟨state.stored.revision + 1, content⟩ := by
  have hKnow := hValid.knows hCall
  unfold Knows at hKnow
  cases h
  case commit current revision content hExecute hStage =>
    rw [hStage] at hKnow
    exact .inr ⟨content, ⟨hExecute, rfl, rfl, hKnow.2.2⟩, rfl⟩
  all_goals exact .inl ⟨rfl, rfl⟩

/-- A decision on a mutation that is not applicable is a conflict. -/
theorem decide_of_not_applicable {expected : Nat}
    (hValid : Valid start state) (hCall : state.calls[index]? = some call)
    (hStage : call.stage = .loaded current) (hRequest : call.request = .publish expected)
    (hNot : ¬ Applicable start state.stored.revision state.publications expected) :
    state.decide index call current =
      state.finish index call (.error (.revisionConflict expected state.stored.revision)) := by
  have hKnow := hValid.knows hCall
  unfold Knows at hKnow
  rw [hStage] at hKnow
  obtain ⟨hSettled, hCurrent⟩ := hKnow
  unfold PublisherState.decide
  rw [hRequest, hSettled.2, hCurrent, (transactionRevision_publish hValid.numbered).2 hNot]

/-- Operators' publications are never lost: whatever is published meanwhile, a mutation that an
operator has prepared against a revision is applied to the stored configuration only if everything
after that revision was automatic, and ends in a conflict otherwise. Every committed change raises
the revision by one and nothing else changes what is stored; where the lock is free, the published
snapshot is the stored one. -/
theorem publications_serial (compile : Content → Except String Unit)
    (start : StoredConfiguration Content) {labels : List (PublisherLabel Content)}
    (hRun : run (step compile) labels (initial start) = some state) :
    Kept start.revision state.publications ∧
    state.stored.revision = start.revision + state.publications.length ∧
    (state.holder = none → state.current = state.stored) ∧
    (∀ index call, state.calls[index]? = some call → call.stage.hasCommitted = false →
      ∀ publication ∈ state.publications, publication.author ≠ index) ∧
    (∀ label next, step compile state label = some next →
      next.stored = state.stored ∧ next.publications = state.publications ∨
      ∃ index call content, state.calls[index]? = some call ∧
        Commits start.revision state next index call content ∧
        next.calls[index]? =
          some { call with stage := .committed ⟨state.stored.revision + 1, content⟩ }) ∧
    (∀ index call current expected next, state.calls[index]? = some call →
      call.request = .publish expected → call.stage = .loaded current →
      ¬ Applicable start.revision state.stored.revision state.publications expected →
      step compile state (.decide index) = some next →
      next.stored = state.stored ∧ next.current = state.current ∧
        next.publications = state.publications ∧
        next.calls[index]? = some { call with
          stage := .finished (.error (.revisionConflict expected state.stored.revision)) }) := by
  have hValid := valid_of_run hRun
  refine ⟨hValid.kept, hValid.numbered.count, fun hFree => (hValid.free hFree).1,
    fun index call hCall hNot publication hMem hAuthor => ?_, fun label next hStep => ?_,
    fun index call current expected next hCall hRequest hStage hNot hStep => ?_⟩
  · obtain ⟨found, hFound, hDone⟩ := hValid.author publication hMem
    rw [hAuthor] at hFound
    cases hFound.symm.trans hCall
    exact absurd (hDone.symm.trans hNot) Bool.noConfusion
  · cases steps_of_step hStep
    case request => exact .inl ⟨rfl, rfl⟩
    case act index call base stage hCall hActs =>
      refine (hActs.commits hCall hValid).imp id fun ⟨content, hCommits, hCommitted⟩ => ?_
      refine ⟨index, call, content, hCall, hCommits, ?_⟩
      rw [← hCommitted]
      exact List.getElem?_set_self (hActs.calls ▸ (List.getElem?_eq_some_iff.mp hCall).1)
  · obtain ⟨found, hFound, hNext⟩ := Option.bind_eq_some_iff.mp hStep
    cases hFound.symm.trans hCall
    unfold act at hNext
    rw [hStage] at hNext
    dsimp only at hNext
    rw [decide_of_not_applicable hValid hCall hStage hRequest hNot] at hNext
    obtain rfl := Option.some.inj hNext
    exact ⟨rfl, rfl, rfl, List.getElem?_set_self (List.getElem?_eq_some_iff.mp hCall).1⟩

/-- A mutation of a configuration that is one number, where zero changes nothing. -/
def sampleMutation (change : Nat) : Mutation Nat where
  validate _ := .ok ()
  execute content := .ok (if change = 0 then none else some (content + change))

/-- An operator and a refresh publish. Two more operators have prepared against the revision
between them: the first one is rebased and the second one is about to decide. -/
def sampleLabels : List (PublisherLabel Nat) :=
  [.request (.publish 5) (sampleMutation 1),
    .request (.publishCurrent .automaticOAuthRefresh) (sampleMutation 10),
    .request (.publish 6) (sampleMutation 2), .request (.publish 6) (sampleMutation 4)] ++
  ([0, 1, 2].flatMap fun index =>
    [.acquirePublish index, .load index, .decide index, .transact index none, .store index,
      .storeOperatorRevision index, .announce index]) ++
  [.acquirePublish 3, .load 3]

/-- An operator edit of revision 6 conflicts with the operator edit that became revision 8. -/
theorem publications_serial_of_conflict :
    ∃ state, run (step fun _ => .ok ()) sampleLabels (initial ⟨5, 0⟩) = some state ∧
      state.stored = ⟨8, 13⟩ ∧ state.publications.length = 3 ∧
      Kept 5 state.publications ∧
      ∀ next, step (fun _ => .ok ()) state (.decide 3) = some next →
        next.stored = ⟨8, 13⟩ ∧ next.calls[3]? = some
          ⟨.publish 6, sampleMutation 4, .finished (.error (.revisionConflict 6 8))⟩ := by
  have hEnd : ∃ state, run (step fun _ => .ok ()) sampleLabels (initial ⟨5, 0⟩) = some state ∧
      state.stored = ⟨8, 13⟩ ∧
      state.calls[3]? = some ⟨.publish 6, sampleMutation 4, .loaded ⟨8, 13⟩⟩ ∧
      state.publications = [⟨0, .publish 5, 6⟩, ⟨1, .publishCurrent .automaticOAuthRefresh, 7⟩,
        ⟨2, .publish 6, 8⟩] :=
    ⟨_, rfl, rfl, rfl, rfl⟩
  obtain ⟨state, hRun, hStored, hCall, hPublications⟩ := hEnd
  obtain ⟨hKept, -, -, -, -, hConflict⟩ := publications_serial (fun _ => .ok ()) ⟨5, 0⟩ hRun
  refine ⟨state, hRun, hStored, by rw [hPublications]; rfl, hKept, fun next hNext => ?_⟩
  have hNot : ¬ Applicable 5 state.stored.revision state.publications 6 := by
    rw [hPublications]
    exact fun hAll => absurd (hAll.2.2 ⟨2, .publish 6, 8⟩) (by decide)
  obtain ⟨hSame, -, -, hFinished⟩ := hConflict 3 _ _ 6 next hCall rfl rfl hNot hNext
  rw [hStored] at hSame hFinished
  exact ⟨hSame, hFinished⟩

end PublisherState

end Any2Api.Runtime.Configuration
