import Any2Api.Library.Runs
import Any2Api.Runtime.Domain

/-! The publication of configurations. A publication takes the publish lock, decides on the
revision of its transaction, commits a candidate to the repository and replaces the published
snapshot. The reads and writes that others can see are steps of their own; a transaction of the
repository is one step. -/
namespace Any2Api.Runtime.Configuration

variable {Content : Type}

inductive PublicationSource where
  | operator
  | automaticOAuthRefresh
  deriving DecidableEq

/-- A configuration in the repository, or the snapshot that is compiled from it. -/
structure StoredConfiguration (Content : Type) where
  revision : Nat
  content : Content
  deriving DecidableEq

inductive ConfigPublishError where
  | shuttingDown
  | revisionConflict (expected actual : Nat)
  | revisionOverflow
  | unexpectedCandidateRevision (expected actual : Nat)
  | failed (message : String)
  deriving DecidableEq

/-- What a publication checks with the lock, and what it makes of the stored configuration, `none`
when nothing changes. -/
structure Mutation (Content : Type) where
  validate : Content → Except String Unit
  execute : Content → Except String (Option Content)

/-- The largest revision of the repository. -/
def maxRevision : Nat := 2 ^ 63 - 1

inductive TransactionOutcome (Content : Type) where
  | noChange
  | committed (snapshot : StoredConfiguration Content)
  | rejected (error : ConfigPublishError)
  deriving DecidableEq

def compileCandidate (compile : Content → Except String Unit) (expected : Nat)
    (candidate : StoredConfiguration Content) :
    Except ConfigPublishError (StoredConfiguration Content) :=
  if wordSize ≤ expected + 1 then .error .revisionOverflow
  else if candidate.revision ≠ expected + 1 then
    .error (.unexpectedCandidateRevision (expected + 1) candidate.revision)
  else
    match compile candidate.content with
    | .error failure => .error (.failed failure)
    | .ok _ => .ok candidate

/-- `transact_configuration`: what it returns and what is stored then. -/
def transactConfiguration (compile : Content → Except String Unit)
    (stored : StoredConfiguration Content) (expected : Nat) (mutation : Mutation Content) :
    Except ConfigPublishError (TransactionOutcome Content) × StoredConfiguration Content :=
  if stored.revision ≠ expected then (.error (.revisionConflict expected stored.revision), stored)
  else
    match mutation.execute stored.content with
    | .error failure => (.error (.failed failure), stored)
    | .ok none => (.ok .noChange, stored)
    | .ok (some content) =>
      if stored.revision < maxRevision then
        let candidate := ⟨stored.revision + 1, content⟩
        match compileCandidate compile expected candidate with
        | .error error => (.ok (.rejected error), stored)
        | .ok snapshot => (.ok (.committed snapshot), candidate)
      else
        (.error .revisionOverflow, stored)

inductive PublishRequest where
  /-- An operator has prepared the mutation against a revision. -/
  | publish (expected : Nat)
  /-- The revision is the one that the lock is taken at. -/
  | publishCurrent (source : PublicationSource)
  deriving DecidableEq

def PublishRequest.source : PublishRequest → PublicationSource
  | .publish _ => .operator
  | .publishCurrent source => source

inductive PublishStage (Content : Type) where
  | waiting
  | locked
  | loaded (current : StoredConfiguration Content)
  | transacting (current : StoredConfiguration Content) (revision : Nat)
  | committed (snapshot : StoredConfiguration Content)
  | replaced (snapshot : StoredConfiguration Content)
  | marked (snapshot : StoredConfiguration Content)
  /-- The snapshot that is returned, and whether it is new. -/
  | finished (result : Except ConfigPublishError (StoredConfiguration Content × Bool))

namespace PublishStage

/-- The publication has the lock. -/
def holds : PublishStage Content → Bool
  | .waiting | .finished _ => false
  | _ => true

end PublishStage

structure PublishCall (Content : Type) where
  request : PublishRequest
  mutation : Mutation Content
  stage : PublishStage Content

/-- A committed change. -/
structure Publication where
  author : Nat
  request : PublishRequest
  revision : Nat
  deriving DecidableEq

structure PublisherState (Content : Type) where
  stored : StoredConfiguration Content
  /-- The published snapshot. -/
  current : StoredConfiguration Content
  latestOperatorRevision : Nat
  /-- What the subscribers of the revision see. -/
  announced : Nat
  holder : Option Nat
  calls : List (PublishCall Content)
  /-- The committed changes. -/
  publications : List Publication

inductive PublisherLabel (Content : Type) where
  | request (request : PublishRequest) (mutation : Mutation Content)
  | acquirePublish (call : Nat)
  | load (call : Nat)
  | decide (call : Nat)
  /-- The database may fail before anything is committed. -/
  | transact (call : Nat) (failure : Option String)
  | store (call : Nat)
  | storeOperatorRevision (call : Nat)
  | announce (call : Nat)
  /-- The process is forced to end where the publication awaits. -/
  | cancel (call : Nat)

def canRebaseAfterAutomaticPublications (latestOperator expected actual : Nat) : Bool :=
  decide (expected < actual) && decide (latestOperator ≤ expected) &&
    decide (latestOperator ≤ actual)

/-- The revision of the transaction. -/
def transactionRevision (latestOperator actual : Nat) :
    PublishRequest → Except ConfigPublishError Nat
  | .publish expected =>
    if actual = expected then .ok expected
    else if canRebaseAfterAutomaticPublications latestOperator expected actual then .ok actual
    else .error (.revisionConflict expected actual)
  | .publishCurrent _ => .ok actual

namespace PublisherState

def initial (start : StoredConfiguration Content) : PublisherState Content where
  stored := start
  current := start
  latestOperatorRevision := start.revision
  announced := start.revision
  holder := none
  calls := []
  publications := []

def setStage (state : PublisherState Content) (index : Nat)
    (call : PublishCall Content) (stage : PublishStage Content) :
    PublisherState Content :=
  { state with calls := state.calls.set index { call with stage } }

/-- The publication returns and releases the lock. -/
def finish (state : PublisherState Content) (index : Nat) (call : PublishCall Content)
    (result : Except ConfigPublishError (StoredConfiguration Content × Bool)) :
    PublisherState Content :=
  { state with holder := none }.setStage index call (.finished result)

def validate (current : Content) (call : PublishCall Content) : Except String Unit :=
  match call.request with
  | .publishCurrent .automaticOAuthRefresh => .ok ()
  | _ => call.mutation.validate current

def decide (state : PublisherState Content) (index : Nat)
    (call : PublishCall Content) (current : StoredConfiguration Content) :
    PublisherState Content :=
  match transactionRevision state.latestOperatorRevision current.revision call.request with
  | .error error => state.finish index call (.error error)
  | .ok revision =>
    match validate current.content call with
    | .error failure => state.finish index call (.error (.failed failure))
    | .ok _ => state.setStage index call (.transacting current revision)

def transact (compile : Content → Except String Unit) (state : PublisherState Content) (index : Nat)
    (call : PublishCall Content) (current : StoredConfiguration Content)
    (revision : Nat) : Option String → PublisherState Content
  | some failure => state.finish index call (.error (.failed failure))
  | none =>
    match transactConfiguration compile state.stored revision call.mutation with
    | (.error error, stored) => { state with stored }.finish index call (.error error)
    | (.ok .noChange, stored) => { state with stored }.finish index call (.ok (current, false))
    | (.ok (.rejected error), stored) => { state with stored }.finish index call (.error error)
    | (.ok (.committed snapshot), stored) =>
      { state with
        stored
        publications := state.publications ++
          [Publication.mk index call.request stored.revision] }.setStage index call
            (.committed snapshot)

def act (compile : Content → Except String Unit) (state : PublisherState Content) (index : Nat)
    (call : PublishCall Content) :
    PublisherLabel Content → Option (PublisherState Content)
  | .acquirePublish _ =>
    match call.stage, state.holder with
    | .waiting, none => some ({ state with holder := some index }.setStage index call .locked)
    | _, _ => none
  | .load _ =>
    match call.stage with
    | .locked => some (state.setStage index call (.loaded state.current))
    | _ => none
  | .decide _ =>
    match call.stage with
    | .loaded current => some (state.decide index call current)
    | _ => none
  | .transact _ failure =>
    match call.stage with
    | .transacting current revision =>
      some (state.transact compile index call current revision failure)
    | _ => none
  | .store _ =>
    match call.stage with
    | .committed snapshot =>
      some ({ state with current := snapshot }.setStage index call (.replaced snapshot))
    | _ => none
  | .storeOperatorRevision _ =>
    match call.stage with
    | .replaced snapshot =>
      some ({ state with
        latestOperatorRevision :=
          if call.request.source = PublicationSource.operator then snapshot.revision
          else state.latestOperatorRevision }.setStage index call (.marked snapshot))
    | _ => none
  | .announce _ =>
    match call.stage with
    | .marked snapshot =>
      some ({ state with announced := snapshot.revision }.finish index call (.ok (snapshot, true)))
    | _ => none
  | .cancel _ =>
    match call.stage with
    | .waiting => some (state.setStage index call (.finished (.error .shuttingDown)))
    | .transacting _ _ => some (state.finish index call (.error .shuttingDown))
    | _ => none
  | .request _ _ => none

def step (compile : Content → Except String Unit) (state : PublisherState Content)
    (label : PublisherLabel Content) : Option (PublisherState Content) :=
  match label with
  | .request request mutation =>
    some { state with calls := state.calls ++ [⟨request, mutation, .waiting⟩] }
  | .acquirePublish index | .load index | .decide index | .transact index _ | .store index
  | .storeOperatorRevision index | .announce index | .cancel index => do
      let call ← state.calls[index]?
      state.act compile index call label

end PublisherState

end Any2Api.Runtime.Configuration
