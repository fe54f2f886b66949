import Any2Api.Library.CutRuns

/-! The replacement of the executable by an update and its recovery. Every function is a program
of file-system operations. An operation that completes is durable, an operation that fails changes
nothing, and a run may be cut off before any of its operations. -/
namespace Any2Api.Updater

open CutRuns

inductive FilePath where
  | executable
  | previous
  | pending
  | staged
  deriving DecidableEq

inductive ErrorKind where
  | notFound
  | alreadyExists
  | other
  deriving DecidableEq

structure IoError where
  kind : ErrorKind
  text : String

def IoError.notFound : IoError := ⟨.notFound, "No such file or directory (os error 2)"⟩

def IoError.alreadyExists : IoError := ⟨.alreadyExists, "File exists (os error 17)"⟩

structure PendingState where
  format : String
  targetVersion : String
  deriving DecidableEq

def stateFormat : String := "any2api-self-update-v1"

def maxStateBytes : Nat := 1024

/-- The length of the marker of a state: a JSON object and a line feed. -/
def PendingState.length (state : PendingState) : Nat :=
  "\x7b\"format\":\"\",\"target_version\":\"\"\x7d\n".utf8ByteSize + state.format.utf8ByteSize +
    state.targetVersion.utf8ByteSize

/-- The versions of releases. A release is a plain version of three numbers. -/
structure VersionFormat (Version : Type) where
  toString : Version → String
  parse : String → Option Version
  parse_toString : ∀ version, (parse (toString version)).isSome = true
  short : ∀ version, (toString version).utf8ByteSize ≤ 64

inductive FileContent (Binary : Type) where
  | binary (binary : Binary)
  /-- A marker has no state before it is written. -/
  | marker (state : Option PendingState)
  deriving DecidableEq

structure File (Binary : Type) where
  inode : Nat
  length : Nat
  content : FileContent Binary
  deriving DecidableEq

/-- The directory of the executable. -/
structure Disk (Binary : Type) where
  files : FilePath → Option (File Binary)
  nextInode : Nat

structure Metadata where
  inode : Nat
  length : Nat

inductive FsOperation where
  | symlinkMetadata (path : FilePath)
  | createNew (path : FilePath)
  | writeAll (path : FilePath) (state : PendingState)
  | syncAll (path : FilePath)
  | readToEnd (path : FilePath)
  | hardLink (original link : FilePath)
  | rename (source target : FilePath)
  | removeFile (path : FilePath)
  | syncDirectory

def FsOperation.Output (Binary : Type) : FsOperation → Type
  | .symlinkMetadata _ => Metadata
  | .readToEnd _ => FileContent Binary
  | _ => Unit

abbrev FsAnswer (Binary : Type) (operation : FsOperation) : Type :=
  Except IoError (operation.Output Binary)

namespace Disk

variable {Binary : Type}

def put (disk : Disk Binary) (path : FilePath) (file : Option (File Binary)) : Disk Binary :=
  { disk with files := Function.update disk.files path file }

/-- A release that has been unpacked and synced. -/
def stage (disk : Disk Binary) (binary : Binary) (length : Nat) : Disk Binary :=
  { disk with nextInode := disk.nextInode + 1 }.put .staged
    (some ⟨disk.nextInode, length, .binary binary⟩)

/-- What an operation does when the device does not fail. -/
def apply (disk : Disk Binary) : (operation : FsOperation) → FsAnswer Binary operation × Disk Binary
  | .symlinkMetadata path =>
    match disk.files path with
    | none => (.error .notFound, disk)
    | some file => (.ok ⟨file.inode, file.length⟩, disk)
  | .createNew path =>
    match disk.files path with
    | some _ => (.error .alreadyExists, disk)
    | none =>
      (.ok (), { disk with nextInode := disk.nextInode + 1 }.put path
        (some ⟨disk.nextInode, 0, .marker none⟩))
  | .writeAll path state =>
    match disk.files path with
    | none => (.error .notFound, disk)
    | some file =>
      (.ok (), disk.put path (some ⟨file.inode, state.length, .marker (some state)⟩))
  | .syncAll _ | .syncDirectory => (.ok (), disk)
  | .readToEnd path =>
    match disk.files path with
    | none => (.error .notFound, disk)
    | some file => (.ok file.content, disk)
  | .hardLink original link =>
    match disk.files original, disk.files link with
    | none, _ => (.error .notFound, disk)
    | some _, some _ => (.error .alreadyExists, disk)
    | some file, none => (.ok (), disk.put link (some file))
  | .rename source target =>
    match disk.files source with
    | none => (.error .notFound, disk)
    | some file =>
      -- Two names of one file: nothing is renamed.
      if (disk.files target).any (·.inode = file.inode) then (.ok (), disk)
      else (.ok (), (disk.put target (some file)).put source none)
  | .removeFile path =>
    match disk.files path with
    | none => (.error .notFound, disk)
    | some _ => (.ok (), disk.put path none)

/-- An operation fails when the environment gives it an error. -/
def perform (failure : Option String) (operation : FsOperation) (disk : Disk Binary) :
    FsAnswer Binary operation × Disk Binary :=
  match failure with
  | some text => (.error ⟨.other, text⟩, disk)
  | none => disk.apply operation

end Disk

structure UpdateRecoveryError where
  message : String

variable {Binary Version : Type}

/-- A function of the updater. -/
abbrev Recovering (Binary α : Type) : Type :=
  ExceptT UpdateRecoveryError (Program (FsAnswer Binary)) α

/-- The result of an operation, or of a function, that is looked at. -/
def attempt (operation : FsOperation) : Recovering Binary (FsAnswer Binary operation) :=
  ExceptT.lift (Program.perform operation)

def outcome {α : Type} (program : Recovering Binary α) :
    Recovering Binary (Except UpdateRecoveryError α) :=
  ExceptT.lift program.run

def failWith {α : Type} (message : String) : Recovering Binary α := throw ⟨message⟩

/-- An operation whose error is returned. -/
def orFail (operation : FsOperation) (context : String) :
    Recovering Binary (operation.Output Binary) := do
  match ← attempt operation with
  | .ok output => pure output
  | .error error => failWith (context ++ ": " ++ error.text)

def withCleanup (primary : UpdateRecoveryError) :
    Except UpdateRecoveryError Unit → UpdateRecoveryError
  | .ok _ => primary
  | .error cleanup => ⟨primary.message ++ "; cleanup also failed: " ++ cleanup.message⟩

/-- A file of the model is a regular one. -/
def requireRegularFile (path : FilePath) (label : String) : Recovering Binary Unit := do
  let _ ← orFail (.symlinkMetadata path) ("failed to inspect " ++ label)

def removeRegularFile (path : FilePath) (label : String) : Recovering Binary Unit := do
  requireRegularFile path label
  orFail (.removeFile path) ("failed to remove " ++ label)

def removeRegularFileIfPresent (path : FilePath) (label : String) : Recovering Binary Unit := do
  match ← attempt (.symlinkMetadata path) with
  | .ok _ => removeRegularFile path label
  | .error error =>
    if error.kind = .notFound then pure ()
    else failWith ("failed to inspect " ++ label ++ ": " ++ error.text)

def sameFile (left right : FilePath) : Recovering Binary Bool := do
  match ← attempt (.symlinkMetadata left) with
  | .error error =>
    if error.kind = .notFound then pure false
    else failWith ("failed to inspect executable: " ++ error.text)
  | .ok (found : Metadata) =>
    let (other : Metadata) ←
      orFail (.symlinkMetadata right) "failed to inspect previous executable"
    pure (found.inode = other.inode)

section Paths

-- The path of the directory, as it is displayed, and the format of versions.
variable (parent : String) (format : VersionFormat Version)

def syncParent : Recovering Binary Unit :=
  orFail .syncDirectory ("failed to sync executable directory " ++ parent)

def removePrevious : Recovering Binary Unit := removeRegularFile .previous "previous executable"

def removePending : Recovering Binary Unit := removeRegularFile .pending "pending update marker"

def removePendingIfPresent : Recovering Binary Unit :=
  removeRegularFileIfPresent .pending "pending update marker"

def cleanupUncommitted : Recovering Binary Unit := do
  removePrevious
  removePending
  syncParent parent

def cleanupConfirmed : Recovering Binary Unit := do
  removeRegularFileIfPresent .previous "previous executable"
  removePendingIfPresent
  syncParent parent

def restorePrevious : Recovering Binary Unit := do
  requireRegularFile .previous "previous executable"
  if ← sameFile .executable .previous then
    removePrevious
  else
    orFail (.rename .previous .executable) "failed to restore previous executable"
  removePendingIfPresent
  syncParent parent

/-- The marker's content is written and synced. -/
def fillPending (state : PendingState) : Recovering Binary (Except IoError Unit) := do
  match ← attempt (.writeAll .pending state) with
  | .ok _ => attempt (.syncAll .pending)
  | .error error => pure (.error error)

/-- A marker that could not be written or synced is removed again. -/
def checkFilled : Except IoError Unit → Recovering Binary Unit
  | .ok _ => pure ()
  | .error error => do
    throw (withCleanup ⟨"failed to sync update state: " ++ error.text⟩ (← outcome removePending))

def writePendingState (target : Version) : Recovering Binary Unit := do
  orFail (.createNew .pending) "failed to create pending update marker"
  checkFilled (← fillPending ⟨stateFormat, format.toString target⟩)

/-- What the content of a marker is read as. A marker without a state is an empty file, and the
first byte of an executable begins no JSON value. -/
def decodePending : FileContent Binary → Recovering Binary PendingState
  | .marker (some state) =>
    if state.format ≠ stateFormat ∨ (format.parse state.targetVersion).isNone then
      failWith "pending update marker has an unsupported format or version"
    else
      pure state
  | .marker none =>
    failWith "invalid pending update marker: EOF while parsing a value at line 1 column 0"
  | .binary _ => failWith "invalid pending update marker: expected value at line 1 column 1"

def readPendingState : Recovering Binary (Option PendingState) := do
  match ← attempt (.symlinkMetadata .pending) with
  | .error error =>
    if error.kind = .notFound then pure none
    else failWith ("failed to inspect pending update marker: " ++ error.text)
  | .ok (metadata : Metadata) =>
    if maxStateBytes < metadata.length then
      failWith "pending update marker is not a small regular file"
    else
      let content ← orFail (.readToEnd .pending) "failed to read update state"
      let state ← decodePending format content
      pure (some state)

structure StartupUpdateRecovery where
  targetVersion : String
  confirmed : Bool
  deriving DecidableEq

def StartupUpdateRecovery.targetMatches (recovery : StartupUpdateRecovery)
    (runningVersion : String) : Bool :=
  recovery.targetVersion = runningVersion

def discover : Recovering Binary (Option StartupUpdateRecovery) := do
  match ← readPendingState format with
  | none => pure none
  | some state =>
    let found ← attempt (.symlinkMetadata .previous)
    if found matches .error ⟨.notFound, _⟩ then
      removePending
      syncParent parent
      pure none
    else
      requireRegularFile .previous "previous executable"
      pure (some ⟨state.targetVersion, false⟩)

/-- A failure of the cleanup is only logged. -/
def confirmStartup (recovery : StartupUpdateRecovery) :
    Recovering Binary StartupUpdateRecovery := do
  let _ ← outcome (cleanupConfirmed parent)
  pure { recovery with confirmed := true }

def rollback (recovery : StartupUpdateRecovery) : Recovering Binary Unit :=
  if recovery.confirmed then
    failWith "confirmed application update cannot be rolled back automatically"
  else
    restorePrevious parent

def recoverPendingUpdate : Recovering Binary Bool := do
  match ← discover parent format with
  | none => pure false
  | some recovery =>
    rollback parent recovery
    pure true

/-- What `commitCandidate` does once the marker is written. -/
def commitPrepared : Recovering Binary Unit := do
  match ← attempt (.hardLink .executable .previous) with
  | .error error =>
    throw (withCleanup ⟨"failed to preserve previous executable: " ++ error.text⟩
      (← outcome removePending))
  | .ok _ =>
  match ← outcome (syncParent parent) with
  | .error error => throw (withCleanup error (← outcome (cleanupUncommitted parent)))
  | .ok _ =>
  match ← attempt (.rename .staged .executable) with
  | .error error =>
    throw (withCleanup ⟨"failed to replace current executable: " ++ error.text⟩
      (← outcome (cleanupUncommitted parent)))
  | .ok _ =>
  match ← outcome (syncParent parent) with
  | .error error => throw (withCleanup error (← outcome (restorePrevious parent)))
  | .ok _ => pure ()

def commitCandidate (target : Version) : Recovering Binary Unit := do
  writePendingState format target
  commitPrepared parent

end Paths

/-- How a startup of the executable goes on after the discovery. -/
inductive StartupEnd where
  | discoveryFailed (error : UpdateRecoveryError)
  | nothingPending
  | confirmed
  | rolledBack (result : Except UpdateRecoveryError Unit)

section Runs

variable (parent : String) (format : VersionFormat Version)

/-- The startup of a process with the instance lock: what it does about a pending update.
Whether the application starts is decided elsewhere. -/
def startup (runningVersion : String) (starts : Bool) : Program (FsAnswer Binary) StartupEnd := do
  match ← (discover parent format).run with
  | .error error => pure (.discoveryFailed error)
  | .ok none => pure .nothingPending
  | .ok (some recovery) =>
    if recovery.targetMatches runningVersion && starts then
      let _ ← (confirmStartup parent recovery).run
      pure .confirmed
    else
      return .rolledBack (← (rollback parent recovery).run)

/-- The directory and what a running process has discovered. -/
structure Host (Binary : Type) where
  disk : Disk Binary
  recovery : Option StartupUpdateRecovery

/-- Runs, each with how its operations go; a run for which nothing more is given is cut off. -/
inductive HostLabel (Binary Version : Type) where
  /-- A release is staged beside the executable and committed. -/
  | commitCandidate (binary : Binary) (length : Nat) (target : Version)
      (failures : List (Option String))
  | discover (failures : List (Option String))
  | confirmStartup (failures : List (Option String))
  | rollback (failures : List (Option String))
  | recoverPendingUpdate (failures : List (Option String))

namespace Host

/-- A clean directory with an executable. -/
def initial (binary : Binary) (length : Nat) : Host Binary where
  disk := ⟨fun path => if path = .executable then some ⟨0, length, .binary binary⟩ else none, 1⟩
  recovery := none

/-- A run on the directory. -/
def execute {α : Type} (host : Host Binary) (program : Recovering Binary α)
    (failures : List (Option String)) : Option (Except UpdateRecoveryError α) × Disk Binary :=
  CutRuns.execute Disk.perform program.run failures host.disk

/-- What has been discovered is lost where a run is cut off. -/
def step (host : Host Binary) : HostLabel Binary Version → Option (Host Binary)
  | .commitCandidate binary length target failures =>
    match { host with disk := host.disk.stage binary length }.execute
        (commitCandidate parent format target) failures with
    | (some _, disk) => some { host with disk }
    | (none, disk) => some ⟨disk, none⟩
  | .discover failures =>
    match host.execute (discover parent format) failures with
    | (some (.ok recovery), disk) => some ⟨disk, recovery⟩
    | (_, disk) => some ⟨disk, none⟩
  | .confirmStartup failures => do
      let recovery ← host.recovery
      match host.execute (confirmStartup parent recovery) failures with
      | (some (.ok recovery), disk) => some ⟨disk, some recovery⟩
      | (_, disk) => some ⟨disk, none⟩
  | .rollback failures => do
      let recovery ← host.recovery
      some ⟨(host.execute (rollback parent recovery) failures).2, none⟩
  | .recoverPendingUpdate failures =>
    match host.execute (recoverPendingUpdate parent format) failures with
    | (some _, disk) => some { host with disk }
    | (none, disk) => some ⟨disk, none⟩

end Host

end Runs

end Any2Api.Updater
