import Any2Api.Library.Runs
import Any2Api.Updater.Recovery

/-! What updates and their recovery leave on the disk, wherever their runs are cut off. -/
namespace Any2Api.Updater

open CutRuns Runs

variable {Binary Version α β : Type} {disk start : Disk Binary} {path : FilePath}
  {always : Disk Binary → Prop} {faults : Bool} {candidate : Option (File Binary)}
  {executable previous : File Binary} {length : Nat} {binary : Binary} {staged : File Binary}
  {program : Recovering Binary α}

/-- The program keeps the disk in a state with the property `always`; operations fail only where
faults are allowed. -/
abbrev Keeps (faults : Bool) (always : Disk Binary → Prop) (program : Recovering Binary α)
    (post : Except UpdateRecoveryError α → Disk Binary → Prop) (disk : Disk Binary) : Prop :=
  Meets Disk.perform (fun failure => failure = none ∨ faults = true) always program.run post disk

namespace Disk

/-- Removing a file that is not there changes nothing. -/
theorem put_none_of_absent (h : disk.files path = none) : disk.put path none = disk := by
  unfold put
  rw [← h, Function.update_eq_self]

theorem inspect_absent (h : disk.files path = none) :
    disk.apply (.symlinkMetadata path) = (.error .notFound, disk) := by
  simp only [apply, h]

theorem inspect_present {file : File Binary} (h : disk.files path = some file) :
    disk.apply (.symlinkMetadata path) = (.ok ⟨file.inode, file.length⟩, disk) := by
  simp only [apply, h]

theorem remove_present {file : File Binary} (h : disk.files path = some file) :
    disk.apply (.removeFile path) = (.ok (), disk.put path none) := by
  simp only [apply, h]

end Disk

/-- Where faults are allowed, every error is. -/
def Tolerant (faults : Bool) (always : Disk Binary → Prop)
    (post : Except UpdateRecoveryError α → Disk Binary → Prop) : Prop :=
  faults = true → ∀ error disk, always disk → post (.error error) disk

/-- What holds where nothing fails. -/
def Faultless (faults : Bool) (property : Except UpdateRecoveryError α → Disk Binary → Prop)
    (result : Except UpdateRecoveryError α) (disk : Disk Binary) : Prop :=
  faults = false → property result disk

/-- A statement about the runs in which nothing fails tolerates faults. -/
theorem tolerant_faultless {property : Except UpdateRecoveryError α → Disk Binary → Prop} :
    Tolerant faults always (Faultless faults property) :=
  fun hFaults _ _ _ hNone => absurd (hFaults.symm.trans hNone) nofun

section Functions

variable {post : Except UpdateRecoveryError Unit → Disk Binary → Prop} {label parent : String}
  {operation : FsOperation}

section

variable (h : always disk)
include h

/-- One operation: it fails where faults are allowed, or goes as the disk has it. -/
theorem attempt_keeps
    {post : Except UpdateRecoveryError (FsAnswer Binary operation) → Disk Binary → Prop}
    (hFail : faults = true → ∀ error, post (.ok (.error ⟨.other, error⟩)) disk)
    (hApply : always (disk.apply operation).2 ∧
      post (.ok (disk.apply operation).1) (disk.apply operation).2) :
    Keeps faults always (attempt operation) post disk := by
  refine .lift ⟨h, fun failure hAllowed => ?_⟩
  cases failure with
  | none => exact hApply
  | some error => exact ⟨h, hFail (hAllowed.resolve_left nofun) error⟩

/-- An operation whose error ends the program. Where nothing fails it must not go wrong. -/
theorem orFail_keeps {context : String}
    {post : Except UpdateRecoveryError (operation.Output Binary) → Disk Binary → Prop}
    (hFail : Tolerant faults always post) (hApply : always (disk.apply operation).2 ∧
      match (disk.apply operation).1 with
      | .ok output => post (.ok output) (disk.apply operation).2
      | .error _ => faults = true) :
    Keeps faults always (orFail operation context) post disk := by
  refine .tryBind (attempt_keeps h (fun hFaults _ => ⟨h, hFail hFaults _ _ h⟩) ⟨hApply.1, ?_⟩)
  cases hResult : (disk.apply operation).1 with
  | ok output =>
    rw [hResult] at hApply
    exact hApply
  | error error =>
    rw [hResult] at hApply
    exact ⟨hApply.1, hFail hApply.2 _ _ hApply.1⟩

/-- A file that has to be there is missing only where faults are allowed. -/
theorem requireRegularFile_keeps (hFail : Tolerant faults always post)
    (hPresent : faults = true ∨ disk.files path ≠ none)
    (hOk : disk.files path ≠ none → post (.ok ()) disk) :
    Keeps faults always (requireRegularFile path label) post disk := by
  have hFailed : Tolerant faults always fun result disk =>
      match result with
      | .ok (_ : Metadata) => Keeps faults always (pure ()) post disk
      | .error error => post (.error error) disk := hFail
  refine .tryBind (orFail_keeps h hFailed ?_)
  cases hFile : disk.files path with
  | none =>
    rw [Disk.inspect_absent hFile]
    exact ⟨h, hPresent.resolve_right (not_not.mpr hFile)⟩
  | some file =>
    rw [Disk.inspect_present hFile]
    exact ⟨h, h, hOk (by rw [hFile]; nofun)⟩

/-- A file is removed that has to be there. -/
theorem removeRegularFile_keeps (hRemoved : always (disk.put path none))
    (hFail : Tolerant faults always post) (hPresent : faults = true ∨ disk.files path ≠ none)
    (hOk : disk.files path ≠ none → post (.ok ()) (disk.put path none)) :
    Keeps faults always (removeRegularFile path label) post disk := by
  refine .tryBind (requireRegularFile_keeps h hFail hPresent fun hFile => ?_)
  obtain ⟨file, hFound⟩ := Option.ne_none_iff_exists'.mp hFile
  refine orFail_keeps h hFail ?_
  rw [Disk.remove_present hFound]
  exact ⟨hRemoved, hOk hFile⟩

/-- Afterwards the file is gone, whether or not it was there. -/
theorem removeRegularFileIfPresent_keeps (hRemoved : always (disk.put path none))
    (hFail : Tolerant faults always post) (hOk : post (.ok ()) (disk.put path none)) :
    Keeps faults always (removeRegularFileIfPresent path label) post disk := by
  refine .tryBind (attempt_keeps h (fun hFaults _ => ⟨h, hFail hFaults _ _ h⟩) ?_)
  cases hFile : disk.files path with
  | none =>
    rw [Disk.inspect_absent hFile]
    rw [Disk.put_none_of_absent hFile] at hOk
    exact ⟨h, h, hOk⟩
  | some file =>
    rw [Disk.inspect_present hFile]
    exact ⟨h, removeRegularFile_keeps h hRemoved hFail (.inr (by rw [hFile]; nofun)) fun _ => hOk⟩

theorem syncParent_keeps (hFail : Tolerant faults always post)
    (hOk : post (.ok ()) disk) : Keeps faults always (syncParent parent) post disk :=
  orFail_keeps h hFail ⟨h, hOk⟩

end

/-- Nothing is left of an update. -/
def Disk.Settled (disk : Disk Binary) : Prop :=
  disk.files .previous = none ∧ disk.files .pending = none

/-- Both files have been removed. -/
def Disk.cleaned (disk : Disk Binary) : Disk Binary := (disk.put .previous none).put .pending none

/-- The previous file is the executable again. -/
def Disk.restored (disk : Disk Binary) (executable previous : File Binary) : Disk Binary :=
  if executable.inode = previous.inode then disk.put .previous none
  else (disk.put .executable (some previous)).put .previous none

/-- Two names are the same file if they share their inode. -/
theorem sameFile_keeps {post : Except UpdateRecoveryError Bool → Disk Binary → Prop}
    (hExecutable : disk.files .executable = some executable)
    (hPrevious : disk.files .previous = some previous) (h : always disk)
    (hFail : Tolerant faults always post)
    (hOk : post (.ok (executable.inode = previous.inode)) disk) :
    Keeps faults always (sameFile .executable .previous) post disk := by
  refine .tryBind (attempt_keeps h (fun hFaults _ => ⟨h, hFail hFaults _ _ h⟩) ?_)
  rw [Disk.inspect_present hExecutable]
  refine ⟨h, .tryBind (orFail_keeps h ?_ ?_)⟩
  · exact hFail
  · rw [Disk.inspect_present hPrevious]
    exact ⟨h, h, hOk⟩

end Functions

/-- A marker whose content has been written. -/
def File.Written (format : VersionFormat Version) (file : File Binary) : Prop :=
  ∃ state, file.content = .marker (some state) ∧ state.format = stateFormat ∧
    (format.parse state.targetVersion).isSome = true ∧ file.length ≤ maxStateBytes

structure Disk.Valid (format : VersionFormat Version) (disk : Disk Binary) : Prop where
  executable : ∃ file binary, disk.files .executable = some file ∧ file.content = .binary binary
  previous : ∀ file, disk.files .previous = some file → ∃ binary, file.content = .binary binary
  linked : disk.files .previous ≠ none → disk.files .pending ≠ none
  marker : ∀ file, disk.files .pending = some file →
    file.content = .marker none ∨ file.Written format

/-- No marker on the disk is without its content. -/
def Disk.Complete (disk : Disk Binary) : Prop :=
  ∀ file, disk.files .pending = some file → file.content ≠ .marker none

/-- What a run makes of the disk that it begins with; a run that commits has a candidate. -/
structure Disk.Sound (format : VersionFormat Version) (candidate : Option (File Binary))
    (start disk : Disk Binary) : Prop extends Disk.Valid format disk where
  executable_of : disk.files .executable = start.files .executable ∨
    candidate ≠ none ∧ disk.files .executable = candidate ∨
    start.files .previous ≠ none ∧ disk.files .executable = start.files .previous
  previous_of : disk.files .previous = none ∨ disk.files .previous = start.files .previous ∨
    disk.files .previous = start.files .executable
  pending_of : disk.files .pending = none ∨ disk.files .pending = start.files .pending ∨
    candidate ≠ none ∧ start.files .pending = none

open Disk (Sound)

/-- A new marker with its content, if it has been written. -/
def Disk.marked (disk : Disk Binary) (length : Nat) (state : Option PendingState) : Disk Binary :=
  { disk with nextInode := disk.nextInode + 1 }.put .pending
    (some ⟨disk.nextInode, length, .marker state⟩)

namespace Disk.Sound

variable {format : VersionFormat Version}

/-- A valid disk that nothing has been done to. -/
theorem refl (candidate : Option (File Binary)) (h : Disk.Valid format start) :
    Sound format candidate start start :=
  ⟨h, .inl rfl, .inr (.inl rfl), .inr (.inl rfl)⟩

section

variable (h : Sound format candidate start disk)
include h

/-- The previous executable may go at any time. -/
theorem dropPrevious : Sound format candidate start (disk.put .previous none) :=
  ⟨⟨h.executable, nofun, fun hSome => absurd rfl hSome, h.marker⟩, h.executable_of, .inl rfl,
    h.pending_of⟩

/-- The marker may go once there is no previous executable. -/
theorem dropPending (hPrevious : disk.files .previous = none) :
    Sound format candidate start (disk.put .pending none) :=
  ⟨⟨h.executable, h.previous, fun hSome => absurd hPrevious hSome, nofun⟩, h.executable_of,
    h.previous_of, .inl rfl⟩

theorem cleaned : Sound format candidate start disk.cleaned :=
  h.dropPrevious.dropPending rfl

/-- A commit adds a marker where there was none. -/
theorem marked {state : Option PendingState} (hCandidate : candidate ≠ none)
    (hPending : start.files .pending = none) (hState : state = none ∨
      (File.mk disk.nextInode length (.marker state) : File Binary).Written format) :
    Sound format candidate start (disk.marked length state) := by
  refine ⟨⟨h.executable, h.previous, fun _ => nofun, fun found hFound => ?_⟩, h.executable_of,
    h.previous_of, .inr (.inr ⟨hCandidate, hPending⟩)⟩
  obtain rfl := Option.some.inj hFound
  exact hState.imp_left (congrArg FileContent.marker)

/-- The executable is kept as the previous one as long as nothing has replaced it. -/
theorem link (hExecutable : disk.files .executable = start.files .executable)
    (hPending : disk.files .pending ≠ none) :
    Sound format candidate start (disk.put .previous (disk.files .executable)) := by
  obtain ⟨file, binary, hFile, hBinary⟩ := h.executable
  refine ⟨⟨h.executable, fun found hFound => ?_, fun _ => hPending, h.marker⟩, h.executable_of,
    .inr (.inr hExecutable), h.pending_of⟩
  have hFound : disk.files .executable = some found := hFound
  rw [hFile] at hFound
  exact ⟨binary, Option.some.inj hFound ▸ hBinary⟩

end

/-- The release takes the place of the executable. -/
theorem replace
    (h : Sound format (some staged) start disk) (hBinary : staged.content = .binary binary) :
    Sound format (some staged) start ((disk.put .executable (some staged)).put .staged none) :=
  ⟨⟨⟨staged, binary, rfl, hBinary⟩, h.previous, h.linked, h.marker⟩, .inr (.inl ⟨nofun, rfl⟩),
    h.previous_of, h.pending_of⟩

/-- Restoring brings back an executable that the run has found or has replaced. -/
theorem restored (h : Sound format candidate start disk)
    (hPrevious : disk.files .previous = some previous) :
    Sound format candidate start (disk.restored executable previous) ∧
      (disk.restored executable previous).files .previous = none := by
  unfold Disk.restored
  by_cases hSame : executable.inode = previous.inode
  · rw [if_pos hSame]
    exact ⟨h.dropPrevious, rfl⟩
  · rw [if_neg hSame]
    refine ⟨⟨⟨?_, nofun, fun hSome => absurd rfl hSome, h.marker⟩, ?_, .inl rfl, h.pending_of⟩,
      rfl⟩
    · obtain ⟨binary, hBinary⟩ := h.previous previous hPrevious
      exact ⟨previous, binary, rfl, hBinary⟩
    · have hExecutable :
          ((disk.put .executable (some previous)).put .previous none).files .executable =
            disk.files .previous := hPrevious.symm
      rw [hExecutable]
      rcases h.previous_of with hNone | hStart | hStart
      · rw [hNone] at hPrevious
        cases hPrevious
      · refine .inr (.inr ⟨?_, hStart⟩)
        rw [← hStart, hPrevious]
        nofun
      · exact .inl hStart

end Disk.Sound

section Runs

variable {format : VersionFormat Version} {parent : String}
  {post : Except UpdateRecoveryError Unit → Disk Binary → Prop}

section

variable (h : Sound format candidate start disk)
include h

/-- The previous executable takes its place again, whether or not the release got there. -/
theorem restorePrevious_sound (hPresent : faults = true ∨ disk.files .previous ≠ none)
    (hFail : Tolerant faults (Sound format candidate start) post)
    (hOk : ∀ disk : Disk Binary, disk.Settled → post (.ok ()) disk) :
    Keeps faults (Sound format candidate start) (restorePrevious parent) post disk := by
  obtain ⟨executable, binary, hExecutable, -⟩ := h.executable
  refine .tryBind (requireRegularFile_keeps h hFail hPresent fun hFile => ?_)
  obtain ⟨previous, hPrevious⟩ := Option.ne_none_iff_exists'.mp hFile
  obtain ⟨hFirst, hNone⟩ := h.restored hPrevious
  have hSecond := hFirst.dropPending hNone
  -- Both ways to restore go on in the same way.
  have hRest : Keeps faults (Sound format candidate start)
      (do removePendingIfPresent; syncParent parent) post (disk.restored executable previous) := by
    refine .tryBind (removeRegularFileIfPresent_keeps hFirst hSecond hFail ?_)
    exact syncParent_keeps hSecond hFail (hOk _ ⟨hNone, rfl⟩)
  refine .tryBind (sameFile_keeps hExecutable hPrevious h hFail ?_)
  unfold Disk.restored at hFirst hRest
  by_cases hSame : executable.inode = previous.inode
  · rw [if_pos hSame] at hFirst hRest
    rw [decide_eq_true hSame]
    exact .tryBind (removeRegularFile_keeps h hFirst hFail (.inr hFile) fun _ => hRest)
  · rw [if_neg hSame] at hFirst hRest
    rw [decide_eq_false hSame]
    refine .tryBind (orFail_keeps h hFail ?_)
    have hRename : disk.apply (.rename .previous .executable) =
        (.ok (), (disk.put .executable (some previous)).put .previous none) := by
      simp only [Disk.apply, hPrevious, hExecutable, Option.any_some, decide_eq_true_eq,
        if_neg hSame]
    rw [hRename]
    exact ⟨hFirst, hRest⟩

/-- Both files are removed; a missing one is an error. -/
theorem cleanupUncommitted_sound (hFail : Tolerant faults (Sound format candidate start) post)
    (hFaults : faults = true) (hOk : post (.ok ()) disk.cleaned) :
    Keeps faults (Sound format candidate start) (cleanupUncommitted parent) post disk := by
  refine .tryBind (removeRegularFile_keeps h h.dropPrevious hFail (.inl hFaults) fun _ => ?_)
  refine .tryBind (removeRegularFile_keeps h.dropPrevious h.cleaned hFail (.inl hFaults)
    fun _ => ?_)
  exact syncParent_keeps h.cleaned hFail hOk

/-- Both files are removed as far as they are there. -/
theorem cleanupConfirmed_sound (hFail : Tolerant faults (Sound format candidate start) post)
    (hOk : post (.ok ()) disk.cleaned) :
    Keeps faults (Sound format candidate start) (cleanupConfirmed parent) post disk := by
  refine .tryBind (removeRegularFileIfPresent_keeps h h.dropPrevious hFail ?_)
  refine .tryBind (removeRegularFileIfPresent_keeps h.dropPrevious h.cleaned hFail ?_)
  exact syncParent_keeps h.cleaned hFail hOk

variable {recovery : StartupUpdateRecovery}

/-- A confirmed update leaves nothing behind where nothing fails. -/
theorem confirmStartup_sound :
    Keeps faults (Sound format candidate start) (confirmStartup parent recovery)
      (Faultless faults fun _ disk => disk.Settled) disk := by
  refine .tryBind (.lift (cleanupConfirmed_sound h ?_ ⟨h.cleaned, fun _ => ⟨rfl, rfl⟩⟩))
  exact fun hFaults _ disk hDisk => ⟨hDisk, fun hNone => absurd (hFaults.symm.trans hNone) nofun⟩

/-- A rollback that was not confirmed before succeeds where nothing fails. -/
theorem rollback_sound
    (hPresent : faults = true ∨ recovery.confirmed = false ∧ disk.files .previous ≠ none) :
    Keeps faults (Sound format candidate start) (rollback parent recovery)
      (Faultless faults fun result disk => result = .ok () ∧ disk.Settled) disk := by
  unfold rollback
  cases hConfirmed : recovery.confirmed with
  | true =>
    have hFaults : faults = true :=
      hPresent.resolve_right fun hNot => absurd (hConfirmed.symm.trans hNot.1) nofun
    exact ⟨h, tolerant_faultless hFaults _ _ h⟩
  | false =>
    exact restorePrevious_sound h (hPresent.imp_right And.right) tolerant_faultless
      fun _ hSettled _ => ⟨rfl, hSettled⟩

/-- A marker without content is read only where faults are allowed. -/
theorem readPendingState_sound
    {post : Except UpdateRecoveryError (Option PendingState) → Disk Binary → Prop}
    (hFail : Tolerant faults (Sound format candidate start) post)
    (hWritten : faults = true ∨ disk.Complete)
    (hNone : disk.files .pending = none → post (.ok none) disk)
    (hSome : ∀ state, disk.files .pending ≠ none → post (.ok (some state)) disk) :
    Keeps faults (Sound format candidate start) (readPendingState format) post disk := by
  refine .tryBind (attempt_keeps h (fun hFaults _ => ⟨h, hFail hFaults _ _ h⟩) ?_)
  cases hFile : disk.files .pending with
  | none =>
    rw [Disk.inspect_absent hFile]
    exact ⟨h, h, hNone hFile⟩
  | some file =>
    have hPresent : disk.files .pending ≠ none := by rw [hFile]; nofun
    have hRead : disk.apply (.readToEnd .pending) = (.ok file.content, disk) := by
      simp only [Disk.apply, hFile]
    rw [Disk.inspect_present hFile]
    refine ⟨h, ?_⟩
    dsimp only
    rcases h.marker file hFile with hEmpty | ⟨state, hState, hFormat, hParse, hLength⟩
    · -- The marker cannot be read as a state.
      have hFaults := hWritten.resolve_right fun hAll => hAll file hFile hEmpty
      by_cases hLong : maxStateBytes < file.length
      · rw [if_pos hLong]
        exact ⟨h, hFail hFaults _ _ h⟩
      · rw [if_neg hLong]
        refine .tryBind (orFail_keeps h (fun _ error disk => hFail hFaults error disk) ?_)
        rw [hRead, hEmpty]
        exact ⟨h, .tryBind ⟨h, hFail hFaults _ _ h⟩⟩
    · rw [if_neg (Nat.not_lt.mpr hLength)]
      refine .tryBind (orFail_keeps h (fun hFaults error disk => hFail hFaults error disk) ?_)
      rw [hRead, hState]
      have hDecode :
          (decodePending format (.marker (some state)) : Recovering Binary PendingState) =
          pure state := by
        refine if_neg ?_
        rintro (hOther | hNone)
        · exact hOther hFormat
        · rw [← Option.not_isSome, hParse] at hNone
          cases hNone
      change Sound format candidate start disk ∧ Keeps faults (Sound format candidate start)
        (decodePending format (.marker (some state)) >>= fun state => pure (some state)) post disk
      rw [hDecode]
      exact ⟨h, h, hSome state hPresent⟩

end

/-- What the discovery ends in where nothing fails. -/
def Discovered (result : Except UpdateRecoveryError (Option StartupUpdateRecovery))
    (disk : Disk Binary) : Prop :=
  result = .ok none ∧ disk.Settled ∨
    ∃ recovery, result = .ok (some recovery) ∧ recovery.confirmed = false ∧
      disk.files .previous ≠ none

/-- Where nothing fails the discovery finds nothing and leaves nothing, or finds an update that
can be rolled back. -/
theorem discover_sound (h : Sound format candidate start disk)
    (hWritten : faults = true ∨ disk.Complete) :
    Keeps faults (Sound format candidate start) (discover parent format)
      (Faultless faults Discovered) disk := by
  have hFail : Tolerant faults (Sound format candidate start) (Faultless faults Discovered) :=
    tolerant_faultless
  refine .tryBind (readPendingState_sound h hFail hWritten (fun hPending => ?_)
    fun state hPending => ?_)
  · refine ⟨h, fun _ => .inl ⟨rfl, ?_, hPending⟩⟩
    by_contra hPrevious
    exact h.linked hPrevious hPending
  · have hFound (hPresent : faults = true ∨ disk.files .previous ≠ none) :
        Keeps faults (Sound format candidate start)
          (do
            requireRegularFile .previous "previous executable"
            pure (some ⟨state.targetVersion, false⟩))
          (Faultless faults Discovered) disk :=
      .tryBind (requireRegularFile_keeps h hFail hPresent fun hPrevious =>
        ⟨h, fun _ => .inr ⟨_, rfl, rfl, hPrevious⟩⟩)
    refine .tryBind (attempt_keeps h (fun hFaults _ => hFound (.inl hFaults)) ?_)
    cases hPrevious : disk.files .previous with
    | none =>
      rw [Disk.inspect_absent hPrevious]
      have hSound := h.dropPending hPrevious
      refine ⟨h, .tryBind (removeRegularFile_keeps h hSound hFail (.inr hPending) fun _ => ?_)⟩
      refine .tryBind (syncParent_keeps hSound hFail ?_)
      exact ⟨hSound, fun _ => .inl ⟨rfl, hPrevious, rfl⟩⟩
    | some file =>
      rw [Disk.inspect_present hPrevious]
      exact ⟨h, hFound (.inr (by rw [hPrevious]; nofun))⟩

theorem recoverPendingUpdate_sound (h : Sound format candidate start disk) :
    Keeps true (Sound format candidate start) (recoverPendingUpdate parent format)
      (fun _ _ => True) disk := by
  refine .tryBind ((discover_sound h (.inl rfl)).mono fun result disk h _ => ?_)
  cases result with
  | error error => trivial
  | ok recovery =>
    cases recovery with
    | none => exact ⟨h, trivial⟩
    | some recovery =>
      refine .tryBind ((rollback_sound h (.inl rfl)).mono fun result disk h _ => ?_)
      cases result with
      | error error => trivial
      | ok _ => exact ⟨h, trivial⟩

/-- A startup leaves nothing behind where nothing fails. -/
def StartupEnd.Clean : StartupEnd → Prop
  | .discoveryFailed _ | .rolledBack (.error _) => False
  | .nothingPending | .confirmed | .rolledBack (.ok _) => True

/-- A startup that finds the markers complete leaves nothing behind where nothing fails. -/
theorem startup_sound {runningVersion : String} {starts : Bool}
    (h : Sound format candidate start disk)
    (hWritten : disk.Complete) :
    Meets Disk.perform (fun failure => failure = none ∨ false = true) (Sound format candidate start)
      (startup parent format runningVersion starts)
      (fun ended disk => ended.Clean ∧ disk.Settled) disk := by
  refine .bind ((discover_sound h (.inr hWritten)).mono fun result disk h hDiscovered => ?_)
  rcases hDiscovered rfl with ⟨rfl, hSettled⟩ | ⟨recovery, rfl, hNot, hPrevious⟩
  · exact ⟨h, trivial, hSettled⟩
  · dsimp only
    cases recovery.targetMatches runningVersion && starts with
    | true =>
      refine .bind ((confirmStartup_sound h).mono fun result disk h hClean => ?_)
      exact ⟨h, trivial, hClean rfl⟩
    | false =>
      refine .bind ((rollback_sound h (.inr ⟨hNot, hPrevious⟩)).mono
        fun result disk h hClean => ?_)
      obtain ⟨rfl, hGone⟩ := hClean rfl
      exact ⟨h, trivial, hGone⟩

/-- The marker of a commit can be read again, since versions are short enough. -/
theorem written_of_state (format : VersionFormat Version) (target : Version) (inode : Nat) :
    (File.mk inode (PendingState.length ⟨stateFormat, format.toString target⟩)
      (.marker (some ⟨stateFormat, format.toString target⟩)) : File Binary).Written format := by
  refine ⟨_, rfl, rfl, format.parse_toString target, ?_⟩
  have hShort := format.short target
  have hFrame : "\x7b\"format\":\"\",\"target_version\":\"\"\x7d\n".utf8ByteSize +
      stateFormat.utf8ByteSize = 56 := by decide +kernel
  unfold PendingState.length maxStateBytes
  dsimp only
  omega

/-- An error that is returned after a cleanup. -/
theorem cleanup_keeps {post : Except UpdateRecoveryError β → Disk Binary → Prop}
    {error : Except UpdateRecoveryError α → UpdateRecoveryError} (hFaults : faults = true)
    (hFail : Tolerant faults always post) (h : Keeps faults always program (fun _ _ => True) disk) :
    Keeps faults always (do throw (error (← outcome program))) post disk :=
  .tryBind (.lift (h.mono fun _ disk hDisk _ => ⟨hDisk, hFail hFaults _ disk hDisk⟩))

/-- The marker is written and nothing else has changed. -/
structure Prepared (start disk : Disk Binary) : Prop where
  executable : disk.files .executable = start.files .executable
  staged : disk.files .staged = start.files .staged
  previous : disk.files .previous = none
  pending : disk.files .pending ≠ none

/-- A commit that fails with its marker written removes it. -/
theorem removePending_keeps
    (h : Sound format candidate start disk) (hPrepared : Prepared start disk)
    (hFaults : faults = true)
    (hFail : Tolerant faults (Sound format candidate start) post)
    {error : Except UpdateRecoveryError Unit → UpdateRecoveryError} :
    Keeps faults (Sound format candidate start)
      (do throw (error (← outcome removePending))) post disk :=
  cleanup_keeps hFaults hFail (removeRegularFile_keeps h (h.dropPending hPrepared.previous)
    (fun _ _ _ _ => trivial) (.inl hFaults) fun _ => trivial)

theorem create_absent (h : start.files .pending = none) :
    start.apply (.createNew .pending) = (.ok (), start.marked 0 none) := by
  simp only [Disk.apply, h]
  rfl

theorem write_created (start : Disk Binary) (state : PendingState) :
    (start.marked 0 none).apply (.writeAll .pending state) =
      (.ok (), start.marked state.length (some state)) := by
  change (_, Disk.put (Disk.put ..) ..) = (_, Disk.put ..)
  unfold Disk.put
  rw [Function.update_idem]

/-- The marker is written where there was none. Where the writing fails the marker is removed
again, if that does not fail as well. -/
theorem writePendingState_sound {target : Version} (h : Disk.Valid format start)
    (hCandidate : candidate ≠ none)
    (hFail : Tolerant faults (Sound format candidate start) post)
    (hPending : faults = true ∨ start.files .pending = none)
    (hOk : ∀ disk, Sound format candidate start disk → Prepared start disk → post (.ok ()) disk) :
    Keeps faults (Sound format candidate start) (writePendingState format target) post start := by
  have hStart := Sound.refl candidate h
  refine .tryBind (orFail_keeps hStart hFail ?_)
  cases hFile : start.files .pending with
  | some file =>
    have hCreate : start.apply (.createNew .pending) = (.error .alreadyExists, start) := by
      simp only [Disk.apply, hFile]
    rw [hCreate]
    exact ⟨hStart, hPending.resolve_right (by rw [hFile]; nofun)⟩
  | none =>
    have hPrevious : start.files .previous = none := by
      by_contra hSome
      exact h.linked hSome hFile
    have hPrepared (length : Nat) (state : Option PendingState) :
        Prepared start (start.marked length state) := ⟨rfl, rfl, hPrevious, nofun⟩
    have hCreated : Sound format candidate start (start.marked 0 none) :=
      hStart.marked hCandidate hFile (.inl rfl)
    have hFilled := hStart.marked hCandidate hFile
      (.inr (written_of_state format target start.nextInode))
    rw [create_absent hFile]
    refine ⟨hCreated, .tryBind (.tryBind (attempt_keeps hCreated
      (fun hFaults _ => ⟨hCreated, removePending_keeps hCreated (hPrepared ..) hFaults hFail⟩) ?_))⟩
    rw [write_created]
    exact ⟨hFilled, attempt_keeps hFilled
      (fun hFaults _ => removePending_keeps hFilled (hPrepared ..) hFaults hFail)
      ⟨hFilled, hFilled, hOk _ hFilled (hPrepared ..)⟩⟩

/-- The release takes the place of the executable, which is kept under the previous name. -/
theorem commitPrepared_sound (hSound : Sound format (some staged) start disk)
    (hPrepared : Prepared start disk) (hStaged : start.files .staged = some staged)
    (hBinary : staged.content = .binary binary) :
    Keeps faults (Sound format (some staged) start) (commitPrepared parent)
      (Faultless faults fun result _ => result = .ok ()) disk := by
  -- What goes wrong after the link is undone by removing both files.
  have hUndo {disk : Disk Binary} (hSound : Sound format (some staged) start disk)
      (hFaults : faults = true) {error : Except UpdateRecoveryError Unit → UpdateRecoveryError} :
      Keeps faults (Sound format (some staged) start)
        (do throw (error (← outcome (cleanupUncommitted parent))))
        (Faultless faults fun result _ => result = .ok ()) disk :=
    cleanup_keeps hFaults tolerant_faultless
      (cleanupUncommitted_sound hSound (fun _ _ _ _ => trivial) hFaults trivial)
  obtain ⟨executable, -, hExecutable, -⟩ := hSound.executable
  have hLink : disk.apply (.hardLink .executable .previous) =
      (.ok (), disk.put .previous (disk.files .executable)) := by
    simp only [Disk.apply, hExecutable, hPrepared.previous]
  have hLinked := hSound.link hPrepared.executable hPrepared.pending
  refine .tryBind (attempt_keeps hSound
    (fun hFaults _ => removePending_keeps hSound hPrepared hFaults tolerant_faultless) ?_)
  rw [hLink]
  refine ⟨hLinked, .tryBind (.lift (syncParent_keeps hLinked
    (fun hFaults _ _ hDisk => hUndo hDisk hFaults) ?_))⟩
  refine .tryBind (attempt_keeps hLinked (fun hFaults _ => hUndo hLinked hFaults) ?_)
  have hFound : (disk.put .previous (disk.files .executable)).files .staged = some staged :=
    hPrepared.staged.trans hStaged
  have hNow : (disk.put .previous (disk.files .executable)).files .executable = some executable :=
    hExecutable
  obtain ⟨after, hRename, hAfter⟩ : ∃ after, (disk.put .previous (disk.files .executable)).apply
      (.rename .staged .executable) = (.ok (), after) ∧
        Sound format (some staged) start after := by
    by_cases hSame : executable.inode = staged.inode
    · exact ⟨_, by simp only [Disk.apply, hFound, hNow, Option.any_some, decide_eq_true_eq,
        if_pos hSame], hLinked⟩
    · exact ⟨_, by simp only [Disk.apply, hFound, hNow, Option.any_some, decide_eq_true_eq,
        if_neg hSame], hLinked.replace hBinary⟩
  rw [hRename]
  refine ⟨hAfter, .tryBind (.lift (syncParent_keeps hAfter (fun hFaults _ _ hDisk => ?_) ?_))⟩
  · exact cleanup_keeps hFaults tolerant_faultless (restorePrevious_sound hDisk (.inl hFaults)
      (fun _ _ _ _ => trivial) fun _ _ => trivial)
  · exact ⟨hAfter, fun _ => rfl⟩

/-- A commit succeeds where nothing fails and no marker is in the way. -/
theorem commitCandidate_sound {target : Version}
    (h : Disk.Valid format start) (hStaged : start.files .staged = some staged)
    (hBinary : staged.content = .binary binary)
    (hPending : faults = true ∨ start.files .pending = none) :
    Keeps faults (Sound format (some staged) start) (commitCandidate parent format target)
      (Faultless faults fun result _ => result = .ok ()) start :=
  .tryBind (writePendingState_sound h nofun tolerant_faultless hPending
    fun _ hSound hPrepared => commitPrepared_sound hSound hPrepared hStaged hBinary)

/-! Which commits leave a marker without content. -/

/-- Only a run that commits can leave a marker without content. -/
theorem Disk.Sound.complete (h : Sound format candidate start disk)
    (hStart : start.Complete) (hOld : candidate = none ∨ start.files .pending ≠ none) :
    disk.Complete := by
  intro file hFile
  rcases h.pending_of with hNone | hSame | ⟨hCommits, hAbsent⟩
  · rw [hNone] at hFile
    cases hFile
  · exact hStart file (hSame ▸ hFile)
  · exact absurd hOld (not_or.mpr ⟨hCommits, not_not.mpr hAbsent⟩)

/-- How the operations of a commit that creates the marker go: the content is written right after
the creation, or the writing fails and the marker is found and removed. A commit that is cut off
before its first operation, or fails in it, creates none. -/
def fillsMarker : List (Option String) → Bool
  | none :: none :: _ => true
  | none :: some _ :: none :: none :: _ => true
  | none :: _ => false
  | _ => true

/-- An operation that does not fail. -/
theorem execute_act {operation : FsOperation} {answer : FsAnswer Binary operation}
    {next : FsAnswer Binary operation → Program (FsAnswer Binary) α}
    {failures : List (Option String)} {after : Disk Binary}
    (h : disk.apply operation = (answer, after)) :
    CutRuns.execute Disk.perform (.act operation next) (none :: failures) disk =
      CutRuns.execute Disk.perform (next answer) failures after := by
  change CutRuns.execute Disk.perform (next (disk.apply operation).1) failures
    (disk.apply operation).2 = _
  rw [h]

theorem execute_written {target : Version} {failures : List (Option String)}
    (hPending : start.files .pending = none) :
    CutRuns.execute Disk.perform (commitCandidate parent format target).run
        (none :: none :: failures) start =
      CutRuns.execute Disk.perform
        (do
          checkFilled (← attempt (.syncAll .pending))
          commitPrepared parent : Recovering Binary Unit).run failures
        (start.marked (PendingState.length ⟨stateFormat, format.toString target⟩)
          (some ⟨stateFormat, format.toString target⟩)) :=
  (execute_act (create_absent hPending)).trans (execute_act (write_created start _))

theorem execute_unwritten {target : Version} {failures : List (Option String)} {text : String}
    (hPending : start.files .pending = none) :
    (CutRuns.execute Disk.perform (commitCandidate parent format target).run
        (none :: some text :: none :: none :: failures) start).2 =
      (start.marked 0 none).put .pending none :=
  congrArg Prod.snd (execute_act (create_absent hPending))

/-- A commit whose operations go as `fillsMarker` says leaves no marker without content. -/
theorem commitCandidate_complete {target : Version} {failures : List (Option String)}
    (h : Disk.Valid format start) (hComplete : start.Complete)
    (hStaged : start.files .staged = some staged) (hBinary : staged.content = .binary binary)
    (hFills : start.files .pending = none → fillsMarker failures = true) :
    (CutRuns.execute Disk.perform (commitCandidate parent format target).run failures
      start).2.Complete := by
  by_cases hPending : start.files .pending = none
  · specialize hFills hPending
    rcases failures with _ | ⟨_ | text, failures⟩
    · exact hComplete
    · rcases failures with _ | ⟨_ | text, failures⟩
      · cases hFills
      · -- From here on the marker is the written one, or has been removed.
        rw [execute_written hPending]
        have hFilled := ((Sound.refl (some staged) h).marked nofun hPending
          (.inr (written_of_state format target start.nextInode))).toValid
        have hSound := Sound.refl (some staged) hFilled
        have hPrevious : start.files .previous = none := by
          by_contra hSome
          exact h.linked hSome hPending
        have hPrepared (state : PendingState) :
            Prepared (start.marked state.length (some state))
              (start.marked state.length (some state)) := ⟨rfl, rfl, hPrevious, nofun⟩
        have hKeeps : Keeps true _
            (do
              checkFilled (← attempt (.syncAll .pending))
              commitPrepared parent) (Faultless true _) _ :=
          .tryBind (attempt_keeps hSound
            (fun hFaults _ => .tryBind (removePending_keeps hSound (hPrepared _) hFaults
              fun _ _ _ _ => nofun))
            ⟨hSound, .tryBind ⟨hSound, commitPrepared_sound hSound (hPrepared _) hStaged hBinary⟩⟩)
        refine (hKeeps.execute fun _ _ => .inr rfl).1.complete ?_ (.inr nofun)
        intro file hFile
        obtain rfl := Option.some.inj hFile
        nofun
      · rcases failures with _ | ⟨_ | other, _ | ⟨_ | last, failures⟩⟩
        · cases hFills
        · cases hFills
        · rw [execute_unwritten hPending]
          nofun
        · cases hFills
        · cases hFills
        · cases hFills
        · cases hFills
    · exact hComplete
  · have hKeeps : Keeps true _ (commitCandidate parent format target) _ start :=
      commitCandidate_sound h hStaged hBinary (.inl rfl)
    exact (hKeeps.execute fun _ _ => .inr rfl).1.complete hComplete (.inr hPending)

end Runs

namespace Host

variable {format : VersionFormat Version} {parent : String} {host next : Host Binary}
  {label : HostLabel Binary Version} {labels : List (HostLabel Binary Version)}

/-- The release that a run commits, staged on the disk. -/
def candidateOf (host : Host Binary) : HostLabel Binary Version → Option (File Binary)
  | .commitCandidate binary length _ _ => some ⟨host.disk.nextInode, length, .binary binary⟩
  | _ => none

theorem execute_sound {failures : List (Option String)}
    {post : Except UpdateRecoveryError α → Disk Binary → Prop}
    {result : Option (Except UpdateRecoveryError α) × Disk Binary}
    (h : Keeps true always program post host.disk)
    (hResult : host.execute program failures = result) : always result.2 := by
  rw [← hResult]
  exact (h.execute fun _ _ => .inr rfl).1

/-- Every run of a program of the host, wherever it is cut off. -/
theorem step_sound (h : Disk.Valid format host.disk)
    (hStep : step parent format host label = some next) :
    Sound format (host.candidateOf label) host.disk next.disk := by
  have hHost := Sound.refl none h
  unfold step at hStep
  cases label
  case commitCandidate binary length target failures =>
    dsimp only at hStep
    have hStaged : Disk.Valid format (host.disk.stage binary length) :=
      ⟨h.executable, h.previous, h.linked, h.marker⟩
    rcases hResult : { host with disk := host.disk.stage binary length }.execute
      (commitCandidate parent format target) failures with ⟨result, disk⟩
    have hDisk := execute_sound (commitCandidate_sound hStaged rfl rfl (.inl rfl)) hResult
    rw [hResult] at hStep
    cases result <;> cases hStep <;>
      exact ⟨hDisk.toValid, hDisk.executable_of, hDisk.previous_of, hDisk.pending_of⟩
  case discover failures =>
    dsimp only at hStep
    rcases hResult : host.execute (discover parent format) failures with ⟨result, disk⟩
    have hDisk := execute_sound (discover_sound hHost (.inl rfl)) hResult
    rw [hResult] at hStep
    rcases result with _ | _ | _ <;> cases hStep <;> exact hDisk
  case confirmStartup failures =>
    obtain ⟨recovery, -, hStep⟩ := Option.bind_eq_some_iff.mp hStep
    rcases hResult : host.execute (confirmStartup parent recovery) failures with ⟨result, disk⟩
    have hDisk := execute_sound (confirmStartup_sound hHost) hResult
    rw [hResult] at hStep
    rcases result with _ | _ | _ <;> cases hStep <;> exact hDisk
  case rollback failures =>
    obtain ⟨recovery, -, hStep⟩ := Option.bind_eq_some_iff.mp hStep
    cases hStep
    exact execute_sound (rollback_sound hHost (.inl rfl)) rfl
  case recoverPendingUpdate failures =>
    dsimp only at hStep
    rcases hResult : host.execute (recoverPendingUpdate parent format) failures with ⟨result, disk⟩
    have hDisk := execute_sound (recoverPendingUpdate_sound hHost) hResult
    rw [hResult] at hStep
    cases result <;> cases hStep <;> exact hDisk

def Valid (format : VersionFormat Version) (host : Host Binary) : Prop :=
  Disk.Valid format host.disk

theorem valid_initial (format : VersionFormat Version) (binary : Binary) (length : Nat) :
    Valid format (initial binary length) :=
  ⟨⟨_, binary, rfl, rfl⟩, nofun, fun hSome => absurd rfl hSome, nofun⟩

theorem valid_of_run (hRun : run (step parent format) labels (initial binary length) = some host) :
    Valid format host :=
  invariant_of_run (fun _ _ _ hValid hStep => (step_sound hValid hStep).toValid)
    (valid_initial format binary length) hRun

/-- A commit that creates the marker writes its content, or removes it where the writing fails. -/
def CompletesMarker (host : Host Binary) : HostLabel Binary Version → Prop
  | .commitCandidate _ _ _ failures => host.disk.files .pending = none → fillsMarker failures
  | _ => True

/-- A step leaves no marker without content, if its commit completes its marker. -/
theorem complete_of_step (h : Disk.Valid format host.disk) (hComplete : host.disk.Complete)
    (hCompletes : host.CompletesMarker label)
    (hStep : step parent format host label = some next) : next.disk.Complete := by
  have hSound := step_sound h hStep
  cases label with
  | commitCandidate binary length target failures =>
    have hStaged : Disk.Valid format (host.disk.stage binary length) :=
      ⟨h.executable, h.previous, h.linked, h.marker⟩
    have hDisk : (CutRuns.execute Disk.perform (commitCandidate parent format target).run failures
        (host.disk.stage binary length)).2.Complete :=
      commitCandidate_complete hStaged hComplete rfl rfl hCompletes
    unfold step execute at hStep
    dsimp only at hStep
    rcases hResult : CutRuns.execute Disk.perform (commitCandidate parent format target).run
      failures (host.disk.stage binary length) with ⟨result, disk⟩
    rw [hResult] at hStep hDisk
    cases result <;> cases hStep <;> exact hDisk
  | _ => exact hSound.complete hComplete (.inl rfl)

theorem complete_of_run (hRun : run (step parent format) labels (initial binary length) = some host)
    (hAlong : Along (step parent format) CompletesMarker labels (initial binary length)) :
    host.disk.Complete := by
  have hKeep (host : Host Binary) (label : HostLabel Binary Version) (next : Host Binary)
      (h : Disk.Valid format host.disk ∧ host.disk.Complete)
      (hCompletes : host.CompletesMarker label)
      (hStep : step parent format host label = some next) :
      Disk.Valid format next.disk ∧ next.disk.Complete :=
    ⟨(step_sound h.1 hStep).toValid, complete_of_step h.1 h.2 hCompletes hStep⟩
  exact (invariant_of_along hKeep ⟨valid_initial format binary length, nofun⟩ hAlong hRun).2

/-- Whatever the runs are and wherever they are cut off, the executable is a whole binary, in each
run the one before, the candidate or the previous one; the previous one is kept only beside a
marker. As long as every commit that creates the marker writes its content, or removes it where
the writing fails, a startup in which nothing fails ends and leaves neither file, and a commit in
which nothing fails succeeds after it. -/
theorem updates_recover (parent : String) (format : VersionFormat Version) (binary : Binary)
    (length : Nat)
    (hRun : run (step parent format) labels (initial binary length) = some host) :
    (∃ file binary, host.disk.files .executable = some file ∧ file.content = .binary binary) ∧
    (host.disk.files .previous ≠ none → host.disk.files .pending ≠ none) ∧
    (∀ label next, step parent format host label = some next →
      next.disk.files .executable = host.disk.files .executable ∨
      (host.candidateOf label ≠ none ∧ next.disk.files .executable = host.candidateOf label) ∨
      host.disk.files .previous ≠ none ∧
        next.disk.files .executable = host.disk.files .previous) ∧
    (∀ label next, step parent format host label = some next →
      next.disk.files .previous = none ∨ next.disk.files .previous = host.disk.files .previous ∨
      next.disk.files .previous = host.disk.files .executable) ∧
    (Along (step parent format) CompletesMarker labels (initial binary length) →
      ∀ runningVersion starts,
        Ends Disk.perform none (startup parent format runningVersion starts) (fun ended disk =>
          ended.Clean ∧ disk.files .previous = none ∧ disk.files .pending = none ∧
          ∀ binary length target, Ends Disk.perform none (commitCandidate parent format target).run
            (fun result _ => result = .ok ()) (disk.stage binary length)) host.disk) := by
  have hValid := valid_of_run hRun
  refine ⟨hValid.executable, hValid.linked,
    fun label next hStep => (step_sound hValid hStep).executable_of,
    fun label next hStep => (step_sound hValid hStep).previous_of, fun hAlong _ _ => ?_⟩
  have hComplete := complete_of_run hRun hAlong
  refine ((startup_sound (.refl none hValid) hComplete).ends (.inl rfl)).mono
    fun ended disk hEnded => ?_
  obtain ⟨hSound, hClean, hPrevious, hPending⟩ := hEnded
  refine ⟨hClean, hPrevious, hPending, fun binary length target => ?_⟩
  have hStaged : Disk.Valid format (disk.stage binary length) :=
    ⟨hSound.executable, hSound.previous, hSound.linked, hSound.marker⟩
  have hCommit : Keeps false _ (commitCandidate parent format target) _ _ :=
    commitCandidate_sound hStaged rfl rfl (.inr hPending)
  exact (hCommit.ends (.inl rfl)).mono fun _ _ hResult => hResult.2 rfl

/-- One version. -/
def sampleFormat : VersionFormat Unit where
  toString _ := "1.0.0"
  parse _ := some ()
  parse_toString _ := rfl
  short _ := by decide +kernel

/-- Operations that do not fail. -/
def faultless : List (Option String) := List.replicate 40 none

/-- A commit is cut off when the executable has been replaced. -/
def replacedOnly : HostLabel Nat Unit := .commitCandidate 1 10 () (List.replicate 6 none)

/-- A commit is cut off after it has replaced the executable, and a startup cleans up. -/
theorem updates_recover_of_replaced :
    ∃ host ended disk, run (step "/opt" sampleFormat) [replacedOnly] (initial 0 10) = some host ∧
      host.disk.files .executable = some ⟨1, 10, .binary 1⟩ ∧
      host.disk.files .previous = some ⟨0, 10, .binary 0⟩ ∧
      CutRuns.execute Disk.perform (startup "/opt" sampleFormat "1.0.0" true) faultless host.disk =
        (some ended, disk) ∧
      ended.Clean ∧ disk.files .previous = none ∧ disk.files .pending = none := by
  have hEnd : ∃ host, step "/opt" sampleFormat (initial 0 10) replacedOnly = some host ∧
      host.disk.files .executable = some ⟨1, 10, .binary 1⟩ ∧
      host.disk.files .previous = some ⟨0, 10, .binary 0⟩ ∧
      (host.disk.files .pending).map (·.content) = some (.marker (some ⟨stateFormat, "1.0.0"⟩)) ∧
      (CutRuns.execute Disk.perform (startup "/opt" sampleFormat "1.0.0" true) faultless
        host.disk).1.isSome = true := ⟨_, rfl, rfl, rfl, rfl, by decide +kernel⟩
  obtain ⟨host, hStep, hExecutable, hPrevious, hPending, hStarts⟩ := hEnd
  have hRun : run (step "/opt" sampleFormat) [replacedOnly] (initial 0 10) = some host :=
    run_cons_iff.mpr ⟨host, hStep, rfl⟩
  obtain ⟨ended, hEnded⟩ := Option.isSome_iff_exists.mp hStarts
  have hAlong : Along (step "/opt" sampleFormat) CompletesMarker [replacedOnly] (initial 0 10) :=
    ⟨fun _ => rfl, fun _ _ => trivial⟩
  obtain ⟨-, -, -, -, hStartup⟩ := updates_recover "/opt" sampleFormat 0 10 hRun
  obtain ⟨hClean, hGone, hNone, -⟩ := (hStartup hAlong "1.0.0" true).2 40 ended hEnded
  exact ⟨host, ended, _, hRun, hExecutable, hPrevious, Prod.ext hEnded rfl, hClean, hGone, hNone⟩

/-- A commit that is cut off after the creation of the marker is never cleaned up: the startup
ignores the marker, and the next commit is refused because of it. -/
theorem leftover_marker_refuses : ∃ host disk, run (step "/opt" sampleFormat)
        [.commitCandidate 1 10 () [none]] (initial 0 10) = some host ∧
      (∃ error, CutRuns.execute Disk.perform (startup "/opt" sampleFormat "0.9.0" true) faultless
        host.disk = (some (.discoveryFailed error), disk)) ∧
      disk.files .pending ≠ none ∧
      (CutRuns.execute Disk.perform (commitCandidate "/opt" sampleFormat ()).run faultless
        (disk.stage 2 10)).1 =
          some (.error ⟨"failed to create pending update marker" ++ ": " ++
            "File exists (os error 17)"⟩) :=
  ⟨_, _, rfl, ⟨_, rfl⟩, nofun, rfl⟩

end Host

end Any2Api.Updater
