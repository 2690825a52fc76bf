import FluxTerm.RemoteEdit.Instance
import FluxTerm.Sftp.Download

/-!
# FluxTerm — opening a remote file

`remote_edit_prepare_open` of `src-tauri/src/remote_edit.rs`, and a remote file over many calls: it
is opened, changed at the server, edited, uploaded.

A version of the remote file is what `stat` tells of it; `contentOf` is the content of a version.
The index is its entry for the file.
-/

namespace FluxTerm.RemoteEdit

open FluxTerm.Engine FluxTerm.Lib FluxTerm.Sftp

/-! ## The file and its workspace -/

structure RemoteEditTarget where
  sessionHost : Text
  sessionUsername : Text
  sessionPort : ℕ
deriving DecidableEq

structure EditedFile where
  target : RemoteEditTarget
  remotePath : Text
  fileName : Text
  instanceId : Text
  localPath : Text
deriving DecidableEq

structure RemoteEditIndexEntry where
  instanceId : Text
  sessionId : Text
  target : RemoteEditTarget
  remotePath : Text
  fileName : Text
  downloadedAt : ℕ
  remote : RemoteVersion
  trackChanges : Bool
  baseline : RemoteFileSnapshot
deriving DecidableEq

structure LocalFile where
  content : Bytes
  mtimeMs : ℕ
deriving DecidableEq

structure Workspace where
  files : Text → Option LocalFile
  entry : Option RemoteEditIndexEntry
  origin : Option RemoteVersion

def remoteTextEditMaxBytes : ℕ := 2 * 1024 * 1024

def getFileExtension (name : Text) : Text :=
  let extension := afterLast '.' name
  if extension ≠ name then extension else []

/-- The extensions of `is_remote_entry_editable_text`. -/
def editableExtensions : List String :=
  ["bash", "c", "cc", "conf", "config", "cpp", "cs", "css", "csv", "env", "go", "h", "hpp", "html",
    "ini", "java", "js", "json", "jsx", "kt", "log", "lua", "md", "php", "properties", "py", "rb",
    "rs", "scss", "sh", "sql", "svg", "swift", "toml", "ts", "tsx", "txt", "vue", "xml", "yaml",
    "yml", "zsh"]

/-- `is_remote_entry_editable_text`, for a regular file. -/
def isRemoteEntryEditableText (name : Text) (size : Option ℕ) : Bool :=
  if size.any fun size => size > remoteTextEditMaxBytes then false
  else String.ofList (asciiLower (getFileExtension name)) ∈ editableExtensions

/-! ## What may happen in a call -/

/-- `ensure_remote_file_cache_cleanup`: what it removes, and whether it gets to the index. -/
structure CacheCleanup where
  expired : List Text
  pruned : Bool
  fault : Option EngineError

/-- How `sftp_download` turns out. A transfer that is cancelled returns `Ok`, too. -/
inductive DownloadOutcome where
  | failed (err : EngineError)
  | cancelled
  | finished (mtimeMs : ℕ)

/-- How the steps of a call turn out, in their order. Each `fault` is an error, if there is one. -/
structure OpenOutcomes where
  sessionId : Text
  cleanup : CacheCleanup
  statFault : Option EngineError
  isFile : Bool
  parentFault : Option EngineError
  loadFault : Option EngineError
  readFault : Option EngineError
  removeFault : Option EngineError
  /-- The candidate of `resolve_available_local_path` that is free. -/
  candidate : ℕ
  download : DownloadOutcome
  rereadFault : Option EngineError
  openFault : Option EngineError
  upsertFault : Option EngineError
  now : ℕ

/-- `remote_edit_not_file`. -/
def notFileError : EngineError :=
  .new "remote_edit_not_file" "The current entry is not an editable file"

def workspaceInvalidError (message : String) : EngineError :=
  (EngineError.new "remote_edit_workspace_invalid" message).withMessageKey
    "sftp.remoteEdit.workspaceInvalid"

/-- `remote_edit_local_dirty`. -/
def localDirtyError : EngineError :=
  (EngineError.new "remote_edit_local_dirty"
    "The local working copy contains unsynchronized changes").withMessageKey
    "sftp.remoteEdit.localDirty"

namespace Workspace

variable (ws : Workspace) (file : EditedFile)

def write (path : Text) (copy : Option LocalFile) : Workspace :=
  { ws with files := fun p => if p = path then copy else ws.files p }

def clean (cleanup : CacheCleanup) : Workspace :=
  let files := fun path => if path ∈ cleanup.expired then none else ws.files path
  { ws with
    files
    entry := if cleanup.pruned ∧ files file.localPath = none then none else ws.entry }

/-- The first candidate that is free. -/
def IsAvailable (path : Text) (candidate : ℕ) : Prop :=
  (∀ i < candidate, ws.files (availablePath path i) ≠ none) ∧
    ws.files (availablePath path candidate) = none

instance (path : Text) (candidate : ℕ) : Decidable (ws.IsAvailable path candidate) :=
  inferInstanceAs (Decidable (_ ∧ _))

end Workspace

/-! ## The call -/

variable (contentOf : RemoteVersion → Bytes) (hash : Bytes → Text)

namespace Workspace

variable (ws : Workspace) (file : EditedFile) (version : RemoteVersion) (outcomes : OpenOutcomes)

/-- `read_local_file_snapshot`. -/
def readSnapshot (path : Text) (fault : Option EngineError) : Except EngineError RemoteFileSnapshot :=
  match ws.files path, fault with
  | none, _ => .error (metadataFailed "No such file or directory")
  | some _, some err => .error err
  | some copy, none => .ok (snapshotOf hash copy.mtimeMs copy.content)

/-- `engine.sftp_download`, and the second read of the working copy. -/
def download : Workspace × Except EngineError (ℕ × RemoteFileSnapshot) :=
  match outcomes.download with
  | .failed err => (ws, .error err)
  -- the file that was begun is removed
  | .cancelled =>
    (ws, (ws.readSnapshot hash file.localPath outcomes.rereadFault).map (outcomes.now, ·))
  | .finished mtimeMs =>
    let path := availablePath file.localPath outcomes.candidate
    let ws := { ws.write path (some ⟨contentOf version, mtimeMs⟩) with
      origin := if path = file.localPath then some version else ws.origin }
    (ws, (ws.readSnapshot hash file.localPath outcomes.rereadFault).map (outcomes.now, ·))

def shouldReuseLocalWorkspace (entry : RemoteEditIndexEntry) : Except EngineError Bool :=
  match ws.readSnapshot hash file.localPath outcomes.readFault with
  | .error err => .error err
  | .ok snapshot =>
    if snapshot ≠ entry.baseline then .error localDirtyError
    else .ok (version = entry.remote)

/-- The time and the baseline of the working copy, which is downloaded unless it can be reused. -/
def workingCopy : Workspace × Except EngineError (ℕ × RemoteFileSnapshot) :=
  match ws.files file.localPath with
  | some _ =>
    match ws.entry with
    | none =>
      (ws, .error (workspaceInvalidError "The local working copy index is missing or corrupted"))
    | some entry =>
      if entry.instanceId ≠ file.instanceId ∨ entry.remotePath ≠ file.remotePath ∨
          entry.target ≠ file.target then
        (ws, .error (workspaceInvalidError
          "The local working copy index does not match the target file"))
      else
        match ws.shouldReuseLocalWorkspace hash file version outcomes entry with
        | .error err => (ws, .error err)
        | .ok true => (ws, .ok (entry.downloadedAt, entry.baseline))
        | .ok false => ws.download contentOf hash file version outcomes
  | none =>
    if ws.entry.isSome then
      match outcomes.removeFault with
      | some err => (ws, .error err)
      | none => { ws with entry := none }.download contentOf hash file version outcomes
    else ws.download contentOf hash file version outcomes

end Workspace

/-- `RemoteEditIndexEntry` for a snapshot of a file. -/
def EditedFile.entry (file : EditedFile) (snapshot : RemoteEditSnapshot)
    (baseline : RemoteFileSnapshot) : RemoteEditIndexEntry where
  instanceId := snapshot.instanceId
  sessionId := snapshot.sessionId
  target := file.target
  remotePath := snapshot.remotePath
  fileName := snapshot.fileName
  downloadedAt := snapshot.downloadedAt
  remote := snapshot.remote
  trackChanges := snapshot.trackChanges
  baseline

/-- The snapshot of a file that has been opened. -/
def EditedFile.snapshot (file : EditedFile) (sessionId : Text) (version : RemoteVersion)
    (downloadedAt now : ℕ) : RemoteEditSnapshot where
  instanceId := file.instanceId
  sessionId
  remotePath := file.remotePath
  localPath := file.localPath
  fileName := file.fileName
  downloadedAt
  remote := version
  trackChanges := isRemoteEntryEditableText file.fileName version.size
  status := .synced
  lastSyncedAt := now
  lastErrorCode := none
  lastError := none

/-- The part of the call behind the working copy. -/
def finishOpen (file : EditedFile) (version : RemoteVersion) (outcomes : OpenOutcomes)
    (ws : Workspace) (downloadedAt : ℕ) (baseline : RemoteFileSnapshot) :
    Workspace × Except EngineError (RemoteEditSnapshot × Option RemoteEditInstance) :=
  let snapshot := file.snapshot outcomes.sessionId version downloadedAt outcomes.now
  match outcomes.openFault, outcomes.upsertFault with
  | some err, _ => (ws, .error err)
  | none, some err => (ws, .error err)
  | none, none =>
    ({ ws with entry := some (file.entry snapshot baseline) },
      .ok (snapshot, if snapshot.trackChanges then some ⟨snapshot, baseline, none, none⟩ else none))

/-- `remote_edit_prepare_open`, when the remote file is at `version`. -/
def prepareOpen (file : EditedFile) (version : RemoteVersion) (outcomes : OpenOutcomes)
    (ws : Workspace) :
    Workspace × Except EngineError (RemoteEditSnapshot × Option RemoteEditInstance) :=
  let ws := ws.clean file outcomes.cleanup
  match outcomes.cleanup.fault, outcomes.statFault with
  | some err, _ => (ws, .error err)
  | none, some err => (ws, .error err)
  | none, none =>
    if ¬outcomes.isFile then (ws, .error notFileError)
    else
      match outcomes.parentFault, outcomes.loadFault with
      | some err, _ => (ws, .error err)
      | none, some err => (ws, .error err)
      | none, none =>
        match ws.workingCopy contentOf hash file version outcomes with
        | (ws, .error err) => (ws, .error err)
        | (ws, .ok (downloadedAt, baseline)) =>
          finishOpen file version outcomes ws downloadedAt baseline

/-! ## The file over many calls -/

/-- How `sftp_upload` turns out, with the version that is there then. -/
inductive UploadOutcome where
  | failed (err : EngineError)
  | broken (err : EngineError) (version : RemoteVersion)
  /-- The transfer is cancelled, and returns `Ok`. -/
  | cancelled (version : RemoteVersion)
  | finished (version : RemoteVersion)

/-- How the steps of `remote_edit_confirm_upload` turn out. -/
structure ConfirmOutcomes where
  statFault : Option EngineError
  upload : UploadOutcome
  restatFault : Option EngineError
  readFault : Option EngineError
  persistFault : Option EngineError
  now : ℕ

/-- A call of `remote_edit_prepare_open` that has returned `Ok`: the version in its snapshot, and
what is in the workspace. -/
structure OpenedRecord where
  remote : RemoteVersion
  copy : Option LocalFile
  baseline : Option RemoteFileSnapshot
deriving DecidableEq

structure FileRun where
  version : RemoteVersion
  workspace : Workspace
  edit : Option RemoteEditInstance
  opened : List OpenedRecord
  overwritten : List (RemoteVersion × Option RemoteVersion)

inductive FileEvent where
  | prepareOpen (outcomes : OpenOutcomes)
  | confirmUpload (outcomes : ConfirmOutcomes)
  | dismissPending
  | monitor (now : ℕ) (readFault : Option EngineError)
  | removed
  | remoteChange (version : RemoteVersion)
  | edit (copy : Option LocalFile)

namespace FileRun

variable (file : EditedFile) (run : FileRun)

def copy : Option LocalFile := run.workspace.files file.localPath

/-- `remote_edit_prepare_open`, and `upsert`. -/
def prepareOpen (outcomes : OpenOutcomes) : FileRun :=
  match RemoteEdit.prepareOpen contentOf hash file run.version outcomes run.workspace with
  | (workspace, .error _) => { run with workspace }
  | (workspace, .ok (snapshot, edit)) => { run with
      workspace
      edit := edit <|> run.edit
      opened := run.opened ++ [⟨snapshot.remote, workspace.files file.localPath,
        workspace.entry.map (·.baseline)⟩] }

/-- The last section of `remote_edit_confirm_upload`, after an error. -/
def fail (edit : RemoteEditInstance) (err : EngineError) : FileRun :=
  { run with edit := some (edit.failUpload err) }

/-- The remote file has been opened for writing, and is at `version` now. -/
def overwrite (version : RemoteVersion) : FileRun := { run with
  version
  overwritten := run.overwritten ++ [(run.version, run.workspace.origin)] }

/-- `sftp_upload` has returned `Ok`. -/
def uploaded (edit : RemoteEditInstance) (copy : LocalFile) (outcomes : ConfirmOutcomes) : FileRun :=
  let run := { run with workspace := { run.workspace with
    origin := if contentOf run.version = copy.content then some run.version
      else run.workspace.origin } }
  match outcomes.restatFault,
    run.workspace.readSnapshot hash file.localPath outcomes.readFault with
  | some err, _ => run.fail edit err
  | none, .error err => run.fail edit err
  | none, .ok baseline =>
    let edit := edit.finishUpload run.version baseline outcomes.now
    match outcomes.persistFault with
    | some _ => { run with edit := some edit }
    | none => { run with
        edit := some edit
        workspace := { run.workspace with entry := some (file.entry edit.snapshot baseline) } }

/-- `remote_edit_confirm_upload`. -/
def confirmUpload (outcomes : ConfirmOutcomes) : Option FileRun :=
  match run.edit.bind (·.beginUpload) with
  | none => some run
  | some edit =>
    match outcomes.statFault with
    | some err => some (run.fail edit err)
    | none =>
      if run.version ≠ edit.snapshot.remote then some (run.fail edit conflictError)
      else
        match run.copy file, outcomes.upload with
        | _, .failed err => some (run.fail edit err)
        | some _, .broken err version => some ((run.overwrite version).fail edit err)
        | some copy, .cancelled version =>
          some ((run.overwrite version).uploaded contentOf hash file edit copy outcomes)
        | some copy, .finished version =>
          if contentOf version = copy.content then
            some ((run.overwrite version).uploaded contentOf hash file edit copy outcomes)
          else none
        | none, _ => none

/-- A turn of the monitor. -/
def monitor (now : ℕ) (readFault : Option EngineError) (edit : RemoteEditInstance) :
    RemoteEditInstance :=
  if edit.status.isBusy then edit
  else
    match run.workspace.readSnapshot hash file.localPath readFault with
    | .error err => edit.monitorFailed err
    | .ok current =>
      if now - current.mtimeMs < remoteEditQuietWindowMs ∨ current = edit.baseline ∨
          edit.ignoredContentHash = some current.contentHash then edit
      else edit.changeDetected current

/-- One step of the file. -/
def next : FileEvent → Option FileRun
  | .prepareOpen outcomes =>
    if (run.workspace.clean file outcomes.cleanup).IsAvailable file.localPath outcomes.candidate then
      some (run.prepareOpen contentOf hash file outcomes)
    else none
  | .confirmUpload outcomes => run.confirmUpload contentOf hash file outcomes
  | .dismissPending => some { run with edit := run.edit.map (·.dismissPending) }
  | .monitor now readFault =>
    some { run with edit := run.edit.map (run.monitor hash file now readFault) }
  | .removed => some { run with edit := none }
  | .remoteChange version => some { run with version }
  | .edit copy => some { run with workspace := run.workspace.write file.localPath copy }

def start (version : RemoteVersion) : FileRun :=
  ⟨version, ⟨fun _ => none, none, none⟩, none, [], []⟩

end FileRun

def fileMachine (file : EditedFile) (version : RemoteVersion) : Machine FileRun FileEvent :=
  .ofStep (.start version) (FileRun.next contentOf hash file)

end FluxTerm.RemoteEdit
