import FluxTerm.Engine.Error
import FluxTerm.Lib.Bytes

/-!
# FluxTerm — an instance of remote editing

The types of `src-tauri/src/remote_edit.rs` that describe a remote file under edit, and what the
commands and the monitor do to an instance while they hold its lock.
-/

namespace FluxTerm.RemoteEdit

open FluxTerm.Engine FluxTerm.Lib

inductive RemoteEditStatus where
  | synced
  | pendingConfirm
  | uploading
  | syncFailed
deriving DecidableEq

/-- `RemoteFileSnapshot`: the content of a working copy. -/
structure RemoteFileSnapshot where
  mtimeMs : ℕ
  size : ℕ
  contentHash : Text
deriving DecidableEq

/-- The snapshot of a content, with the digest `hash`. -/
def snapshotOf (hash : Bytes → Text) (mtimeMs : ℕ) (content : Bytes) : RemoteFileSnapshot :=
  ⟨mtimeMs, content.length, hash content⟩

/-- What `stat` tells of a version of the remote file. -/
structure RemoteVersion where
  mtime : Option ℕ
  size : Option ℕ
deriving DecidableEq

structure RemoteEditSnapshot where
  instanceId : Text
  sessionId : Text
  remotePath : Text
  localPath : Text
  fileName : Text
  downloadedAt : ℕ
  remote : RemoteVersion
  trackChanges : Bool
  status : RemoteEditStatus
  lastSyncedAt : ℕ
  lastErrorCode : Option String
  lastError : Option String
deriving DecidableEq

/-- `RemoteEditInstance`, without its stop signal and the target. -/
structure RemoteEditInstance where
  snapshot : RemoteEditSnapshot
  baseline : RemoteFileSnapshot
  pendingSnapshot : Option RemoteFileSnapshot
  ignoredContentHash : Option Text
deriving DecidableEq

def remoteEditSnapshotFailedCode : String := "remote_edit_snapshot_failed"

def remoteEditQuietWindowMs : ℕ := 1200

/-- An error of `read_local_file_snapshot`. -/
def snapshotFailed (message detail : String) : EngineError :=
  (EngineError.withDetail remoteEditSnapshotFailedCode message detail).withMessageKey
    "sftp.remoteEdit.localReadFailed"

def metadataFailed : String → EngineError := snapshotFailed "Failed to read local file metadata"

def contentFailed : String → EngineError := snapshotFailed "Failed to read local file content"

/-- `remote_edit_conflict`. -/
def conflictError : EngineError :=
  (EngineError.new "remote_edit_conflict"
    "The remote file changed and local modifications were not uploaded").withMessageKey
    "sftp.remoteEdit.remoteChanged"

def RemoteEditStatus.isBusy : RemoteEditStatus → Bool
  | uploading | pendingConfirm => true
  | synced | syncFailed => false

namespace RemoteEditInstance

variable (edit : RemoteEditInstance)

def status : RemoteEditStatus := edit.snapshot.status

/-- The first section of `remote_edit_confirm_upload`; `none` is the error
`remote_edit_not_pending`. -/
def beginUpload : Option RemoteEditInstance :=
  if edit.pendingSnapshot.isNone then none
  else some { edit with snapshot := { edit.snapshot with
    status := .uploading, lastErrorCode := none, lastError := none } }

def finishUpload (remote : RemoteVersion) (baseline : RemoteFileSnapshot) (now : ℕ) :
    RemoteEditInstance where
  baseline
  pendingSnapshot := none
  ignoredContentHash := none
  snapshot := { edit.snapshot with
    remote, status := .synced, lastSyncedAt := now, lastErrorCode := none, lastError := none }

def failUpload (err : EngineError) : RemoteEditInstance := { edit with
  ignoredContentHash := edit.pendingSnapshot.map (·.contentHash)
  pendingSnapshot := none
  snapshot := { edit.snapshot with
    status := .syncFailed, lastErrorCode := some err.code, lastError := some err.message } }

/-- `remote_edit_dismiss_pending`. -/
def dismissPending : RemoteEditInstance :=
  let failed := edit.snapshot.lastError.isSome
  { edit with
    ignoredContentHash := edit.pendingSnapshot.map (·.contentHash)
    pendingSnapshot := none
    snapshot := { edit.snapshot with
      status := if failed then .syncFailed else .synced
      lastErrorCode := if failed then edit.snapshot.lastErrorCode else none } }

def monitorFailed (err : EngineError) : RemoteEditInstance := { edit with
  snapshot := { edit.snapshot with
    status := .syncFailed, lastErrorCode := some err.code, lastError := some err.message } }

def changeDetected (current : RemoteFileSnapshot) : RemoteEditInstance :=
  if edit.status.isBusy then edit
  else { edit with
    pendingSnapshot := some current
    snapshot := { edit.snapshot with
      status := .pendingConfirm, lastErrorCode := none, lastError := none } }

end RemoteEditInstance

/-- The SHA-256 digests of an empty file and of files of one letter. -/
def sampleHash (content : Bytes) : Text :=
  if content = [] then
    "e3b0c44298fc1c149afbf4c8996fb92427ae41e4649b934ca495991b7852b855".toList
  else if content = [97] then
    "ca978112ca1bbdcafac231b39a23dc4da786eff8147c4f72b9807785afee48bb".toList
  else if content = [98] then
    "3e23e8160039594a33894f6564e1b1348bbd7a0088d42c4acb73eeaed59c009d".toList
  else []

end FluxTerm.RemoteEdit
