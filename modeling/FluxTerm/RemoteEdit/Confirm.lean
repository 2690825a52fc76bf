import FluxTerm.Lib.PieceWrite
import FluxTerm.RemoteEdit.Instance
import FluxTerm.Sftp.Upload

/-!
# FluxTerm — confirming an upload

`remote_edit_confirm_upload` and `remote_edit_dismiss_pending` of
`src-tauri/src/commands/remote_edit.rs` and the monitor of `src-tauri/src/remote_edit.rs`, on one
instance. Any number of calls, the monitor, the editor that saves the local file and the server
interleave; the upload reads the local file chunk by chunk, as `sftp_upload` does.

A save writes the local file in place. The server answers the close of a file after the writes it
has been sent, so none is carried out once an upload has returned. What `stat` answers, and whether
the index can be written, is free.
-/

namespace FluxTerm.RemoteEdit

open FluxTerm.Engine FluxTerm.Lib FluxTerm.Sftp

/-! ## The upload -/

structure UploadData where
  chunk : Bytes
  sent : List (Piece UInt8)
deriving DecidableEq

/-- What a step of the loop makes of the bytes, for a local file with `content`. A chunk is what the
file has at the offset, and it is empty only at the end. -/
def copyNext (content : Bytes) (loop : UploadLoop) (data : UploadData) :
    UploadEvent → Option UploadData
  | .read (.ok len) =>
    let chunk := (content.drop loop.offset).take len
    if chunk.length = len ∧ (len = 0 → content.length ≤ loop.offset) then some { data with chunk }
    else none
  | .spawn => some { data with sent := data.sent ++ [⟨loop.offset, data.chunk, false⟩] }
  | .joined index .written =>
    -- the server has done the write that it acknowledges
    if (data.sent[index]?).any (·.written) then
      some { data with sent := data.sent.eraseIdx index }
    else none
  | _ => some data

/-- One step of `sftp_upload` with the bytes: the local file is `content`, the remote one
`remote`. -/
def uploadNext (args : UploadArgs) (content remote : Bytes) (job : UploadJob) (data : UploadData)
    (event : UploadJobEvent) : Option (UploadJob × UploadData × Bytes) :=
  (sftpUploadStep args job event).bind fun job' =>
    match job.phase, event with
    -- `CREATE | TRUNCATE | WRITE`
    | .openRemote _ _, .remoteOpened none => some (job', ⟨[], []⟩, [])
    | .copying _ _ loop, .copy event =>
      (copyNext content loop data event).map fun data => (job', data, remote)
    | _, _ => some (job', data, remote)

/-! ## The state -/

/-- The closure of `spawn_blocking`. -/
inductive UploadTask where
  | statBefore
  /-- `engine.sftp_upload`. -/
  | upload (job : UploadJob) (data : UploadData)
  | statAfter
  /-- `read_local_file_snapshot`: the metadata, then the content. -/
  | metadata (remote : RemoteVersion)
  | content (remote : RemoteVersion) (mtimeMs : ℕ)

/-- A call of `remote_edit_confirm_upload` behind its first section. -/
inductive ConfirmStage where
  | begun
  | task (args : UploadArgs) (expected : RemoteVersion) (task : UploadTask)
  | finishing (result : Except EngineError (RemoteVersion × RemoteFileSnapshot))
  | returned

inductive MonitorStage where
  | idle
  | metadata (baseline : RemoteFileSnapshot) (ignored : Option Text)
  | content (baseline : RemoteFileSnapshot) (ignored : Option Text) (mtimeMs : ℕ)
  | failed (err : EngineError)
  | changed (current : RemoteFileSnapshot)

/-- The moment at which a call sets `Synced`. -/
structure SyncRecord where
  remote : Bytes
  baseline : RemoteFileSnapshot

structure EditRun where
  edit : RemoteEditInstance
  calls : List ConfirmStage
  monitor : MonitorStage
  content : Bytes
  mtimeMs : ℕ
  remote : Bytes
  returns : List RemoteEditStatus
  syncs : List SyncRecord
  unchanged : List Bytes

inductive CallEvent where
  | parameters
  | stat (result : Except EngineError RemoteVersion)
  | upload (event : UploadJobEvent)
  | carriedOut (index : ℕ)
  /-- `engine.sftp_upload` returns. -/
  | uploaded
  | metadata (fault : Option String)
  | content (fault : Option String)
  | panicked
  /-- The last section; the index cannot be written if `persisted` is false. -/
  | finish (now : ℕ) (persisted : Bool)

inductive MonitorEvent where
  | tick
  | metadata (fault : Option String)
  | content (now : ℕ) (fault : Option String)
  | settle

inductive EditEvent where
  /-- A call of `remote_edit_confirm_upload`, up to its first section. -/
  | confirm
  | call (index : ℕ) (event : CallEvent)
  | dismiss
  | monitor (event : MonitorEvent)
  | save (content : Bytes) (mtimeMs : ℕ)

/-! ## The steps -/

variable (hash : Bytes → Text)

namespace EditRun

variable (run : EditRun)

@[simps] def setCall (index : ℕ) (stage : ConfirmStage) : EditRun :=
  { run with calls := run.calls.set index stage }

/-- The call `index` returns. -/
@[simps!] def ret (index : ℕ) : EditRun :=
  { run.setCall index .returned with returns := run.returns ++ [run.edit.status] }

@[simps!] def finishing (index : ℕ)
    (result : Except EngineError (RemoteVersion × RemoteFileSnapshot)) : EditRun :=
  run.setCall index (.finishing result)

def uploadArgs (index : ℕ) : UploadArgs :=
  ⟨⟨run.edit.snapshot.sessionId, (toString index).toList⟩, run.edit.snapshot.localPath,
    run.edit.snapshot.remotePath⟩

/-- One step of the closure. -/
def taskNext (index : ℕ) (args : UploadArgs) (expected : RemoteVersion) (task : UploadTask)
    (event : CallEvent) : Option EditRun :=
  match task, event with
  | .statBefore, .stat (.error err) => some (run.finishing index (.error err))
  | .statBefore, .stat (.ok remote) =>
    if remote = expected then
      some (run.setCall index (.task args expected
        (.upload ⟨.openSftp, false, []⟩ ⟨[], []⟩)))
    else some (run.finishing index (.error conflictError))
  | .upload job data, .upload event =>
    (uploadNext args run.content run.remote job data event).map fun (job, data, remote) =>
      { run.setCall index (.task args expected (.upload job data)) with remote }
  | .upload job data, .carriedOut write =>
    (data.sent[write]?).bind fun piece =>
      if piece.written then none
      else
        let data := { data with sent := data.sent.set write { piece with written := true } }
        some { run.setCall index (.task args expected (.upload job data)) with
          remote := writeAt 0 run.remote piece.offset piece.part }
  | .upload job _, .uploaded =>
    match job.phase with
    | .returned (.ok ()) => some (run.setCall index (.task args expected .statAfter))
    | .returned (.error err) => some (run.finishing index (.error err))
    | _ => none
  | .statAfter, .stat (.error err) => some (run.finishing index (.error err))
  | .statAfter, .stat (.ok remote) =>
    some (run.setCall index (.task args expected (.metadata remote)))
  | .metadata _, .metadata (some detail) =>
    some (run.finishing index (.error (metadataFailed detail)))
  | .metadata remote, .metadata none =>
    some (run.setCall index (.task args expected (.content remote run.mtimeMs)))
  | .content _ _, .content (some detail) =>
    some (run.finishing index (.error (contentFailed detail)))
  | .content remote mtimeMs, .content none =>
    some (run.finishing index (.ok (remote, snapshotOf hash mtimeMs run.content)))
  | _, .panicked => some (run.ret index)
  | _, _ => none

/-- One step of a call. -/
def callNext (index : ℕ) (stage : ConfirmStage) (event : CallEvent) : Option EditRun :=
  match stage, event with
  | .begun, .parameters =>
    some (run.setCall index (.task (run.uploadArgs index) run.edit.snapshot.remote .statBefore))
  | .task args expected task, event => run.taskNext hash index args expected task event
  | .finishing (.error err), .finish _ _ =>
    let run : EditRun := { run with edit := run.edit.failUpload err }
    some (run.ret index)
  | .finishing (.ok (remote, baseline)), .finish now _ =>
    -- whether the index can be written or not, the instance is changed by then
    let run : EditRun := { run with
      edit := run.edit.finishUpload remote baseline now
      syncs := run.syncs ++ [⟨run.remote, baseline⟩] }
    some (run.ret index)
  | _, _ => none

def compare (baseline : RemoteFileSnapshot) (ignored : Option Text) (mtimeMs now : ℕ) : EditRun :=
  let current := snapshotOf hash mtimeMs run.content
  if now - mtimeMs < remoteEditQuietWindowMs then { run with monitor := .idle }
  else if current = baseline then
    { run with monitor := .idle, unchanged := run.unchanged ++ [run.content] }
  else if ignored = some current.contentHash then { run with monitor := .idle }
  else { run with monitor := .changed current }

/-- One step of the monitor. -/
def monitorNext (event : MonitorEvent) : Option EditRun :=
  match run.monitor, event with
  | .idle, .tick =>
    if run.edit.status.isBusy then some run
    else some { run with monitor := .metadata run.edit.baseline run.edit.ignoredContentHash }
  | .metadata _ _, .metadata (some detail) =>
    some { run with monitor := .failed (metadataFailed detail) }
  | .metadata baseline ignored, .metadata none =>
    some { run with monitor := .content baseline ignored run.mtimeMs }
  | .content _ _ _, .content _ (some detail) =>
    some { run with monitor := .failed (contentFailed detail) }
  | .content baseline ignored mtimeMs, .content now none =>
    some (run.compare hash baseline ignored mtimeMs now)
  | .failed err, .settle =>
    some { run with monitor := .idle, edit := run.edit.monitorFailed err }
  | .changed current, .settle =>
    some { run with monitor := .idle, edit := run.edit.changeDetected current }
  | _, _ => none

end EditRun

/-- One step on an instance. -/
def editNext (run : EditRun) : EditEvent → Option EditRun
  | .confirm =>
    match run.edit.beginUpload with
    | some edit => some { run with edit, calls := run.calls ++ [.begun] }
    | none => some { run with returns := run.returns ++ [run.edit.status] }
  | .call index event =>
    (run.calls[index]?).bind fun stage => run.callNext hash index stage event
  | .dismiss => some { run with edit := run.edit.dismissPending }
  | .monitor event => run.monitorNext hash event
  | .save content mtimeMs => some { run with content, mtimeMs }

/-- A file that has been opened: it is what is on the server. -/
def EditRun.opened (snapshot : RemoteEditSnapshot) (mtimeMs : ℕ) (content : Bytes) : EditRun where
  edit := ⟨{ snapshot with status := .synced, lastErrorCode := none, lastError := none },
    snapshotOf hash mtimeMs content, none, none⟩
  calls := []
  monitor := .idle
  content
  mtimeMs
  remote := content
  returns := []
  syncs := []
  unchanged := []

def editMachine (snapshot : RemoteEditSnapshot) (mtimeMs : ℕ) (content : Bytes) :
    Machine EditRun EditEvent :=
  .ofStep (.opened hash snapshot mtimeMs content) (editNext hash)

/-! ## A file of one letter -/

/-- An empty text file that has been opened. -/
def sampleEdit : RemoteEditSnapshot where
  instanceId := "i".toList
  sessionId := "s".toList
  remotePath := "/a.txt".toList
  localPath := "a.txt".toList
  fileName := "a.txt".toList
  downloadedAt := 0
  remote := ⟨some 0, some 0⟩
  trackChanges := true
  status := .synced
  lastSyncedAt := 0
  lastErrorCode := none
  lastError := none

def sampleSave (mtimeMs : ℕ) (content : Bytes) : List EditEvent :=
  [.save content mtimeMs, .monitor .tick, .monitor (.metadata none),
    .monitor (.content (mtimeMs + remoteEditQuietWindowMs) none), .monitor .settle]

def sampleCopy (len : ℕ) : List CallEvent :=
  [.parameters, .stat (.ok ⟨some 0, some 0⟩), .upload (.sftpOpened (.ok none)),
    .upload (.localOpened none), .upload (.metadata (some len)), .upload (.remoteOpened none),
    .upload (.copy .look), .upload (.copy (.read (.ok len))), .upload (.copy .spawn),
    .carriedOut 0, .upload (.copy .look), .upload (.copy (.read (.ok 0))),
    .upload (.copy (.joined 0 .written)), .upload (.copy (.closed none)), .uploaded]

def sampleBaseline (len : ℕ) : List CallEvent :=
  [.stat (.ok ⟨some 1, some len⟩), .metadata none, .content none, .finish 1 true]

def sampleUpload (len : ℕ) : List CallEvent := sampleCopy len ++ sampleBaseline len

end FluxTerm.RemoteEdit
