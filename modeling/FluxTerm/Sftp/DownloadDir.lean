import FluxTerm.Sftp.Batch
import FluxTerm.Sftp.Download
import FluxTerm.Sftp.DownloadScan

/-!
# FluxTerm — `sftp_download_dir`

The download of a directory, as a machine: a free local directory is looked for, the remote tree is
scanned into a queue of tasks, and the workers empty the queue.
-/

namespace FluxTerm.Sftp

open FluxTerm.Engine FluxTerm.Lib

/-- The arguments of `sftp_download_dir`. -/
structure DownloadDirArgs where
  identity : SftpConnectionIdentity
  remotePath : Text
  localDir : Text

def DownloadDirArgs.rootName (args : DownloadDirArgs) : Text := fileNameFromPath args.remotePath

/-- The candidates for `root_path`. -/
def DownloadDirArgs.rootPath (args : DownloadDirArgs) (index : ℕ) : Text :=
  availablePath (push args.localDir args.rootName) index

def DownloadDirArgs.emitContext (args : DownloadDirArgs) (rootPath : Text) :
    PipelineEmitContext where
  sessionId := args.identity.sessionId
  transferId := args.identity.transferId
  op := .download
  kind := .directory
  path := args.remotePath
  displayName := args.rootName
  targetName := fileName rootPath

/-- The roots of `scan_ctx`. -/
def DownloadDirArgs.scanContext (args : DownloadDirArgs) (rootPath : Text) : ScanContext :=
  .undisturbed rootPath (args.remotePath.rdropWhile (· == sep))

/-! ## The scan -/

structure ListedEntry where
  name : Text
  isDir : Bool
  size : Option ℕ
deriving DecidableEq

/-- A call of `stream_remote_download_tasks` that has listed its directory: the entries left. -/
structure ScanCall where
  relativeDir : Text
  entries : List ListedEntry

inductive DirScan where
  | enter (relativeDir : Text) (calls : List ScanCall)
  /-- `read_dir`. -/
  | listing (relativeDir : Text) (calls : List ScanCall)
  | entries (calls : List ScanCall)

inductive DirScanEvent where
  | go
  | listed (result : Except String (List ListedEntry))

inductive DirScanTurn where
  | on (scan : DirScan) (changes : List ItemUpdate) (task : Option DownloadPipelineTask)
  | ended (result : Except EngineError Unit)

/-- The tasks and updates for an entry. A directory is no item. -/
def dirEntryTurn (ctx : ScanContext) (relativeDir : Text) (entry : ListedEntry)
    (calls : List ScanCall) : DirScanTurn :=
  let relative := nextRelative relativeDir entry.name
  let localPath := nextLocal ctx.localRoot relativeDir entry.name
  if entry.isDir then .on (.enter relative calls) [] (some (.createLocalDir localPath))
  else
    .on (.entries calls) [.discover entry.size]
      (some (.downloadFile (nextRemote ctx relativeDir entry.name) localPath relative))

/-- One step of `stream_remote_download_tasks`. A cancelled call returns `Ok`, and the call around
it goes on. -/
def dirScanStep (ctx : ScanContext) (cancelled : Bool) (scan : DirScan) (event : DirScanEvent) :
    Option DirScanTurn :=
  match scan, event with
  | .enter relativeDir calls, .go =>
    some (.on (if cancelled then .entries calls else .listing relativeDir calls) [] none)
  | .listing _ _, .listed (.error detail) =>
    some (.ended (.error (.withDetail "sftp_list_failed" "Failed to read the directory" detail)))
  | .listing relativeDir calls, .listed (.ok entries) =>
    some (.on (.entries (⟨relativeDir, entries.filter fun entry => !dotName entry.name⟩ :: calls))
      [] none)
  | .entries [], .go => some (.ended (.ok ()))
  | .entries (⟨_, []⟩ :: calls), .go => some (.on (.entries calls) [] none)
  | .entries (⟨relativeDir, entry :: entries⟩ :: calls), .go =>
    if cancelled then some (.on (.entries calls) [] none)
    else some (dirEntryTurn ctx relativeDir entry (⟨relativeDir, entries⟩ :: calls))
  | _, _ => none

/-! ## Workers -/

structure DownloadFile where
  remotePath : Text
  localPath : Text
  displayName : Text
deriving DecidableEq

/-- Where `download_pipeline_worker` is. -/
inductive DownloadWorker where
  /-- `open_raw_sftp`. -/
  | opening
  | head (readLimit : Option ℕ)
  /-- `recv`. -/
  | receiving (readLimit : Option ℕ)
  /-- `create_dir_all` of a task. -/
  | makingDir (readLimit : Option ℕ) (localPath : Text)
  /-- `create_dir_all` of the parent of a file. -/
  | makingParent (readLimit : Option ℕ) (file : DownloadFile)
  | copying (readLimit : Option ℕ) (file : DownloadFile) (download : FileDownload)
      (lastTransferred : ℕ)
  | removing (readLimit : Option ℕ) (file : DownloadFile)
  | returned (result : Except EngineError Unit)

namespace DownloadWorker

def isReturned : DownloadWorker → Bool
  | returned _ => true
  | _ => false

def hasFailed : DownloadWorker → Bool
  | returned (.error _) => true
  | _ => false

def startFile (readLimit : Option ℕ) (file : DownloadFile) : DownloadWorker :=
  if pieces file.localPath = [] then .copying readLimit file .openRemote 0
  else .makingParent readLimit file

end DownloadWorker

inductive DownloadWorkerEvent where
  /-- `open_raw_sftp`: the read limit of the server. -/
  | opened (result : Except EngineError (Option ℕ))
  | go
  /-- `create_dir_all`. -/
  | dirCreated (fault : Option String)
  | copy (event : FileDownloadEvent)
  | removed

structure DownloadWorkerTurn where
  worker : DownloadWorker
  queue : List DownloadPipelineTask
  changes : List ItemUpdate

def progressUpdates (displayName : Text) (lastTransferred : ℕ) : List ℕ → List ItemUpdate
  | [] => []
  | transferred :: progress =>
    (fileProgressUpdate displayName lastTransferred transferred).toList ++
      progressUpdates displayName transferred progress

/-- What the worker makes of a step of the file download. -/
def downloadFileTurn (queue : List DownloadPipelineTask) (readLimit : Option ℕ)
    (file : DownloadFile) (lastTransferred : ℕ) : FileDownloadTurn → DownloadWorkerTurn
  | .on download progress =>
    ⟨.copying readLimit file download (progress.getLastD lastTransferred), queue,
      progressUpdates file.displayName lastTransferred progress⟩
  | .ended (.ok _) progress =>
    ⟨.head readLimit, queue,
      progressUpdates file.displayName lastTransferred progress ++ [.complete file.displayName]⟩
  | .ended (.error err) progress =>
    ⟨if err.code = "sftp_transfer_cancelled" then .returned (.ok ())
      else .removing readLimit file, queue,
      progressUpdates file.displayName lastTransferred progress⟩

/-- `recv` of the next task. The sender is gone, so that an empty queue is its end. -/
def downloadReceive (readLimit : Option ℕ) : List DownloadPipelineTask → DownloadWorkerTurn
  | [] => ⟨.returned (.ok ()), [], []⟩
  | .createLocalDir localPath :: queue => ⟨.makingDir readLimit localPath, queue, []⟩
  | .downloadFile remotePath localPath displayName :: queue =>
    ⟨.startFile readLimit ⟨remotePath, localPath, displayName⟩, queue, []⟩

/-- One step of `download_pipeline_worker`. -/
def downloadWorkerStep (cancelled : Bool) (queue : List DownloadPipelineTask)
    (worker : DownloadWorker) (event : DownloadWorkerEvent) : Option DownloadWorkerTurn :=
  match worker, event with
  | .opening, .opened (.error err) => some ⟨.returned (.error err), queue, []⟩
  | .opening, .opened (.ok readLimit) => some ⟨.head readLimit, queue, []⟩
  | .head readLimit, .go =>
    some ⟨if cancelled then .returned (.ok ()) else .receiving readLimit, queue, []⟩
  | .receiving readLimit, .go => some (downloadReceive readLimit queue)
  | .makingDir readLimit _, .dirCreated fault =>
    -- a directory becomes an item by failing
    some ⟨.head readLimit, queue, if fault.isSome then [.discoverFailed] else []⟩
  | .makingParent readLimit file, .dirCreated (some _) =>
    some ⟨.head readLimit, queue, [.fail file.displayName]⟩
  | .makingParent readLimit file, .dirCreated none =>
    some ⟨.copying readLimit file .openRemote 0, queue, []⟩
  | .copying readLimit file download lastTransferred, .copy event =>
    (fileDownloadStep (downloadChunkSize readLimit) cancelled download event).map
      (downloadFileTurn queue readLimit file lastTransferred)
  | .removing readLimit file, .removed =>
    some ⟨.head readLimit, queue, [.fail file.displayName]⟩
  | _, _ => none

/-! ## `sftp_download_dir` -/

/-- Where the function is. -/
inductive DownloadDirPhase where
  | openSftp
  /-- `resolve_available_local_path` looks at a candidate. -/
  | resolving (index : ℕ)
  | scanning (rootPath : Text) (scan : DirScan)
  | working (rootPath : Text)
  | returned (result : Except EngineError Unit)

structure DownloadDirJob where
  phase : DownloadDirPhase
  batch : Batch
  queue : List DownloadPipelineTask
  workers : List DownloadWorker

inductive DownloadDirEvent where
  | cancel
  | sftpOpened (result : Except EngineError Unit)
  /-- `tokio::fs::metadata` of a candidate succeeds: there is something there. -/
  | candidate (taken : Bool)
  | scan (event : DirScanEvent)
  | worker (index : ℕ) (event : DownloadWorkerEvent)
  | conclude

namespace DownloadDirJob

variable (job : DownloadDirJob)

def start : DownloadDirJob := ⟨.openSftp, .start, [], []⟩

def goTo (phase : DownloadDirPhase) : DownloadDirJob := { job with phase }

def finish (result : Except EngineError Unit) : DownloadDirJob := job.goTo (.returned result)

def begin (args : DownloadDirArgs) (rootPath : Text) : DownloadDirJob where
  phase := .scanning rootPath (.enter [] [])
  batch := job.batch.emit (args.emitContext rootPath) none
  queue := [.createLocalDir rootPath]
  workers := .replicate batchWorkerCount .opening

def record (context : PipelineEmitContext) (changes : List ItemUpdate) : DownloadDirJob :=
  { job with batch := job.batch.updateAll context changes }

end DownloadDirJob

/-- What the function makes of a step of the scan. A scan that fails counts as a failed item. -/
def DownloadDirArgs.turn (args : DownloadDirArgs) (rootPath : Text) (job : DownloadDirJob) :
    DirScanTurn → DownloadDirJob
  | .on scan changes task =>
    { (job.record (args.emitContext rootPath) changes) with
      phase := .scanning rootPath scan
      queue := job.queue ++ task.toList }
  | .ended (.ok ()) => job.goTo (.working rootPath)
  | .ended (.error _) =>
    (job.record (args.emitContext rootPath) [.discoverFailed]).goTo (.working rootPath)

def DownloadDirArgs.workerTurn (args : DownloadDirArgs) (rootPath : Text) (job : DownloadDirJob)
    (index : ℕ) (turn : DownloadWorkerTurn) : DownloadDirJob :=
  { (job.record (args.emitContext rootPath) turn.changes) with
    queue := turn.queue
    workers := job.workers.set index turn.worker }

/-- One step of `sftp_download_dir`. -/
def sftpDownloadDirStep (args : DownloadDirArgs) (job : DownloadDirJob)
    (event : DownloadDirEvent) : Option DownloadDirJob :=
  match job.phase, event with
  | _, .cancel =>
    if job.batch.cancelFlag then none
    else some { job with batch := { job.batch with cancelFlag := true } }
  | .openSftp, .sftpOpened (.error err) => some (job.finish (.error err))
  | .openSftp, .sftpOpened (.ok ()) => some (job.goTo (.resolving 0))
  | .resolving index, .candidate true => some (job.goTo (.resolving (index + 1)))
  | .resolving index, .candidate false => some (job.begin args (args.rootPath index))
  | .scanning rootPath scan, .scan event =>
    (dirScanStep (args.scanContext rootPath) job.batch.cancelFlag scan event).map
      (args.turn rootPath job)
  | .working rootPath, .worker index event =>
    (job.workers[index]?).bind fun worker =>
      (downloadWorkerStep job.batch.cancelFlag job.queue worker event).map
        (args.workerTurn rootPath job index)
  | .working rootPath, .conclude =>
    if job.workers.all DownloadWorker.isReturned then
      let (batch, result) := job.batch.conclude (args.emitContext rootPath)
        (job.workers.any DownloadWorker.hasFailed)
        (.new sftpDownloadFailedCode "Directory download failed")
      some { job with phase := .returned result, batch }
    else none
  | _, _ => none

/-- `sftp_download_dir` as a machine. -/
def sftpDownloadDir (args : DownloadDirArgs) : Machine DownloadDirJob DownloadDirEvent :=
  .ofStep .start (sftpDownloadDirStep args)

/-! ## The log -/

def DownloadDirPhase.phase : DownloadDirPhase → Phase
  | openSftp | resolving _ => .quiet
  | scanning .. | working _ => .live
  | returned _ => .ended

variable {args : DownloadDirArgs} {job job' : DownloadDirJob} {event : DownloadDirEvent}

theorem DownloadDirArgs.emitContext_isOf (args : DownloadDirArgs) (rootPath : Text) :
    (args.emitContext rootPath).IsOf args.identity := ⟨rfl, rfl⟩

theorem downloadDir_turn_updated (args : DownloadDirArgs) (job : DownloadDirJob) {rootPath : Text}
    (turn : DirScanTurn) :
    (args.turn rootPath job turn).phase.phase = .live ∧
      job.batch.Updated args.identity (args.turn rootPath job turn).batch := by
  have hcontext := args.emitContext_isOf rootPath
  cases turn with
  | on scan changes task => exact ⟨rfl, Batch.updateAll_updated hcontext changes⟩
  | ended result =>
    cases result with
    | ok done => exact ⟨rfl, .refl⟩
    | error err => exact ⟨rfl, Batch.updateAll_updated hcontext _⟩

theorem sftpDownloadDirStep_batch (h : sftpDownloadDirStep args job event = some job') :
    job.batch.Step args.identity job.phase.phase job'.phase.phase job'.batch := by
  unfold sftpDownloadDirStep at h
  split at h
  · -- `cancel`
    split at h <;> cases h
    exact .silent _ rfl rfl
  · rename_i hphase
    rw [hphase]
    cases h
    exact .giveUp
  · rename_i hphase
    rw [hphase]
    cases h
    exact .silent _ rfl rfl
  · rename_i hphase
    rw [hphase]
    cases h
    exact .silent _ rfl rfl
  · -- a free path is found: the transfer starts
    rename_i hphase
    rw [hphase]
    cases h
    exact .start (args.emitContext_isOf _)
  · -- the scan
    rename_i hphase
    obtain ⟨turn, -, rfl⟩ := Option.map_eq_some_iff.mp h
    obtain ⟨hlive, hupdated⟩ := downloadDir_turn_updated args job turn
    rw [hphase, hlive]
    exact .updates hupdated
  · -- a worker
    rename_i rootPath index event hphase
    obtain ⟨worker, -, hstep⟩ := Option.bind_eq_some_iff.mp h
    obtain ⟨turn, -, rfl⟩ := Option.map_eq_some_iff.mp hstep
    have hlive : (args.workerTurn rootPath job index turn).phase.phase = .live := by
      show job.phase.phase = .live
      rw [hphase]
      rfl
    rw [hlive, hphase]
    exact .updates (Batch.updateAll_updated (args.emitContext_isOf rootPath) turn.changes)
  · rename_i hphase
    rw [hphase]
    split at h <;> cases h
    exact .concluded (args.emitContext_isOf _)
  · cases h

/-- **The log of a download of a directory.** It reports until its last event, whatever fails. -/
theorem sftpDownloadDir_reports (args : DownloadDirArgs) :
    Reports (sftpDownloadDir args) (fun job => job.batch.events)
      (SftpProgress.IsOf args.identity) SftpProgress.isFinal fun job => job.phase.phase := by
  refine Batch.reports ?_ fun _ _ _ hstep => sftpDownloadDirStep_batch hstep
  rintro _ rfl
  exact ⟨nofun, rfl⟩

/-! ## Going on -/

theorem exists_dirScanStep (ctx : ScanContext) (cancelled : Bool) (scan : DirScan) :
    ∃ event turn, dirScanStep ctx cancelled scan event = some turn := by
  cases scan with
  | enter relativeDir calls => exact ⟨.go, _, rfl⟩
  | listing relativeDir calls => exact ⟨.listed (.ok []), _, rfl⟩
  | entries calls =>
    cases calls with
    | nil => exact ⟨.go, _, rfl⟩
    | cons call calls =>
      obtain ⟨relativeDir, entries⟩ := call
      cases entries with
      | nil => exact ⟨.go, _, rfl⟩
      | cons entry entries =>
        cases cancelled with
        | true => exact ⟨.go, _, rfl⟩
        | false => exact ⟨.go, _, rfl⟩

theorem exists_downloadWorkerStep (cancelled : Bool) (queue : List DownloadPipelineTask)
    (worker : DownloadWorker) (hbusy : worker.isReturned = false) :
    ∃ event turn, downloadWorkerStep cancelled queue worker event = some turn := by
  cases worker with
  | opening => exact ⟨.opened (.ok none), _, rfl⟩
  | head readLimit => exact ⟨.go, _, rfl⟩
  | receiving readLimit => exact ⟨.go, _, rfl⟩
  | makingDir readLimit localPath => exact ⟨.dirCreated none, _, rfl⟩
  | makingParent readLimit file => exact ⟨.dirCreated none, _, rfl⟩
  | copying readLimit file download lastTransferred =>
    obtain ⟨event, turn, hturn⟩ :=
      exists_fileDownloadStep (downloadChunkSize readLimit) cancelled download
    refine ⟨.copy event, downloadFileTurn queue readLimit file lastTransferred turn, ?_⟩
    show (fileDownloadStep _ cancelled download event).map _ = _
    rw [hturn]
    rfl
  | removing readLimit file => exact ⟨.removed, _, rfl⟩
  | returned result => cases hbusy

theorem exists_sftpDownloadDirStep (args : DownloadDirArgs) (job : DownloadDirJob)
    (hphase : job.phase.phase ≠ .ended) :
    ∃ event job', event ≠ .cancel ∧ sftpDownloadDirStep args job event = some job' := by
  obtain ⟨phase, batch, queue, workers⟩ := job
  cases phase with
  | openSftp => exact ⟨.sftpOpened (.ok ()), _, nofun, rfl⟩
  | resolving index => exact ⟨.candidate false, _, nofun, rfl⟩
  | scanning rootPath scan =>
    obtain ⟨event, turn, hturn⟩ :=
      exists_dirScanStep (args.scanContext rootPath) batch.cancelFlag scan
    refine ⟨.scan event, args.turn rootPath
      ⟨.scanning rootPath scan, batch, queue, workers⟩ turn, nofun, ?_⟩
    show (dirScanStep _ batch.cancelFlag scan event).map _ = _
    rw [hturn]
    rfl
  | working rootPath =>
    by_cases hall : workers.all DownloadWorker.isReturned = true
    · exact ⟨.conclude, _, nofun, if_pos hall⟩
    · -- some worker is busy
      obtain ⟨worker, hworker, hbusy⟩ := List.all_eq_false.mp (Bool.eq_false_iff.mpr hall)
      obtain ⟨index, hindex, hget⟩ := List.mem_iff_getElem.mp hworker
      obtain ⟨event, turn, hturn⟩ :=
        exists_downloadWorkerStep batch.cancelFlag queue worker (Bool.eq_false_iff.mpr hbusy)
      refine ⟨.worker index event, args.workerTurn rootPath
        ⟨.working rootPath, batch, queue, workers⟩ index turn, nofun, ?_⟩
      show (workers[index]?).bind _ = _
      rw [List.getElem?_eq_getElem hindex, hget]
      show (downloadWorkerStep _ queue worker event).map _ = _
      rw [hturn]
      rfl
  | returned result => exact absurd rfl hphase

end FluxTerm.Sftp
