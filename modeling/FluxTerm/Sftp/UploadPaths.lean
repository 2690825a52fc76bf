import FluxTerm.Sftp.Batch
import FluxTerm.Sftp.UploadLoop

/-!
# FluxTerm — `sftp_upload_paths`

The upload of files and directories, as a machine: the roots are classified, the local trees are
scanned into a queue of tasks, and the workers empty the queue.
-/

namespace FluxTerm.Sftp

open FluxTerm.Engine FluxTerm.Lib

/-! ## Jobs -/

/-- What `symlink_metadata` tells of a local path. -/
inductive LocalMetadata where
  | symlink
  | file (len : ℕ)
  | dir
  | other
deriving DecidableEq

inductive UploadJobKind where
  | file
  | directory
  | batch
deriving DecidableEq

def UploadJobKind.transferKind : UploadJobKind → SftpTransferKind
  | file => .file
  | directory => .directory
  | batch => .batch

def UploadJobKind.workerCount : UploadJobKind → ℕ
  | file => 1
  | directory | batch => batchWorkerCount

structure UploadFile where
  localPath : Text
  remotePath : Text
  displayName : Text
deriving DecidableEq

inductive UploadPipelineTask where
  | createRemoteDir (remoteDir displayName : Text)
  | uploadFile (file : UploadFile)
deriving DecidableEq

/-- The arguments of `sftp_upload_paths`. -/
structure UploadPathsArgs where
  identity : SftpConnectionIdentity
  localPaths : List Text
  remoteDir : Text

def UploadPathsArgs.localRoots (args : UploadPathsArgs) : List Text :=
  args.localPaths.filter fun path => trimBy isWhitespace path ≠ []

def UploadPathsArgs.emitContext (args : UploadPathsArgs) (kind : UploadJobKind) :
    PipelineEmitContext where
  sessionId := args.identity.sessionId
  transferId := args.identity.transferId
  op := .upload
  kind := kind.transferKind
  path := args.remoteDir
  displayName := uploadRootsDisplayName args.localRoots
  targetName := none

/-! ## Remote paths -/

def remoteJoin (base child : Text) : Text :=
  let normalizedBase := if base = [sep] then [sep] else base.rdropWhile (· == sep)
  let normalizedChild := trimBy (· == sep) child
  if normalizedChild = [] then normalizedBase
  else if normalizedBase = [] ∨ normalizedBase = [sep] then sep :: normalizedChild
  else normalizedBase ++ sep :: normalizedChild

def remoteParent (path : Text) : Option Text :=
  let normalized := path.rdropWhile (· == sep)
  if normalized = [] ∨ normalized = [sep] then none
  else (rsplitOnce sep normalized).map fun parts => if parts.1 = [] then [sep] else parts.1

/-- The directories that `ensure_remote_parent_dirs_raw` goes through, from the outermost on. -/
def remoteTargets (dirPath : Text) : List Text :=
  if dirPath = [] ∨ dirPath = [sep] then []
  else ((pieces dirPath).scanl remoteJoin (if isAbs dirPath then [sep] else [])).tail

/-! ## The scan of one root -/

/-- `strip_prefix(root)` of a path, with `/` for every `\`. -/
def localRelative (root path : Text) : Option Text :=
  if isAbs root = isAbs path ∧ pieces root <+: pieces path then
    let names := (pieces path).drop (pieces root).length
    some (([sep].intercalate names).map fun c => if c = '\\' then sep else c)
  else none

/-- Where `stream_local_upload_tasks` is. The top of the stack comes first. -/
inductive RootScan where
  /-- `symlink_metadata` of the root. -/
  | metadata
  | pop (remoteRoot : Text) (stack : List Text)
  /-- `read_dir`. -/
  | listing (remoteRoot current : Text) (stack : List Text)
  | entries (remoteRoot current : Text) (stack : List Text)
  /-- `symlink_metadata` of an entry. -/
  | entryMetadata (remoteRoot current : Text) (stack : List Text) (path : Text)

inductive RootScanEvent where
  | look
  | metadata (result : Except String LocalMetadata)
  | listed (fault : Option String)
  | entry (result : Option (Except String Text))

inductive RootTurn where
  | on (scan : RootScan) (changes : List ItemUpdate) (task : Option UploadPipelineTask)
  | ended (result : Except EngineError Unit) (changes : List ItemUpdate)
      (task : Option UploadPipelineTask)

def RootTurn.fault (message detail : String) : RootTurn :=
  .ended (.error (.withDetail sftpUploadFailedCode message detail)) [] none

/-- The start of the scan, with the metadata of the root. The queue outlives the scan, so that no
task finds it closed. -/
def uploadRootTurn (remoteDir root : Text) : Except String LocalMetadata → RootTurn
  | .error detail => .fault "Failed to read local file metadata" detail
  | .ok .symlink =>
    .ended (.error (.new sftpUploadFailedCode "Uploading symbolic links is not supported"))
      [.discoverFailed] none
  | .ok metadata =>
    match fileName root with
    | none =>
      .ended (.error (.new sftpUploadFailedCode "Unable to determine the upload root name")) [] none
    | some rootName =>
      let remoteRoot := remoteJoin remoteDir rootName
      match metadata with
      | .file len =>
        .ended (.ok ()) [.discover (some len)] (some (.uploadFile ⟨root, remoteRoot, rootName⟩))
      | .dir =>
        .on (.pop remoteRoot [root]) [.discover (some 0)]
          (some (.createRemoteDir remoteRoot rootName))
      | _ =>
        .ended (.error (.new sftpUploadFailedCode "Uploading this entry type is not supported"))
          [.discoverFailed] none

/-- The metadata of the entry at `path`. -/
def uploadEntryTurn (root remoteRoot current : Text) (stack : List Text) (path : Text) :
    Except String LocalMetadata → RootTurn
  | .error detail => .fault "Failed to read local file metadata" detail
  | .ok metadata =>
    match localRelative root path with
    | none => .fault "Failed to calculate the local relative path" "prefix not found"
    | some relative =>
      match metadata with
      | .symlink | .other => .on (.entries remoteRoot current stack) [.discoverFailed] none
      | .dir =>
        .on (.entries remoteRoot current (path :: stack)) [.discover (some 0)]
          (some (.createRemoteDir (remoteJoin remoteRoot relative) relative))
      | .file len =>
        .on (.entries remoteRoot current stack) [.discover (some len)]
          (some (.uploadFile ⟨path, remoteJoin remoteRoot relative, relative⟩))

/-- One step of `stream_local_upload_tasks`. -/
def rootScanStep (remoteDir root : Text) (cancelled : Bool) (scan : RootScan)
    (event : RootScanEvent) : Option RootTurn :=
  match scan, event with
  | .metadata, .metadata result => some (uploadRootTurn remoteDir root result)
  | .pop _ [], .look => some (.ended (.ok ()) [] none)
  | .pop remoteRoot (current :: stack), .look =>
    if cancelled then some (.ended (.ok ()) [] none)
    else some (.on (.listing remoteRoot current stack) [] none)
  | .listing _ _ _, .listed (some detail) =>
    some (.fault "Failed to read the local directory" detail)
  | .listing remoteRoot current stack, .listed none =>
    some (.on (.entries remoteRoot current stack) [] none)
  | .entries remoteRoot _ stack, .entry none => some (.on (.pop remoteRoot stack) [] none)
  | .entries _ _ _, .entry (some (.error detail)) =>
    some (.fault "Failed to read a local directory entry" detail)
  | .entries remoteRoot current stack, .entry (some (.ok name)) =>
    some (.on (.entryMetadata remoteRoot current stack (push current name)) [] none)
  | .entryMetadata remoteRoot current stack path, .metadata result =>
    some (uploadEntryTurn root remoteRoot current stack path result)
  | _, _ => none

/-! ## Workers -/

inductive DirPurpose where
  | task (displayName : Text)
  /-- A parent of the file; `targets` come next. -/
  | parent (file : UploadFile) (targets : List Text)

def DirPurpose.displayName : DirPurpose → Text
  | task displayName => displayName
  | parent file _ => file.displayName

/-- Where `upload_pipeline_worker` is. -/
inductive UploadWorker where
  /-- `open_raw_sftp`. -/
  | opening
  | head (writeLimit : Option ℕ)
  /-- `recv`. -/
  | receiving (writeLimit : Option ℕ)
  /-- `ensure_remote_dir_exists_raw`: `mkdir`, and `stat` once that was `refused`. -/
  | makingDir (writeLimit : Option ℕ) (dir : Text) (purpose : DirPurpose)
      (refused : Option String)
  | caching (writeLimit : Option ℕ) (dir : Text) (purpose : DirPurpose)
  /-- `ensure_remote_parent_dirs_raw`, before the look into the cache. -/
  | parents (writeLimit : Option ℕ) (file : UploadFile) (targets : List Text)
  | openLocal (writeLimit : Option ℕ) (file : UploadFile)
  | openRemote (writeLimit : Option ℕ) (file : UploadFile)
  | copying (writeLimit : Option ℕ) (file : UploadFile) (loop : UploadLoop)
      (lastTransferred : ℕ)
  | returned (result : Except EngineError Unit)

namespace UploadWorker

/-- The start of `ensure_remote_dir_exists_raw`. -/
def ensureDir (writeLimit : Option ℕ) (dir : Text) (purpose : DirPurpose) : UploadWorker :=
  if dir = [] ∨ dir = [sep] then .caching writeLimit dir purpose
  else .makingDir writeLimit dir purpose none

def startFile (writeLimit : Option ℕ) (file : UploadFile) : UploadWorker :=
  match remoteParent file.remotePath with
  | some parent => .parents writeLimit file (remoteTargets parent)
  | none => .openLocal writeLimit file

def isReturned : UploadWorker → Bool
  | returned _ => true
  | _ => false

def hasFailed : UploadWorker → Bool
  | returned (.error _) => true
  | _ => false

end UploadWorker

/-- What a worker waits for. -/
inductive UploadWorkerEvent where
  /-- `open_raw_sftp`: the write limit of the server. -/
  | opened (result : Except EngineError (Option ℕ))
  | go
  | mkdir (fault : Option String)
  | stat (found : Bool)
  | localOpened (fault : Option String)
  | remoteOpened (fault : Option String)
  | copy (event : UploadEvent)

structure UploadShared where
  queue : List UploadPipelineTask
  dirCache : List Text

structure UploadWorkerTurn where
  worker : UploadWorker
  shared : UploadShared
  changes : List ItemUpdate

/-- What the worker makes of a step of the loop. -/
def uploadFileTurn (shared : UploadShared) (writeLimit : Option ℕ) (file : UploadFile)
    (lastTransferred : ℕ) : UploadTurn → UploadWorkerTurn
  | .on loop none => ⟨.copying writeLimit file loop lastTransferred, shared, []⟩
  | .on loop (some transferred) =>
    ⟨.copying writeLimit file loop transferred, shared,
      (fileProgressUpdate file.displayName lastTransferred transferred).toList⟩
  | .cancelled _ => ⟨.returned (.ok ()), shared, []⟩
  | .failed _ => ⟨.head writeLimit, shared, [.fail file.displayName]⟩
  | .finished _ => ⟨.head writeLimit, shared, [.complete file.displayName]⟩

/-- `recv` of the next task. The sender is gone, so that an empty queue is its end. -/
def uploadReceive (shared : UploadShared) (writeLimit : Option ℕ) : UploadWorkerTurn :=
  match shared.queue with
  | [] => ⟨.returned (.ok ()), shared, []⟩
  | .createRemoteDir remoteDir displayName :: queue =>
    ⟨.ensureDir writeLimit remoteDir (.task displayName), { shared with queue }, []⟩
  | .uploadFile file :: queue => ⟨.startFile writeLimit file, { shared with queue }, []⟩

def uploadCache (shared : UploadShared) (writeLimit : Option ℕ) (dir : Text) :
    DirPurpose → UploadWorkerTurn
  | .task displayName =>
    ⟨.head writeLimit, { shared with dirCache := dir :: shared.dirCache },
      [.complete displayName]⟩
  | .parent file targets =>
    ⟨.parents writeLimit file targets, { shared with dirCache := dir :: shared.dirCache }, []⟩

def uploadParents (shared : UploadShared) (writeLimit : Option ℕ) (file : UploadFile) :
    List Text → UploadWorker
  | [] => .openLocal writeLimit file
  | dir :: targets =>
    if dir ∈ shared.dirCache then .parents writeLimit file targets
    else .ensureDir writeLimit dir (.parent file targets)

/-- One step of `upload_pipeline_worker`. -/
def uploadWorkerStep (cancelled : Bool) (shared : UploadShared) (worker : UploadWorker)
    (event : UploadWorkerEvent) : Option UploadWorkerTurn :=
  match worker, event with
  | .opening, .opened (.error err) => some ⟨.returned (.error err), shared, []⟩
  | .opening, .opened (.ok writeLimit) => some ⟨.head writeLimit, shared, []⟩
  | .head writeLimit, .go =>
    some ⟨if cancelled then .returned (.ok ()) else .receiving writeLimit, shared, []⟩
  | .receiving writeLimit, .go => some (uploadReceive shared writeLimit)
  | .makingDir writeLimit dir purpose none, .mkdir none =>
    some ⟨.caching writeLimit dir purpose, shared, []⟩
  | .makingDir writeLimit dir purpose none, .mkdir (some detail) =>
    some ⟨.makingDir writeLimit dir purpose (some detail), shared, []⟩
  | .makingDir writeLimit dir purpose (some _), .stat found =>
    if found then some ⟨.caching writeLimit dir purpose, shared, []⟩
    else some ⟨.head writeLimit, shared, [.fail purpose.displayName]⟩
  | .caching writeLimit dir purpose, .go => some (uploadCache shared writeLimit dir purpose)
  | .parents writeLimit file targets, .go =>
    some ⟨uploadParents shared writeLimit file targets, shared, []⟩
  | .openLocal writeLimit file, .localOpened (some _)
  | .openRemote writeLimit file, .remoteOpened (some _) =>
    some ⟨.head writeLimit, shared, [.fail file.displayName]⟩
  | .openLocal writeLimit file, .localOpened none =>
    some ⟨.openRemote writeLimit file, shared, []⟩
  | .openRemote writeLimit file, .remoteOpened none =>
    some ⟨.copying writeLimit file .start 0, shared, []⟩
  | .copying writeLimit file loop lastTransferred, .copy event =>
    (uploadStep (uploadChunkSize writeLimit) cancelled loop event).map
      (uploadFileTurn shared writeLimit file lastTransferred)
  | _, _ => none

/-! ## `sftp_upload_paths` -/

inductive UploadPathsPhase where
  /-- `classify_upload_roots` looks at a root; `roots` are left. -/
  | classifying (root : Text) (roots : List Text)
  | roots (kind : UploadJobKind) (roots : List Text)
  | scanning (kind : UploadJobKind) (root : Text) (roots : List Text) (scan : RootScan)
  | working (kind : UploadJobKind)
  | returned (result : Except EngineError Unit)

structure UploadPathsJob where
  phase : UploadPathsPhase
  batch : Batch
  shared : UploadShared
  workers : List UploadWorker

/-- What the function waits for, and the setting of the flag by others. -/
inductive UploadPathsEvent where
  | cancel
  /-- `symlink_metadata` in `classify_upload_roots`. -/
  | classified (result : Except String LocalMetadata)
  | look
  | scan (event : RootScanEvent)
  | worker (index : ℕ) (event : UploadWorkerEvent)
  | conclude

/-- The kind of a root, unless the root cannot be uploaded. -/
def classifyUploadRoot : Except String LocalMetadata → Except EngineError UploadJobKind
  | .error detail =>
    .error (.withDetail sftpUploadFailedCode "Failed to read local upload path metadata" detail)
  | .ok .symlink =>
    .error (.new sftpUploadFailedCode "Uploading symbolic links is not supported")
  | .ok .other =>
    .error (.new sftpUploadFailedCode "Uploading this entry type is not supported")
  | .ok (.file _) => .ok .file
  | .ok .dir => .ok .directory

namespace UploadPathsJob

variable (job : UploadPathsJob)

def goTo (phase : UploadPathsPhase) : UploadPathsJob := { job with phase }

def finish (result : Except EngineError Unit) : UploadPathsJob := job.goTo (.returned result)

def begin (args : UploadPathsArgs) (kind : UploadJobKind) : UploadPathsJob where
  phase := .roots kind args.localRoots
  batch := job.batch.emit (args.emitContext kind) none
  shared := ⟨[], [[sep], args.remoteDir]⟩
  workers := .replicate kind.workerCount .opening

def record (context : PipelineEmitContext) (changes : List ItemUpdate)
    (task : Option UploadPipelineTask) : UploadPathsJob :=
  { job with
    batch := job.batch.updateAll context changes
    shared := { job.shared with queue := job.shared.queue ++ task.toList } }

end UploadPathsJob

/-- The state before the first step. -/
def UploadPathsArgs.start (args : UploadPathsArgs) : UploadPathsJob where
  phase :=
    match args.localRoots with
    | [] =>
      .returned (.error (.new sftpUploadFailedCode "No local paths were provided for upload"))
    | root :: roots => .classifying root roots
  batch := .start
  shared := ⟨[], []⟩
  workers := []

/-- What the function makes of a step of the scan. A scan that fails counts as a failed item. -/
def UploadPathsArgs.turn (args : UploadPathsArgs) (kind : UploadJobKind) (root : Text)
    (roots : List Text) (job : UploadPathsJob) : RootTurn → UploadPathsJob
  | .on scan changes task =>
    (job.record (args.emitContext kind) changes task).goTo (.scanning kind root roots scan)
  | .ended (.ok ()) changes task =>
    (job.record (args.emitContext kind) changes task).goTo (.roots kind roots)
  | .ended (.error _) changes task =>
    (job.record (args.emitContext kind) (changes ++ [.discoverFailed]) task).goTo
      (.roots kind roots)

def UploadPathsArgs.workerTurn (args : UploadPathsArgs) (kind : UploadJobKind)
    (job : UploadPathsJob) (index : ℕ) (turn : UploadWorkerTurn) : UploadPathsJob :=
  { job with
    batch := job.batch.updateAll (args.emitContext kind) turn.changes
    shared := turn.shared
    workers := job.workers.set index turn.worker }

/-- One step of `sftp_upload_paths`. -/
def sftpUploadPathsStep (args : UploadPathsArgs) (job : UploadPathsJob)
    (event : UploadPathsEvent) : Option UploadPathsJob :=
  match job.phase, event with
  | _, .cancel =>
    if job.batch.cancelFlag then none
    else some { job with batch := { job.batch with cancelFlag := true } }
  | .classifying _ roots, .classified result =>
    match classifyUploadRoot result, roots with
    | .error err, _ => some (job.finish (.error err))
    | .ok _, next :: roots => some (job.goTo (.classifying next roots))
    | .ok kind, [] =>
      some (job.begin args (if 1 < args.localRoots.length then .batch else kind))
  | .roots kind [], .look => some (job.goTo (.working kind))
  | .roots kind (root :: roots), .look =>
    if job.batch.cancelFlag then some (job.goTo (.working kind))
    else some (job.goTo (.scanning kind root roots .metadata))
  | .scanning kind root roots scan, .scan event =>
    (rootScanStep args.remoteDir root job.batch.cancelFlag scan event).map
      (args.turn kind root roots job)
  | .working kind, .worker index event =>
    (job.workers[index]?).bind fun worker =>
      (uploadWorkerStep job.batch.cancelFlag job.shared worker event).map
        (args.workerTurn kind job index)
  | .working kind, .conclude =>
    if job.workers.all UploadWorker.isReturned then
      let (batch, result) := job.batch.conclude (args.emitContext kind)
        (job.workers.any UploadWorker.hasFailed)
        (.new sftpUploadFailedCode "Upload paths task failed")
      some { job with phase := .returned result, batch }
    else none
  | _, _ => none

/-- `sftp_upload_paths` as a machine. -/
def sftpUploadPaths (args : UploadPathsArgs) : Machine UploadPathsJob UploadPathsEvent :=
  .ofStep args.start (sftpUploadPathsStep args)

/-! ## The log -/

def UploadPathsPhase.phase : UploadPathsPhase → Phase
  | classifying _ _ => .quiet
  | roots _ _ | scanning .. | working _ => .live
  | returned _ => .ended

variable {args : UploadPathsArgs} {job job' : UploadPathsJob} {event : UploadPathsEvent}

theorem UploadPathsArgs.emitContext_isOf (args : UploadPathsArgs) (kind : UploadJobKind) :
    (args.emitContext kind).IsOf args.identity := ⟨rfl, rfl⟩

theorem uploadPaths_turn_updated (args : UploadPathsArgs) (job : UploadPathsJob)
    {kind : UploadJobKind} {root : Text} {roots : List Text} (turn : RootTurn) :
    (args.turn kind root roots job turn).phase.phase = .live ∧
      job.batch.Updated args.identity (args.turn kind root roots job turn).batch := by
  have hcontext := args.emitContext_isOf kind
  cases turn with
  | on scan changes task => exact ⟨rfl, Batch.updateAll_updated hcontext changes⟩
  | ended result changes task =>
    cases result with
    | ok done => exact ⟨rfl, Batch.updateAll_updated hcontext changes⟩
    | error err => exact ⟨rfl, Batch.updateAll_updated hcontext _⟩

theorem sftpUploadPathsStep_batch (h : sftpUploadPathsStep args job event = some job') :
    job.batch.Step args.identity job.phase.phase job'.phase.phase job'.batch := by
  unfold sftpUploadPathsStep at h
  split at h
  · -- `cancel`
    split at h <;> cases h
    exact .silent _ rfl rfl
  · rename_i hphase
    rw [hphase]
    split at h <;> cases h
    · exact .giveUp
    · exact .silent _ rfl rfl
    · -- the last root is classified: the transfer starts
      exact .start (args.emitContext_isOf _)
  · rename_i hphase
    rw [hphase]
    cases h
    exact .silent _ rfl rfl
  · rename_i hphase
    rw [hphase]
    split at h <;> cases h <;> exact .silent _ rfl rfl
  · -- the scan
    rename_i hphase
    obtain ⟨turn, -, rfl⟩ := Option.map_eq_some_iff.mp h
    obtain ⟨hlive, hupdated⟩ := uploadPaths_turn_updated args job turn
    rw [hphase, hlive]
    exact .updates hupdated
  · -- a worker
    rename_i kind index event hphase
    obtain ⟨worker, -, hstep⟩ := Option.bind_eq_some_iff.mp h
    obtain ⟨turn, -, rfl⟩ := Option.map_eq_some_iff.mp hstep
    have hlive : (args.workerTurn kind job index turn).phase.phase = .live := by
      show job.phase.phase = .live
      rw [hphase]
      rfl
    rw [hlive, hphase]
    exact .updates (Batch.updateAll_updated (args.emitContext_isOf kind) turn.changes)
  · rename_i hphase
    rw [hphase]
    split at h <;> cases h
    exact .concluded (args.emitContext_isOf _)
  · cases h

/-- **The log of an upload of paths.** It reports until its last event, whatever fails. -/
theorem sftpUploadPaths_reports (args : UploadPathsArgs) :
    Reports (sftpUploadPaths args) (fun job => job.batch.events)
      (SftpProgress.IsOf args.identity) SftpProgress.isFinal fun job => job.phase.phase := by
  refine Batch.reports ?_ fun _ _ _ hstep => sftpUploadPathsStep_batch hstep
  rintro _ rfl
  refine ⟨?_, rfl⟩
  show (UploadPathsArgs.start args).phase.phase ≠ .live
  unfold UploadPathsArgs.start
  cases args.localRoots <;> nofun

/-! ## Going on -/

theorem exists_rootScanStep (remoteDir root : Text) (cancelled : Bool) (scan : RootScan) :
    ∃ event turn, rootScanStep remoteDir root cancelled scan event = some turn := by
  cases scan with
  | metadata => exact ⟨.metadata (.ok .dir), _, rfl⟩
  | pop remoteRoot stack =>
    cases stack with
    | nil => exact ⟨.look, _, rfl⟩
    | cons current stack =>
      cases cancelled with
      | true => exact ⟨.look, _, rfl⟩
      | false => exact ⟨.look, _, rfl⟩
  | listing remoteRoot current stack => exact ⟨.listed none, _, rfl⟩
  | entries remoteRoot current stack => exact ⟨.entry none, _, rfl⟩
  | entryMetadata remoteRoot current stack path => exact ⟨.metadata (.ok .dir), _, rfl⟩

theorem exists_uploadWorkerStep (cancelled : Bool) (shared : UploadShared)
    (worker : UploadWorker) (hbusy : worker.isReturned = false) :
    ∃ event turn, uploadWorkerStep cancelled shared worker event = some turn := by
  cases worker with
  | opening => exact ⟨.opened (.ok none), _, rfl⟩
  | head writeLimit => exact ⟨.go, _, rfl⟩
  | receiving writeLimit => exact ⟨.go, _, rfl⟩
  | makingDir writeLimit dir purpose refused =>
    cases refused with
    | none => exact ⟨.mkdir none, _, rfl⟩
    | some detail => exact ⟨.stat true, _, rfl⟩
  | caching writeLimit dir purpose => exact ⟨.go, _, rfl⟩
  | parents writeLimit file targets => exact ⟨.go, _, rfl⟩
  | openLocal writeLimit file => exact ⟨.localOpened none, _, rfl⟩
  | openRemote writeLimit file => exact ⟨.remoteOpened none, _, rfl⟩
  | copying writeLimit file loop lastTransferred =>
    obtain ⟨event, turn, -, hturn⟩ :=
      exists_uploadStep (uploadChunkSize writeLimit) cancelled loop
    refine ⟨.copy event, uploadFileTurn shared writeLimit file lastTransferred turn, ?_⟩
    show (uploadStep _ cancelled loop event).map _ = _
    rw [hturn]
    rfl
  | returned result => cases hbusy

theorem exists_sftpUploadPathsStep (args : UploadPathsArgs) (job : UploadPathsJob)
    (hphase : job.phase.phase ≠ .ended) :
    ∃ event job', event ≠ .cancel ∧ sftpUploadPathsStep args job event = some job' := by
  obtain ⟨phase, batch, shared, workers⟩ := job
  cases phase with
  | classifying root roots => exact ⟨.classified (.ok .symlink), _, nofun, rfl⟩
  | roots kind roots =>
    cases roots with
    | nil => exact ⟨.look, _, nofun, rfl⟩
    | cons root roots =>
      by_cases hcancelled : batch.cancelFlag = true
      · exact ⟨.look, _, nofun, if_pos hcancelled⟩
      · exact ⟨.look, _, nofun, if_neg hcancelled⟩
  | scanning kind root roots scan =>
    obtain ⟨event, turn, hturn⟩ :=
      exists_rootScanStep args.remoteDir root batch.cancelFlag scan
    refine ⟨.scan event, args.turn kind root roots
      ⟨.scanning kind root roots scan, batch, shared, workers⟩ turn, nofun, ?_⟩
    show (rootScanStep _ root batch.cancelFlag scan event).map _ = _
    rw [hturn]
    rfl
  | working kind =>
    by_cases hall : workers.all UploadWorker.isReturned = true
    · exact ⟨.conclude, _, nofun, if_pos hall⟩
    · -- some worker is busy
      obtain ⟨worker, hworker, hbusy⟩ := List.all_eq_false.mp (Bool.eq_false_iff.mpr hall)
      obtain ⟨index, hindex, hget⟩ := List.mem_iff_getElem.mp hworker
      obtain ⟨event, turn, hturn⟩ :=
        exists_uploadWorkerStep batch.cancelFlag shared worker (Bool.eq_false_iff.mpr hbusy)
      refine ⟨.worker index event, args.workerTurn kind
        ⟨.working kind, batch, shared, workers⟩ index turn, nofun, ?_⟩
      show (workers[index]?).bind _ = _
      rw [List.getElem?_eq_getElem hindex, hget]
      show (uploadWorkerStep _ shared worker event).map _ = _
      rw [hturn]
      rfl
  | returned result => exact absurd rfl hphase

/-! ## A file that cannot be read -/

def samplePaths : UploadPathsArgs := ⟨⟨['s'], ['t']⟩, ["/a".toList], "/b".toList⟩

def sampleScan : List UploadPathsEvent :=
  [.classified (.ok (.file 3)), .look, .scan (.metadata (.ok (.file 3))), .look]

end FluxTerm.Sftp
