import FluxTerm.Lib.Report
import FluxTerm.Sftp.DownloadFaithful
import FluxTerm.Sftp.Progress

/-!
# FluxTerm — `sftp_download`

The download of one file, as a machine around the windowed download (`pipelineStep`).
-/

namespace FluxTerm.Sftp

open FluxTerm.Engine FluxTerm.Lib

/-! ## One file -/

/-- Where `download_remote_file_to_local_pipelined` is. -/
inductive FileDownload where
  | openRemote
  | fstat
  | createLocal (expectedSize : Option ℕ)
  | head (expectedSize : Option ℕ) (loop : DownloadLoop)
  | waiting (expectedSize : Option ℕ) (loop : DownloadLoop)

inductive FileDownloadEvent where
  | remoteOpened (fault : Option String)
  | fileSize (size : Option ℕ)
  | localCreated (fault : Option String)
  | look
  | turn (event : PipelineEvent)

/-- What a step comes to, with the totals reported by `on_event(Progress(..))`. -/
inductive FileDownloadTurn where
  | on (file : FileDownload) (progress : List ℕ)
  | ended (result : Except EngineError ℕ) (progress : List ℕ)

def newProgress (before after : DownloadLoop) : List ℕ :=
  progressValues (after.effects.drop before.effects.length)

def fileDownloadTurn (chunk : ChunkSize) (expectedSize : Option ℕ) (loop : DownloadLoop)
    (event : PipelineEvent) : Option FileDownloadTurn :=
  (pipelineStep chunk expectedSize (.looping loop) event).map fun
    | .looping after => .on (.head expectedSize after) (newProgress loop after)
    | .returned after result => .ended result (newProgress loop after)

/-- One step of `download_remote_file_to_local_pipelined`. -/
def fileDownloadStep (chunk : ChunkSize) (cancelled : Bool) (file : FileDownload)
    (event : FileDownloadEvent) : Option FileDownloadTurn :=
  match file, event with
  | .openRemote, .remoteOpened (some detail) =>
    some (.ended (.error (.withDetail sftpDownloadFailedCode "Failed to open the remote file"
      detail)) [])
  | .openRemote, .remoteOpened none => some (.on .fstat [])
  | .fstat, .fileSize size => some (.on (.createLocal size) [])
  | .createLocal _, .localCreated (some detail) =>
    some (.ended (.error (.withDetail sftpDownloadFailedCode "Failed to create the local file"
      detail)) [])
  | .createLocal size, .localCreated none => some (.on (.head size .start) [])
  | .head size loop, .look =>
    if cancelled then fileDownloadTurn chunk size loop .cancelled
    else some (.on (.waiting size loop) [])
  | .waiting size loop, .turn event =>
    if event = .cancelled then none else fileDownloadTurn chunk size loop event
  | _, _ => none

theorem exists_pipelineStep (chunk : ChunkSize) (expectedSize : Option ℕ) (loop : DownloadLoop) :
    ∃ event, event ≠ .cancelled ∧
      (pipelineStep chunk expectedSize (.looping loop) event).isSome = true := by
  cases hempty : (fillWindow chunk loop).inFlight with
  | nil =>
    refine ⟨.drained none, (fun h => by cases h), ?_⟩
    simp [pipelineStep, hempty]
  | cons request rest =>
    refine ⟨.completed 0 .eof none, (fun h => by cases h), ?_⟩
    simp only [pipelineStep, hempty, List.getElem?_cons_zero, readChunk]
    split <;> rfl

theorem exists_fileDownloadTurn (chunk : ChunkSize) (expectedSize : Option ℕ)
    (loop : DownloadLoop) :
    ∃ event turn, event ≠ .cancelled ∧
      fileDownloadTurn chunk expectedSize loop event = some turn := by
  obtain ⟨event, hne, hsome⟩ := exists_pipelineStep chunk expectedSize loop
  obtain ⟨s, hs⟩ := Option.isSome_iff_exists.mp hsome
  unfold fileDownloadTurn
  refine ⟨event, ?_⟩
  rw [hs]
  exact ⟨_, hne, rfl⟩

theorem exists_fileDownloadStep (chunk : ChunkSize) (cancelled : Bool) (file : FileDownload) :
    ∃ event turn, fileDownloadStep chunk cancelled file event = some turn := by
  cases file with
  | openRemote => exact ⟨.remoteOpened none, _, rfl⟩
  | fstat => exact ⟨.fileSize none, _, rfl⟩
  | createLocal size => exact ⟨.localCreated none, _, rfl⟩
  | head size loop =>
    cases cancelled with
    | true => exact ⟨.look, _, rfl⟩
    | false => exact ⟨.look, _, rfl⟩
  | waiting size loop =>
    obtain ⟨event, turn, hne, hturn⟩ := exists_fileDownloadTurn chunk size loop
    exact ⟨.turn event, turn, (if_neg hne).trans hturn⟩

/-! ## The local path -/

/-- `Path::file_stem` and `Path::extension` of a file name. -/
def splitExtension (name : Text) : Text × Option Text :=
  if name = ['.', '.'] then (name, none)
  else
    match rsplitOnce '.' name with
    | none => (name, none)
    | some (stem, extension) => if stem = [] then (name, none) else (stem, some extension)

/-- `Path::parent` or else the empty path, with its components written with one separator each.
A root has no parent. -/
def parentPath (path : Text) : Text :=
  let names := (pieces path).filter (· ≠ ['.'])
  if names = [] then []
  else (if isAbs path then [sep] else []) ++ [sep].intercalate names.dropLast

/-- The candidates of `resolve_available_local_path`, in its order: the path itself, and then the
path with a number. -/
def availablePath (path : Text) : ℕ → Text
  | 0 => path
  | index + 1 =>
    let number := (" (" ++ toString (index + 1) ++ ")").toList
    match fileName path with
    | none => push (parentPath path) ("download".toList ++ number)
    | some name =>
      match splitExtension name with
      | (stem, some extension) => push (parentPath path) (stem ++ number ++ '.' :: extension)
      | (_, none) => push (parentPath path) (name ++ number)

/-! ## `sftp_download` -/

/-- The arguments of `sftp_download`. -/
structure DownloadArgs where
  identity : SftpConnectionIdentity
  remotePath : Text
  localPath : Text

/-- `progress_context`, for a remote file of `total` bytes that goes to `target`. -/
def DownloadArgs.progressContext (args : DownloadArgs) (total : Option ℕ) (target : Text) :
    TransferProgressContext where
  sessionId := args.identity.sessionId
  transferId := args.identity.transferId
  op := .download
  kind := .file
  path := args.remotePath
  displayName := fileNameFromPath args.remotePath
  itemLabel := itemsLabel (some 1)
  targetName := some ((fileName target).getD (fileNameFromPath args.remotePath))
  currentItemName := some (fileNameFromPath args.remotePath)
  total
  completedItems := 0
  totalItems := some 1
  failedItems := 0
  status := .running

/-- Where the function is. -/
inductive DownloadPhase where
  /-- `open_raw_sftp`. -/
  | openSftp
  | statRemote (readLimit : Option ℕ)
  /-- `resolve_available_local_path` looks at a candidate. -/
  | resolving (readLimit total : Option ℕ) (index : ℕ)
  | copying (chunk : ChunkSize) (total : Option ℕ) (target : Text) (file : FileDownload)
      (transferred : ℕ)
  | removing (total : Option ℕ) (target : Text) (transferred : ℕ) (err : EngineError)
  | returned (result : Except EngineError Unit)

structure DownloadJob where
  phase : DownloadPhase
  cancelFlag : Bool
  events : List SftpProgress

inductive DownloadJobEvent where
  | cancel
  /-- `open_raw_sftp`: the read limit of the server. -/
  | sftpOpened (result : Except EngineError (Option ℕ))
  | remoteStat (size : Option ℕ)
  /-- `tokio::fs::metadata` of a candidate succeeds: there is something there. -/
  | candidate (taken : Bool)
  | copy (event : FileDownloadEvent)
  | removed

namespace DownloadJob

variable (job : DownloadJob)

def goTo (phase : DownloadPhase) : DownloadJob := { job with phase }

def finish (result : Except EngineError Unit) : DownloadJob := job.goTo (.returned result)

def emit (progress : List SftpProgress) : DownloadJob :=
  { job with events := job.events ++ progress }

end DownloadJob

/-- What the function makes of a step of the file download. -/
def DownloadArgs.turn (args : DownloadArgs) (chunk : ChunkSize) (total : Option ℕ) (target : Text)
    (transferred : ℕ) (job : DownloadJob) : FileDownloadTurn → DownloadJob
  | .on file progress =>
    (job.emit (progress.map (emitTransferProgress (args.progressContext total target)))).goTo
      (.copying chunk total target file (progress.getLastD transferred))
  | .ended (.ok _) progress =>
    let context := args.progressContext total target
    (job.emit (progress.map (emitTransferProgress context) ++
      [emitTransferProgress { context with completedItems := 1, status := .success }
        (progress.getLastD transferred)])).finish (.ok ())
  | .ended (.error err) progress =>
    (job.emit (progress.map (emitTransferProgress (args.progressContext total target)))).goTo
      (.removing total target (progress.getLastD transferred) err)

/-- One step of `sftp_download`. -/
def sftpDownloadStep (args : DownloadArgs) (job : DownloadJob) (event : DownloadJobEvent) :
    Option DownloadJob :=
  match job.phase, event with
  | _, .cancel => if job.cancelFlag then none else some { job with cancelFlag := true }
  | .openSftp, .sftpOpened (.error err) => some (job.finish (.error err))
  | .openSftp, .sftpOpened (.ok readLimit) => some (job.goTo (.statRemote readLimit))
  | .statRemote readLimit, .remoteStat total => some (job.goTo (.resolving readLimit total 0))
  | .resolving readLimit total index, .candidate true =>
    some (job.goTo (.resolving readLimit total (index + 1)))
  | .resolving readLimit total index, .candidate false =>
    let target := availablePath args.localPath index
    some ((job.emit [emitTransferProgress (args.progressContext total target) 0]).goTo
      (.copying (downloadChunkSize readLimit) total target .openRemote 0))
  | .copying chunk total target file transferred, .copy event =>
    (fileDownloadStep chunk job.cancelFlag file event).map
      (args.turn chunk total target transferred job)
  | .removing total target transferred err, .removed =>
    let context := args.progressContext total target
    if err.code = "sftp_transfer_cancelled" then
      some ((job.emit [emitCancelledProgress context transferred]).finish (.ok ()))
    else
      some ((job.emit [emitTransferProgress { context with failedItems := 1, status := .failed }
        transferred]).finish (.error err))
  | _, _ => none

/-- `sftp_download` as a machine. -/
def sftpDownload (args : DownloadArgs) : Machine DownloadJob DownloadJobEvent :=
  .ofStep ⟨.openSftp, false, []⟩ (sftpDownloadStep args)

/-! ## The log -/

def DownloadPhase.phase : DownloadPhase → Phase
  | openSftp | statRemote _ | resolving .. => .quiet
  | copying .. | removing .. => .live
  | returned _ => .ended

variable {args : DownloadArgs} {job job' : DownloadJob} {event : DownloadJobEvent}

/-- The step from one download to the next. -/
def DownloadJob.AdvancesTo (args : DownloadArgs) (job job' : DownloadJob) : Prop :=
  Advances (SftpProgress.IsOf args.identity) SftpProgress.isFinal job.phase.phase job'.phase.phase
    job.events job'.events

theorem map_progress_reports (args : DownloadArgs) (total : Option ℕ) (target : Text) (progress : List ℕ) :
    (∀ e ∈ progress.map (emitTransferProgress (args.progressContext total target)),
      e.isFinal = false) ∧
    ∀ e ∈ progress.map (emitTransferProgress (args.progressContext total target)),
      e.IsOf args.identity := by
  refine ⟨fun e he => ?_, fun e he => ?_⟩
  · obtain ⟨transferred, -, rfl⟩ := List.mem_map.mp he
    rfl
  · obtain ⟨transferred, -, rfl⟩ := List.mem_map.mp he
    exact ⟨rfl, rfl⟩

theorem download_turn_advances {chunk : ChunkSize} {total : Option ℕ} {target : Text}
    {file : FileDownload} {transferred : ℕ} (turn : FileDownloadTurn)
    (hphase : job.phase = .copying chunk total target file transferred) :
    job.AdvancesTo args (args.turn chunk total target transferred job turn) := by
  unfold DownloadJob.AdvancesTo
  rw [hphase]
  cases turn with
  | on file' progress =>
    obtain ⟨hreports, hown⟩ := map_progress_reports args total target progress
    exact .reports hreports hown
  | ended result progress =>
    obtain ⟨hreports, hown⟩ := map_progress_reports args total target progress
    cases result with
    | ok count => exact .closeAfter hreports rfl hown ⟨rfl, rfl⟩
    | error err => exact .reports hreports hown

theorem sftpDownloadStep_advances (h : sftpDownloadStep args job event = some job') :
    job.AdvancesTo args job' := by
  unfold sftpDownloadStep at h
  split at h
  · -- `cancel`
    split at h <;> cases h
    exact .silent
  · rename_i hphase
    cases h
    unfold DownloadJob.AdvancesTo
    rw [hphase]
    exact .giveUp
  · rename_i hphase
    cases h
    unfold DownloadJob.AdvancesTo
    rw [hphase]
    exact .silent
  · rename_i hphase
    cases h
    unfold DownloadJob.AdvancesTo
    rw [hphase]
    exact .silent
  · rename_i hphase
    cases h
    unfold DownloadJob.AdvancesTo
    rw [hphase]
    exact .silent
  · -- the transfer starts
    rename_i hphase
    cases h
    unfold DownloadJob.AdvancesTo
    rw [hphase]
    exact .first rfl ⟨rfl, rfl⟩
  · rename_i hphase
    obtain ⟨turn, -, rfl⟩ := Option.map_eq_some_iff.mp h
    exact download_turn_advances turn hphase
  · -- the end of a transfer that has failed
    rename_i hphase
    unfold DownloadJob.AdvancesTo
    rw [hphase]
    dsimp only at h
    split at h
    · cases h
      exact .close rfl ⟨rfl, rfl⟩
    · cases h
      exact .close rfl ⟨rfl, rfl⟩
  · cases h

/-- **The log of a download.** It reports until its last event, whatever fails. -/
theorem sftpDownload_reports (args : DownloadArgs) :
    Reports (sftpDownload args) DownloadJob.events (SftpProgress.IsOf args.identity)
      SftpProgress.isFinal fun job => job.phase.phase where
  init := by
    rintro _ rfl
    exact ⟨nofun, rfl⟩
  step _ _ _ _ hstep := sftpDownloadStep_advances hstep

theorem exists_sftpDownloadStep (args : DownloadArgs) (job : DownloadJob)
    (hphase : job.phase.phase ≠ .ended) :
    ∃ event job', event ≠ .cancel ∧ sftpDownloadStep args job event = some job' := by
  obtain ⟨phase, cancelFlag, events⟩ := job
  cases phase with
  | openSftp => exact ⟨.sftpOpened (.ok none), _, nofun, rfl⟩
  | statRemote readLimit => exact ⟨.remoteStat none, _, nofun, rfl⟩
  | resolving readLimit total index => exact ⟨.candidate false, _, nofun, rfl⟩
  | copying chunk total target file transferred =>
    obtain ⟨event, turn, hturn⟩ := exists_fileDownloadStep chunk cancelFlag file
    have hstep : sftpDownloadStep args
        ⟨.copying chunk total target file transferred, cancelFlag, events⟩ (.copy event) =
        some (args.turn chunk total target transferred
          ⟨.copying chunk total target file transferred, cancelFlag, events⟩ turn) := by
      show (fileDownloadStep chunk cancelFlag file event).map _ = _
      rw [hturn]
      rfl
    exact ⟨.copy event, _, nofun, hstep⟩
  | removing total target transferred err =>
    by_cases hcode : err.code = "sftp_transfer_cancelled"
    · exact ⟨.removed, _, nofun, if_pos hcode⟩
    · exact ⟨.removed, _, nofun, if_neg hcode⟩
  | returned result => exact absurd rfl hphase

end FluxTerm.Sftp
