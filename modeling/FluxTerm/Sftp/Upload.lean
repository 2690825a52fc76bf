import FluxTerm.Lib.Report
import FluxTerm.Sftp.Progress
import FluxTerm.Sftp.UploadLoop

/-!
# FluxTerm — `sftp_upload`

The upload of one file, as a machine: each step is one thing the function waits for, and the cancel
flag may be set at any time.
-/

namespace FluxTerm.Sftp

open FluxTerm.Engine FluxTerm.Lib

/-- The arguments of `sftp_upload`. -/
structure UploadArgs where
  identity : SftpConnectionIdentity
  localPath : Text
  remotePath : Text

/-- `progress_context`, for a local file of `total` bytes. -/
def UploadArgs.progressContext (args : UploadArgs) (total : Option ℕ) :
    TransferProgressContext where
  sessionId := args.identity.sessionId
  transferId := args.identity.transferId
  op := .upload
  kind := .file
  path := args.remotePath
  displayName := fileNameFromPath args.localPath
  itemLabel := itemsLabel (some 1)
  targetName := some (fileNameFromPath args.remotePath)
  currentItemName := some (fileNameFromPath args.localPath)
  total
  completedItems := 0
  totalItems := some 1
  failedItems := 0
  status := .running

/-- Where the function is. -/
inductive UploadPhase where
  /-- `open_raw_sftp`. -/
  | openSftp
  | openLocal (writeLimit : Option ℕ)
  /-- `local.metadata`. -/
  | readMetadata (writeLimit : Option ℕ)
  /-- The transfer has started; `sftp.open` comes next. -/
  | openRemote (writeLimit total : Option ℕ)
  | copying (writeLimit total : Option ℕ) (loop : UploadLoop)
  | returned (result : Except EngineError Unit)

structure UploadJob where
  phase : UploadPhase
  cancelFlag : Bool
  events : List SftpProgress

inductive UploadJobEvent where
  | cancel
  /-- `open_raw_sftp`: the write limit of the server. -/
  | sftpOpened (result : Except EngineError (Option ℕ))
  | localOpened (fault : Option String)
  | metadata (len : Option ℕ)
  | remoteOpened (fault : Option String)
  | copy (event : UploadEvent)

namespace UploadJob

variable (job : UploadJob)

def goTo (phase : UploadPhase) : UploadJob := { job with phase }

def finish (result : Except EngineError Unit) : UploadJob := job.goTo (.returned result)

def emit (progress : SftpProgress) : UploadJob := { job with events := job.events ++ [progress] }

end UploadJob

/-- What the function makes of a step of its loop. -/
def UploadArgs.turn (args : UploadArgs) (writeLimit total : Option ℕ) (job : UploadJob) :
    UploadTurn → UploadJob
  | .on loop none => job.goTo (.copying writeLimit total loop)
  | .on loop (some transferred) =>
    (job.emit (emitTransferProgress (args.progressContext total) transferred)).goTo
      (.copying writeLimit total loop)
  | .cancelled transferred =>
    (job.emit (emitCancelledProgress (args.progressContext total) transferred)).finish (.ok ())
  -- the log gets a line, the user interface gets nothing
  | .failed err => job.finish (.error err)
  | .finished transferred =>
    (job.emit (emitTransferProgress { args.progressContext total with
      completedItems := 1
      status := .success } transferred)).finish (.ok ())

/-- One step of `sftp_upload`. -/
def sftpUploadStep (args : UploadArgs) (job : UploadJob) (event : UploadJobEvent) :
    Option UploadJob :=
  match job.phase, event with
  | _, .cancel => if job.cancelFlag then none else some { job with cancelFlag := true }
  | .openSftp, .sftpOpened (.error err) => some (job.finish (.error err))
  | .openSftp, .sftpOpened (.ok writeLimit) => some (job.goTo (.openLocal writeLimit))
  | .openLocal _, .localOpened (some detail) =>
    some (job.finish (.error (.withDetail sftpUploadFailedCode "Failed to read the local file"
      detail)))
  | .openLocal writeLimit, .localOpened none => some (job.goTo (.readMetadata writeLimit))
  | .readMetadata writeLimit, .metadata total =>
    some ((job.emit (emitTransferProgress (args.progressContext total) 0)).goTo
      (.openRemote writeLimit total))
  | .openRemote _ _, .remoteOpened (some detail) =>
    some (job.finish (.error (.withDetail sftpUploadFailedCode "Failed to create the remote file"
      detail)))
  | .openRemote writeLimit total, .remoteOpened none =>
    some (job.goTo (.copying writeLimit total .start))
  | .copying writeLimit total loop, .copy event =>
    (uploadStep (uploadChunkSize writeLimit) job.cancelFlag loop event).map
      (args.turn writeLimit total job)
  | _, _ => none

/-- `sftp_upload` as a machine. -/
def sftpUpload (args : UploadArgs) : Machine UploadJob UploadJobEvent :=
  .ofStep ⟨.openSftp, false, []⟩ (sftpUploadStep args)

/-! ## The log -/

def UploadJob.IsGood (job : UploadJob) : UploadJobEvent → Prop
  | .remoteOpened (some _) => False
  | .copy event =>
    match job.phase with
    | .copying _ _ loop => event.IsGood job.cancelFlag loop
    | _ => True
  | _ => True

instance (job : UploadJob) (event : UploadJobEvent) : Decidable (job.IsGood event) := by
  unfold UploadJob.IsGood
  split
  · infer_instance
  · split <;> infer_instance
  · infer_instance

def UploadPhase.phase : UploadPhase → Phase
  | openSftp | openLocal _ | readMetadata _ => .quiet
  | openRemote .. | copying .. => .live
  | returned _ => .ended

variable {args : UploadArgs} {job job' : UploadJob} {event : UploadJobEvent}

/-- The step from one upload to the next. -/
def UploadJob.AdvancesTo (args : UploadArgs) (job job' : UploadJob) : Prop :=
  Advances (SftpProgress.IsOf args.identity) SftpProgress.isFinal job.phase.phase job'.phase.phase
    job.events job'.events

theorem turn_advances {writeLimit total : Option ℕ} {loop : UploadLoop} {turn : UploadTurn}
    (hphase : job.phase = .copying writeLimit total loop) (hturn : ∀ err, turn ≠ .failed err) :
    job.AdvancesTo args (args.turn writeLimit total job turn) := by
  unfold UploadJob.AdvancesTo
  rw [hphase]
  cases turn with
  | on loop' progress =>
    cases progress with
    | none => exact .silent
    | some transferred => exact .report rfl ⟨rfl, rfl⟩
  | cancelled transferred => exact .close rfl ⟨rfl, rfl⟩
  | failed err => exact absurd rfl (hturn err)
  | finished transferred => exact .close rfl ⟨rfl, rfl⟩

theorem sftpUploadStep_advances (hgood : job.IsGood event)
    (h : sftpUploadStep args job event = some job') : job.AdvancesTo args job' := by
  unfold sftpUploadStep at h
  split at h
  · -- `cancel`
    split at h <;> cases h
    exact .silent
  · rename_i hphase
    cases h
    unfold UploadJob.AdvancesTo
    rw [hphase]
    exact .giveUp
  · rename_i hphase
    cases h
    unfold UploadJob.AdvancesTo
    rw [hphase]
    exact .silent
  · rename_i hphase
    cases h
    unfold UploadJob.AdvancesTo
    rw [hphase]
    exact .giveUp
  · rename_i hphase
    cases h
    unfold UploadJob.AdvancesTo
    rw [hphase]
    exact .silent
  · -- the transfer starts
    rename_i hphase
    cases h
    unfold UploadJob.AdvancesTo
    rw [hphase]
    exact .first rfl ⟨rfl, rfl⟩
  · exact hgood.elim
  · rename_i hphase
    cases h
    unfold UploadJob.AdvancesTo
    rw [hphase]
    exact .silent
  · -- the loop
    rename_i event hphase
    obtain ⟨turn, hturn, rfl⟩ := Option.map_eq_some_iff.mp h
    refine turn_advances hphase fun err herr => (uploadStep_failed_iff hturn).mp ⟨err, herr⟩ ?_
    unfold UploadJob.IsGood at hgood
    rw [hphase] at hgood
    exact hgood
  · cases h

/-- **The log of an upload.** While no operation fails, the upload reports until its last event. -/
theorem sftpUpload_reports (args : UploadArgs) :
    Reports ((sftpUpload args).restrict UploadJob.IsGood) UploadJob.events
      (SftpProgress.IsOf args.identity) SftpProgress.isFinal fun job => job.phase.phase where
  init := by
    rintro _ rfl
    exact ⟨nofun, rfl⟩
  step _ _ _ _ hstep := sftpUploadStep_advances hstep.1 hstep.2

theorem sftpUploadStep_bad (hbad : ¬job.IsGood event)
    (h : sftpUploadStep args job event = some job') :
    job.phase.phase = .live ∧ job'.phase.phase = .ended ∧ job'.events = job.events := by
  unfold sftpUploadStep at h
  split at h
  · exact absurd trivial hbad
  · exact absurd trivial hbad
  · exact absurd trivial hbad
  · exact absurd trivial hbad
  · exact absurd trivial hbad
  · exact absurd trivial hbad
  · -- the remote file cannot be opened
    rename_i hphase
    cases h
    rw [hphase]
    exact ⟨rfl, rfl, rfl⟩
  · exact absurd trivial hbad
  · -- the loop
    rename_i event hphase
    obtain ⟨turn, hturn, rfl⟩ := Option.map_eq_some_iff.mp h
    unfold UploadJob.IsGood at hbad
    rw [hphase] at hbad
    obtain ⟨err, rfl⟩ := (uploadStep_failed_iff hturn).mpr hbad
    rw [hphase]
    exact ⟨rfl, rfl, rfl⟩
  · cases h

theorem sftpUploadStep_over (hphase : job.phase.phase = .ended)
    (h : sftpUploadStep args job event = some job') :
    job'.phase.phase = .ended ∧ job'.events = job.events := by
  unfold sftpUploadStep at h
  split at h
  · split at h <;> cases h
    exact ⟨hphase, rfl⟩
  -- the other steps leave a phase that is not over
  all_goals first
    | cases h
      done
    | rename_i hother
      rw [hother] at hphase
      cases hphase

def UploadJob.LeftOpen (job : UploadJob) : Prop :=
  job.phase.phase = .ended ∧ job.events ≠ [] ∧ ∀ e ∈ job.events, e.isFinal = false

/-- **Good steps or an open log.** A state is reached by good steps alone, or something has failed
in a started upload and nothing was reported about it. -/
theorem sftpUpload_good_or_leftOpen (h : (sftpUpload args).Reachable job) :
    ((sftpUpload args).restrict UploadJob.IsGood).Reachable job ∨ job.LeftOpen := by
  induction h with
  | init h => exact .inl (.init h)
  | @step job job' event _ hstep ih =>
    rcases ih with hgood | ⟨hover, hne, hreports⟩
    · by_cases hevent : job.IsGood event
      · exact .inl (.step hgood ⟨hevent, hstep⟩)
      · -- the log is what it was while the upload was live
        obtain ⟨hlive, hover, hevents⟩ := sftpUploadStep_bad hevent hstep
        have hspec := (sftpUpload_reports args).log_spec hgood
        rw [hlive] at hspec
        right
        unfold UploadJob.LeftOpen
        rw [hevents]
        exact ⟨hover, hspec⟩
    · obtain ⟨hover', hevents⟩ := sftpUploadStep_over hover hstep
      right
      unfold UploadJob.LeftOpen
      rw [hevents]
      exact ⟨hover', hne, hreports⟩

theorem exists_sftpUploadStep (args : UploadArgs) (job : UploadJob)
    (hphase : job.phase.phase ≠ .ended) :
    ∃ event job', job.IsGood event ∧ event ≠ .cancel ∧
      sftpUploadStep args job event = some job' := by
  obtain ⟨phase, cancelFlag, events⟩ := job
  cases phase with
  | openSftp => exact ⟨.sftpOpened (.ok none), _, trivial, nofun, rfl⟩
  | openLocal writeLimit => exact ⟨.localOpened none, _, trivial, nofun, rfl⟩
  | readMetadata writeLimit => exact ⟨.metadata none, _, trivial, nofun, rfl⟩
  | openRemote writeLimit total => exact ⟨.remoteOpened none, _, trivial, nofun, rfl⟩
  | copying writeLimit total loop =>
    obtain ⟨event, turn, hgood, hturn⟩ :=
      exists_uploadStep (uploadChunkSize writeLimit) cancelFlag loop
    refine ⟨.copy event, args.turn writeLimit total
      ⟨.copying writeLimit total loop, cancelFlag, events⟩ turn, hgood, nofun, ?_⟩
    show (uploadStep _ cancelFlag loop event).map _ = _
    rw [hturn]
    rfl
  | returned result => exact absurd rfl hphase

end FluxTerm.Sftp
