import FluxTerm.Sftp.DownloadDir
import FluxTerm.Sftp.LocalPlace

/-!
# FluxTerm — what downloads do to the local file system

The accesses of `sftp_download` and `sftp_download_dir` to local paths, read off their steps.
-/

namespace FluxTerm.Sftp

open FluxTerm.Lib

/-! ## Accesses -/

inductive LocalOp where
  /-- `tokio::fs::metadata` of a candidate, and whether it succeeds. -/
  | probe (path : Text) (taken : Bool)
  /-- `create_dir_all` has succeeded. -/
  | makeDirs (path : Text)
  /-- `File::create` has succeeded. -/
  | create (path : Text)
  /-- `remove_file`. -/
  | remove (path : Text)
deriving DecidableEq

def turnRemoves (chunk : ChunkSize) (expectedSize : Option ℕ) (loop : DownloadLoop)
    (event : PipelineEvent) : Bool :=
  match pipelineStep chunk expectedSize (.looping loop) event with
  | some (.looping after) | some (.returned after _) =>
    (after.effects.drop loop.effects.length).contains .removedLocal
  | none => false

/-- The access of a step of `download_remote_file_to_local_pipelined`. -/
def FileDownload.op (chunk : ChunkSize) (cancelled : Bool) (path : Text) (file : FileDownload)
    (event : FileDownloadEvent) : Option LocalOp :=
  match file, event with
  | .createLocal _, .localCreated none => some (.create path)
  | .head size loop, .look =>
    if cancelled && turnRemoves chunk size loop .cancelled then some (.remove path) else none
  | .waiting size loop, .turn event =>
    if turnRemoves chunk size loop event then some (.remove path) else none
  | _, _ => none

/-- The access of a step of `sftp_download`. -/
def DownloadJob.op (args : DownloadArgs) (job : DownloadJob) (event : DownloadJobEvent) :
    Option LocalOp :=
  match job.phase, event with
  | .resolving _ _ index, .candidate taken =>
    some (.probe (availablePath args.localPath index) taken)
  | .copying chunk _ target file _, .copy event => file.op chunk job.cancelFlag target event
  | .removing _ target _ _, .removed => some (.remove target)
  | _, _ => none

/-- The access of a step of `download_pipeline_worker`. -/
def DownloadWorker.op (cancelled : Bool) (worker : DownloadWorker) (event : DownloadWorkerEvent) :
    Option LocalOp :=
  match worker, event with
  | .makingDir _ localPath, .dirCreated none => some (.makeDirs localPath)
  | .makingParent _ file, .dirCreated none => some (.makeDirs (parentPath file.localPath))
  | .copying readLimit file download _, .copy event =>
    download.op (downloadChunkSize readLimit) cancelled file.localPath event
  | .removing _ file, .removed => some (.remove file.localPath)
  | _, _ => none

/-- The access of a step of `sftp_download_dir`. -/
def DownloadDirJob.op (args : DownloadDirArgs) (job : DownloadDirJob) (event : DownloadDirEvent) :
    Option LocalOp :=
  match job.phase, event with
  | .resolving index, .candidate taken => some (.probe (args.rootPath index) taken)
  | .working _, .worker index event =>
    (job.workers[index]?).bind fun worker => worker.op job.batch.cancelFlag event
  | _, _ => none

/-! ## Downloads of either kind -/

inductive LocalJob where
  | file (args : DownloadArgs) (job : DownloadJob)
  | dir (args : DownloadDirArgs) (job : DownloadDirJob)

inductive LocalJobEvent where
  | file (event : DownloadJobEvent)
  | dir (event : DownloadDirEvent)

/-- The path under way of `sftp_download`. -/
def DownloadJob.target (job : DownloadJob) : Option Text :=
  match job.phase with
  | .copying _ _ target _ _ | .removing _ target _ _ => some target
  | _ => none

/-- `root_path` of `sftp_download_dir`. -/
def DownloadDirJob.target (job : DownloadDirJob) : Option Text :=
  match job.phase with
  | .scanning rootPath _ | .working rootPath => some rootPath
  | _ => none

namespace LocalJob

def requested : LocalJob → Text
  | file args _ => args.localPath
  | dir args _ => push args.localDir args.rootName

def isDir : LocalJob → Bool
  | file _ _ => false
  | dir _ _ => true

def target : LocalJob → Option Text
  | file _ job => job.target
  | dir _ job => job.target

def isNew : LocalJob → Prop
  | file _ job => job = ⟨.openSftp, false, []⟩
  | dir _ job => job = .start

def next : LocalJob → LocalJobEvent → Option LocalJob
  | file args job, .file event => (sftpDownloadStep args job event).map (.file args)
  | dir args job, .dir event => (sftpDownloadDirStep args job event).map (.dir args)
  | _, _ => none

def op : LocalJob → LocalJobEvent → Option LocalOp
  | file args job, .file event => job.op args event
  | dir args job, .dir event => job.op args event
  | _, _ => none

end LocalJob

/-- A directory download takes a root beside the other candidates, and every entry of a listing
leads into the root. -/
def LocalJob.KeepsInside (job : LocalJob) (event : LocalJobEvent) : Prop :=
  match job, event with
  | .dir args job, .dir event =>
    match job.phase, event with
    | .resolving index, .candidate false => Sibling (push args.localDir args.rootName) index
    | .scanning rootPath (.listing relativeDir _), .scan (.listed (.ok entries)) =>
      ∀ entry ∈ entries, dotName entry.name = false →
        ReEnters (isAbs rootPath) (comps rootPath) (comps (nextRelative relativeDir entry.name))
    | _, _ => True
  | _, _ => True

instance (job : LocalJob) (event : LocalJobEvent) : Decidable (job.KeepsInside event) := by
  unfold LocalJob.KeepsInside
  split
  · split <;> infer_instance
  · infer_instance

/-! ## File downloads -/

theorem FileDownload.op_cases {chunk : ChunkSize} {cancelled : Bool} {path : Text}
    {file : FileDownload} {event : FileDownloadEvent} {op : LocalOp}
    (h : file.op chunk cancelled path event = some op) : op = .create path ∨ op = .remove path := by
  unfold FileDownload.op at h
  split at h
  · cases h
    exact .inl rfl
  · split at h <;> cases h
    exact .inr rfl
  · split at h <;> cases h
    exact .inr rfl
  · cases h

theorem sftpDownloadStep_target {args : DownloadArgs} {job job' : DownloadJob}
    {event : DownloadJobEvent} (h : sftpDownloadStep args job event = some job') {target : Text}
    (htarget : job'.target = some target) :
    job.target = some target ∨ job.op args event = some (.probe target false) := by
  unfold sftpDownloadStep at h
  unfold DownloadJob.target DownloadJob.op
  split at h
  · split at h <;> cases h
    exact .inl htarget
  · cases h
    cases htarget
  · cases h
    cases htarget
  · cases h
    cases htarget
  · cases h
    cases htarget
  · -- the candidate is taken
    rename_i readLimit total index hphase
    cases h
    cases htarget
    rw [hphase]
    exact .inr rfl
  · rename_i hphase
    obtain ⟨turn, -, rfl⟩ := Option.map_eq_some_iff.mp h
    rw [hphase]
    left
    cases turn with
    | on file progress => exact htarget
    | ended result progress =>
      cases result with
      | ok count => cases htarget
      | error err => exact htarget
  · dsimp only at h
    split at h
    · cases h
      cases htarget
    · cases h
      cases htarget
  · cases h

theorem DownloadJob.op_target {args : DownloadArgs} {job : DownloadJob} {event : DownloadJobEvent}
    {path : Text} (h : job.op args event = some (.create path) ∨
      job.op args event = some (.remove path)) : job.target = some path := by
  unfold DownloadJob.op at h
  unfold DownloadJob.target
  split at h
  · rcases h with h | h <;> cases h
  · rename_i hphase
    rw [hphase]
    rcases h with h | h
    · rcases FileDownload.op_cases h with hop | hop <;> cases hop
      rfl
    · rcases FileDownload.op_cases h with hop | hop <;> cases hop
      rfl
  · rename_i hphase
    rw [hphase]
    rcases h with h | h <;> cases h
    rfl
  · rcases h with h | h <;> cases h

/-! ## Directory downloads -/

def DirScan.calls : DirScan → List ScanCall
  | enter _ calls | listing _ calls | entries calls => calls

/-- The entries left lead into the root. -/
def DirScan.Fits (root : Text) (scan : DirScan) : Prop :=
  ∀ call ∈ scan.calls, ∀ entry ∈ call.entries,
    ReEnters (isAbs root) (comps root) (comps (nextRelative call.relativeDir entry.name))

def DownloadWorker.localPath : DownloadWorker → Option Text
  | makingDir _ localPath => some localPath
  | makingParent _ file | copying _ file _ _ | removing _ file => some file.localPath
  | opening | head _ | receiving _ | returned _ => none

/-- All paths of the download are in the root. -/
structure DownloadDirJob.Inside (root : Text) (job : DownloadDirJob) : Prop where
  scan : ∀ scan, job.phase = .scanning root scan → scan.Fits root
  queue : ∀ task ∈ job.queue, Confined root task.localPath
  workers : ∀ worker ∈ job.workers, ∀ path, worker.localPath = some path → Confined root path

theorem dirScanStep_fits {ctx : ScanContext} {cancelled : Bool} {scan scan' : DirScan}
    {event : DirScanEvent} {changes : List ItemUpdate} {task : Option DownloadPipelineTask}
    (hfits : scan.Fits ctx.localRoot)
    (hlisted : ∀ relativeDir calls entries, scan = .listing relativeDir calls →
      event = .listed (.ok entries) → ∀ entry ∈ entries, dotName entry.name = false →
      ReEnters (isAbs ctx.localRoot) (comps ctx.localRoot)
        (comps (nextRelative relativeDir entry.name)))
    (h : dirScanStep ctx cancelled scan event = some (.on scan' changes task)) :
    scan'.Fits ctx.localRoot ∧ ∀ t ∈ task, Confined ctx.localRoot t.localPath := by
  unfold dirScanStep at h
  split at h
  · cases h
    refine ⟨?_, nofun⟩
    split
    · exact hfits
    · exact hfits
  · cases h
  · -- the directory is listed
    cases h
    refine ⟨fun call hcall entry hentry => ?_, nofun⟩
    rcases List.mem_cons.mp hcall with rfl | hcall
    · obtain ⟨hentry, hdot⟩ := List.mem_filter.mp hentry
      exact hlisted _ _ _ rfl rfl entry hentry (by simpa using hdot)
    · exact hfits call hcall entry hentry
  · cases h
  · cases h
    exact ⟨fun call hcall => hfits call (List.mem_cons_of_mem _ hcall), nofun⟩
  · -- an entry
    split at h
    · cases h
      exact ⟨fun call hcall => hfits call (List.mem_cons_of_mem _ hcall), nofun⟩
    · rename_i relativeDir entry entries calls _
      have hentry := hfits ⟨relativeDir, entry :: entries⟩ List.mem_cons_self entry
        List.mem_cons_self
      have hconfined := (confined_nextLocal ctx.localRoot relativeDir entry.name).mpr hentry
      have hrest : ∀ call ∈ ⟨relativeDir, entries⟩ :: calls, ∀ entry ∈ call.entries,
          ReEnters (isAbs ctx.localRoot) (comps ctx.localRoot)
            (comps (nextRelative call.relativeDir entry.name)) := by
        intro call hcall other hother
        rcases List.mem_cons.mp hcall with rfl | hcall
        · exact hfits ⟨relativeDir, entry :: entries⟩ List.mem_cons_self other
            (List.mem_cons_of_mem _ hother)
        · exact hfits call (List.mem_cons_of_mem _ hcall) other hother
      have h := Option.some.inj h
      unfold dirEntryTurn at h
      dsimp only at h
      split at h
      · cases h
        exact ⟨hrest, fun t ht => Option.mem_some_iff.mp ht ▸ hconfined⟩
      · cases h
        exact ⟨hrest, fun t ht => Option.mem_some_iff.mp ht ▸ hconfined⟩
  · cases h

theorem downloadWorkerStep_path {cancelled : Bool} {queue : List DownloadPipelineTask}
    {worker : DownloadWorker} {event : DownloadWorkerEvent} {turn : DownloadWorkerTurn}
    (h : downloadWorkerStep cancelled queue worker event = some turn) :
    turn.queue ⊆ queue ∧ ∀ path, turn.worker.localPath = some path →
      worker.localPath = some path ∨ ∃ task ∈ queue, task.localPath = path := by
  unfold downloadWorkerStep at h
  split at h
  · cases h
    exact ⟨List.Subset.refl _, nofun⟩
  · cases h
    exact ⟨List.Subset.refl _, nofun⟩
  · cases h
    refine ⟨List.Subset.refl _, fun path hpath => ?_⟩
    dsimp only at hpath
    split at hpath <;> cases hpath
  · -- the next task
    have h := Option.some.inj h
    unfold downloadReceive at h
    split at h
    · cases h
      exact ⟨List.Subset.refl _, nofun⟩
    · cases h
      refine ⟨List.subset_cons_self _ _, fun path hpath => .inr ?_⟩
      cases hpath
      exact ⟨_, List.mem_cons_self, rfl⟩
    · cases h
      refine ⟨List.subset_cons_self _ _, fun path hpath => .inr ⟨_, List.mem_cons_self, ?_⟩⟩
      dsimp only [DownloadWorker.startFile] at hpath
      split at hpath <;> exact Option.some.inj hpath
  · cases h
    exact ⟨List.Subset.refl _, nofun⟩
  · cases h
    exact ⟨List.Subset.refl _, nofun⟩
  · cases h
    exact ⟨List.Subset.refl _, fun path hpath => .inl hpath⟩
  · obtain ⟨turn', -, rfl⟩ := Option.map_eq_some_iff.mp h
    cases turn' with
    | on download progress => exact ⟨List.Subset.refl _, fun path hpath => .inl hpath⟩
    | ended result progress =>
      cases result with
      | ok count => exact ⟨List.Subset.refl _, nofun⟩
      | error err =>
        refine ⟨List.Subset.refl _, fun path hpath => .inl ?_⟩
        dsimp only [downloadFileTurn] at hpath
        split at hpath
        · cases hpath
        · exact hpath
  · cases h
    exact ⟨List.Subset.refl _, nofun⟩
  · cases h

theorem sftpDownloadDirStep_target {args : DownloadDirArgs} {job job' : DownloadDirJob}
    {event : DownloadDirEvent} (h : sftpDownloadDirStep args job event = some job') {root : Text}
    (htarget : job'.target = some root) :
    job.target = some root ∨
      ∃ index, job.phase = .resolving index ∧ event = .candidate false ∧
        root = args.rootPath index ∧ job' = job.begin args root := by
  unfold sftpDownloadDirStep at h
  unfold DownloadDirJob.target
  split at h
  · split at h <;> cases h
    exact .inl htarget
  · cases h
    cases htarget
  · cases h
    cases htarget
  · cases h
    cases htarget
  · rename_i index hphase
    cases h
    cases htarget
    exact .inr ⟨index, hphase, rfl, rfl, rfl⟩
  · rename_i hphase
    obtain ⟨turn, -, rfl⟩ := Option.map_eq_some_iff.mp h
    rw [hphase]
    left
    cases turn with
    | on scan changes task => exact htarget
    | ended result =>
      cases result with
      | ok done => exact htarget
      | error err => exact htarget
  · rename_i rootPath index event hphase
    obtain ⟨worker, -, hstep⟩ := Option.bind_eq_some_iff.mp h
    obtain ⟨turn, -, rfl⟩ := Option.map_eq_some_iff.mp hstep
    have htarget : job.target = some root := htarget
    exact .inl htarget
  · split at h <;> cases h
    cases htarget
  · cases h

/-- **A directory download keeps to its root.** -/
theorem DownloadDirJob.Inside.next {args : DownloadDirArgs} {job job' : DownloadDirJob}
    {event : DownloadDirEvent} {root : Text} (h : job.target = some root → job.Inside root)
    (hkeeps : (LocalJob.dir args job).KeepsInside (.dir event))
    (hstep : sftpDownloadDirStep args job event = some job') (htarget : job'.target = some root) :
    job'.Inside root := by
  rcases sftpDownloadDirStep_target hstep htarget with hbefore | ⟨index, -, -, -, rfl⟩
  · have h := h hbefore
    unfold sftpDownloadDirStep at hstep
    split at hstep
    · split at hstep <;> cases hstep
      exact ⟨h.scan, h.queue, h.workers⟩
    · cases hstep
      cases htarget
    · cases hstep
      cases htarget
    · cases hstep
      cases htarget
    · rename_i hphase
      unfold DownloadDirJob.target at hbefore
      rw [hphase] at hbefore
      cases hbefore
    · -- the scan
      rename_i rootPath scan event hphase
      obtain ⟨turn, hturn, rfl⟩ := Option.map_eq_some_iff.mp hstep
      have hroot : rootPath = root := by
        unfold DownloadDirJob.target at hbefore
        rw [hphase] at hbefore
        exact Option.some.inj hbefore
      subst hroot
      cases turn with
      | on scan' changes task =>
        have hlisted : ∀ relativeDir calls entries, scan = .listing relativeDir calls →
            event = .listed (.ok entries) → ∀ entry ∈ entries, dotName entry.name = false →
            ReEnters (isAbs rootPath) (comps rootPath)
              (comps (nextRelative relativeDir entry.name)) := by
          rintro relativeDir calls entries rfl rfl
          unfold LocalJob.KeepsInside at hkeeps
          dsimp only at hkeeps
          rw [hphase] at hkeeps
          exact hkeeps
        obtain ⟨hfits, htask⟩ := dirScanStep_fits (h.scan scan hphase) hlisted hturn
        refine ⟨?_, ?_, h.workers⟩
        · intro other hother
          cases hother
          exact hfits
        · intro t ht
          rcases List.mem_append.mp ht with ht | ht
          · exact h.queue t ht
          · exact htask t (Option.mem_toList.mp ht)
      | ended result =>
        cases result with
        | ok done => exact ⟨nofun, h.queue, h.workers⟩
        | error err => exact ⟨nofun, h.queue, h.workers⟩
    · -- a worker
      rename_i rootPath index event hphase
      obtain ⟨worker, hworker, hstep⟩ := Option.bind_eq_some_iff.mp hstep
      obtain ⟨turn, hturn, rfl⟩ := Option.map_eq_some_iff.mp hstep
      obtain ⟨hqueue, hpath⟩ := downloadWorkerStep_path hturn
      refine ⟨h.scan, fun t ht => h.queue t (hqueue ht), ?_⟩
      intro other hother path hother'
      rcases List.mem_or_eq_of_mem_set hother with hother | rfl
      · exact h.workers other hother path hother'
      · rcases hpath path hother' with hold | ⟨task, htask, rfl⟩
        · exact h.workers worker (List.mem_of_getElem? hworker) path hold
        · exact h.queue task htask
    · split at hstep <;> cases hstep
      cases htarget
    · cases hstep
  · -- the root is chosen
    refine ⟨?_, ?_, ?_⟩
    · intro scan hscan
      cases hscan
      exact List.forall_mem_nil _
    · intro task htask
      rw [List.mem_singleton.mp htask]
      exact ⟨rfl, rfl, List.suffix_rfl⟩
    · intro worker hworker path hpath
      rw [List.eq_of_mem_replicate hworker] at hpath
      cases hpath

theorem DownloadWorker.op_localPath {cancelled : Bool} {worker : DownloadWorker}
    {event : DownloadWorkerEvent} {path : Text}
    (h : worker.op cancelled event = some (.create path) ∨
      worker.op cancelled event = some (.remove path)) : worker.localPath = some path := by
  unfold DownloadWorker.op at h
  split at h
  · rcases h with h | h <;> cases h
  · rcases h with h | h <;> cases h
  · rcases h with h | h
    · rcases FileDownload.op_cases h with hop | hop <;> cases hop
      rfl
    · rcases FileDownload.op_cases h with hop | hop <;> cases hop
      rfl
  · rcases h with h | h <;> cases h
    rfl
  · rcases h with h | h <;> cases h

/-! ## Both kinds -/

def LocalJob.Inside : LocalJob → Prop
  | file _ _ => True
  | dir _ job => ∀ root, job.target = some root → job.Inside root

theorem LocalJob.Inside.next {job job' : LocalJob} {event : LocalJobEvent} (h : job.Inside)
    (hkeeps : job.KeepsInside event) (hnext : job.next event = some job') : job'.Inside := by
  unfold LocalJob.next at hnext
  split at hnext
  · obtain ⟨job', -, rfl⟩ := Option.map_eq_some_iff.mp hnext
    trivial
  · obtain ⟨job', hstep, rfl⟩ := Option.map_eq_some_iff.mp hnext
    intro root htarget
    exact DownloadDirJob.Inside.next (h root) hkeeps hstep htarget
  · cases hnext

theorem LocalJob.next_same {job job' : LocalJob} {event : LocalJobEvent}
    (hnext : job.next event = some job') :
    job'.requested = job.requested ∧ job'.isDir = job.isDir := by
  unfold LocalJob.next at hnext
  split at hnext
  · obtain ⟨job', -, rfl⟩ := Option.map_eq_some_iff.mp hnext
    exact ⟨rfl, rfl⟩
  · obtain ⟨job', -, rfl⟩ := Option.map_eq_some_iff.mp hnext
    exact ⟨rfl, rfl⟩
  · cases hnext

/-- **The chosen path** stays, or a candidate is found free. -/
theorem LocalJob.next_target {job job' : LocalJob} {event : LocalJobEvent} {target : Text}
    (hnext : job.next event = some job') (htarget : job'.target = some target) :
    job.target = some target ∨ job.op event = some (.probe target false) := by
  unfold LocalJob.next at hnext
  split at hnext
  · obtain ⟨job', hstep, rfl⟩ := Option.map_eq_some_iff.mp hnext
    exact sftpDownloadStep_target hstep htarget
  · rename_i args job event
    obtain ⟨job', hstep, rfl⟩ := Option.map_eq_some_iff.mp hnext
    rcases sftpDownloadDirStep_target hstep htarget with hsame | ⟨index, hphase, rfl, rfl, -⟩
    · exact .inl hsame
    · right
      show DownloadDirJob.op args job _ = _
      unfold DownloadDirJob.op
      rw [hphase]
  · cases hnext

theorem LocalJob.op_probe {job : LocalJob} {event : LocalJobEvent} {path : Text}
    (hkeeps : job.KeepsInside event) (hop : job.op event = some (.probe path false)) :
    ∃ index, path = availablePath job.requested index ∧
      (job.isDir = true → Sibling job.requested index) := by
  unfold LocalJob.op at hop
  split at hop
  · unfold DownloadJob.op at hop
    split at hop
    · rename_i index taken _
      cases hop
      exact ⟨index, rfl, nofun⟩
    · rcases FileDownload.op_cases hop with hop | hop <;> cases hop
    · cases hop
    · cases hop
  · unfold DownloadDirJob.op at hop
    split at hop
    · rename_i index taken hphase
      cases hop
      refine ⟨index, rfl, fun _ => ?_⟩
      unfold LocalJob.KeepsInside at hkeeps
      dsimp only at hkeeps
      rw [hphase] at hkeeps
      exact hkeeps
    · obtain ⟨worker, -, hop⟩ := Option.bind_eq_some_iff.mp hop
      unfold DownloadWorker.op at hop
      split at hop
      · cases hop
      · cases hop
      · rcases FileDownload.op_cases hop with hop | hop <;> cases hop
      · cases hop
      · cases hop
    · cases hop
  · cases hop

/-- **What is created or removed** is the chosen path, or in the chosen root. -/
theorem LocalJob.op_covers {job : LocalJob} {event : LocalJobEvent} {path : Text}
    (h : job.Inside)
    (hop : job.op event = some (.create path) ∨ job.op event = some (.remove path)) :
    ∃ target, job.target = some target ∧
      if job.isDir then Confined target path else path = target := by
  unfold LocalJob.op at hop
  split at hop
  · exact ⟨path, DownloadJob.op_target hop, rfl⟩
  · rename_i args job event
    unfold DownloadDirJob.op at hop
    split at hop
    · rcases hop with hop | hop <;> cases hop
    · rename_i root index event hphase
      have htarget : job.target = some root := by
        unfold DownloadDirJob.target
        rw [hphase]
      have hworker : ∃ worker ∈ job.workers, worker.localPath = some path := by
        rcases hop with hop | hop
        · obtain ⟨worker, hworker, hop⟩ := Option.bind_eq_some_iff.mp hop
          exact ⟨worker, List.mem_of_getElem? hworker, DownloadWorker.op_localPath (.inl hop)⟩
        · obtain ⟨worker, hworker, hop⟩ := Option.bind_eq_some_iff.mp hop
          exact ⟨worker, List.mem_of_getElem? hworker, DownloadWorker.op_localPath (.inr hop)⟩
      obtain ⟨worker, hworker, hpath⟩ := hworker
      exact ⟨root, htarget, (h root htarget).workers worker hworker path hpath⟩
    · rcases hop with hop | hop <;> cases hop
  · rcases hop with hop | hop <;> cases hop

end FluxTerm.Sftp
