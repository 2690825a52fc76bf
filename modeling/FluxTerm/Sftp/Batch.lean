import FluxTerm.Lib.Report
import FluxTerm.Sftp.Progress

/-!
# FluxTerm — what the batch transfers share

`sftp_upload_paths` and `sftp_download_dir` (`crates/engine/src/sftp.rs`) scan a tree into tasks,
run the tasks by workers, and add everything up in one `PipelineProgressState`. The workers are
polled by the function itself (`FuturesUnordered`), and only after the scan: one of them moves at a
time.
-/

namespace FluxTerm.Sftp

open FluxTerm.Engine FluxTerm.Lib

def batchWorkerCount : ℕ := 8

structure Batch where
  progress : PipelineProgressState
  events : List SftpProgress
  cancelFlag : Bool
deriving DecidableEq

def Batch.start : Batch := ⟨.start, [], false⟩

namespace Batch

variable (context : PipelineEmitContext) (batch : Batch)

/-- `emit_pipeline_progress` of the current counters. -/
def emit (currentItemName : Option Text) : Batch :=
  { batch with
    events := batch.events ++ [emitPipelineProgress context batch.progress currentItemName] }

/-- `update_pipeline_state`. -/
def update (change : ItemUpdate) : Batch :=
  emit context { batch with progress := change.apply batch.progress } change.itemName

def updateAll (changes : List ItemUpdate) : Batch := changes.foldl (update context) batch

/-- `finalize_pipeline_state`. -/
def finalize (status : SftpTransferStatus) : Batch :=
  emit context { batch with progress := { batch.progress with status } } none

/-- The end of the functions: the final status, and the result of a batch that `failed` names. -/
def conclude (workerFailed : Bool) (failed : EngineError) : Batch × Except EngineError Unit :=
  if batch.cancelFlag then (batch.finalize context .cancelled, .ok ())
  else
    let status := finalStatus batch.progress workerFailed
    (batch.finalize context status,
      if status = .success ∨ status = .partialSuccess then .ok () else .error failed)

end Batch

/-! ## Updates -/

variable {context : PipelineEmitContext} {batch batch' : Batch} {identity : SftpConnectionIdentity}

/-- A batch after updates: events of its status, and the status as it was. -/
structure Batch.Updated (identity : SftpConnectionIdentity) (batch batch' : Batch) : Prop where
  status : batch'.progress.status = batch.progress.status
  events : ∃ new, batch'.events = batch.events ++ new ∧
    ∀ e ∈ new, e.status = batch.progress.status ∧ e.IsOf identity

def PipelineEmitContext.IsOf (identity : SftpConnectionIdentity) (context : PipelineEmitContext) :
    Prop := context.sessionId = identity.sessionId ∧ context.transferId = identity.transferId

theorem Batch.Updated.refl : Batch.Updated identity batch batch :=
  ⟨rfl, [], (List.append_nil _).symm, List.forall_mem_nil _⟩

theorem Batch.updateAll_updated (hcontext : context.IsOf identity) (changes : List ItemUpdate) :
    batch.Updated identity (batch.updateAll context changes) := by
  induction changes generalizing batch with
  | nil => exact .refl
  | cons change changes ih =>
    obtain ⟨hstatus, new, hevents, hnew⟩ := @ih (batch.update context change)
    have hfirst : (batch.update context change).progress.status = batch.progress.status :=
      change.apply_status batch.progress
    refine ⟨hstatus.trans hfirst, _ :: new, hevents.trans (List.append_assoc _ [_] _), ?_⟩
    intro e he
    rcases List.mem_cons.mp he with rfl | he
    · exact ⟨hfirst, hcontext⟩
    · exact ⟨(hnew e he).1.trans hfirst, (hnew e he).2⟩

theorem Batch.Updated.advances (h : batch.Updated identity batch')
    (hrunning : batch.progress.status = .running) :
    Advances (SftpProgress.IsOf identity) SftpProgress.isFinal .live .live batch.events
      batch'.events := by
  obtain ⟨-, new, hevents, hnew⟩ := h
  rw [hevents]
  refine .reports (fun e he => ?_) fun e he => (hnew e he).2
  unfold SftpProgress.isFinal
  rw [(hnew e he).1, hrunning]
  rfl

theorem Batch.finalize_advances {status : SftpTransferStatus} (hcontext : context.IsOf identity)
    (hstatus : status ≠ .running) :
    Advances (SftpProgress.IsOf identity) SftpProgress.isFinal .live .ended batch.events
      (batch.finalize context status).events :=
  .close (bne_iff_ne.mpr hstatus) hcontext

theorem Batch.conclude_advances {workerFailed : Bool} {failed : EngineError}
    (hcontext : context.IsOf identity) :
    Advances (SftpProgress.IsOf identity) SftpProgress.isFinal .live .ended batch.events
      (batch.conclude context workerFailed failed).1.events := by
  unfold Batch.conclude
  split
  · exact finalize_advances hcontext nofun
  · exact finalize_advances hcontext (finalStatus_ne_running _ _)

/-! ## Steps -/

/-- What a step does to the batch, from one phase to the next. -/
inductive Batch.Step (identity : SftpConnectionIdentity) (batch : Batch) :
    Phase → Phase → Batch → Prop
  | silent (p : Phase) {batch' : Batch} (hprogress : batch'.progress = batch.progress)
      (hevents : batch'.events = batch.events) : Step identity batch p p batch'
  | giveUp : Step identity batch .quiet .ended batch
  | start {context : PipelineEmitContext} (hcontext : context.IsOf identity) :
      Step identity batch .quiet .live (batch.emit context none)
  | updates {batch' : Batch} (h : batch.Updated identity batch') :
      Step identity batch .live .live batch'
  | concluded {context : PipelineEmitContext} {workerFailed : Bool} {failed : EngineError}
      (hcontext : context.IsOf identity) :
      Step identity batch .live .ended (batch.conclude context workerFailed failed).1

theorem Batch.Step.running {p q : Phase} (h : batch.Step identity p q batch')
    (hrunning : p ≠ .ended → batch.progress.status = .running) (hq : q ≠ .ended) :
    batch'.progress.status = .running := by
  cases h with
  | silent p hprogress hevents =>
    rw [hprogress]
    exact hrunning hq
  | giveUp => exact absurd rfl hq
  | start hcontext => exact hrunning nofun
  | updates h => exact h.status.trans (hrunning nofun)
  | concluded hcontext => exact absurd rfl hq

theorem Batch.Step.advances {p q : Phase} (h : batch.Step identity p q batch')
    (hrunning : p ≠ .ended → batch.progress.status = .running) :
    Advances (SftpProgress.IsOf identity) SftpProgress.isFinal p q batch.events batch'.events := by
  cases h with
  | silent p hprogress hevents =>
    rw [hevents]
    exact .silent
  | giveUp => exact .giveUp
  | @start context hcontext =>
    have hfinal : (emitPipelineProgress context batch.progress none).isFinal = false :=
      bne_eq_false_iff_eq.mpr (hrunning nofun)
    exact .first hfinal hcontext
  | updates h => exact h.advances (hrunning nofun)
  | concluded hcontext => exact conclude_advances hcontext

variable {σ α : Type} {m : Machine σ α} {toBatch : σ → Batch} {phase : σ → Phase}

theorem Batch.running_of_reachable
    (hinit : ∀ s, m.init s → phase s ≠ .live ∧ toBatch s = .start)
    (hstep : ∀ s a t, m.step s a t → (toBatch s).Step identity (phase s) (phase t) (toBatch t))
    {s : σ} (hs : m.Reachable s) (hphase : phase s ≠ .ended) :
    (toBatch s).progress.status = .running := by
  have hrunning : phase s ≠ .ended → (toBatch s).progress.status = .running := by
    refine Machine.Reachable.induct
      (I := fun s => phase s ≠ .ended → (toBatch s).progress.status = .running) ?_ ?_ hs
    · intro t ht _
      rw [(hinit t ht).2]
      rfl
    · intro t a u _ ih hstepped hover
      exact (hstep t a u hstepped).running ih hover
  exact hrunning hphase

/-- **The log of a batch.** A machine whose steps are steps of its batch reports until its last
event. -/
theorem Batch.reports (hinit : ∀ s, m.init s → phase s ≠ .live ∧ toBatch s = .start)
    (hstep : ∀ s a t, m.step s a t → (toBatch s).Step identity (phase s) (phase t) (toBatch t)) :
    Reports m (fun s => (toBatch s).events) (SftpProgress.IsOf identity) SftpProgress.isFinal
      phase where
  init s hs := by
    obtain ⟨hphase, hbatch⟩ := hinit s hs
    refine ⟨hphase, ?_⟩
    rw [hbatch]
    rfl
  step s a t hs hstepped :=
    (hstep s a t hstepped).advances fun hphase => running_of_reachable hinit hstep hs hphase

end FluxTerm.Sftp
