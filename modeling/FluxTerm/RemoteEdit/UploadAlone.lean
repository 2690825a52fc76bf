import FluxTerm.Lib.Workers
import FluxTerm.RemoteEdit.Confirm

/-!
# FluxTerm — one upload of an instance at a time

What the status of an instance says about the calls of `remote_edit_confirm_upload`.

* **`UploadsAlone`** — the upload is not confirmed again and not dismissed while it runs, and its
  closure does not panic; **`isOrderly_of_uploadsAlone`** — then every state is orderly.
* **`sampleConfirm_twice`** — a second confirmation starts a second upload.

The pending snapshot stays until the upload is over, and the first section looks at nothing else;
so it is the status that would have to be looked at. The invariant is **`Alone`**.
-/

namespace FluxTerm.RemoteEdit

open FluxTerm.Engine FluxTerm.Lib FluxTerm.Sftp

def ConfirmStage.isRunning : ConfirmStage → Bool
  | begun | task .. | finishing _ => true
  | returned => false

def MonitorStage.hasLooked : MonitorStage → Bool
  | idle => false
  | metadata .. | content .. | failed _ | changed _ => true

def EditRun.running (run : EditRun) : ℕ := run.calls.countP (·.isRunning)

/-- The status of the instance tells whether an upload runs, and no second one does. -/
structure EditRun.IsOrderly (run : EditRun) : Prop where
  alone : run.running ≤ 1
  uploading : run.edit.status = .uploading ↔ 0 < run.running
  pending : run.edit.status = .pendingConfirm → run.edit.pendingSnapshot.isSome
  /-- No call leaves `Uploading` behind. -/
  returned : .uploading ∉ run.returns

def UploadsAlone (run : EditRun) : EditEvent → Prop
  | .confirm | .dismiss => run.running = 0
  | .call _ .panicked => False
  | _ => True

instance (run : EditRun) (event : EditEvent) : Decidable (UploadsAlone run event) := by
  unfold UploadsAlone
  split <;> infer_instance

variable {hash : Bytes → Text} {run run' : EditRun} {index : ℕ} {stage : ConfirmStage}
  {args : UploadArgs} {expected : RemoteVersion} {task : UploadTask} {event : CallEvent}

/-! ## The steps of a call -/

/-- What a step of a call comes to. -/
inductive CallTurn (run : EditRun) (index : ℕ) (stage : ConfirmStage) (event : CallEvent) :
    EditRun → Prop where
  | on (stage' : ConfirmStage) (remote : Bytes) (hstage' : stage'.isRunning = true) :
    CallTurn run index stage event { run.setCall index stage' with remote }
  | panicked (hevent : event = .panicked) : CallTurn run index stage event (run.ret index)
  | failed (err : EngineError) (hstage : stage = .finishing (.error err)) :
    CallTurn run index stage event
      (EditRun.ret { run with edit := run.edit.failUpload err } index)
  | finished (remote : RemoteVersion) (baseline : RemoteFileSnapshot) (now : ℕ)
    (hstage : stage = .finishing (.ok (remote, baseline))) :
    CallTurn run index stage event (EditRun.ret { run with
      edit := run.edit.finishUpload remote baseline now
      syncs := run.syncs ++ [⟨run.remote, baseline⟩] } index)

theorem taskNext_turn (h : run.taskNext hash index args expected task event = some run') :
    CallTurn run index stage event run' := by
  -- a step that leaves the remote file alone
  have hon : ∀ stage' : ConfirmStage, stage'.isRunning = true →
      CallTurn run index stage event (run.setCall index stage') :=
    fun stage' hstage' => .on stage' run.remote hstage'
  unfold EditRun.taskNext at h
  split at h
  · cases h
    exact hon _ rfl
  · split at h <;> cases h
    · exact hon _ rfl
    · exact hon _ rfl
  · -- a step of the upload
    obtain ⟨⟨job, data, remote⟩, -, rfl⟩ := Option.map_eq_some_iff.mp h
    exact .on _ remote rfl
  · -- the server writes
    obtain ⟨sent, -, hsent⟩ := Option.bind_eq_some_iff.mp h
    split at hsent <;> cases hsent
    exact .on _ _ rfl
  · split at h <;> cases h
    · exact hon _ rfl
    · exact hon _ rfl
  · cases h
    exact hon _ rfl
  · cases h
    exact hon _ rfl
  · cases h
    exact hon _ rfl
  · cases h
    exact hon _ rfl
  · cases h
    exact hon _ rfl
  · cases h
    exact hon _ rfl
  · cases h
    exact .panicked rfl
  · cases h

theorem callNext_turn (h : run.callNext hash index stage event = some run') :
    stage.isRunning = true ∧ CallTurn run index stage event run' := by
  unfold EditRun.callNext at h
  split at h
  · cases h
    exact ⟨rfl, .on _ run.remote rfl⟩
  · exact ⟨rfl, taskNext_turn h⟩
  · cases h
    exact ⟨rfl, .failed _ rfl⟩
  · cases h
    exact ⟨rfl, .finished _ _ _ rfl⟩
  · cases h

/-! ## The count of the calls -/

theorem running_setCall (hget : run.calls[index]? = some stage) (hstage : stage.isRunning = true)
    {stage' : ConfirmStage} (hstage' : stage'.isRunning = true) :
    (run.setCall index stage').running = run.running :=
  countP_set_of_eq hget (hstage.trans hstage'.symm)

theorem running_ret (hget : run.calls[index]? = some stage) (hstage : stage.isRunning = true) :
    (run.ret index).running + 1 = run.running :=
  countP_set_succ hget hstage rfl

/-! ## The invariant -/

theorem ne_uploading {status : RemoteEditStatus} (h : status.isBusy = false) :
    status ≠ .uploading := by
  rintro rfl
  cases h

theorem isBusy_dismissPending (edit : RemoteEditInstance) :
    edit.dismissPending.status.isBusy = false := by
  unfold RemoteEditInstance.dismissPending RemoteEditInstance.status
  dsimp only
  split <;> rfl

/-- The status tells whether an upload runs; there is a pending snapshot exactly while the monitor
keeps away, and it keeps away once it has looked. -/
structure Alone (run : EditRun) : Prop where
  running : run.running = if run.edit.status = .uploading then 1 else 0
  pending : run.edit.pendingSnapshot.isSome = run.edit.status.isBusy
  looked : run.monitor.hasLooked = true → run.edit.status.isBusy = false
  returned : .uploading ∉ run.returns

theorem Alone.isOrderly (h : Alone run) : run.IsOrderly where
  alone := by
    rw [h.running]
    split <;> omega
  uploading := by
    rw [h.running]
    split
    · exact ⟨fun _ => Nat.one_pos, fun _ => ‹_›⟩
    · exact ⟨fun hstatus => absurd hstatus ‹_›, fun hpos => absurd hpos (by omega)⟩
  pending hstatus := by
    rw [h.pending, hstatus]
    rfl
  returned := h.returned

theorem Alone.ret {edit : RemoteEditInstance} {syncs : List SyncRecord} (h : Alone run)
    (hget : run.calls[index]? = some stage) (hstage : stage.isRunning = true)
    (hbusy : edit.status.isBusy = false) (hpending : edit.pendingSnapshot = none) :
    Alone (EditRun.ret { run with edit, syncs } index) := by
  have hne := ne_uploading hbusy
  have hcount := running_ret hget hstage
  have hrunning := h.running
  refine ⟨?_, ?_, fun _ => hbusy, ?_⟩
  · show (run.ret index).running = if edit.status = .uploading then 1 else 0
    rw [if_neg hne]
    split at hrunning <;> omega
  · show edit.pendingSnapshot.isSome = edit.status.isBusy
    rw [hpending, hbusy]
    rfl
  · show .uploading ∉ run.returns ++ [edit.status]
    rw [List.mem_append, List.mem_singleton]
    exact fun hmem => hmem.elim h.returned (Ne.symm hne)

theorem Alone.call (h : Alone run) (hget : run.calls[index]? = some stage)
    (hevent : event ≠ .panicked) (hstep : run.callNext hash index stage event = some run') :
    Alone run' := by
  obtain ⟨hstage, hturn⟩ := callNext_turn hstep
  cases hturn with
  | on stage' remote hstage' =>
    exact ⟨(running_setCall hget hstage hstage').trans h.running, h.pending, h.looked, h.returned⟩
  | panicked heq => exact absurd heq hevent
  | failed err => exact h.ret hget hstage rfl rfl
  | finished remote baseline now => exact h.ret hget hstage rfl rfl

theorem Alone.monitorAt {stage : MonitorStage} {unchanged : List Bytes} (h : Alone run)
    (hlooked : stage.hasLooked = true → run.edit.status.isBusy = false) :
    Alone { run with monitor := stage, unchanged } :=
  ⟨h.running, h.pending, hlooked, h.returned⟩

theorem Alone.report {edit : RemoteEditInstance} (h : Alone run)
    (hlooked : run.monitor.hasLooked = true) (hstatus : edit.status ≠ .uploading)
    (hpending : edit.pendingSnapshot.isSome = edit.status.isBusy) :
    Alone { run with monitor := .idle, edit } := by
  have hidle := ne_uploading (h.looked hlooked)
  refine ⟨?_, hpending, nofun, h.returned⟩
  have hrunning := h.running
  rw [if_neg hidle] at hrunning
  show run.running = if edit.status = .uploading then 1 else 0
  rw [if_neg hstatus, hrunning]

theorem Alone.monitor {event : MonitorEvent} (h : Alone run)
    (hstep : run.monitorNext hash event = some run') : Alone run' := by
  have hfree : ∀ {stage : MonitorStage}, run.monitor = stage → stage.hasLooked = true →
      run.edit.status.isBusy = false :=
    fun hstage hlooked => h.looked (hstage ▸ hlooked)
  unfold EditRun.monitorNext at hstep
  split at hstep
  · -- the look
    split at hstep <;> cases hstep
    · exact h
    · rename_i hbusy
      exact h.monitorAt fun _ => Bool.eq_false_iff.mpr hbusy
  · rename_i hstage
    cases hstep
    exact h.monitorAt fun _ => hfree hstage rfl
  · rename_i hstage
    cases hstep
    exact h.monitorAt fun _ => hfree hstage rfl
  · rename_i hstage
    cases hstep
    exact h.monitorAt fun _ => hfree hstage rfl
  · -- the comparison
    rename_i hstage
    cases hstep
    unfold EditRun.compare
    dsimp only
    split
    · exact h.monitorAt nofun
    · split
      · exact h.monitorAt nofun
      · split
        · exact h.monitorAt nofun
        · exact h.monitorAt fun _ => hfree hstage rfl
  · -- a failure is reported, and there is no pending snapshot to go with it
    rename_i hstage
    cases hstep
    refine h.report (hstage ▸ rfl) nofun ?_
    show run.edit.pendingSnapshot.isSome = false
    rw [h.pending, hfree hstage rfl]
  · rename_i current hstage
    have hchange : run.edit.changeDetected current = { run.edit with
        pendingSnapshot := some current
        snapshot := { run.edit.snapshot with
          status := .pendingConfirm, lastErrorCode := none, lastError := none } } :=
      if_neg (by rw [hfree hstage rfl]; exact Bool.false_ne_true)
    cases hstep
    refine h.report (hstage ▸ rfl) ?_ ?_
    · rw [hchange]
      exact nofun
    · rw [hchange]
      rfl
  · cases hstep

theorem Alone.next {event : EditEvent} (h : Alone run) (hguard : UploadsAlone run event)
    (hstep : editNext hash run event = some run') : Alone run' := by
  cases event with
  | confirm =>
    have hidle : run.running = 0 := hguard
    have hrunning := h.running
    unfold editNext RemoteEditInstance.beginUpload at hstep
    dsimp only at hstep
    split at hstep
    · -- the upload begins
      rename_i edit hbegin
      split at hbegin
      · cases hbegin
      · rename_i hsome
        cases hbegin
        cases hstep
        refine ⟨?_, ?_, fun hlooked => ?_, h.returned⟩
        · show (run.calls ++ [ConfirmStage.begun]).countP (·.isRunning) = 1
          rw [List.countP_append]
          show run.running + 1 = 1
          rw [hidle]
        · show run.edit.pendingSnapshot.isSome = true
          rwa [Bool.not_eq_true, Option.isNone_eq_false_iff] at hsome
        · -- the monitor keeps away from a pending snapshot
          have hbusy := h.looked hlooked
          rw [← h.pending] at hbusy
          exact absurd hbusy (by simpa using hsome)
    · -- there is nothing to upload
      cases hstep
      refine ⟨h.running, h.pending, h.looked, ?_⟩
      show .uploading ∉ run.returns ++ [run.edit.status]
      rw [List.mem_append, List.mem_singleton]
      rintro (hmem | hstatus)
      · exact h.returned hmem
      · rw [← hstatus, if_pos rfl] at hrunning
        omega
  | call index event =>
    obtain ⟨stage, hget, hcall⟩ := Option.bind_eq_some_iff.mp hstep
    refine h.call hget ?_ hcall
    rintro rfl
    exact hguard
  | dismiss =>
    cases hstep
    have hidle : run.running = 0 := hguard
    have hfree := isBusy_dismissPending run.edit
    refine ⟨?_, ?_, fun _ => hfree, h.returned⟩
    · show run.running = if run.edit.dismissPending.status = .uploading then 1 else 0
      rw [if_neg (ne_uploading hfree), hidle]
    · show false = run.edit.dismissPending.status.isBusy
      exact hfree.symm
  | monitor event => exact h.monitor hstep
  | save content mtimeMs =>
    cases hstep
    exact ⟨h.running, h.pending, h.looked, h.returned⟩

/-- **One upload at a time**, in every run in which an upload is neither confirmed again nor
dismissed while it runs, and does not panic. -/
theorem isOrderly_of_uploadsAlone (hash : Bytes → Text) (snapshot : RemoteEditSnapshot)
    (mtimeMs : ℕ) (content : Bytes) (run : EditRun)
    (h : ((editMachine hash snapshot mtimeMs content).restrict UploadsAlone).Reachable run) :
    run.IsOrderly := by
  have halone : Alone run := by
    refine Machine.Reachable.induct ?_ (fun _ _ _ _ halone hstep => ?_) h
    · rintro _ rfl
      exact ⟨rfl, rfl, nofun, nofun⟩
    · exact halone.next hstep.1 hstep.2
  exact halone.isOrderly

/-- The editor saves, and the upload is confirmed and carried out. -/
theorem sampleConfirm_orderly : ∃ run, EditRun.IsOrderly run ∧
    run.edit.status = .synced ∧ run.returns = [.synced] ∧ run.remote = [97] := by
  have hrun : ∃ run, Machine.exec (fun run event =>
        if UploadsAlone run event then editNext sampleHash run event else none)
        (.opened sampleHash sampleEdit 0 [])
        (sampleSave 1 [97] ++ [.confirm] ++ (sampleUpload 1).map (.call 0)) = some run ∧
      run.edit.status = .synced ∧ run.returns = [.synced] ∧ run.remote = [97] :=
    ⟨_, rfl, rfl, rfl, rfl⟩
  obtain ⟨run, hexec, hrest⟩ := hrun
  have hreach := Machine.reachable_restrict (Machine.reachable_exec hexec)
  exact ⟨run, isOrderly_of_uploadsAlone sampleHash sampleEdit 0 [] run hreach, hrest⟩

/-- The same upload is confirmed twice, and runs twice. -/
theorem sampleConfirm_twice : ¬∀ run,
    (editMachine sampleHash sampleEdit 0 []).Reachable run → run.IsOrderly := by
  intro h
  have hrun : ∃ run, Machine.exec (editNext sampleHash) (.opened sampleHash sampleEdit 0 [])
      (sampleSave 1 [97] ++ [.confirm, .confirm]) = some run ∧ run.running = 2 := ⟨_, rfl, rfl⟩
  obtain ⟨run, hexec, hrunning⟩ := hrun
  have halone := (h run (Machine.reachable_exec hexec)).alone
  rw [hrunning] at halone
  exact absurd halone (by decide)

end FluxTerm.RemoteEdit
