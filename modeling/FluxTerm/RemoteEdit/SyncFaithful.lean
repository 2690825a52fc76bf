import FluxTerm.RemoteEdit.UploadAlone

/-!
# FluxTerm — synced means synced

What the baseline of an instance says about the remote file.

* **`KeepsContent`** — the local file keeps its content from the first read of an upload to the
  second read that takes the baseline, no upload gives up halfway, and none is confirmed while
  another runs; **`isFaithful_of_keepsContent`** — then every state is faithful.
* **`sampleCancel_synced`** — an upload that is cancelled sets `Synced` all the same.

Behind it is `Fills`: the pieces that are sent cover what has been read.
-/

namespace FluxTerm.RemoteEdit

open FluxTerm.Engine FluxTerm.Lib FluxTerm.Sftp

/-! ## What is promised -/

def SameContent (hash : Bytes → Text) (content other : Bytes) : Prop :=
  hash content = hash other ∧ content.length = other.length

/-- `Synced` means synced, for an instance that was opened with the content `opened`. -/
structure EditRun.IsFaithful (hash : Bytes → Text) (opened : Bytes) (run : EditRun) : Prop where
  synced : ∀ sync ∈ run.syncs, ∃ mtimeMs, sync.baseline = snapshotOf hash mtimeMs sync.remote
  unchanged : ∀ content ∈ run.unchanged, SameContent hash content opened ∨
    ∃ sync ∈ run.syncs, SameContent hash content sync.remote

/-! ## The condition -/

def UploadLoop.hasRead (loop : UploadLoop) : Bool :=
  match loop.stage with
  | .head | .reading => 0 < loop.offset
  | .window _ | .draining => true

def UploadPhase.hasRead : UploadPhase → Bool
  | .copying _ _ loop => UploadLoop.hasRead loop
  | .returned (.ok ()) => true
  | _ => false

def ConfirmStage.hasRead : ConfirmStage → Bool
  | task _ _ (.upload job _) => UploadPhase.hasRead job.phase
  | task _ _ .statAfter | task _ _ (.metadata _) | task _ _ (.content ..) => true
  | _ => false

def UploadLoop.givesUp (cancelled : Bool) (loop : UploadLoop) : UploadEvent → Bool
  | .look => cancelled && loop.stage == .head
  | .joined .. => cancelled && loop.stage == .draining
  | _ => false

def ConfirmStage.givesUp (stage : ConfirmStage) (event : CallEvent) : Bool :=
  match stage, event with
  | task _ _ (.upload job _), .upload (.copy event) =>
    match job.phase with
    | .copying _ _ loop => UploadLoop.givesUp job.cancelFlag loop event
    | _ => false
  | _, _ => false

def KeepsContent (run : EditRun) : EditEvent → Prop
  | .confirm => run.running = 0
  | .call index event =>
    (run.calls[index]?).any (·.givesUp event) = true → run.remote = run.content
  | .save content _ => content = run.content ∨ ∀ call ∈ run.calls, call.hasRead = false
  | _ => True

instance (run : EditRun) (event : EditEvent) : Decidable (KeepsContent run event) := by
  unfold KeepsContent
  split <;> infer_instance

/-! ## The upload -/

variable {content remote remote' : Bytes} {loop : UploadLoop} {data data' : UploadData}
  {size : ℕ} {cancelled : Bool} {copy : UploadEvent} {turn : UploadTurn}

/-- What has been read is at the server, or under way. -/
structure LoopFills (content remote : Bytes) (loop : UploadLoop) (data : UploadData) : Prop where
  fills : Fills content remote loop.offset data.sent
  inFlight : data.sent.map (·.part.length) = loop.inFlight
  window : ∀ len, loop.stage = .window len →
    loop.offset + len ≤ content.length ∧ data.chunk = (content.drop loop.offset).take len
  draining : loop.stage = .draining → loop.offset = content.length

/-- All is at the server; writes that are still under way change nothing. -/
structure IsUploaded (content remote : Bytes) (data : UploadData) : Prop where
  remote : remote = content
  parts : ∀ piece ∈ data.sent, piece.IsPart content content.length

def TurnFills (content remote : Bytes) (data : UploadData) : UploadTurn → Prop
  | .on loop _ => LoopFills content remote loop data
  | .cancelled _ | .finished _ => IsUploaded content remote data
  | .failed _ => True

theorem copyNext_joined {index : ℕ}
    (h : copyNext content loop data (.joined index .written) = some data') :
    ∃ piece, data.sent[index]? = some piece ∧ piece.written = true ∧
      data' = { data with sent := data.sent.eraseIdx index } := by
  unfold copyNext at h
  dsimp only at h
  split at h
  · rename_i hany
    obtain ⟨piece, hget, hwritten⟩ := (Option.any_eq_true _ _).mp hany
    cases h
    exact ⟨piece, hget, hwritten, rfl⟩
  · cases h

theorem LoopFills.joined {index len : ℕ} {outcome : WriteOutcome}
    (h : LoopFills content remote loop data)
    (hdata : copyNext content loop data (.joined index outcome) = some data') :
    TurnFills content remote data' (loop.joined index len outcome) := by
  cases outcome with
  | written =>
    obtain ⟨piece, hget, hwritten, rfl⟩ := copyNext_joined hdata
    refine ⟨h.fills.forget hget hwritten, ?_, h.window, h.draining⟩
    show (data.sent.eraseIdx index).map _ = loop.inFlight.eraseIdx index
    rw [← h.inFlight, List.eraseIdx_map]
  | failed detail => exact trivial
  | joinFailed detail => exact trivial

theorem LoopFills.giveUp (h : LoopFills content remote loop data) (hremote : remote = content)
    (hdata : copyNext content loop data copy = some data') (hspawn : copy ≠ .spawn) :
    IsUploaded content remote data' := by
  have hparts : ∀ piece ∈ data.sent, piece.IsPart content content.length := fun piece hpiece =>
    have hpart := h.fills.parts piece hpiece
    ⟨hpart.stop_le.trans h.fills.le_length, hpart.part⟩
  refine ⟨hremote, ?_⟩
  unfold copyNext at hdata
  split at hdata
  · dsimp only at hdata
    split at hdata <;> cases hdata
    exact hparts
  · exact absurd rfl hspawn
  · split at hdata <;> cases hdata
    exact fun piece hpiece => hparts piece (List.mem_of_mem_eraseIdx hpiece)
  · cases hdata
    exact hparts

theorem LoopFills.stay (h : LoopFills content remote loop data) {stage : UploadStage}
    (hwindow : ∀ len, stage ≠ .window len)
    (hdraining : stage = .draining → loop.offset = content.length) :
    LoopFills content remote { loop with stage } data where
  fills := h.fills
  inFlight := h.inFlight
  window len hstage := absurd hstage (hwindow len)
  draining := hdraining

theorem LoopFills.step (h : LoopFills content remote loop data)
    (hgives : UploadLoop.givesUp cancelled loop copy = true → remote = content)
    (hdata : copyNext content loop data copy = some data')
    (hturn : uploadStep size cancelled loop copy = some turn) :
    TurnFills content remote data' turn := by
  unfold uploadStep at hturn
  split at hturn
  · -- the look at the flag
    rename_i hstage
    split at hturn <;> cases hturn
    · rename_i hcancelled
      refine h.giveUp (hgives ?_) hdata nofun
      unfold UploadLoop.givesUp
      rw [hcancelled, hstage]
      rfl
    · cases hdata
      exact h.stay nofun nofun
  · cases hturn
    exact trivial
  · -- a chunk is read
    rename_i len hstage
    unfold copyNext at hdata
    dsimp only at hdata
    split at hdata
    · rename_i hchunk
      have hlen := hchunk.1
      rw [List.length_take, List.length_drop] at hlen
      have hle := h.fills.le_length
      cases hdata
      split at hturn
      · -- the end of the file
        rename_i hzero
        cases hturn
        have hend := hchunk.2 hzero
        exact ⟨h.fills, h.inFlight, nofun, fun _ => Nat.le_antisymm hle hend⟩
      · split at hturn <;> cases hturn
        refine ⟨h.fills, h.inFlight, fun len' heq => ?_, nofun⟩
        cases heq
        refine ⟨?_, rfl⟩
        show loop.offset + len ≤ content.length
        omega
    · cases hdata
  · -- the window is full
    split at hturn
    · cases hturn
    · obtain ⟨len, -, rfl⟩ := Option.map_eq_some_iff.mp hturn
      exact h.joined hdata
  · -- the chunk is sent
    rename_i len hstage
    split at hturn <;> cases hturn
    cases hdata
    obtain ⟨hlen, hchunk⟩ := h.window len hstage
    refine ⟨?_, ?_, nofun, nofun⟩
    · show Fills content remote (loop.offset + len) (data.sent ++ [⟨loop.offset, data.chunk, false⟩])
      rw [hchunk]
      exact h.fills.send hlen
    · show (data.sent ++ [Piece.mk loop.offset data.chunk false]).map (·.part.length) =
        loop.inFlight ++ [len]
      rw [List.map_append, h.inFlight, hchunk, List.map_singleton, List.length_take,
        List.length_drop]
      congr 2
      omega
  · -- the writes are drained
    rename_i index outcome hstage
    obtain ⟨len, -, rfl⟩ := Option.map_eq_some_iff.mp hturn
    split
    · rename_i hcancelled
      refine h.giveUp (hgives ?_) hdata nofun
      unfold UploadLoop.givesUp
      rw [hcancelled, hstage]
      rfl
    · exact h.joined hdata
  · -- the remote file is closed
    rename_i fault hstage
    split at hturn
    · rename_i hempty
      split at hturn <;> cases hturn
      · exact trivial
      · cases hdata
        have hsent : data.sent = [] := by
          rw [← List.map_eq_nil_iff, h.inFlight, hempty]
        have hfills := h.fills
        rw [hsent, h.draining hstage] at hfills
        refine ⟨hfills.complete, ?_⟩
        rw [hsent]
        exact nofun
    · cases hturn
  · cases hturn

def PhaseFills (content remote : Bytes) (data : UploadData) : UploadPhase → Prop
  | .copying _ _ loop => LoopFills content remote loop data
  | .returned (.ok ()) => IsUploaded content remote data
  | _ => True

variable {args : UploadArgs} {job job' : UploadJob} {event : UploadJobEvent}

theorem phaseFills_turn {writeLimit total : Option ℕ} (h : TurnFills content remote data turn) :
    PhaseFills content remote data (args.turn writeLimit total job turn).phase := by
  cases turn with
  | on loop progress =>
    cases progress with
    | none => exact h
    | some transferred => exact h
  | cancelled transferred => exact h
  | failed err => exact trivial
  | finished transferred => exact h

theorem loopFills_start (content : Bytes) : LoopFills content [] .start ⟨[], []⟩ where
  fills := .begin content
  inFlight := rfl
  window := nofun
  draining := nofun

theorem phaseFills_next (h : PhaseFills content remote data job.phase)
    (hgives : ∀ writeLimit total loop copy, job.phase = .copying writeLimit total loop →
      event = .copy copy → UploadLoop.givesUp job.cancelFlag loop copy = true → remote = content)
    (hstep : uploadNext args content remote job data event = some (job', data', remote')) :
    PhaseFills content remote' data' job'.phase := by
  obtain ⟨job'', hjob, hdata⟩ := Option.bind_eq_some_iff.mp hstep
  split at hdata
  · -- the remote file is opened
    rename_i hphase
    cases hdata
    unfold sftpUploadStep at hjob
    rw [hphase] at hjob
    cases hjob
    exact loopFills_start content
  · -- the loop
    rename_i writeLimit total loop copy hphase
    obtain ⟨data'', hcopy, heq⟩ := Option.map_eq_some_iff.mp hdata
    cases heq
    unfold sftpUploadStep at hjob
    rw [hphase] at hjob
    obtain ⟨turn, hturn, rfl⟩ := Option.map_eq_some_iff.mp hjob
    rw [hphase] at h
    exact phaseFills_turn (LoopFills.step h (hgives _ _ _ _ hphase rfl) hcopy hturn)
  · -- the bytes are left alone
    rename_i hopen hcopy
    cases hdata
    unfold sftpUploadStep at hjob
    split at hjob
    · split at hjob <;> cases hjob
      exact h
    · cases hjob
      exact trivial
    · cases hjob
      exact trivial
    · cases hjob
      exact trivial
    · cases hjob
      exact trivial
    · cases hjob
      exact trivial
    · cases hjob
      exact trivial
    · rename_i hphase
      exact absurd rfl (hopen _ _ hphase)
    · rename_i hphase
      exact absurd rfl (hcopy _ _ _ _ hphase)
    · cases hjob

/-! ## The calls -/

variable {hash : Bytes → Text} {opened : Bytes} {run run' : EditRun} {index : ℕ}
  {stage stage' : ConfirmStage} {call : CallEvent} {expected : RemoteVersion} {task : UploadTask}

def StageFills (hash : Bytes → Text) (content remote : Bytes) : ConfirmStage → Prop
  | .task _ _ (.upload job data) => PhaseFills content remote data job.phase
  | .task _ _ .statAfter | .task _ _ (.metadata _) | .task _ _ (.content ..) => remote = content
  | .finishing (.ok (_, baseline)) => ∃ mtimeMs, baseline = snapshotOf hash mtimeMs remote
  | _ => True

theorem stageFills_of_not_running (h : stage.isRunning = false) :
    StageFills hash content remote stage := by
  cases stage with
  | returned => exact trivial
  | begun => cases h
  | task args expected task => cases h
  | finishing result => cases h

theorem StageFills.save (h : StageFills hash content remote stage) (hread : stage.hasRead = false)
    (content' : Bytes) : StageFills hash content' remote stage := by
  cases stage with
  | begun => exact trivial
  | returned => exact trivial
  | finishing result =>
    cases result with
    | ok value => exact h
    | error err => exact trivial
  | task args expected task =>
    cases task with
    | statBefore => exact trivial
    | statAfter => cases hread
    | metadata version => cases hread
    | content version mtimeMs => cases hread
    | upload job data =>
      have hphase : UploadPhase.hasRead job.phase = false := hread
      unfold StageFills PhaseFills at h ⊢
      dsimp only at h ⊢
      split at h
      · -- nothing is read: the loop is at its first turn
        rename_i writeLimit total loop hcopying
        rw [hcopying] at hphase
        change UploadLoop.hasRead loop = false at hphase
        unfold UploadLoop.hasRead at hphase
        have hstart : loop.offset = 0 ∧ (∀ len, loop.stage ≠ .window len) ∧
            loop.stage ≠ .draining := by
          split at hphase
          · rename_i hstage
            rw [hstage]
            exact ⟨by simpa using hphase, nofun, nofun⟩
          · rename_i hstage
            rw [hstage]
            exact ⟨by simpa using hphase, nofun, nofun⟩
          · cases hphase
          · cases hphase
        have hfills := h.fills
        rw [hstart.1] at hfills
        refine ⟨?_, h.inFlight, fun len hstage => absurd hstage (hstart.2.1 len),
          fun hstage => absurd hstage hstart.2.2⟩
        rw [hstart.1]
        exact hfills.restart content'
      · rename_i hreturned
        rw [hreturned] at hphase
        cases hphase
      · exact trivial

theorem stageFills_taskNext
    (h : StageFills hash run.content run.remote (.task args expected task))
    (hgives : (ConfirmStage.task args expected task).givesUp call = true →
      run.remote = run.content)
    (hstep : run.taskNext hash index args expected task call = some run') :
    ∃ stage, run'.calls = run.calls.set index stage ∧
      StageFills hash run.content run'.remote stage := by
  unfold EditRun.taskNext at hstep
  split at hstep
  · cases hstep
    exact ⟨_, rfl, trivial⟩
  · split at hstep <;> cases hstep
    · exact ⟨_, rfl, trivial⟩
    · exact ⟨_, rfl, trivial⟩
  · -- a step of the upload
    obtain ⟨⟨job, data, remote⟩, hnext, rfl⟩ := Option.map_eq_some_iff.mp hstep
    refine ⟨_, rfl, phaseFills_next h (fun writeLimit total loop copy hphase hcopy hgives' => ?_) hnext⟩
    refine hgives ?_
    unfold ConfirmStage.givesUp
    rw [hcopy]
    dsimp only
    rw [hphase]
    exact hgives'
  · -- the server writes
    rename_i job data write
    obtain ⟨piece, hget, hpiece⟩ := Option.bind_eq_some_iff.mp hstep
    split at hpiece <;> cases hpiece
    refine ⟨_, rfl, ?_⟩
    show PhaseFills run.content (writeAt 0 run.remote piece.offset piece.part) _ job.phase
    have hphase : PhaseFills run.content run.remote data job.phase := h
    unfold PhaseFills at hphase ⊢
    split at hphase
    · refine ⟨hphase.fills.write hget, ?_, hphase.window, hphase.draining⟩
      show (data.sent.set write { piece with written := true }).map (·.part.length) = _
      obtain ⟨hlt, hpiece⟩ := List.getElem?_eq_some_iff.mp hget
      have hlt' : write < (data.sent.map (·.part.length)).length := by rwa [List.length_map]
      have hself := List.set_getElem_self hlt'
      rw [List.getElem_map, hpiece] at hself
      rw [List.map_set, ← hphase.inFlight]
      exact hself
    · have hpart := hphase.parts piece (List.mem_of_getElem? hget)
      refine ⟨?_, fun other hother => ?_⟩
      · rw [hphase.remote]
        exact hpart.writeAt_eq
      · rcases List.mem_or_eq_of_mem_set hother with hother | rfl
        · exact hphase.parts other hother
        · exact ⟨hpart.stop_le, hpart.part⟩
    · exact trivial
  · -- the upload returns
    rename_i job data
    split at hstep
    · rename_i hphase
      cases hstep
      have hfills : PhaseFills run.content run.remote data job.phase := h
      rw [hphase] at hfills
      exact ⟨_, rfl, hfills.remote⟩
    · cases hstep
      exact ⟨_, rfl, trivial⟩
    · cases hstep
  · cases hstep
    exact ⟨_, rfl, trivial⟩
  · cases hstep
    exact ⟨_, rfl, h⟩
  · cases hstep
    exact ⟨_, rfl, trivial⟩
  · cases hstep
    exact ⟨_, rfl, h⟩
  · cases hstep
    exact ⟨_, rfl, trivial⟩
  · -- the baseline is taken
    rename_i version mtimeMs
    have hremote : run.remote = run.content := h
    cases hstep
    refine ⟨_, rfl, mtimeMs, ?_⟩
    show snapshotOf hash mtimeMs run.content = snapshotOf hash mtimeMs run.remote
    rw [hremote]
  · cases hstep
    exact ⟨_, rfl, trivial⟩
  · cases hstep

theorem stageFills_callNext (h : StageFills hash run.content run.remote stage)
    (hgives : stage.givesUp call = true → run.remote = run.content)
    (hstep : run.callNext hash index stage call = some run') :
    ∃ stage, run'.calls = run.calls.set index stage ∧
      StageFills hash run.content run'.remote stage := by
  unfold EditRun.callNext at hstep
  split at hstep
  · cases hstep
    exact ⟨_, rfl, trivial⟩
  · exact stageFills_taskNext h hgives hstep
  · cases hstep
    exact ⟨_, rfl, trivial⟩
  · cases hstep
    exact ⟨_, rfl, trivial⟩
  · cases hstep

/-! ## The invariant -/

/-- The snapshot is that of the opened file, or the baseline of an upload. -/
def Known (hash : Bytes → Text) (opened : Bytes) (syncs : List SyncRecord)
    (snapshot : RemoteFileSnapshot) : Prop :=
  (∃ mtimeMs, snapshot = snapshotOf hash mtimeMs opened) ∨
    ∃ sync ∈ syncs, snapshot = sync.baseline

theorem Known.append {syncs : List SyncRecord} {snapshot : RemoteFileSnapshot}
    (h : Known hash opened syncs snapshot) (new : List SyncRecord) :
    Known hash opened (syncs ++ new) snapshot :=
  h.imp_right fun ⟨sync, hsync, heq⟩ => ⟨sync, List.mem_append_left _ hsync, heq⟩

def MonitorStage.baseline? : MonitorStage → Option RemoteFileSnapshot
  | .metadata baseline _ | .content baseline _ _ => some baseline
  | .idle | .failed _ | .changed _ => none

structure Faithful (hash : Bytes → Text) (opened : Bytes) (run : EditRun) : Prop where
  running : run.running ≤ 1
  calls : ∀ stage ∈ run.calls, StageFills hash run.content run.remote stage
  faithful : run.IsFaithful hash opened
  baseline : Known hash opened run.syncs run.edit.baseline
  monitor : ∀ baseline, run.monitor.baseline? = some baseline →
    Known hash opened run.syncs baseline

theorem EditRun.IsFaithful.sameContent {mtimeMs : ℕ} (h : run.IsFaithful hash opened)
    (hknown : Known hash opened run.syncs (snapshotOf hash mtimeMs content)) :
    SameContent hash content opened ∨
      ∃ sync ∈ run.syncs, SameContent hash content sync.remote := by
  -- equal snapshots have equal digests and sizes
  have hsame : ∀ {other mtimeMs'}, snapshotOf hash mtimeMs content = snapshotOf hash mtimeMs' other →
      SameContent hash content other := fun heq =>
    ⟨congrArg RemoteFileSnapshot.contentHash heq, congrArg RemoteFileSnapshot.size heq⟩
  refine hknown.imp (fun ⟨_, heq⟩ => hsame heq) fun ⟨sync, hsync, heq⟩ => ?_
  obtain ⟨_, hbaseline⟩ := h.synced sync hsync
  exact ⟨sync, hsync, hsame (heq.trans hbaseline)⟩

theorem calls_set (hrunning : run.running ≤ 1) (hget : run.calls[index]? = some stage)
    (hstage : stage.isRunning = true) (hstage' : StageFills hash content remote stage') :
    ∀ stage ∈ run.calls.set index stage', StageFills hash content remote stage := by
  intro other hother
  rcases mem_set_of_alone hrunning hget hstage other hother with rfl | hidle
  · exact hstage'
  · exact stageFills_of_not_running hidle

theorem Faithful.move (h : Faithful hash opened run) (hget : run.calls[index]? = some stage)
    (hguard : stage.givesUp call = true → run.remote = run.content)
    (hstep : run.callNext hash index stage call = some run') : Faithful hash opened run' := by
  have hfills := h.calls stage (List.mem_of_getElem? hget)
  obtain ⟨stage', hcalls, hstage'⟩ := stageFills_callNext hfills hguard hstep
  obtain ⟨hstage, hturn⟩ := callNext_turn hstep
  have hcalls' : ∀ stage ∈ run'.calls, StageFills hash run.content run'.remote stage := by
    rw [hcalls]
    exact calls_set h.running hget hstage hstage'
  have hret := running_ret hget hstage
  have hle : (run.ret index).running ≤ 1 := by
    have := h.running
    omega
  cases hturn with
  | on stage'' remote hstage'' =>
    refine ⟨?_, hcalls', ⟨h.faithful.synced, h.faithful.unchanged⟩, h.baseline, h.monitor⟩
    exact (running_setCall hget hstage hstage'').trans_le h.running
  | panicked hevent =>
    exact ⟨hle, hcalls', ⟨h.faithful.synced, h.faithful.unchanged⟩, h.baseline, h.monitor⟩
  | failed err =>
    exact ⟨hle, hcalls', ⟨h.faithful.synced, h.faithful.unchanged⟩, h.baseline, h.monitor⟩
  | finished version baseline now hfinishing =>
    -- the baseline is that of the remote file
    rw [hfinishing] at hfills
    refine ⟨hle, hcalls', ⟨fun sync hsync => ?_, fun content hcontent => ?_⟩, ?_, ?_⟩
    · rcases List.mem_append.mp hsync with hsync | hsync
      · exact h.faithful.synced sync hsync
      · rw [List.mem_singleton.mp hsync]
        exact hfills
    · exact (h.faithful.unchanged content hcontent).imp_right fun ⟨sync, hsync, hsame⟩ =>
        ⟨sync, List.mem_append_left _ hsync, hsame⟩
    · exact .inr ⟨_, List.mem_append_right _ (List.mem_singleton_self _), rfl⟩
    · exact fun baseline hbaseline => (h.monitor baseline hbaseline).append _

theorem Faithful.monitorAt {stage : MonitorStage} {edit : RemoteEditInstance}
    (h : Faithful hash opened run) (hbaseline : edit.baseline = run.edit.baseline)
    (hstage : ∀ baseline, stage.baseline? = some baseline →
      Known hash opened run.syncs baseline) :
    Faithful hash opened { run with monitor := stage, edit } where
  running := h.running
  calls := h.calls
  faithful := ⟨h.faithful.synced, h.faithful.unchanged⟩
  baseline := by
    show Known hash opened run.syncs edit.baseline
    rw [hbaseline]
    exact h.baseline
  monitor := hstage

theorem Faithful.compare {baseline : RemoteFileSnapshot} {ignored : Option Text} {mtimeMs now : ℕ}
    (h : Faithful hash opened run) (hknown : Known hash opened run.syncs baseline) :
    Faithful hash opened (run.compare hash baseline ignored mtimeMs now) := by
  unfold EditRun.compare
  dsimp only
  split
  · exact h.monitorAt rfl nofun
  · split
    · -- unchanged
      rename_i hsame
      rw [← hsame] at hknown
      have hidle : Faithful hash opened { run with monitor := .idle } := h.monitorAt rfl nofun
      refine ⟨hidle.running, hidle.calls, ⟨h.faithful.synced, fun content hcontent => ?_⟩,
        hidle.baseline, hidle.monitor⟩
      rcases List.mem_append.mp hcontent with hcontent | hcontent
      · exact h.faithful.unchanged content hcontent
      · rw [List.mem_singleton.mp hcontent]
        exact h.faithful.sameContent hknown
    · split
      · exact h.monitorAt rfl nofun
      · exact h.monitorAt rfl nofun

theorem Faithful.next {event : EditEvent} (h : Faithful hash opened run)
    (hguard : KeepsContent run event) (hstep : editNext hash run event = some run') :
    Faithful hash opened run' := by
  cases event with
  | confirm =>
    have hidle : run.running = 0 := hguard
    unfold editNext RemoteEditInstance.beginUpload at hstep
    dsimp only at hstep
    split at hstep
    · rename_i edit hbegin
      split at hbegin <;> cases hbegin
      cases hstep
      refine ⟨?_, fun stage hstage => ?_, ⟨h.faithful.synced, h.faithful.unchanged⟩, h.baseline,
        h.monitor⟩
      · show (run.calls ++ [ConfirmStage.begun]).countP (·.isRunning) ≤ 1
        rw [List.countP_append]
        show run.running + 1 ≤ 1
        omega
      · rcases List.mem_append.mp hstage with hstage | hstage
        · exact h.calls stage hstage
        · rw [List.mem_singleton.mp hstage]
          exact trivial
    · cases hstep
      exact ⟨h.running, h.calls, ⟨h.faithful.synced, h.faithful.unchanged⟩, h.baseline, h.monitor⟩
  | call index event =>
    obtain ⟨stage, hget, hcall⟩ := Option.bind_eq_some_iff.mp hstep
    refine h.move hget (fun hgives => hguard ?_) hcall
    rw [hget]
    exact hgives
  | dismiss =>
    cases hstep
    exact ⟨h.running, h.calls, ⟨h.faithful.synced, h.faithful.unchanged⟩, h.baseline, h.monitor⟩
  | monitor event =>
    change run.monitorNext hash event = some run' at hstep
    unfold EditRun.monitorNext at hstep
    split at hstep
    · split at hstep <;> cases hstep
      · exact h
      · refine h.monitorAt rfl fun baseline hbaseline => ?_
        cases hbaseline
        exact h.baseline
    · cases hstep
      exact h.monitorAt rfl nofun
    · rename_i hstage
      cases hstep
      refine h.monitorAt rfl fun baseline hbaseline => h.monitor baseline ?_
      rw [hstage]
      exact hbaseline
    · cases hstep
      exact h.monitorAt rfl nofun
    · rename_i hstage
      cases hstep
      exact h.compare (h.monitor _ (by rw [hstage]; rfl))
    · cases hstep
      exact h.monitorAt rfl nofun
    · cases hstep
      refine h.monitorAt ?_ nofun
      unfold RemoteEditInstance.changeDetected
      split <;> rfl
    · cases hstep
  | save content mtimeMs =>
    cases hstep
    refine ⟨h.running, fun stage hstage => ?_, ⟨h.faithful.synced, h.faithful.unchanged⟩,
      h.baseline, h.monitor⟩
    have hfills := h.calls stage hstage
    rcases hguard with rfl | hread
    · exact hfills
    · exact hfills.save (hread stage hstage) content

/-- **Synced means synced**, in every run in which the local file keeps its content from the first
read of an upload to the read of the baseline, and no upload gives up halfway or runs beside
another. -/
theorem isFaithful_of_keepsContent (hash : Bytes → Text) (snapshot : RemoteEditSnapshot)
    (mtimeMs : ℕ) (content : Bytes) (run : EditRun)
    (h : ((editMachine hash snapshot mtimeMs content).restrict KeepsContent).Reachable run) :
    run.IsFaithful hash content := by
  have hfaithful : Faithful hash content run := by
    refine Machine.Reachable.induct ?_ (fun _ _ _ _ hfaithful hstep => ?_) h
    · rintro _ rfl
      exact ⟨Nat.zero_le _, List.forall_mem_nil _, ⟨nofun, nofun⟩, .inl ⟨mtimeMs, rfl⟩, nofun⟩
    · exact hfaithful.next hstep.1 hstep.2
  exact hfaithful.faithful

/-- The editor saves before and after the upload. -/
theorem sampleSync_faithful : ∃ run, EditRun.IsFaithful sampleHash [] run ∧
    run.syncs = [⟨[97], snapshotOf sampleHash 1 [97]⟩] ∧ run.edit.status = .pendingConfirm := by
  have hrun : ∃ run, Machine.exec (fun run event =>
        if KeepsContent run event then editNext sampleHash run event else none)
        (.opened sampleHash sampleEdit 0 [])
        (sampleSave 1 [97] ++ [.confirm] ++ (sampleUpload 1).map (.call 0) ++ sampleSave 2 [98]) =
          some run ∧
      run.syncs = [⟨[97], snapshotOf sampleHash 1 [97]⟩] ∧ run.edit.status = .pendingConfirm :=
    ⟨_, rfl, rfl, rfl⟩
  obtain ⟨run, hexec, hrest⟩ := hrun
  have hreach := Machine.reachable_restrict (Machine.reachable_exec hexec)
  exact ⟨run, isFaithful_of_keepsContent sampleHash sampleEdit 0 [] run hreach, hrest⟩

def sampleCancelled : List CallEvent :=
  [.parameters, .stat (.ok ⟨some 0, some 0⟩), .upload .cancel, .upload (.sftpOpened (.ok none)),
    .upload (.localOpened none), .upload (.metadata (some 1)), .upload (.remoteOpened none),
    .upload (.copy .look), .uploaded]

/-- The upload is cancelled before anything is sent; the remote file is empty then, and the instance
`Synced`. -/
theorem sampleCancel_synced : ¬∀ run,
    (editMachine sampleHash sampleEdit 0 []).Reachable run → run.IsFaithful sampleHash [] := by
  intro h
  have hrun : ∃ run, Machine.exec (editNext sampleHash) (.opened sampleHash sampleEdit 0 [])
      (sampleSave 1 [97] ++ [.confirm] ++
        (sampleCancelled ++ sampleBaseline 0).map (.call 0)) = some run ∧
      run.syncs = [⟨[], snapshotOf sampleHash 1 [97]⟩] := ⟨_, rfl, rfl⟩
  obtain ⟨run, hexec, hsyncs⟩ := hrun
  have hsynced := (h run (Machine.reachable_exec hexec)).synced
  rw [hsyncs] at hsynced
  obtain ⟨mtimeMs, hbaseline⟩ := hsynced _ (List.mem_singleton_self _)
  cases congrArg RemoteFileSnapshot.size hbaseline

end FluxTerm.RemoteEdit
