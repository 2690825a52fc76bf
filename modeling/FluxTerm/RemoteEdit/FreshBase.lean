import FluxTerm.RemoteEdit.Open

/-!
# FluxTerm — a fresh base for remote editing

What the snapshot of an opened file says about its working copy, over many calls.

* **`KeepsBase`** — a clean working copy is not opened when the remote file has changed, and an
  upload or a download that is done is recorded; **`isFresh_of_keepsBase`** — then the base is
  always fresh.
* **`sampleReopen_stale`** — a clean working copy is opened after a change: the download goes to
  another name, and the old copy is taken for the new version.

The calls are described once by what they do to the workspace, **`CopyEffect`**.
-/

namespace FluxTerm.RemoteEdit

open FluxTerm.Engine FluxTerm.Lib FluxTerm.Sftp

/-! ## What is promised -/

/-- The record shows the content of its version, and the baseline is the snapshot of it. -/
def OpenedRecord.IsExact (contentOf : RemoteVersion → Bytes) (hash : Bytes → Text)
    (record : OpenedRecord) : Prop :=
  ∃ mtimeMs, record.copy = some ⟨contentOf record.remote, mtimeMs⟩ ∧
    record.baseline = some (snapshotOf hash mtimeMs (contentOf record.remote))

structure FileRun.IsFresh (contentOf : RemoteVersion → Bytes) (hash : Bytes → Text)
    (run : FileRun) : Prop where
  opened : ∀ record ∈ run.opened, record.IsExact contentOf hash
  overwritten : ∀ version origin, (version, origin) ∈ run.overwritten → origin = some version

/-! ## The condition -/

def Workspace.IsStale (hash : Bytes → Text) (file : EditedFile) (version : RemoteVersion)
    (ws : Workspace) : Bool :=
  match ws.files file.localPath, ws.entry with
  | some copy, some entry =>
    snapshotOf hash copy.mtimeMs copy.content = entry.baseline ∧ version ≠ entry.remote
  | _, _ => false

/-- A working copy that is downloaded is opened, and followed by a monitor. -/
def OpenOutcomes.Completes (file : EditedFile) (version : RemoteVersion)
    (outcomes : OpenOutcomes) : Prop :=
  match outcomes.download with
  | .finished _ => outcomes.rereadFault = none ∧ outcomes.openFault = none ∧
      outcomes.upsertFault = none ∧ isRemoteEntryEditableText file.fileName version.size = true
  | _ => True

instance (file : EditedFile) (version : RemoteVersion) (outcomes : OpenOutcomes) :
    Decidable (outcomes.Completes file version) := by
  unfold OpenOutcomes.Completes
  split <;> infer_instance

/-- An upload that returns `Ok` is whole, and is recorded. -/
def ConfirmOutcomes.Completes (contentOf : RemoteVersion → Bytes) (copy : Option LocalFile)
    (outcomes : ConfirmOutcomes) : Prop :=
  match outcomes.upload with
  | .cancelled version | .finished version =>
    (outcomes.restatFault = none ∧ outcomes.readFault = none ∧ outcomes.persistFault = none) ∧
      ∀ c ∈ copy, contentOf version = c.content
  | _ => True

instance (contentOf : RemoteVersion → Bytes) (copy : Option LocalFile)
    (outcomes : ConfirmOutcomes) : Decidable (outcomes.Completes contentOf copy) := by
  unfold ConfirmOutcomes.Completes
  split <;> infer_instance

def KeepsBase (contentOf : RemoteVersion → Bytes) (hash : Bytes → Text) (file : EditedFile)
    (run : FileRun) : FileEvent → Prop
  | .prepareOpen outcomes =>
    let ws := run.workspace.clean file outcomes.cleanup
    ws.IsStale hash file run.version = false ∧
      (ws.files file.localPath = none → run.edit.isSome = true →
        outcomes.Completes file run.version)
  | .confirmUpload outcomes => outcomes.Completes contentOf (run.copy file)
  -- no other content is given the snapshot of the baseline
  | .edit copy => ∀ c ∈ copy, ∀ entry ∈ run.workspace.entry,
      snapshotOf hash c.mtimeMs c.content = entry.baseline → c.content = contentOf entry.remote
  | _ => True

instance (contentOf : RemoteVersion → Bytes) (hash : Bytes → Text) (file : EditedFile)
    (run : FileRun) (event : FileEvent) : Decidable (KeepsBase contentOf hash file run event) := by
  unfold KeepsBase
  split <;> infer_instance

/-! ## The calls -/

variable {contentOf : RemoteVersion → Bytes} {hash : Bytes → Text} {file : EditedFile}
  {version : RemoteVersion} {outcomes : OpenOutcomes} {ws ws' : Workspace}

def Workspace.downloaded (contentOf : RemoteVersion → Bytes) (file : EditedFile)
    (version : RemoteVersion) (mtimeMs : ℕ) (ws : Workspace) : Workspace :=
  { { ws with entry := none }.write file.localPath (some ⟨contentOf version, mtimeMs⟩) with
    origin := some version }

@[simp] theorem Workspace.files_downloaded (mtimeMs : ℕ) :
    (ws.downloaded contentOf file version mtimeMs).files file.localPath =
      some ⟨contentOf version, mtimeMs⟩ := if_pos rfl

/-- What becomes of the workspace, and of the working copy. -/
inductive CopyEffect (contentOf : RemoteVersion → Bytes) (hash : Bytes → Text) (file : EditedFile)
    (version : RemoteVersion) (outcomes : OpenOutcomes) (ws : Workspace) :
    Workspace → Except EngineError (ℕ × RemoteFileSnapshot) → Prop where
  | failed (err : EngineError) : CopyEffect contentOf hash file version outcomes ws ws (.error err)
  | forgotten (err : EngineError) :
    CopyEffect contentOf hash file version outcomes ws { ws with entry := none } (.error err)
  | reused (copy : LocalFile) (entry : RemoteEditIndexEntry)
    (hcopy : ws.files file.localPath = some copy) (hentry : ws.entry = some entry)
    (hclean : snapshotOf hash copy.mtimeMs copy.content = entry.baseline)
    (hversion : version = entry.remote) :
    CopyEffect contentOf hash file version outcomes ws ws
      (.ok (entry.downloadedAt, entry.baseline))
  | downloaded (mtimeMs : ℕ) (hnone : ws.files file.localPath = none)
    (hdownload : outcomes.download = .finished mtimeMs) :
    CopyEffect contentOf hash file version outcomes ws
      (ws.downloaded contentOf file version mtimeMs)
      (.ok (outcomes.now, snapshotOf hash mtimeMs (contentOf version)))
  | unread (mtimeMs : ℕ) (err : EngineError) (hnone : ws.files file.localPath = none)
    (hdownload : outcomes.download = .finished mtimeMs)
    (hfault : outcomes.rereadFault = some err) :
    CopyEffect contentOf hash file version outcomes ws
      (ws.downloaded contentOf file version mtimeMs) (.error err)

theorem readSnapshot_ok {copy : LocalFile} (hcopy : ws.files file.localPath = some copy) :
    ws.readSnapshot hash file.localPath none =
      .ok (snapshotOf hash copy.mtimeMs copy.content) := by
  unfold Workspace.readSnapshot
  rw [hcopy]

theorem readSnapshot_fault {copy : LocalFile} {err : EngineError}
    (hcopy : ws.files file.localPath = some copy) :
    ws.readSnapshot hash file.localPath (some err) = .error err := by
  unfold Workspace.readSnapshot
  rw [hcopy]

theorem candidate_eq_zero (hnone : ws.files file.localPath = none)
    (havailable : ws.IsAvailable file.localPath outcomes.candidate) : outcomes.candidate = 0 := by
  by_contra hne
  exact havailable.1 0 (Nat.pos_of_ne_zero hne) hnone

theorem download_effect (hnone : ws.files file.localPath = none)
    (havailable : ws.IsAvailable file.localPath outcomes.candidate) :
    CopyEffect contentOf hash file version outcomes ws
      ({ ws with entry := none }.download contentOf hash file version outcomes).1
      ({ ws with entry := none }.download contentOf hash file version outcomes).2 := by
  have hzero := candidate_eq_zero hnone havailable
  unfold Workspace.download
  split
  · exact .forgotten _
  · -- the transfer was cancelled: there is nothing to read
    unfold Workspace.readSnapshot
    dsimp only
    rw [hnone]
    exact .forgotten _
  · rename_i mtimeMs hdownload
    dsimp only
    rw [hzero, show availablePath file.localPath 0 = file.localPath from rfl, if_pos rfl]
    show CopyEffect contentOf hash file version outcomes ws
      (ws.downloaded contentOf file version mtimeMs)
      (((ws.downloaded contentOf file version mtimeMs).readSnapshot hash file.localPath
        outcomes.rereadFault).map (outcomes.now, ·))
    cases hfault : outcomes.rereadFault with
    | none =>
      rw [readSnapshot_ok (Workspace.files_downloaded mtimeMs)]
      exact .downloaded mtimeMs hnone hdownload
    | some err =>
      rw [readSnapshot_fault (Workspace.files_downloaded mtimeMs)]
      exact .unread mtimeMs err hnone hdownload hfault

theorem workingCopy_effect (havailable : ws.IsAvailable file.localPath outcomes.candidate)
    (hfresh : ws.IsStale hash file version = false) :
    CopyEffect contentOf hash file version outcomes ws
      (ws.workingCopy contentOf hash file version outcomes).1
      (ws.workingCopy contentOf hash file version outcomes).2 := by
  unfold Workspace.workingCopy
  split
  · rename_i copy hcopy
    split
    · exact .failed _
    · rename_i entry hentry
      split
      · exact .failed _
      · unfold Workspace.shouldReuseLocalWorkspace
        cases hfault : outcomes.readFault with
        | some err =>
          rw [readSnapshot_fault hcopy]
          exact .failed _
        | none =>
          rw [readSnapshot_ok hcopy]
          dsimp only
          split
          · rename_i herr
            split at herr <;> cases herr
            exact .failed _
          · rename_i htrue
            split at htrue
            · cases htrue
            · rename_i hclean
              rw [Except.ok.injEq, decide_eq_true_eq] at htrue
              exact .reused copy entry hcopy hentry (not_not.mp hclean) htrue
          · -- the copy would be stale
            rename_i hfalse
            split at hfalse
            · cases hfalse
            · rename_i hclean
              rw [Except.ok.injEq, decide_eq_false_iff_not] at hfalse
              unfold Workspace.IsStale at hfresh
              rw [hcopy, hentry] at hfresh
              exact absurd ⟨not_not.mp hclean, hfalse⟩ (of_decide_eq_false hfresh)
  · rename_i hnone
    split
    · split
      · exact .failed _
      · exact download_effect hnone havailable
    · rename_i hentry
      have hsame : ws = { ws with entry := none } := by
        obtain ⟨files, entry, origin⟩ := ws
        cases entry with
        | none => rfl
        | some entry => exact absurd rfl hentry
      have heffect : CopyEffect contentOf hash file version outcomes ws _ _ :=
        download_effect hnone havailable
      rwa [← hsame] at heffect

/-! ## The invariant -/

/-- The entry is that of the version on which the working copy is based, and a clean copy has its
content. -/
def Workspace.IsBased (contentOf : RemoteVersion → Bytes) (hash : Bytes → Text)
    (file : EditedFile) (ws : Workspace) : Prop :=
  ∀ entry, ws.entry = some entry → ws.origin = some entry.remote ∧
    ∀ copy, ws.files file.localPath = some copy →
      snapshotOf hash copy.mtimeMs copy.content = entry.baseline →
      copy.content = contentOf entry.remote

theorem Workspace.IsBased.clean (h : ws.IsBased contentOf hash file) (cleanup : CacheCleanup) :
    (ws.clean file cleanup).IsBased contentOf hash file := by
  intro entry hentry
  change (if _ then none else ws.entry) = some entry at hentry
  split at hentry
  · cases hentry
  · refine ⟨(h entry hentry).1, fun copy hcopy => (h entry hentry).2 copy ?_⟩
    -- what the cleanup leaves is what was there
    change (if _ then none else ws.files file.localPath) = some copy at hcopy
    split at hcopy
    · cases hcopy
    · exact hcopy

variable {result : Except EngineError (ℕ × RemoteFileSnapshot)} {downloadedAt : ℕ}
  {baseline : RemoteFileSnapshot}

theorem CopyEffect.based (h : CopyEffect contentOf hash file version outcomes ws ws' result)
    (hbased : ws.IsBased contentOf hash file) : ws'.IsBased contentOf hash file := by
  cases h with
  | failed err => exact hbased
  | forgotten err => exact nofun
  | reused copy entry hcopy hentry hclean hversion => exact hbased
  | downloaded mtimeMs hnone hdownload => exact nofun
  | unread mtimeMs err hnone hdownload hfault => exact nofun

theorem CopyEffect.exact
    (h : CopyEffect contentOf hash file version outcomes ws ws' (.ok (downloadedAt, baseline)))
    (hbased : ws.IsBased contentOf hash file) :
    ws'.origin = some version ∧ ∃ mtimeMs,
      ws'.files file.localPath = some ⟨contentOf version, mtimeMs⟩ ∧
      baseline = snapshotOf hash mtimeMs (contentOf version) := by
  cases h with
  | reused copy entry hcopy hentry hclean hversion =>
    obtain ⟨horigin, hsame⟩ := hbased entry hentry
    have hcontent := hsame copy hcopy hclean
    subst hversion
    refine ⟨horigin, copy.mtimeMs, ?_, ?_⟩
    · rw [hcopy, ← hcontent]
    · rw [← hcontent, hclean]
  | downloaded mtimeMs hnone hdownload =>
    exact ⟨rfl, mtimeMs, Workspace.files_downloaded mtimeMs, rfl⟩

theorem CopyEffect.origin (h : CopyEffect contentOf hash file version outcomes ws ws' result) :
    ws'.origin = ws.origin ∨ ws.files file.localPath = none ∧
      (∃ mtimeMs, outcomes.download = .finished mtimeMs) ∧
      ∀ err, result = .error err → outcomes.rereadFault ≠ none := by
  cases h with
  | failed err => exact .inl rfl
  | forgotten err => exact .inl rfl
  | reused copy entry hcopy hentry hclean hversion => exact .inl rfl
  | downloaded mtimeMs hnone hdownload => exact .inr ⟨hnone, ⟨mtimeMs, hdownload⟩, nofun⟩
  | unread mtimeMs err hnone hdownload hfault =>
    exact .inr ⟨hnone, ⟨mtimeMs, hdownload⟩, fun _ _ => by rw [hfault]; exact nofun⟩

/-- What the call does. -/
inductive OpenEffect (contentOf : RemoteVersion → Bytes) (hash : Bytes → Text) (file : EditedFile)
    (version : RemoteVersion) (outcomes : OpenOutcomes) (ws : Workspace) :
    Workspace → Except EngineError (RemoteEditSnapshot × Option RemoteEditInstance) → Prop where
  | failed (ws' : Workspace) (err : EngineError)
    (hcopy : CopyEffect contentOf hash file version outcomes ws ws' (.error err)) :
    OpenEffect contentOf hash file version outcomes ws ws' (.error err)
  | unopened (ws' : Workspace) (downloadedAt : ℕ) (baseline : RemoteFileSnapshot)
    (err : EngineError)
    (hcopy : CopyEffect contentOf hash file version outcomes ws ws' (.ok (downloadedAt, baseline)))
    (hfault : outcomes.openFault ≠ none ∨ outcomes.upsertFault ≠ none) :
    OpenEffect contentOf hash file version outcomes ws ws' (.error err)
  | opened (ws' : Workspace) (downloadedAt : ℕ) (baseline : RemoteFileSnapshot)
    (snapshot : RemoteEditSnapshot)
    (hcopy : CopyEffect contentOf hash file version outcomes ws ws' (.ok (downloadedAt, baseline)))
    (hsnapshot :
      snapshot = file.snapshot outcomes.sessionId version downloadedAt outcomes.now) :
    OpenEffect contentOf hash file version outcomes ws
      { ws' with entry := some (file.entry snapshot baseline) }
      (.ok (snapshot, if snapshot.trackChanges then some ⟨snapshot, baseline, none, none⟩ else none))

theorem prepareOpen_effect
    (havailable : (ws.clean file outcomes.cleanup).IsAvailable file.localPath outcomes.candidate)
    (hfresh : (ws.clean file outcomes.cleanup).IsStale hash file version = false) :
    OpenEffect contentOf hash file version outcomes (ws.clean file outcomes.cleanup)
      (prepareOpen contentOf hash file version outcomes ws).1
      (prepareOpen contentOf hash file version outcomes ws).2 := by
  unfold prepareOpen
  dsimp only
  split
  · exact .failed _ _ (.failed _)
  · exact .failed _ _ (.failed _)
  · split
    · exact .failed _ _ (.failed _)
    · split
      · exact .failed _ _ (.failed _)
      · exact .failed _ _ (.failed _)
      · have heffect : CopyEffect contentOf hash file version outcomes _ _ _ :=
          workingCopy_effect havailable hfresh
        split
        · rename_i ws' err hcopy
          rw [hcopy] at heffect
          exact .failed ws' err heffect
        · rename_i ws' downloadedAt baseline hcopy
          rw [hcopy] at heffect
          unfold finishOpen
          dsimp only
          split
          · rename_i err hfault
            exact .unopened _ _ _ err heffect (.inl (by rw [hfault]; exact nofun))
          · rename_i err _ hfault
            exact .unopened _ _ _ err heffect (.inr (by rw [hfault]; exact nofun))
          · exact .opened _ _ _ _ heffect rfl

/-- The workspace, the instance and the log agree on the base. -/
structure Based (contentOf : RemoteVersion → Bytes) (hash : Bytes → Text) (file : EditedFile)
    (run : FileRun) : Prop where
  workspace : run.workspace.IsBased contentOf hash file
  edit : ∀ edit, run.edit = some edit → run.workspace.origin = some edit.snapshot.remote
  fresh : run.IsFresh contentOf hash

variable {run run' : FileRun}

theorem OpenOutcomes.Completes.finished {mtimeMs : ℕ} (h : outcomes.Completes file version)
    (hdownload : outcomes.download = .finished mtimeMs) :
    outcomes.rereadFault = none ∧ outcomes.openFault = none ∧ outcomes.upsertFault = none ∧
      isRemoteEntryEditableText file.fileName version.size = true := by
  unfold OpenOutcomes.Completes at h
  rwa [hdownload] at h

theorem Based.prepareOpen (h : Based contentOf hash file run)
    (havailable : (run.workspace.clean file outcomes.cleanup).IsAvailable file.localPath
      outcomes.candidate)
    (hguard : KeepsBase contentOf hash file run (.prepareOpen outcomes)) :
    Based contentOf hash file (run.prepareOpen contentOf hash file outcomes) := by
  obtain ⟨hfresh, hcompletes⟩ := hguard
  have hbased : Workspace.IsBased contentOf hash file _ := h.workspace.clean outcomes.cleanup
  have heffect : OpenEffect contentOf hash file run.version outcomes _ _ _ :=
    prepareOpen_effect havailable hfresh
  -- an instance that is there keeps its base, or the call gets through to a new one
  have hkeep : ∀ {ws' result}, CopyEffect contentOf hash file run.version outcomes
        (run.workspace.clean file outcomes.cleanup) ws' result →
      ∀ edit, run.edit = some edit → ws'.origin = some edit.snapshot.remote ∨
        ((∀ err, result = .error err → False) ∧ outcomes.openFault = none ∧
          outcomes.upsertFault = none ∧
          isRemoteEntryEditableText file.fileName run.version.size = true) := by
    intro ws' result hcopy edit hedit
    rcases hcopy.origin with horigin | ⟨hnone, ⟨mtimeMs, hdownload⟩, hreread⟩
    · exact .inl (horigin.trans (h.edit edit hedit))
    · have hdone := (hcompletes hnone (by rw [hedit]; rfl)).finished hdownload
      exact .inr ⟨fun err herr => hreread err herr hdone.1, hdone.2⟩
  unfold FileRun.prepareOpen
  generalize RemoteEdit.prepareOpen contentOf hash file run.version outcomes run.workspace = p
    at heffect ⊢
  obtain ⟨ws', result⟩ := p
  cases heffect with
  | failed _ err hcopy =>
    refine ⟨hcopy.based hbased, fun edit hedit => ?_, ⟨h.fresh.opened, h.fresh.overwritten⟩⟩
    exact (hkeep hcopy edit hedit).resolve_right fun hdone => hdone.1 err rfl
  | unopened _ downloadedAt baseline err hcopy hfault =>
    refine ⟨hcopy.based hbased, fun edit hedit => ?_, ⟨h.fresh.opened, h.fresh.overwritten⟩⟩
    exact (hkeep hcopy edit hedit).resolve_right fun hdone =>
      hfault.elim (fun hopen => hopen hdone.2.1) fun hupsert => hupsert hdone.2.2.1
  | opened ws' downloadedAt baseline snapshot hcopy hsnapshot =>
    obtain ⟨horigin, mtimeMs, hfile, hbaseline⟩ := hcopy.exact hbased
    have hremote : snapshot.remote = run.version := by rw [hsnapshot]; rfl
    refine ⟨fun entry hentry => ?_, fun edit hedit => ?_,
      ⟨fun record hrecord => ?_, h.fresh.overwritten⟩⟩
    · cases hentry
      refine ⟨horigin.trans (congrArg some hremote.symm), fun copy hcopy _ => ?_⟩
      have heq := hcopy.symm.trans hfile
      cases heq
      show contentOf run.version = contentOf snapshot.remote
      rw [hremote]
    · change (_ <|> run.edit) = some edit at hedit
      show ws'.origin = some edit.snapshot.remote
      by_cases htrack : snapshot.trackChanges = true
      · -- the new instance
        rw [if_pos htrack] at hedit
        cases hedit
        exact horigin.trans (congrArg some hremote.symm)
      · rw [if_neg htrack] at hedit
        refine (hkeep hcopy edit hedit).resolve_right fun hdone => htrack ?_
        rw [hsnapshot]
        exact hdone.2.2.2
    · rcases List.mem_append.mp hrecord with hrecord | hrecord
      · exact h.fresh.opened record hrecord
      · rw [List.mem_singleton.mp hrecord]
        refine ⟨mtimeMs, ?_, ?_⟩
        · show ws'.files file.localPath = some ⟨contentOf snapshot.remote, mtimeMs⟩
          rw [hremote, hfile]
        · show some baseline = some (snapshotOf hash mtimeMs (contentOf snapshot.remote))
          rw [hremote, hbaseline]

/-! ## The upload -/

variable {confirm : ConfirmOutcomes} {edit : RemoteEditInstance} {copy : LocalFile}

theorem Based.fail (h : Based contentOf hash file run)
    (hedit : run.workspace.origin = some edit.snapshot.remote) (err : EngineError) :
    Based contentOf hash file (run.fail edit err) := by
  refine ⟨h.workspace, fun edit' hedit' => ?_, ⟨h.fresh.opened, h.fresh.overwritten⟩⟩
  cases hedit'
  exact hedit

theorem Based.overwrite (h : Based contentOf hash file run)
    (horigin : run.workspace.origin = some run.version) (version : RemoteVersion) :
    Based contentOf hash file (run.overwrite version) := by
  refine ⟨h.workspace, h.edit, ⟨h.fresh.opened, fun overwritten origin hmem => ?_⟩⟩
  rcases List.mem_append.mp hmem with hmem | hmem
  · exact h.fresh.overwritten overwritten origin hmem
  · cases List.mem_singleton.mp hmem
    exact horigin

theorem Based.uploaded (h : Based contentOf hash file run)
    (hcopy : run.copy file = some copy) (hcontent : contentOf run.version = copy.content)
    (hfaults : confirm.restatFault = none ∧ confirm.readFault = none ∧
      confirm.persistFault = none) :
    Based contentOf hash file (run.uploaded contentOf hash file edit copy confirm) := by
  unfold FileRun.uploaded
  rw [if_pos hcontent, hfaults.1, hfaults.2.1, hfaults.2.2]
  dsimp only
  have hread : Workspace.readSnapshot hash
      { run.workspace with origin := some run.version } file.localPath none =
      .ok (snapshotOf hash copy.mtimeMs copy.content) := readSnapshot_ok hcopy
  rw [hread]
  refine ⟨fun entry hentry => ?_, fun edit' hedit' => ?_, ⟨h.fresh.opened, h.fresh.overwritten⟩⟩
  · cases hentry
    refine ⟨rfl, fun copy' hcopy' _ => ?_⟩
    have heq := hcopy'.symm.trans hcopy
    cases heq
    exact hcontent.symm
  · cases hedit'
    rfl

theorem Based.confirmUpload (h : Based contentOf hash file run)
    (hguard : confirm.Completes contentOf (run.copy file))
    (hstep : run.confirmUpload contentOf hash file confirm = some run') :
    Based contentOf hash file run' := by
  unfold FileRun.confirmUpload at hstep
  split at hstep
  · cases hstep
    exact h
  · rename_i edit hbind
    obtain ⟨edit₀, hedit₀, hbegin⟩ := Option.bind_eq_some_iff.mp hbind
    have hedit : run.workspace.origin = some edit.snapshot.remote := by
      have horigin := h.edit edit₀ hedit₀
      unfold RemoteEditInstance.beginUpload at hbegin
      split at hbegin <;> cases hbegin
      exact horigin
    split at hstep
    · cases hstep
      exact h.fail hedit _
    · split at hstep
      · cases hstep
        exact h.fail hedit _
      · rename_i hversion
        have horigin : run.workspace.origin = some run.version := by
          rw [hedit, not_not.mp hversion]
        unfold ConfirmOutcomes.Completes at hguard
        split at hstep
        · cases hstep
          exact h.fail hedit _
        · cases hstep
          exact (h.overwrite horigin _).fail hedit _
        · -- cancelled, but all is there
          rename_i copy version hcopy hupload
          rw [hupload] at hguard
          cases hstep
          exact (h.overwrite horigin version).uploaded hcopy (hguard.2 copy hcopy) hguard.1
        · rename_i copy version hcopy hupload
          rw [hupload] at hguard
          split at hstep
          · cases hstep
            exact (h.overwrite horigin version).uploaded hcopy (hguard.2 copy hcopy) hguard.1
          · cases hstep
        · cases hstep

theorem remote_monitor (run : FileRun) (now : ℕ) (readFault : Option EngineError)
    (edit : RemoteEditInstance) :
    (run.monitor hash file now readFault edit).snapshot.remote = edit.snapshot.remote := by
  unfold FileRun.monitor
  split
  · rfl
  · split
    · rfl
    · split
      · rfl
      · unfold RemoteEditInstance.changeDetected
        split <;> rfl

theorem Based.onEdit (h : Based contentOf hash file run) {change : RemoteEditInstance → RemoteEditInstance}
    (hchange : ∀ edit, (change edit).snapshot.remote = edit.snapshot.remote) :
    Based contentOf hash file { run with edit := run.edit.map change } := by
  refine ⟨h.workspace, fun edit hedit => ?_, ⟨h.fresh.opened, h.fresh.overwritten⟩⟩
  obtain ⟨edit₀, hedit₀, rfl⟩ := Option.map_eq_some_iff.mp hedit
  rw [hchange]
  exact h.edit edit₀ hedit₀

theorem Based.next {event : FileEvent}
    (h : Based contentOf hash file run) (hguard : KeepsBase contentOf hash file run event)
    (hstep : run.next contentOf hash file event = some run') : Based contentOf hash file run' := by
  cases event with
  | prepareOpen outcomes =>
    unfold FileRun.next at hstep
    dsimp only at hstep
    split at hstep <;> cases hstep
    rename_i havailable
    exact h.prepareOpen havailable hguard
  | confirmUpload outcomes => exact h.confirmUpload hguard hstep
  | dismissPending =>
    cases hstep
    exact h.onEdit fun edit => rfl
  | monitor now readFault =>
    cases hstep
    exact h.onEdit (remote_monitor run now readFault)
  | removed =>
    cases hstep
    refine ⟨h.workspace, fun edit hedit => ?_, ⟨h.fresh.opened, h.fresh.overwritten⟩⟩
    cases hedit
  | remoteChange version =>
    cases hstep
    exact ⟨h.workspace, h.edit, ⟨h.fresh.opened, h.fresh.overwritten⟩⟩
  | edit copy =>
    cases hstep
    refine ⟨fun entry hentry => ⟨(h.workspace entry hentry).1, fun c hc => ?_⟩, h.edit,
      ⟨h.fresh.opened, h.fresh.overwritten⟩⟩
    change (if file.localPath = file.localPath then copy else _) = some c at hc
    rw [if_pos rfl] at hc
    exact hguard c hc entry hentry

/-- **Never a stale base**, in every run in which no clean working copy is opened while the remote
file is at another version than the index, and what is uploaded or downloaded is recorded. -/
theorem isFresh_of_keepsBase (contentOf : RemoteVersion → Bytes) (hash : Bytes → Text)
    (file : EditedFile) (version : RemoteVersion) (run : FileRun)
    (h : ((fileMachine contentOf hash file version).restrict
      (KeepsBase contentOf hash file)).Reachable run) : run.IsFresh contentOf hash := by
  have hbased : Based contentOf hash file run := by
    refine Machine.Reachable.induct ?_ (fun _ _ _ _ hbased hstep => ?_) h
    · rintro _ rfl
      refine ⟨fun entry hentry => ?_, fun edit hedit => ?_, ⟨List.forall_mem_nil _, nofun⟩⟩
      · cases hentry
      · cases hedit
    · exact hbased.next hstep.1 hstep.2
  exact hbased.fresh

/-! ## A file of one letter -/

def sampleContent (version : RemoteVersion) : Bytes :=
  if version.mtime = some 0 then [97] else [98]

def sampleFile : EditedFile where
  target := ⟨"h".toList, "u".toList, 22⟩
  remotePath := "/a.txt".toList
  fileName := "a.txt".toList
  instanceId := "i".toList
  localPath := "/c/a.txt".toList

def sampleOpen (candidate : ℕ) : FileEvent :=
  .prepareOpen ⟨"s".toList, ⟨[], false, none⟩, none, true, none, none, none, none, candidate,
    .finished 0, none, none, none, 0⟩

def sampleEdits : List FileEvent :=
  [sampleOpen 0, .edit (some ⟨[98], 1⟩), .monitor (1 + remoteEditQuietWindowMs) none,
    .confirmUpload ⟨none, .finished ⟨some 1, some 1⟩, none, none, none, 1⟩, sampleOpen 1]

theorem sampleEdits_fresh : ∃ run, FileRun.IsFresh sampleContent sampleHash run ∧
    run.overwritten = [(⟨some 0, some 1⟩, some ⟨some 0, some 1⟩)] ∧
    run.opened.map (·.remote) = [⟨some 0, some 1⟩, ⟨some 1, some 1⟩] := by
  have hrun : ∃ run, Machine.exec (fun run event =>
        if KeepsBase sampleContent sampleHash sampleFile run event then
          run.next sampleContent sampleHash sampleFile event
        else none) (.start ⟨some 0, some 1⟩) sampleEdits = some run ∧
      run.overwritten = [(⟨some 0, some 1⟩, some ⟨some 0, some 1⟩)] ∧
      run.opened.map (·.remote) = [⟨some 0, some 1⟩, ⟨some 1, some 1⟩] := ⟨_, rfl, rfl, rfl⟩
  obtain ⟨run, hexec, hrest⟩ := hrun
  have hreach := Machine.reachable_restrict (Machine.reachable_exec hexec)
  exact ⟨run, isFresh_of_keepsBase sampleContent sampleHash sampleFile _ run hreach, hrest⟩

/-- The file is opened, changes at the server, and is opened again. -/
theorem sampleReopen_stale : ¬∀ run,
    (fileMachine sampleContent sampleHash sampleFile ⟨some 0, some 1⟩).Reachable run →
      run.IsFresh sampleContent sampleHash := by
  intro h
  have hrun : ∃ run, Machine.exec (FileRun.next sampleContent sampleHash sampleFile)
        (.start ⟨some 0, some 1⟩) [sampleOpen 0, .remoteChange ⟨some 1, some 1⟩, sampleOpen 1] =
        some run ∧
      run.opened[1]? = some ⟨⟨some 1, some 1⟩, some ⟨[97], 0⟩,
        some (snapshotOf sampleHash 0 [97])⟩ := ⟨_, rfl, rfl⟩
  obtain ⟨run, hexec, hopened⟩ := hrun
  obtain ⟨mtimeMs, hcopy, -⟩ :=
    (h run (Machine.reachable_exec hexec)).opened _ (List.mem_of_getElem? hopened)
  cases hcopy

end FluxTerm.RemoteEdit
