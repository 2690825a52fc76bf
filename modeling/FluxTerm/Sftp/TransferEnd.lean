import FluxTerm.Sftp.DownloadDir
import FluxTerm.Sftp.TransferState
import FluxTerm.Sftp.Upload
import FluxTerm.Sftp.UploadPaths

/-!
# FluxTerm — transfers end in the user interface

The four transfers of `crates/engine/src/sftp.rs` together. Three of them close their log whatever
fails. `sftp_upload` closes it as long as nothing fails once it has started; what fails then is
returned as an error, and no event tells of it.

* **`transfers_endInUi`** — the four of them.
-/

namespace FluxTerm.Sftp

open FluxTerm.Engine FluxTerm.Lib

variable {σ α : Type} {m : Machine σ α} {log : σ → List SftpProgress} {phase : σ → Phase}
  {identity : SftpConnectionIdentity} {s : σ}

theorem not_isFinal_iff {progress : SftpProgress} :
    progress.isFinal = false ↔ progress.status = .running := bne_eq_false_iff_eq

theorem endsInUi_of_reports
    (hreports : Reports m log (SftpProgress.IsOf identity) SftpProgress.isFinal phase)
    (hs : m.Reachable s) (hover : phase s = .ended) : EndsInUi identity (log s) := by
  intro hrunning
  have hspec := hreports.log_spec hs
  rw [hover] at hspec
  rcases hspec with hnil | ⟨reports, last, -, hlog, hbefore, hlast⟩
  · obtain ⟨e, he, -⟩ := hrunning
    rw [hnil] at he
    cases he
  · refine .of_closed (hreports.own_of_mem hs) hlog (fun e he => ?_) (bne_iff_ne.mp hlast)
    exact not_isFinal_iff.mp (hbefore e he)

theorem UploadJob.LeftOpen.not_endsInUi {job : UploadJob} (h : job.LeftOpen) :
    ¬EndsInUi identity job.events := by
  obtain ⟨-, hne, hreports⟩ := h
  intro hends
  obtain ⟨e, he⟩ := List.exists_mem_of_ne_nil _ hne
  obtain ⟨reports, last, hevents, -, hlast⟩ :=
    (hends ⟨e, he, not_isFinal_iff.mp (hreports e he)⟩).closed
  have hmem : last ∈ job.events := by
    rw [hevents]
    exact List.mem_append_right _ (List.mem_singleton_self last)
  exact hlast (not_isFinal_iff.mp (hreports last hmem))

/-- **An upload that is over ends in the user interface exactly when its steps were good.** -/
theorem sftpUpload_endsInUi_iff {args : UploadArgs} {job : UploadJob}
    (h : (sftpUpload args).Reachable job) (hover : job.phase.phase = .ended) :
    EndsInUi args.identity job.events ↔
      ((sftpUpload args).restrict UploadJob.IsGood).Reachable job := by
  refine ⟨fun hends => ?_, fun hgood => endsInUi_of_reports (sftpUpload_reports args) hgood hover⟩
  rcases sftpUpload_good_or_leftOpen h with hgood | hopen
  · exact hgood
  · exact absurd hends hopen.not_endsInUi

/-- **Transfers end in the user interface.** In every run of the four transfers that has returned:
a single-file upload has ended in the user interface exactly when nothing failed after its start,
and the three others have in any case. And a transfer that has not returned can always go on, by
another step than the setting of its flag. -/
theorem transfers_endInUi (upload : UploadArgs) (paths : UploadPathsArgs) (download : DownloadArgs)
    (dir : DownloadDirArgs) :
    ((∀ job, (sftpUpload upload).Reachable job → job.phase.phase = .ended →
        (EndsInUi upload.identity job.events ↔
          ((sftpUpload upload).restrict UploadJob.IsGood).Reachable job)) ∧
      (∀ job, (sftpUploadPaths paths).Reachable job → job.phase.phase = .ended →
        EndsInUi paths.identity job.batch.events) ∧
      (∀ job, (sftpDownload download).Reachable job → job.phase.phase = .ended →
        EndsInUi download.identity job.events) ∧
      ∀ job, (sftpDownloadDir dir).Reachable job → job.phase.phase = .ended →
        EndsInUi dir.identity job.batch.events) ∧
    (∀ job, job.phase.phase ≠ .ended →
        ∃ event job', job.IsGood event ∧ event ≠ .cancel ∧
          (sftpUpload upload).step job event job') ∧
      (∀ job, job.phase.phase ≠ .ended →
        ∃ event job', event ≠ .cancel ∧ (sftpUploadPaths paths).step job event job') ∧
      (∀ job, job.phase.phase ≠ .ended →
        ∃ event job', event ≠ .cancel ∧ (sftpDownload download).step job event job') ∧
      ∀ job, job.phase.phase ≠ .ended →
        ∃ event job', event ≠ .cancel ∧ (sftpDownloadDir dir).step job event job' := by
  refine ⟨⟨fun job => sftpUpload_endsInUi_iff, fun job h hover => ?_, fun job h hover => ?_,
    fun job h hover => ?_⟩, exists_sftpUploadStep upload, exists_sftpUploadPathsStep paths,
    exists_sftpDownloadStep download, exists_sftpDownloadDirStep dir⟩
  · have hends := endsInUi_of_reports (sftpUploadPaths_reports paths) h hover
    exact hends
  · have hends := endsInUi_of_reports (sftpDownload_reports download) h hover
    exact hends
  · have hends := endsInUi_of_reports (sftpDownloadDir_reports dir) h hover
    exact hends

/-! ## An upload that succeeds, and one that fails -/

def sampleUpload : UploadArgs :=
  ⟨⟨"session".toList, "sftp-1".toList⟩, "/home/user/notes".toList, "/srv/notes".toList⟩

def sampleUploadStart (answer : Option String) : List UploadJobEvent :=
  [.sftpOpened (.ok none), .localOpened none, .metadata (some 3), .remoteOpened answer]

def sampleUploadRest : List UploadJobEvent :=
  [.copy .look, .copy (.read (.ok 3)), .copy .spawn, .copy .look, .copy (.read (.ok 0)),
    .copy (.joined 0 .written), .copy (.closed none)]

def sampleUploadDone : Option UploadJob :=
  Machine.exec (fun job event => if job.IsGood event then sftpUploadStep sampleUpload job event
    else none) ⟨.openSftp, false, []⟩ (sampleUploadStart none ++ sampleUploadRest)

/-- An upload of three bytes runs, succeeds, and leaves nothing behind. -/
theorem sampleUpload_settled :
    ∃ job, (sftpUpload sampleUpload).Reachable job ∧
      job.events.map SftpProgress.status = [.running, .running, .success] ∧
      Settled sampleUpload.identity job.events := by
  have hdone : sampleUploadDone.map (fun job =>
      (job.phase.phase, job.events.map SftpProgress.status)) =
      some (.ended, [.running, .running, .success]) := by decide
  obtain ⟨job, hjob, hspec⟩ := Option.map_eq_some_iff.mp hdone
  obtain ⟨hover, hstatus⟩ := Prod.mk.inj hspec
  have hgood : ((sftpUpload sampleUpload).restrict UploadJob.IsGood).Reachable job :=
    Machine.reachable_restrict (Machine.reachable_exec hjob)
  have hreachable := hgood.of_restrict
  have hrunning : SftpTransferStatus.running ∈ job.events.map SftpProgress.status := by
    rw [hstatus]
    decide
  refine ⟨job, hreachable, hstatus, ?_⟩
  have hends := (transfers_endInUi sampleUpload ⟨sampleUpload.identity, [], []⟩
    ⟨sampleUpload.identity, [], []⟩ ⟨sampleUpload.identity, [], []⟩).1.1 job hreachable hover
  exact hends.mpr hgood (List.mem_map.mp hrunning)

/-- **The upload that is never over.** The server refuses to open the remote file: the transfer was
reported as running, and is never reported again. -/
theorem refusedUpload_stays :
    ¬∀ args job, (sftpUpload args).Reachable job → job.phase.phase = .ended →
      EndsInUi args.identity job.events := by
  intro hall
  have hrefused : (Machine.exec (sftpUploadStep sampleUpload) ⟨.openSftp, false, []⟩
      (sampleUploadStart (some "permission denied"))).map (fun job =>
        (job.phase.phase, job.events.map SftpProgress.isFinal)) =
      some (.ended, [false]) := by decide
  obtain ⟨job, hjob, hspec⟩ := Option.map_eq_some_iff.mp hrefused
  obtain ⟨hover, hfinal⟩ := Prod.mk.inj hspec
  obtain ⟨event, hevents, hevent⟩ := List.map_eq_singleton_iff.mp hfinal
  have hopen : job.LeftOpen := by
    refine ⟨hover, by simp [hevents], fun e he => ?_⟩
    rw [hevents] at he
    rw [List.mem_singleton.mp he]
    exact hevent
  exact hopen.not_endsInUi (hall sampleUpload job (Machine.reachable_exec hjob) hover)

end FluxTerm.Sftp
