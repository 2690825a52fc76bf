import FluxTerm.Sftp.DownloadDir
import FluxTerm.Sftp.Upload
import FluxTerm.Sftp.UploadPaths

/-!
# FluxTerm — the transfer of a task

A task of a session runs one of the four transfers. **`TransferJob`** is any of them, with its
arguments; the session sets its flag by **`TransferJob.cancel`** and lets it go on by
**`TransferJob.next`**.
-/

namespace FluxTerm.Sftp

open FluxTerm.Lib

inductive TransferJob where
  | upload (args : UploadArgs) (job : UploadJob)
  | uploadPaths (args : UploadPathsArgs) (job : UploadPathsJob)
  | download (args : DownloadArgs) (job : DownloadJob)
  | downloadDir (args : DownloadDirArgs) (job : DownloadDirJob)

inductive TransferEvent where
  | upload (event : UploadJobEvent)
  | uploadPaths (event : UploadPathsEvent)
  | download (event : DownloadJobEvent)
  | downloadDir (event : DownloadDirEvent)

inductive TransferRequest where
  | upload (localPath remotePath : Text)
  | uploadPaths (localPaths : List Text) (remoteDir : Text)
  | download (remotePath localPath : Text)
  | downloadDir (remotePath localDir : Text)
deriving DecidableEq

/-- The transfer before its first step. -/
def TransferRequest.start (request : TransferRequest) (identity : SftpConnectionIdentity) :
    TransferJob :=
  match request with
  | upload localPath remotePath => .upload ⟨identity, localPath, remotePath⟩ ⟨.openSftp, false, []⟩
  | uploadPaths localPaths remoteDir =>
    let args : UploadPathsArgs := ⟨identity, localPaths, remoteDir⟩
    .uploadPaths args args.start
  | download remotePath localPath =>
    .download ⟨identity, remotePath, localPath⟩ ⟨.openSftp, false, []⟩
  | downloadDir remotePath localDir => .downloadDir ⟨identity, remotePath, localDir⟩ .start

namespace TransferJob

def cancel : TransferJob → TransferJob
  | upload args job => upload args { job with cancelFlag := true }
  | uploadPaths args job =>
    uploadPaths args { job with batch := { job.batch with cancelFlag := true } }
  | download args job => download args { job with cancelFlag := true }
  | downloadDir args job =>
    downloadDir args { job with batch := { job.batch with cancelFlag := true } }

/-- One step of the transfer. The flag is set by the session, not by the transfer. -/
def next (transfer : TransferJob) (event : TransferEvent) : Option TransferJob :=
  match transfer, event with
  | upload _ _, .upload .cancel | uploadPaths _ _, .uploadPaths .cancel
  | download _ _, .download .cancel | downloadDir _ _, .downloadDir .cancel => none
  | upload args job, .upload event => (sftpUploadStep args job event).map (upload args)
  | uploadPaths args job, .uploadPaths event =>
    (sftpUploadPathsStep args job event).map (uploadPaths args)
  | download args job, .download event => (sftpDownloadStep args job event).map (download args)
  | downloadDir args job, .downloadDir event =>
    (sftpDownloadDirStep args job event).map (downloadDir args)
  | _, _ => none

def events : TransferJob → List SftpProgress
  | upload _ job => job.events
  | uploadPaths _ job => job.batch.events
  | download _ job => job.events
  | downloadDir _ job => job.batch.events

def phase : TransferJob → Phase
  | upload _ job => job.phase.phase
  | uploadPaths _ job => job.phase.phase
  | download _ job => job.phase.phase
  | downloadDir _ job => job.phase.phase

end TransferJob

end FluxTerm.Sftp
