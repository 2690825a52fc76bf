import FluxTerm.Sftp.DownloadWindow

/-!
# FluxTerm — the windowed SFTP upload

The loop of `sftp_upload` and of `upload_local_file_to_remote` (`crates/engine/src/sftp.rs`): the
local file is read chunk by chunk, up to eight writes are in flight, and what is written is counted
as the writes come back. The two functions have the loop word for word and differ in what they make
of its end.
-/

namespace FluxTerm.Sftp

open FluxTerm.Engine FluxTerm.Lib

def sftpUploadFailedCode : String := "sftp_upload_failed"

def uploadWriteWindow : ℕ := 8

def defaultUploadChunkSize : ℕ := 128 * 1024

def maxUploadChunkSize : ℕ := 256 * 1024

def uploadChunkSize : Option ℕ → ℕ
  | some limit => if 0 < limit then min limit maxUploadChunkSize else defaultUploadChunkSize
  | none => defaultUploadChunkSize

inductive UploadStage where
  | head
  | reading
  /-- A chunk of `len` bytes is read; the window has to have room. -/
  | window (len : ℕ)
  | draining
deriving DecidableEq

/-- The variables of the loop. `inFlight` is the `JoinSet`: the lengths of the writes that have
been spawned and not yet joined. -/
structure UploadLoop where
  stage : UploadStage
  offset : ℕ
  transferred : ℕ
  inFlight : List ℕ
deriving DecidableEq

def UploadLoop.start : UploadLoop := ⟨.head, 0, 0, []⟩

inductive WriteOutcome where
  | written
  | failed (detail : String)
  | joinFailed (detail : String)
deriving DecidableEq

inductive UploadEvent where
  | look
  /-- `local.read`: the length read, zero at the end of the file. -/
  | read (result : Except String ℕ)
  /-- `join_next`: one of the writes in flight. -/
  | joined (index : ℕ) (outcome : WriteOutcome)
  | spawn
  /-- `sftp.close`, when nothing is in flight. -/
  | closed (fault : Option String)

inductive UploadTurn where
  /-- The loop goes on; `progress` is the new total when a write was acknowledged. -/
  | on (loop : UploadLoop) (progress : Option ℕ)
  | cancelled (transferred : ℕ)
  | failed (err : EngineError)
  | finished (transferred : ℕ)
deriving DecidableEq

def writeFailed (detail : String) : EngineError :=
  .withDetail sftpTransferFailedCode "Failed to write file data" detail

/-- The match on the result of a write of `len` bytes. -/
def UploadLoop.joined (loop : UploadLoop) (index len : ℕ) : WriteOutcome → UploadTurn
  | .written =>
    let transferred := loop.transferred + len
    .on { loop with transferred, inFlight := loop.inFlight.eraseIdx index } (some transferred)
  | .failed detail | .joinFailed detail => .failed (writeFailed detail)

/-- One step of the loop. `none` means that the event cannot happen here. -/
def uploadStep (chunkSize : ℕ) (cancelled : Bool) (loop : UploadLoop) (event : UploadEvent) :
    Option UploadTurn :=
  match loop.stage, event with
  | .head, .look =>
    if cancelled then some (.cancelled loop.transferred)
    else some (.on { loop with stage := .reading } none)
  | .reading, .read (.error detail) =>
    some (.failed (.withDetail sftpTransferFailedCode "Failed to read file data" detail))
  | .reading, .read (.ok len) =>
    if len = 0 then some (.on { loop with stage := .draining } none)
    else if len ≤ chunkSize then some (.on { loop with stage := .window len } none)
    else none
  | .window _, .joined index outcome =>
    if loop.inFlight.length < uploadWriteWindow then none
    else (loop.inFlight[index]?).map fun len => loop.joined index len outcome
  | .window len, .spawn =>
    if loop.inFlight.length < uploadWriteWindow then
      some (.on { loop with
        stage := .head
        offset := loop.offset + len
        inFlight := loop.inFlight ++ [len] } none)
    else none
  | .draining, .joined index outcome =>
    -- the flag is looked at before the result
    (loop.inFlight[index]?).map fun len =>
      if cancelled then .cancelled loop.transferred else loop.joined index len outcome
  | .draining, .closed fault =>
    if loop.inFlight = [] then
      match fault with
      | some detail =>
        some (.failed (.withDetail sftpUploadFailedCode "Failed to close the remote file" detail))
      | none => some (.finished loop.transferred)
    else none
  | _, _ => none

/-! ## Going on -/

def UploadEvent.IsGood (cancelled : Bool) (loop : UploadLoop) : UploadEvent → Prop
  | .read (.error _) | .closed (some _) => False
  | .joined _ (.failed _) | .joined _ (.joinFailed _) =>
    cancelled = true ∧ loop.stage = .draining
  | _ => True

instance (cancelled : Bool) (loop : UploadLoop) (event : UploadEvent) :
    Decidable (event.IsGood cancelled loop) := by
  unfold UploadEvent.IsGood
  split <;> infer_instance

variable {chunkSize : ℕ} {cancelled : Bool} {loop : UploadLoop} {event : UploadEvent}
  {turn : UploadTurn}

theorem uploadStep_failed_iff (h : uploadStep chunkSize cancelled loop event = some turn) :
    (∃ err, turn = .failed err) ↔ ¬event.IsGood cancelled loop := by
  obtain ⟨stage, offset, transferred, inFlight⟩ := loop
  unfold uploadStep at h
  split at h
  · split at h <;> cases h <;> simp [UploadEvent.IsGood]
  · cases h
    simp [UploadEvent.IsGood]
  · split at h
    · cases h
      simp [UploadEvent.IsGood]
    · split at h <;> cases h
      simp [UploadEvent.IsGood]
  · -- the window is full
    rename_i index outcome hstage
    split at h
    · cases h
    · obtain ⟨len, -, rfl⟩ := Option.map_eq_some_iff.mp h
      cases hstage
      cases outcome <;> simp [UploadLoop.joined, UploadEvent.IsGood]
  · split at h <;> cases h
    simp [UploadEvent.IsGood]
  · -- the writes are drained
    rename_i index outcome hstage
    obtain ⟨len, -, rfl⟩ := Option.map_eq_some_iff.mp h
    cases hstage
    cases cancelled <;> cases outcome <;> simp [UploadLoop.joined, UploadEvent.IsGood]
  · split at h
    · split at h <;> cases h <;> simp [UploadEvent.IsGood]
    · cases h
  · cases h

theorem exists_uploadStep (chunkSize : ℕ) (cancelled : Bool) (loop : UploadLoop) :
    ∃ event turn, event.IsGood cancelled loop ∧
      uploadStep chunkSize cancelled loop event = some turn := by
  obtain ⟨stage, offset, transferred, inFlight⟩ := loop
  cases stage with
  | head =>
    cases cancelled with
    | true => exact ⟨.look, _, trivial, rfl⟩
    | false => exact ⟨.look, _, trivial, rfl⟩
  | reading => exact ⟨.read (.ok 0), _, trivial, rfl⟩
  | window len =>
    by_cases hroom : inFlight.length < uploadWriteWindow
    · exact ⟨.spawn, _, trivial, if_pos hroom⟩
    · cases inFlight with
      | nil => exact absurd (by decide) hroom
      | cons first rest => exact ⟨.joined 0 .written, _, trivial, if_neg hroom⟩
  | draining =>
    cases inFlight with
    | nil => exact ⟨.closed none, _, trivial, rfl⟩
    | cons first rest => exact ⟨.joined 0 .written, _, trivial, rfl⟩

end FluxTerm.Sftp
