import FluxTerm.Engine.Error
import FluxTerm.Lib.Machine
import FluxTerm.Lib.OrdMap

/-!
# FluxTerm — the windowed SFTP download

`download_remote_file_to_local_pipelined` (`crates/engine/src/sftp.rs`) keeps up to eight reads of
a remote file in flight, puts what comes back into an ordered map of pending chunks, asks again
for the rest of a short read, and writes to the local file whatever has become contiguous. This
module is the function as a machine: its state is what the loop keeps in local variables, and one
event is one thing the loop waits for.

Offsets are `u64` in the source and natural numbers here: `nextOffset_le` (in `DownloadFaithful`)
bounds every offset the loop computes, so that for a file that is not within nine chunks of
`2 ^ 64` bytes no addition wraps. Casts to `u32` are written out (`asU32`).
-/

namespace FluxTerm.Sftp

open FluxTerm.Engine FluxTerm.Lib

def sftpTransferFailedCode : String := "sftp_transfer_failed"

def sftpDownloadFailedCode : String := "sftp_download_failed"

def transferCancelledError : EngineError :=
  .new "sftp_transfer_cancelled" "Transfer cancelled"

/-- Rust's `as u32` on an unsigned integer. -/
def asU32 (n : Nat) : Nat := n % 2 ^ 32

def downloadReadWindow : Nat := 8

/-! ## Chunk sizes -/

/-- A chunk size the loop can run with: at least one byte, and small enough for the `u32` length
of an SFTP read. -/
structure ChunkSize where
  size : Nat
  pos : 1 ≤ size
  fits : size < 2 ^ 32

theorem wholeChunk_pos : 0 < 256 * 1024 := by decide

theorem wholeChunk_fits : 256 * 1024 < 2 ^ 32 := by decide

theorem fallbackChunk_pos : 0 < 64 * 1024 := by decide

theorem fallbackChunk_fits : 64 * 1024 < 2 ^ 32 := by decide

theorem limitedChunk_pos {limit : ℕ} (h : ¬min (256 * 1024) limit = 0) :
    0 < min (256 * 1024) limit := Nat.pos_of_ne_zero h

theorem limitedChunk_fits (limit : ℕ) : min (256 * 1024) limit < 2 ^ 32 :=
  (Nat.min_le_left _ _).trans_lt wholeChunk_fits

/-- `download_chunk_size`: 256 KiB, or less when the server announces a smaller read limit. -/
def downloadChunkSize (readLimit : Option Nat) : ChunkSize :=
  match readLimit with
  | none => ⟨256 * 1024, wholeChunk_pos, wholeChunk_fits⟩
  | some limit =>
    if h : min (256 * 1024) limit = 0 then ⟨64 * 1024, fallbackChunk_pos, fallbackChunk_fits⟩
    else ⟨min (256 * 1024) limit, limitedChunk_pos h, limitedChunk_fits limit⟩

/-! ## The chunk queue -/

/-- `DownloadReadChunk`: what one read brought back. -/
structure DownloadReadChunk where
  offset : Nat
  requestedLen : Nat
  data : List UInt8
deriving DecidableEq

/-- `DownloadReadFollowUp`: a range that still has to be read. -/
structure DownloadReadFollowUp where
  offset : Nat
  len : Nat
deriving DecidableEq

/-- The chunks read but not yet written, and what is known about the end of the file:
`pending_chunks`, `eof` and `eof_responses`. -/
structure ReadQueue where
  pendingChunks : OrdMap Nat (List UInt8)
  eof : Bool
  eofResponses : Nat
deriving DecidableEq

/-- `queue_download_read_chunk`: an empty answer is the end of the file, any other goes into the
pending chunks; a short one leaves a range to follow up. -/
def queueDownloadReadChunk (chunk : DownloadReadChunk) (queue : ReadQueue) :
    ReadQueue × Option DownloadReadFollowUp :=
  if chunk.data.isEmpty then
    ({ queue with eof := true, eofResponses := queue.eofResponses + 1 }, none)
  else
    let actualLen := chunk.data.length
    let followUp :=
      if actualLen < chunk.requestedLen then
        some ⟨chunk.offset + actualLen, chunk.requestedLen - asU32 actualLen⟩
      else none
    ({ queue with pendingChunks := queue.pendingChunks.insert chunk.offset chunk.data }, followUp)

/-- What `drain_contiguous_download_chunks` leaves behind: the chunks to write, the chunks still
pending and the next offset to write at. -/
structure DrainedChunks where
  chunks : List (List UInt8)
  pendingChunks : OrdMap Nat (List UInt8)
  expectedWriteOffset : Nat

/-- The `while let` of `drain_contiguous_download_chunks`, with a bound on its turns. -/
def drainLoop : Nat → OrdMap Nat (List UInt8) → Nat → DrainedChunks
  | 0, pending, expected => ⟨[], pending, expected⟩
  | fuel + 1, pending, expected =>
    match pending.remove expected with
    | none => ⟨[], pending, expected⟩
    | some (chunk, rest) =>
      let drained := drainLoop fuel rest (expected + chunk.length)
      { drained with chunks := chunk :: drained.chunks }

/-- `drain_contiguous_download_chunks`. Every turn takes a chunk out of the map, so the map's size
bounds the turns. -/
def drainContiguousDownloadChunks (pending : OrdMap Nat (List UInt8)) (expected : Nat) :
    DrainedChunks :=
  drainLoop pending.size pending expected

/-! ## The loop's state -/

inductive PipelineEffect where
  | wrote (chunk : List UInt8)
  | progress (transferred : Nat)
  | closedRemote
  | removedLocal
deriving DecidableEq

/-- The local variables of the loop, with the effects so far. `inFlight` is the `JoinSet`: the
reads that have been spawned and not yet joined. -/
structure DownloadLoop where
  nextOffset : Nat
  expectedWriteOffset : Nat
  transferred : Nat
  queue : ReadQueue
  inFlight : List DownloadReadFollowUp
  effects : List PipelineEffect
deriving DecidableEq

def DownloadLoop.start : DownloadLoop :=
  ⟨0, 0, 0, ⟨.empty, false, 0⟩, [], []⟩

/-- One turn of the filling loop: `spawn_read` at `next_offset`. -/
def spawnNext (chunk : ChunkSize) (st : DownloadLoop) : DownloadLoop :=
  { st with
    inFlight := st.inFlight ++ [⟨st.nextOffset, asU32 chunk.size⟩]
    nextOffset := st.nextOffset + chunk.size }

/-- `while !eof && in_flight.len() < window_size`, with a bound on its turns. -/
def fillLoop (chunk : ChunkSize) : Nat → DownloadLoop → DownloadLoop
  | 0, st => st
  | fuel + 1, st =>
    if !st.queue.eof && st.inFlight.length < downloadReadWindow then
      fillLoop chunk fuel (spawnNext chunk st)
    else st

def fillWindow (chunk : ChunkSize) (st : DownloadLoop) : DownloadLoop :=
  fillLoop chunk downloadReadWindow st

/-! ## One turn of the loop -/

inductive ReadAnswer where
  | data (bytes : List UInt8)
  | eof
  | failed (detail : String)
  | joinFailed (detail : String)
deriving DecidableEq

/-- The body of `spawn_read` and the match on `join_next`. -/
def readChunk (request : DownloadReadFollowUp) :
    ReadAnswer → Except EngineError DownloadReadChunk
  | .data bytes => .ok ⟨request.offset, request.len, bytes⟩
  | .eof => .ok ⟨request.offset, request.len, []⟩
  | .failed detail =>
    .error (.withDetail sftpTransferFailedCode "Unable to read file data" detail)
  | .joinFailed detail =>
    .error (.withDetail sftpTransferFailedCode "Unable to read file data" detail)

/-- `for chunk in chunks { local.write_all(..)?; transferred += ..; on_event(Progress(..)) }`. A
write fault names the chunk whose write fails, counted from here, with the system's message. -/
def writeChunks (fault : Option (Nat × String)) :
    List (List UInt8) → DownloadLoop → DownloadLoop × Option EngineError
  | [], st => (st, none)
  | chunk :: chunks, st =>
    match fault with
    | some (0, detail) =>
      (st, some (.withDetail sftpTransferFailedCode "Unable to write file data" detail))
    | _ =>
      let transferred := st.transferred + chunk.length
      writeChunks (fault.map fun f => (f.1 - 1, f.2)) chunks
        { st with
          transferred
          effects := st.effects ++ [.wrote chunk, .progress transferred] }

/-- The checks behind the loop and the closing of the remote handle. -/
def finishDownload (expectedSize : Option Nat) (closeFault : Option String) (st : DownloadLoop) :
    DownloadLoop × Except EngineError Nat :=
  if st.queue.pendingChunks.entries ≠ [] then
    ({ st with effects := st.effects ++ [.closedRemote, .removedLocal] },
      .error (.withDetail sftpTransferFailedCode
        "Downloaded file contains non-contiguous data chunks"
        (s!"expected_offset={st.expectedWriteOffset}, " ++
          s!"pending_offsets={st.queue.pendingChunks.keys}")))
  else
    match expectedSize with
    | some size =>
      if st.transferred ≠ size then
        ({ st with effects := st.effects ++ [.closedRemote, .removedLocal] },
          .error (.withDetail sftpTransferFailedCode
            "Downloaded file size does not match the remote file size"
            s!"expected_size={size}, transferred={st.transferred}"))
      else closeRemote closeFault st
    | none => closeRemote closeFault st
where
  /-- `sftp.close(handle_id)` and `Ok(transferred)`. -/
  closeRemote (closeFault : Option String) (st : DownloadLoop) :
      DownloadLoop × Except EngineError Nat :=
    match closeFault with
    | some detail =>
      (st, .error (.withDetail sftpDownloadFailedCode "Failed to close the remote file" detail))
    | none => ({ st with effects := st.effects ++ [.closedRemote] }, .ok st.transferred)

inductive PipelineState where
  | looping (st : DownloadLoop)
  | returned (st : DownloadLoop) (result : Except EngineError Nat)

/-- What the loop can meet: the cancel flag at its head, the completion of one in-flight read
(with the first write of this turn that fails, if any), or an empty `JoinSet`. -/
inductive PipelineEvent where
  | cancelled
  | completed (index : Nat) (answer : ReadAnswer) (writeFault : Option (Nat × String))
  | drained (closeFault : Option String)
deriving DecidableEq

/-- The rest of a turn once a chunk has been joined: queue it, spawn the follow-up read, drain
what has become contiguous and write it. -/
def processChunk (index : Nat) (chunk : DownloadReadChunk) (writeFault : Option (Nat × String))
    (st : DownloadLoop) : DownloadLoop × Option EngineError :=
  let (queue, followUp) := queueDownloadReadChunk chunk st.queue
  let drained := drainContiguousDownloadChunks queue.pendingChunks st.expectedWriteOffset
  writeChunks writeFault drained.chunks
    { st with
      inFlight := st.inFlight.eraseIdx index ++ followUp.toList
      queue := { queue with pendingChunks := drained.pendingChunks }
      expectedWriteOffset := drained.expectedWriteOffset }

/-- One turn of the loop. `none` means that the event cannot happen in the state. -/
def pipelineStep (chunk : ChunkSize) (expectedSize : Option Nat) :
    PipelineState → PipelineEvent → Option PipelineState
  | .returned _ _, _ => none
  | .looping st, .cancelled =>
    some (.returned
      { st with
        inFlight := []
        effects := st.effects ++ [.closedRemote, .removedLocal] }
      (.error transferCancelledError))
  | .looping st, .completed index answer writeFault =>
    let st := fillWindow chunk st
    match st.inFlight[index]? with
    | none => none
    | some request =>
      match readChunk request answer with
      | .error err =>
        some (.returned { st with inFlight := [], effects := st.effects ++ [.closedRemote] }
          (.error err))
      | .ok read =>
        match processChunk index read writeFault st with
        | (st, some err) => some (.returned st (.error err))
        | (st, none) => some (.looping st)
  | .looping st, .drained closeFault =>
    let st := fillWindow chunk st
    if st.inFlight.isEmpty then
      let (st, result) := finishDownload expectedSize closeFault st
      some (.returned st result)
    else none

def downloadMachine (chunk : ChunkSize) (expectedSize : Option Nat) :
    Machine PipelineState PipelineEvent :=
  Machine.ofStep (.looping .start) (pipelineStep chunk expectedSize)

end FluxTerm.Sftp
