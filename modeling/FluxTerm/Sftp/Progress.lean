import FluxTerm.Engine.Error
import FluxTerm.Lib.LexicalPath
import FluxTerm.Lib.Text

/-!
# FluxTerm — the progress of a transfer

The events of `crates/engine/src/sftp.rs` that tell the user interface about a transfer, and the
counters behind them.
-/

namespace FluxTerm.Sftp

open FluxTerm.Engine FluxTerm.Lib

/-! ## Events -/

inductive SftpProgressOp where
  | upload
  | download
deriving DecidableEq

inductive SftpTransferKind where
  | file
  | directory
  | batch
deriving DecidableEq

inductive SftpTransferStatus where
  | running
  | success
  | partialSuccess
  | failed
  | cancelled
deriving DecidableEq

structure SftpProgress where
  sessionId : Text
  transferId : Text
  op : SftpProgressOp
  kind : SftpTransferKind
  path : Text
  displayName : Text
  itemLabel : Text
  targetName : Option Text
  currentItemName : Option Text
  transferred : ℕ
  total : Option ℕ
  completedItems : ℕ
  totalItems : Option ℕ
  status : SftpTransferStatus
  failedItems : ℕ
deriving DecidableEq

def SftpProgress.isFinal (progress : SftpProgress) : Bool := progress.status != .running

/-- `SftpConnectionIdentity`: what the events take from it. -/
structure SftpConnectionIdentity where
  sessionId : Text
  transferId : Text
deriving DecidableEq

def SftpProgress.IsOf (identity : SftpConnectionIdentity) (progress : SftpProgress) : Prop :=
  progress.sessionId = identity.sessionId ∧ progress.transferId = identity.transferId

/-! ## Names -/

def itemsLabel : Option ℕ → Text
  | some count => (toString count ++ " items").toList
  | none => "items".toList

def fileNameFromPath (path : Text) : Text :=
  let name := afterLast sep (path.rdropWhile (· == sep))
  if name = [] then path else name

/-- `Path::file_name`, on a Unix path. -/
def fileName (path : Text) : Option Text :=
  match ((comps path).filter (· ≠ .curDir)).getLast? with
  | some (.normal name) => some name
  | _ => none

def uploadRootsDisplayName : List Text → Text
  | [root] =>
    match fileName root with
    | some displayName =>
      if trimBy isWhitespace displayName = [] then itemsLabel none else displayName
    | none => itemsLabel none
  | _ => itemsLabel none

/-! ## Single files -/

structure TransferProgressContext where
  sessionId : Text
  transferId : Text
  op : SftpProgressOp
  kind : SftpTransferKind
  path : Text
  displayName : Text
  itemLabel : Text
  targetName : Option Text
  currentItemName : Option Text
  total : Option ℕ
  completedItems : ℕ
  totalItems : Option ℕ
  failedItems : ℕ
  status : SftpTransferStatus
deriving DecidableEq

/-- `emit_transfer_progress`: the event. -/
def emitTransferProgress (context : TransferProgressContext) (transferred : ℕ) : SftpProgress where
  sessionId := context.sessionId
  transferId := context.transferId
  op := context.op
  kind := context.kind
  path := context.path
  displayName := context.displayName
  itemLabel := context.itemLabel
  targetName := context.targetName
  currentItemName := context.currentItemName
  transferred
  total := context.total
  completedItems := context.completedItems
  totalItems := context.totalItems
  status := context.status
  failedItems := context.failedItems

/-- `emit_cancelled_progress`: the event. -/
def emitCancelledProgress (context : TransferProgressContext) (transferred : ℕ) : SftpProgress :=
  emitTransferProgress { context with status := .cancelled } transferred

/-! ## Batches -/

structure PipelineProgressState where
  transferred : ℕ
  totalBytes : Option ℕ
  completedItems : ℕ
  totalItems : ℕ
  failedItems : ℕ
  status : SftpTransferStatus
deriving DecidableEq

def PipelineProgressState.start : PipelineProgressState := ⟨0, some 0, 0, 0, 0, .running⟩

structure PipelineEmitContext where
  sessionId : Text
  transferId : Text
  op : SftpProgressOp
  kind : SftpTransferKind
  path : Text
  displayName : Text
  targetName : Option Text
deriving DecidableEq

/-- `emit_pipeline_progress`: the event. -/
def emitPipelineProgress (context : PipelineEmitContext) (state : PipelineProgressState)
    (currentItemName : Option Text) : SftpProgress where
  sessionId := context.sessionId
  transferId := context.transferId
  op := context.op
  kind := context.kind
  path := context.path
  displayName := context.displayName
  itemLabel := itemsLabel (some state.totalItems)
  targetName := context.targetName
  currentItemName
  transferred := state.transferred
  total := state.totalBytes
  completedItems := state.completedItems
  totalItems := some state.totalItems
  status := state.status
  failedItems := state.failedItems

/-- What the scan and the workers report to the counters. -/
inductive ItemUpdate where
  /-- `pipeline_discover_item`. -/
  | discover (bytes : Option ℕ)
  /-- `pipeline_discover_failed_item`. -/
  | discoverFailed
  /-- `pipeline_complete_item`. -/
  | complete (itemName : Text)
  /-- `pipeline_fail_item`. -/
  | fail (itemName : Text)
  /-- `pipeline_add_transferred`, for a change that is not zero. -/
  | addTransferred (itemName : Text) (delta : ℕ)
deriving DecidableEq

namespace ItemUpdate

/-- The counters after the update: an item of unknown size makes the total unknown. -/
def apply (state : PipelineProgressState) : ItemUpdate → PipelineProgressState
  | discover bytes =>
    { state with
      totalItems := state.totalItems + 1
      totalBytes := state.totalBytes.bind fun total => bytes.map (total + ·) }
  | discoverFailed =>
    { state with totalItems := state.totalItems + 1, failedItems := state.failedItems + 1 }
  | complete _ => { state with completedItems := state.completedItems + 1 }
  | fail _ => { state with failedItems := state.failedItems + 1 }
  | addTransferred _ delta => { state with transferred := state.transferred + delta }

def itemName : ItemUpdate → Option Text
  | discover _ | discoverFailed => none
  | complete name | fail name | addTransferred name _ => some name

end ItemUpdate

/-- The update of `pipeline_handle_file_event`: what the file has got further since
`last_transferred`, if anything. -/
def fileProgressUpdate (currentItemName : Text) (lastTransferred fileTransferred : ℕ) :
    Option ItemUpdate :=
  let delta := fileTransferred - lastTransferred
  if delta = 0 then none else some (.addTransferred currentItemName delta)

def finalStatus (state : PipelineProgressState) (workerFailed : Bool) : SftpTransferStatus :=
  if workerFailed then if 0 < state.completedItems then .partialSuccess else .failed
  else if state.failedItems = 0 then .success
  else if 0 < state.completedItems then .partialSuccess
  else .failed

/-! ## Lemmas -/

@[simp] theorem ItemUpdate.apply_status (state : PipelineProgressState) (update : ItemUpdate) :
    (update.apply state).status = state.status := by
  cases update <;> rfl

@[simp] theorem isFinal_emitTransferProgress (context : TransferProgressContext)
    (transferred : ℕ) :
    (emitTransferProgress context transferred).isFinal = (context.status != .running) := rfl

@[simp] theorem isFinal_emitCancelledProgress (context : TransferProgressContext)
    (transferred : ℕ) : (emitCancelledProgress context transferred).isFinal = true := rfl

@[simp] theorem isFinal_emitPipelineProgress (context : PipelineEmitContext)
    (state : PipelineProgressState) (currentItemName : Option Text) :
    (emitPipelineProgress context state currentItemName).isFinal =
      (state.status != .running) := rfl

theorem finalStatus_ne_running (state : PipelineProgressState) (workerFailed : Bool) :
    finalStatus state workerFailed ≠ .running := by
  unfold finalStatus
  split
  · split <;> nofun
  · split
    · nofun
    · split <;> nofun

end FluxTerm.Sftp
