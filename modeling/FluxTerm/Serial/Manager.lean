import FluxTerm.Engine.Event
import FluxTerm.Lib.Bytes
import FluxTerm.Lib.Machine

/-!
# FluxTerm — serial connections

`SerialManager` of `crates/engine/src/serial.rs` as a machine: any number of calls of
`connect_with_opener_timeout` and `cancel_connect`, with the task that a call spawns. A step is one
critical section, one look at a flag or one `await` that returns; the calls interleave freely, the
opener returns what it likes, and a deadline may pass at any `await`.

A call is known by its position in `SerialManager.calls`, which also stands for its session id and
for the `Arc`s it allocates (`PendingSerialConnect`, `SerialPortOwner::released`). The locks are
not poisoned; the exit for a poisoned `sessions` lock is there all the same (`TaskEvent.insert`).
-/

namespace FluxTerm.Serial

open FluxTerm.Engine FluxTerm.Lib

/-! ## Errors -/

def localized (code message messageKey : String) : EngineError :=
  (EngineError.new code message).withMessageKey messageKey

def serialConnectCancelledError : EngineError :=
  .new "serial_connect_cancelled" "Serial connection was cancelled"

def serialConnectTimeoutError : EngineError :=
  localized "serial_connect_timeout" "The serial connection timed out after 5 seconds"
    "error.serial.connectTimeout"

def serialPortInUseError (portName : Text) : EngineError :=
  localized "serial_port_in_use"
    ("Serial port " ++ String.ofList portName ++ " is already connected in a session")
    "error.serial.portInUse"

def serialStateUnavailableError : EngineError :=
  localized "serial_state_unavailable" "Serial session state is unavailable"
    "error.serial.stateUnavailable"

/-- `SerialProfile`: what `validate_profile` looks at. -/
structure SerialProfile where
  portName : Text
  baudRate : ℕ
deriving DecidableEq

def validateProfile (profile : SerialProfile) : Except EngineError Unit :=
  if trimBy isWhitespace profile.portName = [] then
    .error (localized "serial_port_required" "Serial port name is required"
      "error.serial.portRequired")
  else if profile.baudRate = 0 then
    .error ((EngineError.new "serial_baud_rate_invalid"
      "Serial baud rate must be greater than zero").withMessageKey "error.serial.baudRateInvalid")
  else .ok ()

/-! ## Events -/

inductive SerialEvent where
  | sessionStatus (session : ℕ) (state : SessionState) (error : Option EngineError)
  | serialOutput (session : ℕ) (data : Bytes)
  | terminalExit (session : ℕ)
deriving DecidableEq

/-! ## The task of a call -/

/-- What the task does on its way out. -/
inductive Cleanup where
  /-- `drop(port)`: the system handle is closed. -/
  | closePort
  /-- `SerialPortClaim::drop`. -/
  | dropClaim
  /-- `remove_pending_connect_entry`. -/
  | removePending
  | removeSession
  /-- `ready_tx.send(Err(..))`. -/
  | reply
  /-- The final `SessionStatus`. -/
  | emitStatus
  | emitExit
deriving DecidableEq

/-- The ways out of the task. -/
inductive Exit where
  | openFailed (err : EngineError)
  | cancelled
  /-- The `sessions` lock is poisoned. -/
  | insertFailed
  | refused
  | finished (finalError : Option EngineError) (requestedDisconnect : Bool)
deriving DecidableEq

/-- The rest of the task, in the order of the source. Where it just returns, its locals are
dropped: the port before the claim that was declared before it. -/
def Exit.plan : Exit → List Cleanup
  | openFailed _ => [.dropClaim, .removePending, .reply]
  | cancelled => [.closePort, .dropClaim, .removePending, .reply]
  | insertFailed => [.removePending, .reply, .closePort, .dropClaim]
  | refused => [.removeSession, .closePort, .dropClaim]
  | finished (some _) _ => [.removeSession, .closePort, .dropClaim, .emitStatus]
  | finished none true => [.removeSession, .closePort, .dropClaim, .emitStatus]
  | finished none false => [.removeSession, .closePort, .dropClaim, .emitStatus, .emitExit]

/-- Where the task is. -/
inductive Stage where
  | notSpawned
  | starting
  | opening
  | opened
  | checked
  | inserted
  /-- The pending entry is removed; `ready_tx.send(Ok(..))` comes next. -/
  | unlisted
  /-- The caller has the session; `Connected` comes next. -/
  | sent
  | running
  | leaving (exit : Exit) (todo : List Cleanup)
deriving DecidableEq

def Stage.leave (exit : Exit) : Stage := .leaving exit exit.plan

/-! ## The call -/

/-- A `Notified` future: not polled yet, in the queue, or woken. -/
inductive Wait where
  | fresh
  | queued
  | woken
deriving DecidableEq

/-- Where the call is. -/
inductive Caller where
  /-- At the top of the loop of `claim_port`. -/
  | checking
  /-- Before the critical section of `claim_port`. -/
  | claiming
  /-- Waiting for a release by the call `owner`. -/
  | waiting (owner : ℕ) (wait : Wait)
  /-- `claim_port` has failed; `remove_pending_connect` comes next. -/
  | failing (err : EngineError)
  | spawning
  /-- Waiting for `ready_rx`. -/
  | awaiting
  /-- The deadline has passed and `ready_rx` is dropped; the flag is set next. -/
  | timingOut
  | returned (result : Except EngineError Unit)

/-- A call of `connect_with_opener_timeout`. -/
structure Call where
  operationId : Text
  portName : Text
  cancelled : Bool := false
  /-- The permit of `PendingSerialConnect::cancel_notified`. -/
  cancelNotified : Bool := false
  /-- The permit of `SerialPortOwner::released`. -/
  released : Bool := false
  caller : Caller
  stage : Stage := .notSpawned
  ready : Option (Except EngineError Unit) := none
  /-- How many `cancel_connect` have found the entry and not set the flag yet. -/
  cancelling : ℕ := 0
  /-- Some `cancel_connect` has returned `Ok(true)` before the call returned. -/
  acknowledged : Bool := false

/-- `SerialPortOwner`: the call stands for its `Notify`. -/
structure SerialPortOwner where
  operationId : Text
  released : ℕ
deriving DecidableEq

/-- `SerialManager`, with the calls made so far and the events emitted. -/
structure SerialManager where
  calls : List Call
  claimedPorts : Text → Option SerialPortOwner
  /-- The entry of an operation id: the call whose `PendingSerialConnect` it is. -/
  pendingConnects : Text → Option ℕ
  sessions : ℕ → Bool
  events : List SerialEvent

inductive LoopEnd where
  | readFailed (detail : String)
  | writeFailed (detail : String)
  | disconnect
  | closed
deriving DecidableEq

def LoopEnd.exit : LoopEnd → Exit
  | readFailed detail => .finished (some ((EngineError.withDetail "serial_read_failed"
      "Failed to read from the serial port or the device was disconnected" detail).withMessageKey
      "error.serial.readFailed")) false
  | writeFailed detail => .finished (some ((EngineError.withDetail "serial_write_failed"
      "Failed to write to the serial port" detail).withMessageKey
      "error.serial.writeFailed")) false
  | disconnect => .finished none true
  | closed => .finished none false

/-- What a call does next. -/
inductive CallerEvent where
  /-- The look at the flag at the top of the loop of `claim_port`. -/
  | check
  /-- The critical section of `claim_port`. -/
  | claim
  /-- The first poll of `wait_for_release`. -/
  | poll
  /-- `wait_for_release` is ready, and the loop goes on. -/
  | wake
  /-- `cancel_notified` is ready; a notification that had arrived goes to `waiter`. -/
  | cancelSeen (waiter : Option ℕ)
  /-- The deadline passes in `claim_port`; a notification that had arrived goes to `waiter`. -/
  | claimTimeout (waiter : Option ℕ)
  /-- `remove_pending_connect`, and the call returns. -/
  | giveUp
  | spawn
  | receive
  /-- The deadline passes before `ready_rx` is ready. -/
  | readyTimeout
  | markTimeout

/-- What the task does next. -/
inductive TaskEvent where
  | workerStart
  | openerReturns (result : Except EngineError Unit)
  | checkOpened
  /-- The session is inserted; `false` if the lock is poisoned. -/
  | insert (ok : Bool)
  | unlist
  | sendReady
  | emitConnected
  | output (data : Bytes)
  | loopEnds (loopEnd : LoopEnd)
  /-- The next cleanup; a dropped claim notifies `waiter`. -/
  | clean (waiter : Option ℕ)

inductive SerialStep where
  | connect (operationId : Text) (profile : SerialProfile)
  | caller (index : ℕ) (event : CallerEvent)
  | task (index : ℕ) (event : TaskEvent)
  /-- `cancel_connect` looks the operation up. -/
  | cancelLookup (operationId : Text)
  /-- A `cancel_connect` that found the call marks it, and returns `Ok(true)`. -/
  | cancelMark (index : ℕ)

/-- What a step does to the state that the calls share. -/
inductive Action where
  | keep
  | claimPort
  /-- `SerialPortClaim::drop`, notifying `waiter`. -/
  | dropClaim (waiter : Option ℕ)
  | removePending
  | insertSession
  | removeSession
  | emit (event : SerialEvent)
  /-- The stored permit of the owner's `Notify` is taken. -/
  | takePermit (owner : ℕ)
  /-- A notification that arrived at a dropped `Notified` is passed on. -/
  | passOn (owner : ℕ) (waiter : Option ℕ)

/-! ## Steps of a call -/

def Exit.replyError : Exit → Bool → EngineError
  | openFailed err, false => err
  | insertFailed, _ => serialStateUnavailableError
  | _, _ => serialConnectCancelledError

def Exit.finalStatus (session : ℕ) : Exit → SerialEvent
  | finished (some err) _ => .sessionStatus session .error (some err)
  | _ => .sessionStatus session .disconnected none

/-- `mark_pending_cancelled`. -/
def Call.markCancelled (c : Call) : Call := { c with cancelled := true, cancelNotified := true }

/-- The call has not dropped `ready_rx`. -/
def Call.listens (c : Call) : Bool :=
  match c.caller with
  | .awaiting => true
  | _ => false

def Call.hasReturned (c : Call) : Bool :=
  match c.caller with
  | .returned _ => true
  | _ => false

/-- `ready_tx.send` of an error: it is lost where the receiver is dropped. -/
def Call.replied (c : Call) (err : EngineError) : Call :=
  if c.listens then { c with ready := some (.error err) } else c

/-- One cleanup of call `i`. -/
def Call.cleaned (i : ℕ) (c : Call) (exit : Exit) (waiter : Option ℕ) : Cleanup → Call × Action
  | .closePort => (c, .keep)
  | .dropClaim => (c, .dropClaim waiter)
  | .removePending => (c, .removePending)
  | .removeSession => (c, .removeSession)
  | .reply => (c.replied (exit.replyError c.cancelled), .keep)
  | .emitStatus => (c, .emit (exit.finalStatus i))
  | .emitExit => (c, .emit (.terminalExit i))

namespace SerialManager

variable (m : SerialManager)

/-- `owner_cancelled` of `claim_port`. -/
def ownerCancelled (owner : SerialPortOwner) : Bool :=
  (m.pendingConnects owner.operationId).any fun k => (m.calls[k]?).any Call.cancelled

/-- The permit of the `Notify` of an owner. -/
def permit (owner : ℕ) : Bool := (m.calls[owner]?).any Call.released

def dropWait (owner : ℕ) (waiter : Option ℕ) : Wait → Action
  | .woken => .passOn owner waiter
  | .fresh | .queued => .keep

/-- A step of a call: what becomes of it, and what it does to the shared state. -/
def callerNext (c : Call) (event : CallerEvent) : Option (Call × Action) :=
  match c.caller, event with
  | .checking, .check =>
    if c.cancelled then some ({ c with caller := .failing serialConnectCancelledError }, .keep)
    else some ({ c with caller := .claiming }, .keep)
  | .claiming, .claim =>
    match m.claimedPorts c.portName with
    | none => some ({ c with caller := .spawning }, .claimPort)
    | some owner =>
      if m.ownerCancelled owner then
        some ({ c with caller := .waiting owner.released .fresh }, .keep)
      else some ({ c with caller := .failing (serialPortInUseError c.portName) }, .keep)
  | .waiting owner .fresh, .poll =>
    if m.permit owner then some ({ c with caller := .waiting owner .woken }, .takePermit owner)
    else some ({ c with caller := .waiting owner .queued }, .keep)
  | .waiting _ .woken, .wake => some ({ c with caller := .checking }, .keep)
  | .waiting owner wait, .cancelSeen waiter =>
    if c.cancelNotified then
      some ({ c with cancelNotified := false, caller := .failing serialConnectCancelledError },
        dropWait owner waiter wait)
    else none
  | .waiting owner wait, .claimTimeout waiter =>
    if wait = .fresh then none
    else some ({ c.markCancelled with caller := .failing serialConnectTimeoutError },
      dropWait owner waiter wait)
  | .failing err, .giveUp => some ({ c with caller := .returned (.error err) }, .removePending)
  | .spawning, .spawn => some ({ c with caller := .awaiting, stage := .starting }, .keep)
  | .awaiting, .receive => c.ready.map fun result => ({ c with caller := .returned result }, .keep)
  | .awaiting, .readyTimeout => some ({ c with caller := .timingOut }, .keep)
  | .timingOut, .markTimeout =>
    some ({ c.markCancelled with caller := .returned (.error serialConnectTimeoutError) }, .keep)
  | _, _ => none

/-- A step of the task of call `i`. -/
def taskNext (i : ℕ) (c : Call) (event : TaskEvent) : Option (Call × Action) :=
  match c.stage, event with
  | .starting, .workerStart =>
    if c.cancelled then
      some ({ c with stage := .leave (.openFailed serialConnectCancelledError) }, .keep)
    else some ({ c with stage := .opening }, .keep)
  | .opening, .openerReturns (.ok ()) => some ({ c with stage := .opened }, .keep)
  | .opening, .openerReturns (.error err) =>
    some ({ c with stage := .leave (.openFailed err) }, .keep)
  | .opened, .checkOpened =>
    if c.cancelled then some ({ c with stage := .leave .cancelled }, .keep)
    else some ({ c with stage := .checked }, .keep)
  | .checked, .insert true => some ({ c with stage := .inserted }, .insertSession)
  | .checked, .insert false => some ({ c with stage := .leave .insertFailed }, .keep)
  | .inserted, .unlist => some ({ c with stage := .unlisted }, .removePending)
  | .unlisted, .sendReady =>
    if c.listens then some ({ c with ready := some (.ok ()), stage := .sent }, .keep)
    else some ({ c with stage := .leave .refused }, .keep)
  | .sent, .emitConnected =>
    some ({ c with stage := .running }, .emit (.sessionStatus i .connected none))
  | .running, .output data => if data = [] then none else some (c, .emit (.serialOutput i data))
  | .running, .loopEnds loopEnd => some ({ c with stage := .leave loopEnd.exit }, .keep)
  | .leaving exit (cleanup :: todo), .clean waiter =>
    some (Call.cleaned i { c with stage := .leaving exit todo } exit waiter cleanup)
  | _, _ => none

/-- `mark_pending_cancelled` of a `cancel_connect`, which returns `Ok(true)`. -/
def cancelNext (c : Call) : Option (Call × Action) :=
  if c.cancelling = 0 then none
  else some ({ c.markCancelled with
    cancelling := c.cancelling - 1
    acknowledged := c.acknowledged || !c.hasReturned }, .keep)

/-! ## The shared state -/

/-- Call `k` waits in the queue of the owner's `Notify`. -/
def isQueued (owner : ℕ) (c : Call) : Bool :=
  match c.caller with
  | .waiting o .queued => o == owner
  | _ => false

/-- `notify_one`: a queued waiter is woken; a permit is stored if there is none. -/
def notifyOne (owner : ℕ) : Option ℕ → Option SerialManager
  | some k =>
    match m.calls[k]? with
    | some c =>
      if isQueued owner c then
        some { m with calls := m.calls.set k { c with caller := .waiting owner .woken } }
      else none
    | none => none
  | none =>
    if m.calls.any (isQueued owner) then none
    else some { m with calls := m.calls.modify owner fun c => { c with released := true } }

/-- `SerialPortClaim::drop` of call `i`. -/
def dropClaim (i : ℕ) (c : Call) (waiter : Option ℕ) : Option SerialManager :=
  if (m.claimedPorts c.portName).any fun owner => owner.operationId = c.operationId then
    notifyOne { m with claimedPorts := Function.update m.claimedPorts c.portName none } i waiter
  else some m

/-- The shared state after the action of call `i`. -/
def apply (i : ℕ) (c : Call) : Action → Option SerialManager
  | .keep => some m
  | .claimPort =>
    some { m with
      claimedPorts := Function.update m.claimedPorts c.portName (some ⟨c.operationId, i⟩) }
  | .dropClaim waiter => m.dropClaim i c waiter
  | .removePending =>
    if m.pendingConnects c.operationId = some i then
      some { m with pendingConnects := Function.update m.pendingConnects c.operationId none }
    else some m
  | .insertSession => some { m with sessions := Function.update m.sessions i true }
  | .removeSession => some { m with sessions := Function.update m.sessions i false }
  | .emit event => some { m with events := m.events ++ [event] }
  | .takePermit owner =>
    some { m with calls := m.calls.modify owner fun c => { c with released := false } }
  | .passOn owner waiter => m.notifyOne owner waiter

/-! ## The machine -/

/-- The calls before `claim_port`: the profile and the operation id are checked, and the operation
is entered. -/
def connect (operationId : Text) (profile : SerialProfile) : SerialManager :=
  let refuse (err : EngineError) : SerialManager :=
    { m with calls := m.calls ++
        [{ operationId, portName := profile.portName, caller := .returned (.error err) }] }
  match validateProfile profile with
  | .error err => refuse err
  | .ok () =>
    if trimBy isWhitespace operationId = [] then
      refuse (.new "serial_operation_id_required" "Serial connection operation id is required")
    else if (m.pendingConnects operationId).isSome then
      refuse (.new "serial_operation_conflict" "Serial connection operation id is already active")
    else
      { m with
        calls := m.calls ++
          [{ operationId, portName := profile.portName, caller := .checking }]
        pendingConnects := Function.update m.pendingConnects operationId (some m.calls.length) }

/-- A step of call `i`, with its action. -/
def perform (i : ℕ) (next : Call → Option (Call × Action)) : Option SerialManager :=
  match m.calls[i]? with
  | none => none
  | some c =>
    match next c with
    | none => none
    | some (c', action) => apply { m with calls := m.calls.set i c' } i c' action

/-- One step. -/
def step : SerialStep → Option SerialManager
  | .connect operationId profile => some (m.connect operationId profile)
  | .cancelLookup operationId =>
    match m.pendingConnects operationId with
    -- `Ok(false)`
    | none => some m
    | some i => some { m with calls := m.calls.modify i fun c =>
        { c with cancelling := c.cancelling + 1 } }
  | .caller i event => m.perform i fun c => m.callerNext c event
  | .task i event => m.perform i fun c => taskNext i c event
  | .cancelMark i => m.perform i cancelNext

end SerialManager

/-- `SerialManager::new`. -/
def newManager : SerialManager where
  calls := []
  claimedPorts _ := none
  pendingConnects _ := none
  sessions _ := false
  events := []

def serialManager : Machine SerialManager SerialStep := .ofStep newManager SerialManager.step

end FluxTerm.Serial
