import FluxTerm.Engine.Event
import FluxTerm.Sftp.TransferJob
import FluxTerm.Ssh.DynamicTunnel

/-!
# FluxTerm — an SSH session

`run_session_loop` of `crates/engine/src/session.rs` and what it spawns: the tasks that use the
connection (SFTP requests and transfers), the tunnels, and the handler of forwarded channels. Every
`await` is a step, and what runs on different tasks interleaves freely.

The answers of commands are left out. The ids of tasks and tunnels are their numbers.
-/

namespace FluxTerm.Ssh

open FluxTerm.Engine FluxTerm.Lib FluxTerm.Sftp

/-! ## Commands -/

inductive SftpRequest where
  | list (path : Text)
  | stat (path : Text)
  | home
  | resolvePath (path : Text)
  | rename (source target : Text)
  | remove (path : Text)
  | mkdir (path : Text)
deriving DecidableEq

inductive SessionCommand where
  | write (data : Bytes)
  | resize (cols rows : ℕ)
  | sftp (request : SftpRequest)
  | transfer (request : TransferRequest)
  | sftpCancelTransfer (transferId : Text)
  | tunnelOpen (spec : SshTunnelSpec)
  | tunnelClose (tunnelId : ℕ)
  | tunnelList
  | tunnelCloseAll
  | disconnect
deriving DecidableEq

/-- `SessionLoopRequest`: what the loop reads of it. -/
structure SessionLoopRequest where
  sessionId : Text
  host : Text
  port : ℕ
  /-- The length of `jump_spec.hosts`. -/
  jumpHosts : ℕ
deriving DecidableEq

/-! ## Terminal output -/

/-- `decode_terminal_output`, behind the bytes `held` of an incomplete character. -/
def decodeFrom (endOfStream : Bool) : Option Pending → Bytes → Bytes → Text × Bytes
  | none, _, [] => ([], [])
  | some _, held, [] => if endOfStream then ([replacement], []) else ([], held)
  | pending, held, b :: bytes =>
    let (text, next) := lossyStep pending b.toNat
    -- a byte that continues the character gives no text
    let held :=
      if next = none then [] else if text = [] ∧ pending ≠ none then held ++ [b] else [b]
    let (rest, left) := decodeFrom endOfStream next held bytes
    (text ++ rest, left)

/-- `decode_terminal_output`: the text, and what stays in the buffer. -/
def decodeTerminalOutput (buffer : Bytes) (endOfStream : Bool) : Text × Bytes :=
  decodeFrom endOfStream none [] buffer

def terminalOutputBatchBytes : ℕ := 64 * 1024

inductive ChannelMessage where
  /-- `Data` or `ExtendedData`. -/
  | data (bytes : Bytes)
  | other
  /-- `terminal_channel_ended`. -/
  | ended
deriving DecidableEq

/-! ## The state -/

inductive LockUser where
  | loop
  | task (index : ℕ)
  | tunnel (index : ℕ)
  | connection (tunnel index : ℕ)
deriving DecidableEq

inductive TaskBody where
  | request (request : SftpRequest)
  | transfer (transferId : Text) (job : TransferJob)

inductive TaskStage where
  | spawned
  | locked
  | finished
deriving DecidableEq

/-- A spawned task. `listed` says that its flag is in `transfer_cancellations`. -/
structure SftpTask where
  body : TaskBody
  stage : TaskStage
  listed : Bool

/-- A connection accepted by a local or dynamic tunnel. -/
inductive ConnectionStage where
  /-- `socks5_connect_handshake`. -/
  | handshaking
  | accepted
  | opening
  | copying
  | ending
  | finished
deriving DecidableEq

inductive TunnelStage where
  | opened
  | stopping
  | cancelling
  | finished
deriving DecidableEq

/-- A tunnel: `TunnelHandle` and its task. -/
structure Tunnel where
  runtime : SshTunnelRuntime
  stage : TunnelStage
  stop : Bool
  connections : List ConnectionStage
  /-- The tunnel has an entry in `remote_connection_tasks`. -/
  registered : Bool

structure RemoteRoute where
  tunnelId : ℕ
  targetHost : Text
  targetPort : ℕ
deriving DecidableEq

inductive ForwardStage where
  /-- The route is looked up; `reply.accept()` comes next. -/
  | routed
  | connecting
  | connected
  | finished
  | aborted
deriving DecidableEq

structure Forward where
  connectedPort : ℕ
  route : RemoteRoute
  stage : ForwardStage
  /-- The task is in `remote_connection_tasks`. -/
  listed : Bool
deriving DecidableEq

/-- What the connection waits for. The hop after the jump hosts is the target. -/
inductive ConnectStage where
  | start
  /-- `connect_entry_stream` or `open_direct_stream`. -/
  | stream (hop : ℕ)
  | handshake (hop : ℕ)
  | authenticate (hop : ℕ)
  | channelOpen
  | pty
  | shell
deriving DecidableEq

/-- Where the loop is. -/
inductive LoopStage where
  | connecting (connect : ConnectStage)
  | select
  /-- `channel.data` or `channel.window_change`. -/
  | channelIo
  /-- `TcpListener::bind` of a tunnel. -/
  | binding (spec : SshTunnelSpec)
  /-- `tcpip_forward` of a tunnel: in the queue of the lock, or at its head. -/
  | forwarding (spec : SshTunnelSpec)
  | routing (spec : SshTunnelSpec) (assignedPort : ℕ)
  /-- `close_tunnel` of `current`; the others come next. After that the loop is left if
  `leaving`. -/
  | joining (current : Option ℕ) (others : List ℕ) (leaving : Bool)
  /-- `channel.eof()`. -/
  | eof
  /-- `channel.close()`. -/
  | closing
  /-- `disconnect`: in the queue of the lock or at its head, with a deadline. -/
  | disconnecting
  /-- `TerminalExit` comes next. -/
  | exiting
  /-- The last `SessionStatus` comes next. -/
  | lastStatus
  | returned (result : Except EngineError Unit)

/-- What is seen of a session: its events, and the starts of `authenticate`. -/
inductive LogEntry where
  | emit (event : EngineEvent)
  | authenticate (hop : ℕ)

structure SessionRun where
  stage : LoopStage
  rx : List SessionCommand
  lock : List LockUser
  tasks : List SftpTask
  tunnels : List Tunnel
  /-- The keys of `tunnel_handles`. -/
  handles : List ℕ
  /-- `remote_routes`. -/
  routes : ℕ → Option RemoteRoute
  forwards : List Forward
  terminalOutput : Bytes
  log : List LogEntry

/-- The state before the first step. -/
def SessionRun.start : SessionRun where
  stage := .connecting .start
  rx := []
  lock := []
  tasks := []
  tunnels := []
  handles := []
  routes := fun _ => none
  forwards := []
  terminalOutput := []
  log := []

/-! ## Events -/

inductive LoopEvent where
  | answer (result : Except EngineError Unit)
  /-- The eight seconds of `SSH_CONNECT_TIMEOUT_SECS` are over. -/
  | timeout
  /-- The `select!` takes a command. -/
  | recv
  | message (message : ChannelMessage)
  /-- The `select!` takes the tick of the output interval. -/
  | tick
  | channelDone
  /-- `TcpListener::bind`: the port. -/
  | bound (result : Except String ℕ)
  /-- `tcpip_forward`. -/
  | forwarded (result : Except String ℕ)
  | pick (index : ℕ)
  | joined
  | go
  | disconnectSent
  | deadline

inductive TaskEvent where
  /-- `lock()`. -/
  | request
  | answered
  | transfer (event : TransferEvent)
  | done

inductive TunnelEvent where
  | accept
  /-- `accept` fails. -/
  | acceptFailed
  | handshaken (index : ℕ) (ok : Bool)
  | activate (index : ℕ)
  /-- `channel_open_direct_tcpip`. -/
  | channelOpened (index : ℕ) (ok : Bool)
  /-- `copy_bidirectional`: the bytes up and down. -/
  | copied (index : ℕ) (bytes : Option (ℕ × ℕ))
  | ended (index : ℕ)
  | stop
  | unroute
  /-- `cancel_tcpip_forward` is answered. -/
  | forwardCancelled
  | deadline

inductive ForwardEvent where
  | accepted
  /-- `TcpStream::connect`. -/
  | connected (ok : Bool)
  /-- The task is put into `remote_connection_tasks`, or aborted. -/
  | listed
  | finished

inductive SessionEvent where
  | send (command : SessionCommand)
  | loop (event : LoopEvent)
  | task (index : ℕ) (event : TaskEvent)
  | tunnel (index : ℕ) (event : TunnelEvent)
  | channel (connectedPort : ℕ)
  | forward (index : ℕ) (event : ForwardEvent)

/-! ## Errors and ids -/

def sshConnectFailedCode : String := "ssh_connect_failed"

def sshJumpMaxDepth : ℕ := 8

def jumpDepthExceeded (request : SessionLoopRequest) : EngineError :=
  .withDetail "ssh_jump_depth_exceeded" "Jump chain exceeds the maximum depth"
    ("maxDepth=" ++ toString sshJumpMaxDepth ++ " actual=" ++ toString request.jumpHosts)

def connectTimeoutError (request : SessionLoopRequest) : EngineError :=
  .withDetail sshConnectFailedCode "Failed to connect to target host (connection timed out)"
    ("host=" ++ String.ofList request.host ++ " port=" ++ toString request.port ++ " timeout=8s")

/-- `next_transfer_id`: the task stands for the unique part. -/
def nextTransferId (task : ℕ) : Text := ("sftp-" ++ toString task).toList

def buildTunnelRuntime (sessionId : Text) (tunnelId : ℕ) (spec : SshTunnelSpec)
    (status : SshTunnelStatus) : SshTunnelRuntime where
  tunnelId
  sessionId
  kind := spec.kind
  name := spec.name
  bindHost := spec.bindHost
  bindPort := spec.bindPort
  targetHost := spec.targetHost
  targetPort := spec.targetPort
  status
  bytesIn := 0
  bytesOut := 0
  activeConnections := 0
  lastError := none

/-- `saturating_add` on `u64`. -/
def addBytes (count bytes : ℕ) : ℕ := min (count + bytes) (2 ^ 64 - 1)

/-! ## Changes of the state -/

namespace SessionRun

variable (s : SessionRun)

@[simps] def goTo (stage : LoopStage) : SessionRun := { s with stage }

@[simps] def emit (event : EngineEvent) : SessionRun := { s with log := s.log ++ [.emit event] }

/-- `lock()`: the user joins the queue. -/
@[simps] def request (user : LockUser) : SessionRun := { s with lock := s.lock ++ [user] }

@[simps] def release (user : LockUser) : SessionRun := { s with lock := s.lock.erase user }

def holds (user : LockUser) : Bool := s.lock.head? == some user

/-- `tokio::spawn` of a task. -/
@[simps] def spawn (body : TaskBody) (listed : Bool) : SessionRun :=
  { s with tasks := s.tasks ++ [⟨body, .spawned, listed⟩] }

@[simps] def setTask (index : ℕ) (task : SftpTask) : SessionRun :=
  { s with tasks := s.tasks.set index task }

@[simps] def setTunnel (index : ℕ) (tunnel : Tunnel) : SessionRun :=
  { s with tunnels := s.tunnels.set index tunnel }

@[simps] def setForward (index : ℕ) (forward : Forward) : SessionRun :=
  { s with forwards := s.forwards.set index forward }

@[simps] def openTunnel (runtime : SshTunnelRuntime) (registered : Bool) : SessionRun :=
  { s with
    tunnels := s.tunnels ++ [⟨runtime, .opened, false, [], registered⟩]
    handles := s.handles ++ [s.tunnels.length]
    log := s.log ++ [.emit (.sshTunnelUpdate runtime)] }

@[simps] def signal (index : ℕ) : SessionRun :=
  { s with tunnels := s.tunnels.modify index fun tunnel => { tunnel with stop := true } }

/-- `emit_terminal_output_batch`. -/
def flush (sessionId : Text) (endOfStream : Bool) : SessionRun :=
  let (data, left) := decodeTerminalOutput s.terminalOutput endOfStream
  let s := { s with terminalOutput := left }
  if data = [] then s else s.emit (.terminalOutput sessionId data)

/-- The start of `close_all_tunnels`. -/
@[simps] def closeAllTunnels (leaving : Bool) : SessionRun :=
  { s with handles := [], stage := .joining none s.handles leaving }

def leave (sessionId : Text) : SessionRun := (s.flush sessionId true).closeAllTunnels true

end SessionRun

/-- `SftpCancelTransfer`: the flag of the transfer is set, if it is listed. -/
def SftpTask.cancel (transferId : Text) (task : SftpTask) : SftpTask :=
  match task.body with
  | .transfer id job =>
    if task.listed ∧ id = transferId then { task with body := .transfer id job.cancel } else task
  | .request _ => task

/-! ## The loop -/

namespace SessionRun

/-- The arm of a command. -/
def serve (request : SessionLoopRequest) (s : SessionRun) : SessionCommand → SessionRun
  | .write _ | .resize _ _ => s.goTo .channelIo
  | .sftp sftpRequest => s.spawn (.request sftpRequest) false
  | .transfer transferRequest =>
    let transferId := nextTransferId s.tasks.length
    s.spawn (.transfer transferId (transferRequest.start ⟨request.sessionId, transferId⟩)) true
  | .sftpCancelTransfer transferId => { s with tasks := s.tasks.map (·.cancel transferId) }
  | .tunnelOpen spec =>
    match spec.kind with
    | .localForward | .dynamic => s.goTo (.binding spec)
    | .remote => (s.request .loop).goTo (.forwarding spec)
  | .tunnelClose tunnelId =>
    if tunnelId ∈ s.handles then
      ({ s with handles := s.handles.erase tunnelId }.signal tunnelId).goTo
        (.joining (some tunnelId) [] false)
    else s
  | .tunnelList => s
  | .tunnelCloseAll => s.closeAllTunnels false
  | .disconnect => s.leave request.sessionId

/-- The connection has got what it waited for. -/
def connectNext (request : SessionLoopRequest) (s : SessionRun) : ConnectStage → SessionRun
  | .start =>
    if sshJumpMaxDepth < request.jumpHosts then
      s.goTo (.returned (.error (jumpDepthExceeded request)))
    else s.goTo (.connecting (.stream 0))
  | .stream hop => s.goTo (.connecting (.handshake hop))
  | .handshake hop =>
    { s with stage := .connecting (.authenticate hop), log := s.log ++ [.authenticate hop] }
  | .authenticate hop =>
    s.goTo (.connecting (if hop < request.jumpHosts then .stream (hop + 1) else .channelOpen))
  | .channelOpen => s.goTo (.connecting .pty)
  | .pty => s.goTo (.connecting .shell)
  | .shell =>
    (s.emit (.sessionStatus request.sessionId .connected none)).goTo .select

def timed (request : SessionLoopRequest) : ConnectStage → Bool
  | .start | .stream _ | .handshake _ => true
  | .authenticate hop => hop < request.jumpHosts
  | .channelOpen | .pty | .shell => false

def openRemote (request : SessionLoopRequest) (s : SessionRun) (spec : SshTunnelSpec)
    (assignedPort : ℕ) : SessionRun :=
  let bindPort := assignedPort % 2 ^ 16
  let tunnelId := s.tunnels.length
  let route : RemoteRoute := ⟨tunnelId, spec.targetHost.getD [], spec.targetPort.getD 0⟩
  let runtime := { buildTunnelRuntime request.sessionId tunnelId spec .running with bindPort }
  { s with routes := Function.update s.routes bindPort (some route) }.openTunnel runtime true

/-- One step of `run_session_loop`. -/
def loopNext (request : SessionLoopRequest) (s : SessionRun) (event : LoopEvent) :
    Option SessionRun :=
  match s.stage, event with
  | .connecting connect, .answer (.ok ()) => some (s.connectNext request connect)
  | .connecting .start, .answer (.error _) => none
  | .connecting _, .answer (.error err) => some (s.goTo (.returned (.error err)))
  | .connecting connect, .timeout =>
    if timed request connect then
      some (s.goTo (.returned (.error (connectTimeoutError request))))
    else none
  | .select, .recv =>
    match s.rx with
    | [] => none
    | command :: rx => some ({ s with rx }.serve request command)
  | .select, .message message =>
    if s.terminalOutput.length < terminalOutputBatchBytes then
      match message with
      | .data bytes => some { s with terminalOutput := s.terminalOutput ++ bytes }
      | .other => some s
      | .ended => some (s.leave request.sessionId)
    else none
  | .select, .tick =>
    if s.terminalOutput = [] then none else some (s.flush request.sessionId false)
  | .channelIo, .channelDone => some (s.goTo .select)
  | .binding _, .bound (.error _) => some (s.goTo .select)
  | .binding spec, .bound (.ok port) =>
    let runtime := { buildTunnelRuntime request.sessionId s.tunnels.length spec .running with
      bindPort := port }
    some ((s.openTunnel runtime false).goTo .select)
  | .forwarding spec, .forwarded result =>
    if s.holds .loop then
      match result with
      | .error _ => some ((s.release .loop).goTo .select)
      | .ok assignedPort => some ((s.release .loop).goTo (.routing spec assignedPort))
    else none
  | .routing spec assignedPort, .go =>
    some ((s.openRemote request spec assignedPort).goTo .select)
  | .joining none others leaving, .pick index =>
    if index ∈ others then
      some ((s.signal index).goTo (.joining (some index) (others.erase index) leaving))
    else none
  | .joining none [] leaving, .go => some (s.goTo (if leaving then .eof else .select))
  | .joining (some index) others leaving, .joined =>
    if (s.tunnels[index]?).any (·.stage = .finished) then
      some (s.goTo (.joining none others leaving))
    else none
  | .eof, .channelDone => some (s.goTo .closing)
  | .closing, .channelDone => some ((s.request .loop).goTo .disconnecting)
  | .disconnecting, .disconnectSent =>
    if s.holds .loop then some ((s.release .loop).goTo .exiting) else none
  | .disconnecting, .deadline => some ((s.release .loop).goTo .exiting)
  | .exiting, .go => some ((s.emit (.terminalExit request.sessionId)).goTo .lastStatus)
  | .lastStatus, .go =>
    some ((s.emit (.sessionStatus request.sessionId .disconnected none)).goTo (.returned (.ok ())))
  | _, _ => none

/-! ## Tasks -/

/-- The events that a transfer has emitted since `job`. -/
def newEvents (job job' : TransferJob) : List LogEntry :=
  (job'.events.drop job.events.length).map fun progress => .emit (.sftpProgress progress)

/-- One step of the task `index`. -/
def taskNext (s : SessionRun) (index : ℕ) (task : SftpTask) (event : TaskEvent) :
    Option SessionRun :=
  match task.stage, event with
  | .spawned, .request =>
    some ((s.request (.task index)).setTask index { task with stage := .locked })
  | .locked, .answered =>
    match task.body with
    | .request _ =>
      if s.holds (.task index) then
        some ((s.release (.task index)).setTask index { task with stage := .finished })
      else none
    | .transfer _ _ => none
  | .locked, .transfer event =>
    match task.body with
    | .transfer transferId job =>
      if s.holds (.task index) then
        (job.next event).map fun job' =>
          { s.setTask index { task with body := .transfer transferId job' } with
            log := s.log ++ newEvents job job' }
      else none
    | .request _ => none
  | .locked, .done =>
    match task.body with
    | .transfer _ job =>
      if s.holds (.task index) ∧ job.phase = .ended then
        some ((s.release (.task index)).setTask index
          { task with stage := .finished, listed := false })
      else none
    | .request _ => none
  | _, _ => none

/-! ## Tunnels -/

@[simps!] def updateTunnel (s : SessionRun) (index : ℕ) (tunnel : Tunnel) : SessionRun :=
  (s.setTunnel index tunnel).emit (.sshTunnelUpdate tunnel.runtime)

@[simps] def abortConnections (s : SessionRun) (index : ℕ) : SessionRun :=
  { s with lock := s.lock.filter fun
      | .connection tunnel _ => tunnel ≠ index
      | _ => true }

def stopTunnel (s : SessionRun) (index : ℕ) (tunnel : Tunnel) : SessionRun :=
  (s.abortConnections index).updateTunnel index { tunnel with
    runtime := { tunnel.runtime with status := .stopped, activeConnections := 0 }
    stage := .finished
    connections := [] }

/-- A step of the connection `index` of the tunnel `number`. -/
def connectionNext (s : SessionRun) (number : ℕ) (tunnel : Tunnel) (index : ℕ)
    (stage : ConnectionStage) (event : TunnelEvent) : Option SessionRun :=
  let moved (stage : ConnectionStage) (runtime : SshTunnelRuntime) : Tunnel :=
    { tunnel with runtime, connections := tunnel.connections.set index stage }
  let runtime := tunnel.runtime
  let left := { runtime with activeConnections := runtime.activeConnections - 1 }
  match stage, event with
  | .handshaking, .handshaken _ ok =>
    some (s.setTunnel number (moved (if ok then .accepted else .finished) runtime))
  | .accepted, .activate _ =>
    let active := { runtime with
      activeConnections := min (runtime.activeConnections + 1) (2 ^ 32 - 1) }
    some ((s.updateTunnel number (moved .opening active)).request (.connection number index))
  | .opening, .channelOpened _ ok =>
    if s.holds (.connection number index) then
      let s := s.release (.connection number index)
      if ok then some (s.setTunnel number (moved .copying runtime))
      else
        let err := EngineError.new sshTunnelOpenFailedCode "Failed to create SSH forwarding channel"
        some (s.updateTunnel number (moved .finished { left with lastError := some err }))
    else none
  | .copying, .copied _ bytes =>
    match bytes with
    | some (up, down) =>
      some (s.setTunnel number (moved .ending { runtime with
        bytesOut := addBytes runtime.bytesOut up
        bytesIn := addBytes runtime.bytesIn down }))
    | none => some (s.setTunnel number (moved .ending runtime))
  | .ending, .ended _ => some (s.updateTunnel number (moved .finished left))
  | _, _ => none

def connectionOf : TunnelEvent → Option ℕ
  | .handshaken index _ | .activate index | .channelOpened index _ | .copied index _
  | .ended index => some index
  | _ => none

/-- One step of a local or dynamic tunnel. -/
def localTunnelNext (s : SessionRun) (number : ℕ) (tunnel : Tunnel) (event : TunnelEvent) :
    Option SessionRun :=
  match tunnel.stage, event with
  | .opened, .accept =>
    let stage : ConnectionStage :=
      if tunnel.runtime.kind = .dynamic then .handshaking else .accepted
    some (s.setTunnel number { tunnel with connections := tunnel.connections ++ [stage] })
  | .opened, .acceptFailed => some (s.stopTunnel number tunnel)
  | .opened, .stop => if tunnel.stop then some (s.stopTunnel number tunnel) else none
  | .opened, event =>
    (connectionOf event).bind fun index =>
      (tunnel.connections[index]?).bind fun stage =>
        s.connectionNext number tunnel index stage event
  | _, _ => none

/-- The tasks of a tunnel in `remote_connection_tasks` are aborted. -/
@[simps] def abortForwards (s : SessionRun) (number : ℕ) : SessionRun :=
  { s with forwards := s.forwards.map fun forward =>
      if forward.listed ∧ forward.route.tunnelId = number ∧ forward.stage ≠ .finished then
        { forward with stage := .aborted }
      else forward }

/-- One step of a remote tunnel. -/
def remoteTunnelNext (s : SessionRun) (number : ℕ) (tunnel : Tunnel) (event : TunnelEvent) :
    Option SessionRun :=
  let runtime := tunnel.runtime
  let stopped := { tunnel with runtime := { runtime with status := .stopped }, stage := .finished }
  match tunnel.stage, event with
  | .opened, .stop =>
    if tunnel.stop then
      some (s.updateTunnel number { tunnel with
        runtime := { runtime with status := .stopping }, stage := .stopping })
    else none
  | .stopping, .unroute =>
    some (({ s with routes := Function.update s.routes runtime.bindPort none }.abortForwards
      number).setTunnel number { tunnel with stage := .cancelling, registered := false }
        |>.request (.tunnel number))
  | .cancelling, .forwardCancelled =>
    if s.holds (.tunnel number) then
      some ((s.release (.tunnel number)).updateTunnel number stopped)
    else none
  | .cancelling, .deadline => some ((s.release (.tunnel number)).updateTunnel number stopped)
  | _, _ => none

/-- One step of the tunnel `number`. -/
def tunnelNext (s : SessionRun) (number : ℕ) (tunnel : Tunnel) (event : TunnelEvent) :
    Option SessionRun :=
  if tunnel.runtime.kind = .remote then s.remoteTunnelNext number tunnel event
  else s.localTunnelNext number tunnel event

/-! ## Forwarded channels -/

/-- The update of a forwarded channel whose target cannot be reached. -/
def forwardFailed (sessionId : Text) (forward : Forward) : SshTunnelRuntime where
  tunnelId := forward.route.tunnelId
  sessionId
  kind := .remote
  name := none
  bindHost := []
  bindPort := forward.connectedPort % 2 ^ 16
  targetHost := none
  targetPort := none
  status := .failed
  bytesIn := 0
  bytesOut := 0
  activeConnections := 0
  lastError := some (.new "ssh_tunnel_forward_failed"
    "Remote forwarding failed to connect to local target")

/-- `server_channel_open_forwarded_tcpip` looks for the route. Without one the channel is
refused. -/
def openChannel (s : SessionRun) (connectedPort : ℕ) : SessionRun :=
  match s.routes (connectedPort % 2 ^ 16) with
  | some route => { s with forwards := s.forwards ++ [⟨connectedPort, route, .routed, false⟩] }
  | none => s

/-- The handler puts the task into `remote_connection_tasks`, or aborts it when the tunnel has no
entry any more. -/
def listForward (s : SessionRun) (index : ℕ) (forward : Forward) : Option SessionRun :=
  if forward.listed then none
  else if (s.tunnels[forward.route.tunnelId]?).any (·.registered) then
    some (s.setForward index { forward with listed := true })
  else
    let stage := if forward.stage = .finished then .finished else .aborted
    some (s.setForward index { forward with stage })

/-- One step of the forwarded channel `index`. -/
def forwardNext (request : SessionLoopRequest) (s : SessionRun) (index : ℕ) (forward : Forward)
    (event : ForwardEvent) : Option SessionRun :=
  match forward.stage, event with
  | .routed, .accepted => some (s.setForward index { forward with stage := .connecting })
  | .connecting, .connected true => some (s.setForward index { forward with stage := .connected })
  | .connecting, .connected false =>
    some ((s.setForward index { forward with stage := .finished }).emit
      (.sshTunnelUpdate (forwardFailed request.sessionId forward)))
  | .connected, .finished => some (s.setForward index { forward with stage := .finished })
  | .connecting, .listed | .connected, .listed | .finished, .listed => s.listForward index forward
  | _, _ => none

/-! ## The machine -/

/-- One step of a session. -/
def next (request : SessionLoopRequest) (s : SessionRun) : SessionEvent → Option SessionRun
  | .send command => some { s with rx := s.rx ++ [command] }
  | .loop event => s.loopNext request event
  | .task index event => (s.tasks[index]?).bind fun task => s.taskNext index task event
  | .tunnel index event => (s.tunnels[index]?).bind fun tunnel => s.tunnelNext index tunnel event
  | .channel connectedPort => some (s.openChannel connectedPort)
  | .forward index event =>
    (s.forwards[index]?).bind fun forward => s.forwardNext request index forward event

end SessionRun

def sessionLoop (request : SessionLoopRequest) : Machine SessionRun SessionEvent :=
  .ofStep .start (SessionRun.next request)

/-! ## Samples -/

def sampleSession : SessionLoopRequest := ⟨"s".toList, "host".toList, 22, 0⟩

def sampleConnect : List SessionEvent :=
  List.replicate 7 (.loop (.answer (.ok ())))

def sampleDownload : List SessionEvent :=
  [.send (.transfer (.download "/r".toList "/l".toList)), .loop .recv, .task 0 .request]

end FluxTerm.Ssh
