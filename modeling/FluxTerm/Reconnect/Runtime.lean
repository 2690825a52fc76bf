import FluxTerm.Lib.Machine
import FluxTerm.Workspace.Reducer

/-!
# FluxTerm — reconnecting sessions

The reconnect runtime of the session hooks: `features/session/core/reconnectRuntime.ts`,
`reconnectPolicy.ts`, `disconnectReason.ts`, `lifecycle.ts` and `commands.ts`, with the closures of
`hooks/useSessionStateCore.ts`. An asynchronous function is cut at its `await`.

Records of the source are functions to `Option`, where `none` is a missing key.
-/

namespace FluxTerm.Reconnect

open FluxTerm.Lib FluxTerm.Workspace

/-! ## Data -/

inductive SessionKind where
  | ssh
  | localShell
  | serial
deriving DecidableEq

structure Session where
  sessionId : Text
  profileId : Option Text
  kind : SessionKind
deriving DecidableEq

inductive SessionStateUi where
  | connecting
  | connected
  | disconnected
  | error
  | reconnecting
deriving DecidableEq

inductive DisconnectReason where
  | exit
  | poweroff
  | reboot
  | network
  | unknown
deriving DecidableEq

structure SessionMaps where
  sessions : List Session
  sessionStates : Text → Option SessionStateUi
  sessionReasons : Text → Option DisconnectReason

/-- A timeout that was neither cleared nor has fired: it will call `onAttemptReconnect`. -/
structure Timer where
  id : ℕ
  sessionId : Text
  delayMs : ℕ
deriving DecidableEq

/-- The state of the hook. -/
structure Runtime where
  now : SessionMaps
  rendered : SessionMaps
  /-- `sessionsRef`, `sessionStatesRef` and `sessionReasonsRef`. -/
  refs : SessionMaps
  workspace : SessionWorkspaceState
  /-- The ids of `profilesRef`. -/
  profilesRef : List Text
  reconnectInfoBySession : Text → Option (ℕ × ℕ)
  reconnectTimersRef : Text → Option ℕ
  reconnectAttemptsRef : Text → Option ℕ
  sessionCloseHandledRef : Text → Bool
  timers : List Timer
  /-- The handle `setTimeout` returns next; handles are positive. -/
  nextTimerId : ℕ

structure Config where
  autoReconnectOnPoweroff : Bool
  autoReconnectOnReboot : Bool
  /-- `toLocaleLowerCase`, for the workspace. -/
  lower : Text → Text

def sessionIdsOf (sessions : List Session) : List Text := sessions.map Session.sessionId

/-! ## Policy -/

/-- `reconnectDelayTableMs`, by `getReconnectDelayPlanMs`. -/
def getReconnectDelayPlanMs : DisconnectReason → List ℕ
  | .exit => []
  | .poweroff => [20000, 30000, 45000, 60000, 90000]
  | .reboot => [10000, 20000, 30000, 45000, 60000]
  | .network => [2000, 4000, 8000]
  | .unknown => []

def getMaxReconnectAttempts (reason : DisconnectReason) : ℕ :=
  (getReconnectDelayPlanMs reason).length

def computeReconnectDelayMs (reason : DisconnectReason) (attempt : ℕ) : Option ℕ :=
  let plan := getReconnectDelayPlanMs reason
  if plan.isEmpty || attempt == 0 then none
  else plan[min (attempt - 1) (plan.length - 1)]?

/-- `normalizeCommand`: the command word, without a `sudo` in front. -/
def normalizeCommand (command : Text) : Text :=
  match (command.splitOnP isJsWhitespace).filter (fun token => !token.isEmpty) with
  | [] => []
  | [token] => token
  | first :: second :: _ => if first = "sudo".toList then second else first

def inferDisconnectReason (lastCommand : Option Text) (localSession terminalEofRequested : Bool) :
    DisconnectReason :=
  if terminalEofRequested then .exit
  else
    match truthy lastCommand with
    | none => if localSession then .exit else .network
    | some lastCommand =>
      let command := normalizeCommand lastCommand
      if command = "exit".toList then .exit
      else if command = "poweroff".toList then .poweroff
      else if command = "reboot".toList then .reboot
      else if localSession then .exit
      else .network

/-! ## The runtime -/

namespace Runtime

variable (rt : Runtime)

def setSessions (f : List Session → List Session) : Runtime :=
  { rt with now := { rt.now with sessions := f rt.now.sessions } }

/-- `setSessionStates` at one key; `none` deletes it. -/
def setSessionState (sessionId : Text) (state : Option SessionStateUi) : Runtime :=
  { rt with now :=
    { rt.now with sessionStates := Function.update rt.now.sessionStates sessionId state } }

/-- `setSessionReasons` at one key; `none` deletes it. -/
def setSessionReason (sessionId : Text) (reason : Option DisconnectReason) : Runtime :=
  { rt with now :=
    { rt.now with sessionReasons := Function.update rt.now.sessionReasons sessionId reason } }

/-- `setReconnectInfoBySession` at one key; `none` deletes it. -/
def setReconnectInfo (sessionId : Text) (info : Option (ℕ × ℕ)) : Runtime :=
  { rt with
    reconnectInfoBySession := Function.update rt.reconnectInfoBySession sessionId info }

def getSessionKind (sessionId : Text) : Option SessionKind :=
  (rt.refs.sessions.find? fun item => item.sessionId == sessionId).map Session.kind

def isLocalSession (sessionId : Text) : Bool := rt.getSessionKind sessionId == some .localShell

def isSerialSession (sessionId : Text) : Bool := rt.getSessionKind sessionId == some .serial

/-- `window.clearTimeout` of the recorded timer, which is then forgotten. -/
def clearRecordedTimer (sessionId : Text) : Runtime :=
  { rt with
    timers :=
      match rt.reconnectTimersRef sessionId with
      | none => rt.timers
      | some timer => rt.timers.filter fun item => item.id != timer
    reconnectTimersRef := Function.update rt.reconnectTimersRef sessionId none }

def clearReconnectStateById (sessionId : Text) : Runtime :=
  let rt := rt.clearRecordedTimer sessionId
  let rt :=
    { rt with
      reconnectAttemptsRef := Function.update rt.reconnectAttemptsRef sessionId none }
  rt.setReconnectInfo sessionId none

def clearScheduledReconnectCountdown (sessionId : Text) : Runtime :=
  (rt.clearRecordedTimer sessionId).setReconnectInfo sessionId none

/-- `window.setTimeout`, with the handle recorded: a timer recorded before is overwritten. -/
def startTimer (sessionId : Text) (delayMs : ℕ) : Runtime :=
  { rt with
    timers := rt.timers ++ [⟨rt.nextTimerId, sessionId, delayMs⟩]
    reconnectTimersRef := Function.update rt.reconnectTimersRef sessionId (some rt.nextTimerId)
    nextTimerId := rt.nextTimerId + 1 }

def scheduleReconnectAttempt (sessionId : Text) (reason : DisconnectReason) : Runtime :=
  let attempts := (rt.reconnectAttemptsRef sessionId).getD 0 + 1
  match computeReconnectDelayMs reason attempts with
  | none =>
    { rt with
      reconnectAttemptsRef := Function.update rt.reconnectAttemptsRef sessionId none }
      |>.setSessionState sessionId (some .disconnected)
  | some delayMs =>
    { rt with
      reconnectAttemptsRef := Function.update rt.reconnectAttemptsRef sessionId (some attempts) }
      |>.setReconnectInfo sessionId (some (attempts, delayMs))
      |>.setSessionState sessionId (some .reconnecting)
      |>.startTimer sessionId delayMs

/-- `sessionReasonsRef.current[sessionId] ?? "unknown"`. -/
def getDisconnectReason (sessionId : Text) : DisconnectReason :=
  (rt.refs.sessionReasons sessionId).getD .unknown

def substituted (oldSessionId : Text) (nextSession item : Session) : Session :=
  if item.sessionId = oldSessionId then nextSession else item

/-- `replaceSessionConnectionState`, of a session that is not a local shell. -/
def replaceSessionConnectionState (lower : Text → Text) (oldSessionId : Text)
    (nextSession : Session) (nextState : SessionStateUi) : Runtime :=
  let rt := rt.clearReconnectStateById oldSessionId
  let rt :=
    { rt with
      sessionCloseHandledRef := Function.update rt.sessionCloseHandledRef oldSessionId false }
  let rt := rt.setSessions (List.map (substituted oldSessionId nextSession))
  let rt := (rt.setSessionState oldSessionId none).setSessionState nextSession.sessionId
    (some nextState)
  let rt := (rt.setSessionReason oldSessionId none).setReconnectInfo oldSessionId none
  { rt with
    workspace := sessionWorkspaceReducer lower rt.workspace
      (.replaceSession oldSessionId nextSession.sessionId) }

/-- `attemptSessionReconnect` up to `createSshSession`; the flag says whether it is called. -/
def attemptReconnect (sessionId : Text) : Runtime × Bool :=
  match rt.refs.sessions.find? fun item => item.sessionId == sessionId with
  | none => (rt.clearReconnectStateById sessionId, false)
  | some session =>
    if rt.profilesRef.any fun id => some id == session.profileId then (rt, true)
    else (rt.clearReconnectStateById sessionId, false)

def isHostKeyError (code : Text) : Bool :=
  code == "ssh_host_key_unknown".toList || code == "ssh_host_key_mismatch".toList

def exhausted (sessionId : Text) : Bool :=
  getMaxReconnectAttempts (rt.getDisconnectReason sessionId)
    ≤ (rt.reconnectAttemptsRef sessionId).getD 0

/-- The `catch` of `attemptSessionReconnect`. -/
def attemptFailed (sessionId code : Text) : Runtime :=
  if isHostKeyError code then rt.setSessionState sessionId (some .disconnected)
  else if rt.exhausted sessionId then
    (rt.clearReconnectStateById sessionId).setSessionState sessionId (some .disconnected)
  else rt.scheduleReconnectAttempt sessionId (rt.getDisconnectReason sessionId)

/-- `disconnectSessionCommand` after its `await`. -/
def sessionRemoved (lower : Text → Text) (sessionId : Text) : Runtime :=
  let rt := rt.setSessions (List.filter fun item => item.sessionId != sessionId)
  let rt :=
    { rt with
      workspace := sessionWorkspaceReducer lower rt.workspace (.detachSession sessionId) }
  ((rt.setSessionState sessionId none).setSessionReason sessionId none).setReconnectInfo
    sessionId none

/-- The states in which `disconnectSessionCommand` tells the backend. -/
def tellsBackend (sessionId : Text) : Bool :=
  match rt.refs.sessionStates sessionId with
  | some .connected | some .connecting | some .reconnecting => true
  | some .disconnected | some .error | none => false

/-- `handleSessionDisconnected` reconnects on its own after these reasons. -/
def shouldAutoReconnect (config : Config) (reason : DisconnectReason) : Bool :=
  (reason == .poweroff && config.autoReconnectOnPoweroff) ||
    (reason == .reboot && config.autoReconnectOnReboot)

/-- `handleSessionDisconnected` goes on: the end of this session was not handled yet. -/
def handlesEnd (sessionId : Text) : Bool :=
  !rt.sessionCloseHandledRef sessionId &&
    (rt.refs.sessions.any fun item => item.sessionId == sessionId)

/-- `handleSessionDisconnected`, where no banner is suppressed. -/
def handleSessionDisconnected (config : Config) (sessionId : Text) (lastCommand : Option Text)
    (terminalEofRequested : Bool) : Runtime :=
  if !rt.handlesEnd sessionId then rt
  else
    let reason :=
      inferDisconnectReason lastCommand (rt.isLocalSession sessionId) terminalEofRequested
    let auto := shouldAutoReconnect config reason
    let rt :=
      { rt with
        sessionCloseHandledRef := Function.update rt.sessionCloseHandledRef sessionId true }
    let rt := (rt.setSessionReason sessionId (some reason)).setSessionState sessionId
      (some (if auto then .reconnecting else .disconnected))
    if auto then rt.scheduleReconnectAttempt sessionId reason else rt

end Runtime

end FluxTerm.Reconnect
