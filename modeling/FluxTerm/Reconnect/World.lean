import FluxTerm.Reconnect.Runtime

/-!
# FluxTerm — all interleavings of the reconnect runtime

The machine around the runtime: what `useSessionStateCore.ts` does at a timer, at a click, at an
answer of the backend and at a render, in any order. What waits for an answer is in `attempts` and
`closes`.
-/

namespace FluxTerm.Reconnect

open FluxTerm.Lib FluxTerm.Workspace

/-- The runtime with what is under way. -/
structure World where
  runtime : Runtime
  /-- The session of each `attemptSessionReconnect` that waits for `createSshSession`. -/
  attempts : List Text
  /-- The session of each `disconnectSessionCommand` that waits for `sendDisconnect`. -/
  closes : List Text
  issued : List Text
  /-- The ids that `ssh_connect` returned and that were not disconnected since. -/
  live : List Text
  /-- The keys of `sessionStates` that `replaceSessionConnectionState` wrote, while they last. -/
  written : List Text

/-- What can happen next. -/
inductive Event where
  | render
  | effects
  | profilesChanged (ids : List Text)
  | timerFires (timer : ℕ)
  | reconnectSession (sessionId : Text)
  | triggerScheduledReconnectNow (sessionId : Text)
  | scheduleReconnect (sessionId : Text) (reason : DisconnectReason)
  | clearReconnectState (sessionId : Text)
  /-- `ssh_connect` answers the attempt for a session. -/
  | connected (sessionId : Text) (nextSession : Session)
  | connectFailed (sessionId code : Text)
  | disconnectSession (sessionId : Text)
  /-- `sendDisconnect` comes back, with or without an error. -/
  | disconnectSent (sessionId : Text)
  /-- `terminal:exit`, or the status `disconnected` of the backend. -/
  | sessionEnded (sessionId : Text) (lastCommand : Option Text) (terminalEofRequested : Bool)
  | sessionStatus (sessionId : Text) (state : SessionStateUi)

namespace World

variable (config : Config) (w : World)

def without (sessionId : Text) (l : List Text) : List Text := l.filter fun item => item != sessionId

/-- `attemptReconnect`, until it waits. -/
def attempt (sessionId : Text) : World :=
  let started := w.runtime.attemptReconnect sessionId
  { w with
    runtime := started.1
    attempts := if started.2 then sessionId :: w.attempts else w.attempts }

def remove (sessionId : Text) : World :=
  { w with
    runtime := w.runtime.sessionRemoved config.lower sessionId
    written := without sessionId w.written }

/-- `disconnectSession`, until it waits. A session in no live state is removed at once. -/
def disconnectSession (sessionId : Text) : World :=
  match w.runtime.getSessionKind sessionId with
  | none => w
  | some _ =>
    if w.runtime.tellsBackend sessionId then
      { w with closes := sessionId :: w.closes, live := without sessionId w.live }
    else w.remove config sessionId

/-- One event. `endCounts` says whether a session whose end the backend has reported counts as
disconnected; nothing in the runtime depends on it. -/
def step (endCounts : Bool) : Event → Option World
  | .render => some { w with runtime := { w.runtime with rendered := w.runtime.now } }
  | .effects => some { w with runtime := { w.runtime with refs := w.runtime.rendered } }
  | .profilesChanged ids => some { w with runtime := { w.runtime with profilesRef := ids } }
  | .timerFires timer =>
    match w.runtime.timers.find? fun item => item.id == timer with
    | none => none
    | some due =>
      let runtime :=
        { w.runtime with
          timers := w.runtime.timers.filter fun item => item.id != timer
          reconnectTimersRef :=
            Function.update w.runtime.reconnectTimersRef due.sessionId none }
      some ({ w with runtime }.attempt due.sessionId)
  | .reconnectSession sessionId =>
    -- local shells and serial ports have commands of their own
    if w.runtime.isLocalSession sessionId || w.runtime.isSerialSession sessionId then none
    else
      let runtime := w.runtime.setSessionState sessionId (some .reconnecting)
      some ({ w with runtime }.attempt sessionId)
  | .triggerScheduledReconnectNow sessionId =>
    if w.runtime.isLocalSession sessionId || w.runtime.isSerialSession sessionId then none
    else
      match w.runtime.reconnectTimersRef sessionId with
      | none => some w
      | some _ =>
        let runtime := (w.runtime.clearScheduledReconnectCountdown sessionId).setSessionState
          sessionId (some .reconnecting)
        some ({ w with runtime }.attempt sessionId)
  | .scheduleReconnect sessionId reason =>
    some { w with runtime := w.runtime.scheduleReconnectAttempt sessionId reason }
  | .clearReconnectState sessionId =>
    some { w with runtime := w.runtime.clearReconnectStateById sessionId }
  | .connected sessionId nextSession =>
    -- the backend draws a new id for every session
    if sessionId ∈ w.attempts ∧ nextSession.sessionId ∉ w.issued then
      some
        { w with
          runtime :=
            w.runtime.replaceSessionConnectionState config.lower sessionId nextSession .connecting
          attempts := w.attempts.erase sessionId
          issued := nextSession.sessionId :: w.issued
          live := nextSession.sessionId :: w.live
          written := nextSession.sessionId :: without sessionId w.written }
    else none
  | .connectFailed sessionId code =>
    if sessionId ∈ w.attempts then
      some
        { w with
          runtime := w.runtime.attemptFailed sessionId code
          attempts := w.attempts.erase sessionId }
    else none
  | .disconnectSession sessionId => some (w.disconnectSession config sessionId)
  | .disconnectSent sessionId =>
    if sessionId ∈ w.closes then
      some ({ w with closes := w.closes.erase sessionId }.remove config sessionId)
    else none
  | .sessionEnded sessionId lastCommand terminalEofRequested =>
    some
      { w with
        runtime :=
          w.runtime.handleSessionDisconnected config sessionId lastCommand terminalEofRequested
        live := if endCounts then without sessionId w.live else w.live }
  | .sessionStatus sessionId state =>
    if state = .disconnected || w.runtime.isSerialSession sessionId then none
    else
      let runtime := w.runtime.setSessionState sessionId (some state)
      if state = .error then
        let w := { w with runtime := runtime.setSessionReason sessionId (some .network) }
        if w.runtime.isLocalSession sessionId then some w
        else some (w.disconnectSession config sessionId)
      else some { w with runtime }

end World

/-- What the hook starts from: sessions that are all there, and nothing under way. -/
structure Started (w : World) : Prop where
  attempts : w.attempts = []
  closes : w.closes = []
  written : w.written = []
  timers : w.runtime.timers = []
  recorded : ∀ sessionId, w.runtime.reconnectTimersRef sessionId = none
  live : ∀ sessionId ∈ w.live, sessionId ∈ sessionIdsOf w.runtime.now.sessions ∧
    sessionId ∈ collectWorkspaceSessionIds w.runtime.workspace
  issued : ∀ sessions ∈ [w.runtime.now.sessions, w.runtime.rendered.sessions,
    w.runtime.refs.sessions], ∀ sessionId ∈ sessionIdsOf sessions, sessionId ∈ w.issued

def world (config : Config) (endCounts : Bool) : Machine World Event where
  init := Started
  step w event w' := w.step config endCounts event = some w'

/-! ## One tab -/

def autoReconnectConfig : Config := ⟨true, true, id⟩

/-- The hook with one SSH tab in the given state. -/
def oneTab (state : SessionStateUi) (live : List Text) : World where
  runtime :=
    let maps : SessionMaps :=
      { sessions := [⟨"s0".toList, some "p".toList, .ssh⟩]
        sessionStates := Function.update (fun _ => none) "s0".toList (some state)
        sessionReasons := fun _ => none }
    { now := maps
      rendered := maps
      refs := maps
      workspace := sessionWorkspaceReducer id createEmptyWorkspaceState
        (.attachSession "s0".toList (some "pane".toList))
      profilesRef := ["p".toList]
      reconnectInfoBySession := fun _ => none
      reconnectTimersRef := fun _ => none
      reconnectAttemptsRef := fun _ => none
      sessionCloseHandledRef := fun _ => false
      timers := []
      nextTimerId := 1 }
  attempts := []
  closes := []
  issued := ["s0".toList]
  live := live
  written := []

theorem started_oneTab (state : SessionStateUi) {live : List Text} (h : live ⊆ ["s0".toList]) :
    Started (oneTab state live) where
  attempts := rfl
  closes := rfl
  written := rfl
  timers := rfl
  recorded _ := rfl
  live sessionId hmem := by
    cases List.mem_singleton.mp (h hmem)
    exact ⟨List.mem_singleton.mpr rfl, List.mem_singleton.mpr rfl⟩
  issued sessions hsessions sessionId hmem := by
    simp only [List.mem_cons, List.not_mem_nil, or_false] at hsessions
    rcases hsessions with rfl | rfl | rfl <;> exact hmem

end FluxTerm.Reconnect
