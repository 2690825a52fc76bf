import FluxTerm.Reconnect.Orphans

/-!
# FluxTerm — a new session and its feedback

What `features/session/core/commands.ts` and `hooks/useSessionStateCore.ts` do with the answer of
`ssh_connect` and with the statuses of a session.
-/

namespace FluxTerm.Reconnect

open FluxTerm.Lib FluxTerm.Workspace

namespace Runtime

variable (rt : Runtime)

/-- `connectProfileCommand` after its `await`, where nothing is cancelled. -/
def sessionCreated (lower : Text → Text) (pane : Option Text) (session : Session) : Runtime :=
  let existingState := rt.refs.sessionStates session.sessionId
  let rt := rt.setSessions (· ++ [session])
  let rt :=
    { rt with
      workspace := sessionWorkspaceReducer lower rt.workspace
        (.attachSession session.sessionId pane) }
  let rt :=
    if existingState ≠ some .error ∧ existingState ≠ some .disconnected then
      rt.setSessionState session.sessionId (some .connecting)
    else rt
  rt.setSessionReason session.sessionId none

/-- `suppressSshSessionFeedback`, but for its timer. -/
def suppressSshSessionFeedback (sessionId : Text) : Runtime :=
  let rt := (rt.setSessionState sessionId none).setSessionReason sessionId none
  { rt with
    sessionCloseHandledRef := Function.update rt.sessionCloseHandledRef sessionId false }

/-- `handleSessionStatus`; the flag says whether `disconnectSession` is called. -/
def handleSessionStatus (config : Config) (sessionId : Text) (state : SessionStateUi)
    (lastCommand : Option Text) (terminalEofRequested : Bool) : Runtime × Bool :=
  if state = .disconnected then
    (rt.handleSessionDisconnected config sessionId lastCommand terminalEofRequested, false)
  else
    let serialSession := rt.isSerialSession sessionId
    let localSession := rt.isLocalSession sessionId
    let rt := rt.setSessionState sessionId
      (some (if serialSession && state = .error then .disconnected else state))
    if state = .error then
      (rt.setSessionReason sessionId (some .network), !localSession && !serialSession)
    else (rt, false)

/-! ## What stays -/

variable {rt} {sessionId other : Text}

theorem state_setSessionState (state : Option SessionStateUi) (hne : other ≠ sessionId) :
    (rt.setSessionState sessionId state).now.sessionStates other = rt.now.sessionStates other :=
  Function.update_of_ne hne _ _

theorem state_scheduleReconnectAttempt (reason : DisconnectReason) (hne : other ≠ sessionId) :
    (rt.scheduleReconnectAttempt sessionId reason).now.sessionStates other
      = rt.now.sessionStates other := by
  unfold scheduleReconnectAttempt
  dsimp only
  split
  · exact state_setSessionState _ hne
  · exact state_setSessionState _ hne

theorem state_handleSessionDisconnected (config : Config) (lastCommand : Option Text)
    (terminalEofRequested : Bool) (hne : other ≠ sessionId) :
    (rt.handleSessionDisconnected config sessionId lastCommand
      terminalEofRequested).now.sessionStates other = rt.now.sessionStates other := by
  unfold handleSessionDisconnected
  split
  · rfl
  · dsimp only
    split
    · rw [state_scheduleReconnectAttempt _ hne]
      exact state_setSessionState _ hne
    · exact state_setSessionState _ hne

theorem state_handleSessionStatus (config : Config) (state : SessionStateUi)
    (lastCommand : Option Text) (terminalEofRequested : Bool) (hne : other ≠ sessionId) :
    (rt.handleSessionStatus config sessionId state lastCommand
      terminalEofRequested).1.now.sessionStates other = rt.now.sessionStates other := by
  unfold handleSessionStatus
  split
  · exact state_handleSessionDisconnected config lastCommand terminalEofRequested hne
  · dsimp only
    split
    · exact state_setSessionState _ hne
    · exact state_setSessionState _ hne

theorem core_handleSessionStatus (config : Config) (state : SessionStateUi)
    (lastCommand : Option Text) (terminalEofRequested : Bool) :
    (rt.handleSessionStatus config sessionId state lastCommand terminalEofRequested).1.core
      = rt.core := by
  unfold handleSessionStatus
  split
  · exact rt.core_handleSessionDisconnected sessionId config lastCommand terminalEofRequested
  · dsimp only
    split
    · rfl
    · rfl

theorem handleSessionDisconnected_of_notMem (config : Config) (lastCommand : Option Text)
    (terminalEofRequested : Bool) (h : sessionId ∉ sessionIdsOf rt.refs.sessions) :
    rt.handleSessionDisconnected config sessionId lastCommand terminalEofRequested = rt := by
  unfold handleSessionDisconnected
  rw [if_pos]
  rw [Bool.not_eq_true', Bool.eq_false_iff]
  unfold handlesEnd
  intro hends
  rw [Bool.and_eq_true, List.any_eq_true] at hends
  obtain ⟨-, item, hitem, heq⟩ := hends
  apply h
  rw [← eq_of_beq heq]
  exact List.mem_map_of_mem hitem

theorem getSessionKind_of_notMem (h : sessionId ∉ sessionIdsOf rt.refs.sessions) :
    rt.getSessionKind sessionId = none := by
  unfold getSessionKind
  rw [Option.map_eq_none_iff, List.find?_eq_none]
  intro item hitem heq
  apply h
  rw [← eq_of_beq heq]
  exact List.mem_map_of_mem hitem

end Runtime

theorem mem_attachSession {lower : Text → Text} {state : SessionWorkspaceState}
    {sessionId other : Text} {paneId : Option Text}
    (h : other ∈ collectWorkspaceSessionIds
      (sessionWorkspaceReducer lower state (.attachSession sessionId paneId))) :
    other ∈ collectWorkspaceSessionIds state ∨ other = sessionId := by
  unfold sessionWorkspaceReducer at h
  dsimp only at h
  split at h
  · split at h
    · exact .inl h
    · exact .inr (List.mem_singleton.mp h)
  · rename_i root hroot
    split at h
    · exact .inl h
    · rename_i pane _
      change other ∈ collectNodeSessionIds (appendSessionToPane root pane sessionId) at h
      rw [collectNodeSessionIds_appendSessionToPane, List.mem_flatMap] at h
      obtain ⟨leaf, hleaf, hmem⟩ := h
      have hcollect : ∀ id ∈ leaf.sessionIds, id ∈ collectWorkspaceSessionIds state := by
        intro id hid
        unfold collectWorkspaceSessionIds SessionWorkspaceState.panes
        rw [hroot]
        exact List.mem_flatMap.mpr ⟨leaf, hleaf, hid⟩
      unfold addAt at hmem
      split at hmem
      · rcases List.mem_append.mp hmem with hold | hnew
        · exact .inl (hcollect other hold)
        · exact .inr (List.mem_singleton.mp hnew)
      · exact .inl (hcollect other hmem)

end FluxTerm.Reconnect
