import FluxTerm.Lib.Workers
import FluxTerm.Reconnect.Feedback

/-!
# FluxTerm — cancelling an SSH connect

`handleConnectProfile` and `handleCancelConnectProfile` of `main/AppShell.tsx`, with
`connectProfileCommand` and `cancelSshConnectSession` behind them. For each profile one record says
which connect a cancel is for; a new connect replaces it.

* **`leavesNothing_of_oneAtATime`** — the result on runs.
* **`sampleTwice_leavesSession`** — two connects of one profile, and a cancel.
-/

namespace FluxTerm.Reconnect

open FluxTerm.Lib FluxTerm.Workspace

/-! ## Connects -/

inductive ConnectStage where
  | saving
  /-- `ssh_connect` is in flight. -/
  | connecting
  | done
  deriving DecidableEq

/-- A call of `handleConnectProfile`, with its `PendingSshConnectRuntime`. -/
structure ConnectRun where
  profileId : Option Text
  stage : ConnectStage
  cancelled : Bool
  created : Option Text
  abandoned : Bool

def ConnectRun.begun (profileId : Option Text) : ConnectRun :=
  ⟨profileId, if profileId.isSome then .connecting else .saving, false, none, false⟩

structure ConnectWorld where
  runtime : Runtime
  runs : List ConnectRun
  sshConnectRuntimeRef : Text → Option ℕ
  connectingSshProfiles : Text → Bool
  /-- The keys of `suppressedSshFeedbackTimersRef`. -/
  suppressed : List Text
  /-- The sessions for which `ssh_disconnect` has been sent. -/
  told : List Text
  /-- The session of each `disconnectSessionCommand` that waits for `sendDisconnect`. -/
  closes : List Text
  issued : List Text
  statuses : Text → Option SessionStateUi

/-- What can happen next. -/
inductive ConnectEvent where
  /-- `handleConnectProfile`, when its checks have passed. -/
  | connect (profileId : Option Text)
  /-- `profile_save` answers, with the id of the new profile. -/
  | saved (run : ℕ) (profileId : Option Text)
  | created (run : ℕ) (sessionId : Text)
  /-- `ssh_connect` answers, with an error if no session has been created. -/
  | answered (run : ℕ) (pane : Option Text)
  | cancel (profileId : Text)
  | status (sessionId : Text) (state : SessionStateUi) (lastCommand : Option Text)
      (terminalEofRequested : Bool)
  /-- `terminal:exit`. -/
  | terminalExit (sessionId : Text) (lastCommand : Option Text) (terminalEofRequested : Bool)
  | suppressionEnds (sessionId : Text)
  | disconnectSession (sessionId : Text)
  | disconnectSent (sessionId : Text)
  | render
  | effects

def followsStatus : Option SessionStateUi → SessionStateUi → Bool
  | none, .connecting => true
  | some .connecting, .connected => true
  | some .connecting, .error => true
  | some .connected, .disconnected => true
  | _, _ => false

namespace ConnectWorld

variable (config : Config) (w : ConnectWorld)

def setRun (k : ℕ) (run : ConnectRun) : ConnectWorld := { w with runs := w.runs.set k run }

def own (k : ℕ) (profileId : Text) : ConnectWorld :=
  { w with
    sshConnectRuntimeRef := Function.update w.sshConnectRuntimeRef profileId (some k)
    connectingSshProfiles := Function.update w.connectingSshProfiles profileId true }

/-- The `finally` of `handleConnectProfile`. -/
def release (k : ℕ) (profileId : Option Text) : ConnectWorld :=
  profileId.elim w fun profileId =>
    if w.sshConnectRuntimeRef profileId = some k then
      { w with
        sshConnectRuntimeRef := Function.update w.sshConnectRuntimeRef profileId none
        connectingSshProfiles := Function.update w.connectingSshProfiles profileId false }
    else w

/-- `disconnectSession`, until it waits. -/
def disconnectSession (sessionId : Text) : ConnectWorld :=
  if (w.runtime.getSessionKind sessionId).isNone then w
  else if w.runtime.tellsBackend sessionId then
    { w with closes := sessionId :: w.closes, told := sessionId :: w.told }
  else { w with runtime := w.runtime.sessionRemoved config.lower sessionId }

def cancelSshConnectSession (sessionId : Text) : ConnectWorld :=
  let w :=
    { w with
      runtime := w.runtime.suppressSshSessionFeedback sessionId
      suppressed := sessionId :: w.suppressed }
  if (w.runtime.getSessionKind sessionId).isSome then w.disconnectSession config sessionId
  else { w with told := sessionId :: w.told }

/-- What `connectProfileCommand` does with the session, and its `onSessionCreated`. -/
def settle (run : ConnectRun) (pane : Option Text) : ConnectWorld :=
  let session (id : Text) : Session := ⟨id, run.profileId, .ssh⟩
  run.created.elim w fun id =>
    if run.cancelled then w.cancelSshConnectSession config id
    else { w with runtime := w.runtime.sessionCreated config.lower pane (session id) }

/-- `ssh_connect` has answered; the continuations of `connectProfileCommand` and of
`handleConnectProfile` run at once. -/
def answer (k : ℕ) (run : ConnectRun) (pane : Option Text) : ConnectWorld :=
  ((w.settle config run pane).setRun k { run with stage := .done }).release k run.profileId

def abandon (profileId : Text) (run : ConnectRun) : ConnectRun :=
  if run.stage ≠ .done ∧ run.profileId = some profileId then { run with abandoned := true } else run

/-- `handleCancelConnectProfile`. A call that has been answered has left the record, so
`runtime.sessionId` is not set yet. -/
def cancel (profileId : Text) : ConnectWorld :=
  let w := { w with runs := w.runs.map (abandon profileId) }
  (w.sshConnectRuntimeRef profileId).elim w fun k => (w.runs[k]?).elim w fun run =>
    { w.setRun k { run with cancelled := true } with
      connectingSshProfiles := Function.update w.connectingSshProfiles profileId false }

/-- A status, behind `consumeSuppressedSshSessionFeedback`. -/
def deliver (sessionId : Text) (state : SessionStateUi) (lastCommand : Option Text)
    (terminalEofRequested : Bool) : ConnectWorld :=
  let w := { w with statuses := Function.update w.statuses sessionId (some state) }
  if sessionId ∈ w.suppressed then
    if state ≠ .connecting then { w with suppressed := w.suppressed.filter (· ≠ sessionId) } else w
  else
    let handled := w.runtime.handleSessionStatus config sessionId state lastCommand
      terminalEofRequested
    let w := { w with runtime := handled.1 }
    if handled.2 then w.disconnectSession config sessionId else w

/-- One event. -/
def next : ConnectEvent → Option ConnectWorld
  | .connect profileId =>
    let w' := { w with runs := w.runs ++ [.begun profileId] }
    some (profileId.elim w' (w'.own w.runs.length))
  | .saved k profileId => (w.runs[k]?).bind fun run =>
    if run.stage ≠ .saving then none
    else profileId.elim (some (w.setRun k { run with stage := .done })) fun profileId =>
      -- the id of a new profile is new
      if ∀ other ∈ w.runs, other.profileId ≠ some profileId then
        some ((w.setRun k
          { run with profileId := some profileId, stage := .connecting }).own k profileId)
      else none
  | .created k sessionId => (w.runs[k]?).bind fun run =>
    if run.stage = .connecting ∧ run.created = none ∧ sessionId ∉ w.issued then
      some { w.setRun k { run with created := some sessionId } with
        issued := sessionId :: w.issued }
    else none
  | .answered k pane => (w.runs[k]?).bind fun run =>
    if run.stage = .connecting then some (w.answer config k run pane) else none
  | .cancel profileId => some (w.cancel profileId)
  | .status sessionId state lastCommand terminalEofRequested =>
    if sessionId ∈ w.issued ∧ followsStatus (w.statuses sessionId) state = true then
      some (w.deliver config sessionId state lastCommand terminalEofRequested)
    else none
  | .terminalExit sessionId lastCommand terminalEofRequested => some { w with
      runtime := w.runtime.handleSessionDisconnected config sessionId lastCommand
        terminalEofRequested }
  | .suppressionEnds sessionId => some { w with
      suppressed := w.suppressed.filter (· ≠ sessionId) }
  | .disconnectSession sessionId => some (w.disconnectSession config sessionId)
  | .disconnectSent sessionId =>
    if sessionId ∈ w.closes then
      some { w with
        closes := w.closes.erase sessionId
        runtime := w.runtime.sessionRemoved config.lower sessionId }
    else none
  | .render => some { w with runtime := { w.runtime with rendered := w.runtime.now } }
  | .effects => some { w with runtime := { w.runtime with refs := w.runtime.rendered } }

/-- The session is in none of the lists and not in the workspace. -/
def Unlisted (id : Text) : Prop :=
  id ∉ sessionIdsOf w.runtime.now.sessions ∧ id ∉ sessionIdsOf w.runtime.rendered.sessions ∧
    id ∉ sessionIdsOf w.runtime.refs.sessions ∧
    id ∉ collectWorkspaceSessionIds w.runtime.workspace ∧ id ∉ w.closes

/-- A connect that was cancelled while it was in flight has ended without a session in the list or
the workspace, its session has been sent a disconnect, and no state of it is left; and a profile is
shown as connecting exactly while a connect of it is in flight that was not cancelled. -/
structure LeavesNothing : Prop where
  ended : ∀ run ∈ w.runs, run.stage = .done → run.abandoned = true → ∀ id, run.created = some id →
    id ∉ sessionIdsOf w.runtime.now.sessions ∧
      id ∉ collectWorkspaceSessionIds w.runtime.workspace ∧ id ∈ w.told ∧
        w.runtime.now.sessionStates id = none
  shown : ∀ profileId, w.connectingSshProfiles profileId = true ↔
    ∃ run ∈ w.runs, run.profileId = some profileId ∧ run.stage ≠ .done ∧ run.abandoned = false

end ConnectWorld

/-- No connect has been made; the sessions that are there have ids. -/
structure Idle (w : ConnectWorld) : Prop where
  runs : w.runs = []
  record : ∀ profileId, w.sshConnectRuntimeRef profileId = none
  shown : ∀ profileId, w.connectingSshProfiles profileId = false
  issued : ∀ id, id ∉ w.issued → w.Unlisted id

def connectMachine (config : Config) : Machine ConnectWorld ConnectEvent where
  init := Idle
  step w event w' := w.next config event = some w'

def OneAtATime (w : ConnectWorld) : ConnectEvent → Prop
  | .connect (some profileId) => w.connectingSshProfiles profileId = false
  | .suppressionEnds sessionId => sessionId ∈ w.suppressed →
      w.statuses sessionId ≠ none ∧ w.statuses sessionId ≠ some .connecting
  | _ => True

instance (w : ConnectWorld) (event : ConnectEvent) : Decidable (OneAtATime w event) := by
  unfold OneAtATime
  split <;> infer_instance

/-! ## What a step does to a cancelled session -/

namespace ConnectWorld

variable {config : Config} {w w' : ConnectWorld} {id sessionId : Text}

def IsSettled (status : Option SessionStateUi) : Prop := status ≠ none ∧ status ≠ some .connecting

/-- Nothing is left of the session, and nothing will come back. -/
def Clean (w : ConnectWorld) (id : Text) : Prop :=
  w.Unlisted id ∧ id ∈ w.told ∧ w.runtime.now.sessionStates id = none ∧
    (id ∈ w.suppressed ∨ IsSettled (w.statuses id))

theorem Unlisted.congr (h : w.Unlisted id) (hcore : w'.runtime.core = w.runtime.core)
    (hcloses : id ∈ w'.closes → id ∈ w.closes) : w'.Unlisted id := by
  obtain ⟨hnow, hrendered, hrefs, hworkspace, hclosing⟩ := h
  unfold Runtime.core at hcore
  obtain ⟨h1, h2, h3, h4⟩ := Prod.mk.inj hcore |>.imp_right fun h =>
    Prod.mk.inj h |>.imp_right Prod.mk.inj
  unfold Unlisted
  rw [h1, h2, h3, h4]
  exact ⟨hnow, hrendered, hrefs, hworkspace, fun hmem => hclosing (hcloses hmem)⟩

theorem Unlisted.sessionRemoved (h : w.Unlisted id) {closes : List Text}
    (hcloses : id ∉ closes) :
    { w with closes, runtime := w.runtime.sessionRemoved config.lower sessionId }.Unlisted id := by
  obtain ⟨hnow, hrendered, hrefs, hworkspace, -⟩ := h
  refine ⟨?_, hrendered, hrefs, ?_, hcloses⟩
  · show id ∉ sessionIdsOf (w.runtime.now.sessions.filter _)
    rw [sessionIdsOf_filter]
    exact fun hmem => hnow (List.mem_of_mem_filter hmem)
  · show id ∉ collectWorkspaceSessionIds
      (sessionWorkspaceReducer config.lower w.runtime.workspace (.detachSession sessionId))
    rw [collectWorkspaceSessionIds_detachSession]
    exact fun hmem => hworkspace (List.mem_of_mem_filter hmem)

theorem state_sessionRemoved (h : w.runtime.now.sessionStates id = none) :
    (w.runtime.sessionRemoved config.lower sessionId).now.sessionStates id = none := by
  show Function.update w.runtime.now.sessionStates sessionId none id = none
  by_cases heq : id = sessionId
  · rw [heq, Function.update_self]
  · rw [Function.update_of_ne heq, h]

theorem calls_disconnectSession :
    (w.disconnectSession config sessionId).runs = w.runs ∧
      (w.disconnectSession config sessionId).issued = w.issued ∧
      (w.disconnectSession config sessionId).sshConnectRuntimeRef = w.sshConnectRuntimeRef ∧
      (w.disconnectSession config sessionId).connectingSshProfiles
        = w.connectingSshProfiles := by
  unfold ConnectWorld.disconnectSession
  split
  · exact ⟨rfl, rfl, rfl, rfl⟩
  · split
    · exact ⟨rfl, rfl, rfl, rfl⟩
    · exact ⟨rfl, rfl, rfl, rfl⟩

theorem Unlisted.disconnectSession (h : w.Unlisted id) :
    (w.disconnectSession config sessionId).Unlisted id := by
  unfold ConnectWorld.disconnectSession
  split
  · exact h
  · rename_i hlisted
    split
    · have hne : id ≠ sessionId := by
        rintro rfl
        apply hlisted
        rw [Runtime.getSessionKind_of_notMem h.2.2.1]
        rfl
      refine h.congr rfl fun hmem => ?_
      rcases List.mem_cons.mp hmem with heq | hmem
      · exact absurd heq hne
      · exact hmem
    · exact h.sessionRemoved h.2.2.2.2

theorem Clean.disconnectSession (h : w.Clean id) :
    (w.disconnectSession config sessionId).Clean id := by
  obtain ⟨hunlisted, htold, hstate, hquiet⟩ := h
  refine ⟨hunlisted.disconnectSession, ?_, ?_, ?_⟩
  all_goals
    unfold ConnectWorld.disconnectSession
    split
  · exact htold
  · split
    · exact List.mem_cons_of_mem _ htold
    · exact htold
  · exact hstate
  · split
    · exact hstate
    · exact state_sessionRemoved hstate
  · exact hquiet
  · split
    · exact hquiet
    · exact hquiet

theorem Clean.deliver {state : SessionStateUi} {lastCommand : Option Text}
    {terminalEofRequested : Bool} (h : w.Clean id)
    (hfollows : followsStatus (w.statuses sessionId) state = true) :
    (w.deliver config sessionId state lastCommand terminalEofRequested).Clean id := by
  obtain ⟨hunlisted, htold, hstate, hquiet⟩ := h
  unfold ConnectWorld.deliver
  dsimp only
  by_cases heq : id = sessionId
  · -- its own status
    subst heq
    split
    · rename_i hsuppressed
      split
      · rename_i hnew
        refine ⟨hunlisted.congr rfl fun h => h, htold, hstate, .inr ?_⟩
        show IsSettled (Function.update w.statuses id (some state) id)
        rw [Function.update_self]
        exact ⟨nofun, fun h => hnew (Option.some.inj h)⟩
      · exact ⟨hunlisted.congr rfl fun h => h, htold, hstate, .inl hsuppressed⟩
    · rename_i hfree
      have hsettled : IsSettled (w.statuses id) := hquiet.resolve_left hfree
      have hlast : w.statuses id = some .connected ∧ state = .disconnected := by
        unfold followsStatus at hfollows
        split at hfollows
        · rename_i hnone
          exact absurd hnone hsettled.1
        · rename_i hconnecting
          exact absurd hconnecting hsettled.2
        · rename_i hconnecting
          exact absurd hconnecting hsettled.2
        · rename_i hconnected
          exact ⟨hconnected, rfl⟩
        · cases hfollows
      rw [hlast.2]
      unfold Runtime.handleSessionStatus
      rw [if_pos rfl,
        Runtime.handleSessionDisconnected_of_notMem config _ _ hunlisted.2.2.1]
      refine ⟨hunlisted.congr rfl fun h => h, htold, hstate, .inr ?_⟩
      show IsSettled (Function.update w.statuses id (some .disconnected) id)
      rw [Function.update_self]
      exact ⟨nofun, nofun⟩
  · have hkept : IsSettled (w.statuses id) →
        IsSettled (Function.update w.statuses sessionId (some state) id) := by
      rw [Function.update_of_ne heq]
      exact fun h => h
    split
    · split
      · refine ⟨hunlisted.congr rfl fun h => h, htold, hstate, ?_⟩
        refine hquiet.imp (fun hmem => List.mem_filter.mpr ⟨hmem, ?_⟩) hkept
        rw [decide_eq_true_iff]
        exact heq
      · exact ⟨hunlisted.congr rfl fun h => h, htold, hstate, hquiet.imp_right hkept⟩
    · have hclean : { w with
          statuses := Function.update w.statuses sessionId (some state)
          runtime := (w.runtime.handleSessionStatus config sessionId state lastCommand
            terminalEofRequested).1 }.Clean id := by
        refine ⟨hunlisted.congr ?_ fun h => h, htold, ?_, hquiet.imp_right hkept⟩
        · exact Runtime.core_handleSessionStatus config state lastCommand terminalEofRequested
        · exact (Runtime.state_handleSessionStatus config state lastCommand terminalEofRequested
            heq).trans hstate
      split
      · exact hclean.disconnectSession
      · exact hclean

theorem Unlisted.deliver {state : SessionStateUi} {lastCommand : Option Text}
    {terminalEofRequested : Bool} (h : w.Unlisted id) :
    (w.deliver config sessionId state lastCommand terminalEofRequested).Unlisted id := by
  unfold ConnectWorld.deliver
  dsimp only
  split
  · split
    · exact h.congr rfl fun h => h
    · exact h.congr rfl fun h => h
  · have hunlisted : { w with
        statuses := Function.update w.statuses sessionId (some state)
        runtime := (w.runtime.handleSessionStatus config sessionId state lastCommand
          terminalEofRequested).1 }.Unlisted id :=
      h.congr (Runtime.core_handleSessionStatus config state lastCommand terminalEofRequested)
        fun h => h
    split
    · exact hunlisted.disconnectSession
    · exact hunlisted

/-! ## The answer of `ssh_connect` -/

theorem cancelSshConnectSession_clean (h : w.Unlisted id) :
    (w.cancelSshConnectSession config id).Clean id := by
  have hkind : (w.runtime.suppressSshSessionFeedback id).getSessionKind id = none :=
    Runtime.getSessionKind_of_notMem h.2.2.1
  unfold ConnectWorld.cancelSshConnectSession
  dsimp only
  rw [hkind, if_neg nofun]
  refine ⟨h.congr rfl fun h => h, List.mem_cons_self, ?_, .inl List.mem_cons_self⟩
  exact Function.update_self _ _ _

theorem calls_cancelSshConnectSession :
    (w.cancelSshConnectSession config id).runs = w.runs ∧
      (w.cancelSshConnectSession config id).issued = w.issued ∧
      (w.cancelSshConnectSession config id).sshConnectRuntimeRef = w.sshConnectRuntimeRef ∧
      (w.cancelSshConnectSession config id).connectingSshProfiles = w.connectingSshProfiles := by
  unfold ConnectWorld.cancelSshConnectSession
  dsimp only
  split
  · exact calls_disconnectSession
  · exact ⟨rfl, rfl, rfl, rfl⟩

theorem Unlisted.cancelSshConnectSession (h : w.Unlisted sessionId) (hother : w.Unlisted id) :
    (w.cancelSshConnectSession config sessionId).Unlisted id := by
  have hkind : (w.runtime.suppressSshSessionFeedback sessionId).getSessionKind sessionId = none :=
    Runtime.getSessionKind_of_notMem h.2.2.1
  unfold ConnectWorld.cancelSshConnectSession
  dsimp only
  rw [hkind, if_neg nofun]
  exact hother.congr rfl fun h => h

theorem Clean.cancelSshConnectSession (h : w.Unlisted sessionId) (hclean : w.Clean id) :
    (w.cancelSshConnectSession config sessionId).Clean id := by
  by_cases heq : id = sessionId
  · subst heq
    exact cancelSshConnectSession_clean h
  · obtain ⟨hunlisted, htold, hstate, hquiet⟩ := hclean
    have hkind : (w.runtime.suppressSshSessionFeedback sessionId).getSessionKind sessionId = none :=
      Runtime.getSessionKind_of_notMem h.2.2.1
    unfold ConnectWorld.cancelSshConnectSession
    dsimp only
    rw [hkind, if_neg nofun]
    refine ⟨hunlisted.congr rfl fun h => h, List.mem_cons_of_mem _ htold, ?_, ?_⟩
    · exact (Function.update_of_ne heq _ _).trans hstate
    · exact hquiet.imp_left (List.mem_cons_of_mem _)

theorem Unlisted.sessionCreated {pane : Option Text} {session : Session} (h : w.Unlisted id)
    (hne : id ≠ session.sessionId) :
    { w with runtime := w.runtime.sessionCreated config.lower pane session }.Unlisted id := by
  obtain ⟨hnow, hrendered, hrefs, hworkspace, hcloses⟩ := h
  have hcore : (w.runtime.sessionCreated config.lower pane session).core =
      (w.runtime.now.sessions ++ [session], w.runtime.rendered.sessions, w.runtime.refs.sessions,
        sessionWorkspaceReducer config.lower w.runtime.workspace
          (.attachSession session.sessionId pane)) := by
    unfold Runtime.sessionCreated
    dsimp only
    split <;> rfl
  unfold Runtime.core at hcore
  obtain ⟨h1, h2, h3, h4⟩ := Prod.mk.inj hcore |>.imp_right fun h =>
    Prod.mk.inj h |>.imp_right Prod.mk.inj
  unfold Unlisted
  dsimp only
  rw [h1, h2, h3, h4]
  refine ⟨?_, hrendered, hrefs, ?_, hcloses⟩
  · intro hmem
    unfold sessionIdsOf at hmem
    rw [List.map_append, List.mem_append] at hmem
    rcases hmem with hmem | hmem
    · exact hnow hmem
    · exact hne (List.mem_singleton.mp hmem)
  · intro hmem
    rcases mem_attachSession hmem with hmem | heq
    · exact hworkspace hmem
    · exact hne heq

theorem Clean.sessionCreated {pane : Option Text} {session : Session} (h : w.Clean id)
    (hne : id ≠ session.sessionId) :
    { w with runtime := w.runtime.sessionCreated config.lower pane session }.Clean id := by
  obtain ⟨hunlisted, htold, hstate, hquiet⟩ := h
  refine ⟨hunlisted.sessionCreated hne, htold, ?_, hquiet⟩
  show (w.runtime.sessionCreated config.lower pane session).now.sessionStates id = none
  unfold Runtime.sessionCreated
  dsimp only
  split
  · exact (Runtime.state_setSessionState _ hne).trans hstate
  · exact hstate

/-! ## The sessions of the calls -/

theorem getElem?_setRun {k : ℕ} {old : ConnectRun} (new : ConnectRun)
    (hold : w.runs[k]? = some old) (j : ℕ) :
    (w.setRun k new).runs[j]? = if j = k then some new else w.runs[j]? := by
  show (w.runs.set k new)[j]? = _
  split
  · rename_i heq
    rw [heq, List.getElem?_set_self (List.getElem?_eq_some_iff.mp hold).1]
  · rename_i hne
    exact List.getElem?_set_ne (Ne.symm hne)

/-- Each call has a session of its own; while it is in flight nobody has heard of it. -/
structure Sessions (w : ConnectWorld) : Prop where
  fresh : ∀ id, id ∉ w.issued → w.Unlisted id
  created : ∀ (k : ℕ) (run : ConnectRun) (id : Text), w.runs[k]? = some run →
    run.created = some id → id ∈ w.issued
  apart : ∀ (k j : ℕ) (run other : ConnectRun) (id : Text), w.runs[k]? = some run →
    w.runs[j]? = some other → run.created = some id → other.created = some id → k = j
  saving : ∀ (k : ℕ) (run : ConnectRun), w.runs[k]? = some run → run.stage = .saving →
    run.created = none
  waiting : ∀ (k : ℕ) (run : ConnectRun) (id : Text), w.runs[k]? = some run → run.stage ≠ .done →
    run.created = some id → w.Unlisted id
  clean : ∀ (k : ℕ) (run : ConnectRun) (id : Text), w.runs[k]? = some run → run.stage = .done →
    run.abandoned = true → run.created = some id → w.Clean id

theorem Sessions.frame (h : w.Sessions) (hruns : w'.runs = w.runs) (hissued : w'.issued = w.issued)
    (hunlisted : ∀ id, w.Unlisted id → w'.Unlisted id) (hclean : ∀ id, w.Clean id → w'.Clean id) :
    w'.Sessions where
  fresh id hid := hunlisted id (h.fresh id (hissued ▸ hid))
  created := hruns ▸ hissued ▸ h.created
  apart := hruns ▸ h.apart
  saving := hruns ▸ h.saving
  waiting k run id hrun hstage hcreated :=
    hunlisted id (h.waiting k run id (hruns ▸ hrun) hstage hcreated)
  clean k run id hrun hstage habandoned hcreated :=
    hclean id (h.clean k run id (hruns ▸ hrun) hstage habandoned hcreated)

theorem Sessions.mapRuns (h : w.Sessions) (hissued : w'.issued = w.issued)
    (hunlisted : ∀ id, w.Unlisted id → w'.Unlisted id) (hclean : ∀ id, w.Clean id → w'.Clean id)
    (hruns : ∀ (k : ℕ) (run' : ConnectRun), w'.runs[k]? = some run' → run'.created = none ∨
      ∃ run : ConnectRun, w.runs[k]? = some run ∧ run'.created = run.created ∧
        (run'.stage = .saving → run.stage = .saving) ∧
        (run'.stage ≠ .done → run.stage ≠ .done) ∧
        (run'.stage = .done → run.stage = .done ∧ run'.abandoned = run.abandoned)) :
    w'.Sessions where
  fresh id hid := hunlisted id (h.fresh id (hissued ▸ hid))
  created k run' id hrun' hcreated := by
    rcases hruns k run' hrun' with hnone | ⟨run, hrun, hsame, -⟩
    · rw [hnone] at hcreated
      cases hcreated
    · rw [hissued]
      exact h.created k run id hrun (hsame ▸ hcreated)
  apart k j run' other' id hrun' hother' hcreated hcreated' := by
    rcases hruns k run' hrun' with hnone | ⟨run, hrun, hsame, -⟩
    · rw [hnone] at hcreated
      cases hcreated
    · rcases hruns j other' hother' with hnone | ⟨other, hother, hsame', -⟩
      · rw [hnone] at hcreated'
        cases hcreated'
      · exact h.apart k j run other id hrun hother (hsame ▸ hcreated) (hsame' ▸ hcreated')
  saving k run' hrun' hstage := by
    rcases hruns k run' hrun' with hnone | ⟨run, hrun, hsame, hsaving, -⟩
    · exact hnone
    · rw [hsame]
      exact h.saving k run hrun (hsaving hstage)
  waiting k run' id hrun' hstage hcreated := by
    rcases hruns k run' hrun' with hnone | ⟨run, hrun, hsame, -, hflight, -⟩
    · rw [hnone] at hcreated
      cases hcreated
    · exact hunlisted id (h.waiting k run id hrun (hflight hstage) (hsame ▸ hcreated))
  clean k run' id hrun' hstage habandoned hcreated := by
    rcases hruns k run' hrun' with hnone | ⟨run, hrun, hsame, -, -, hdone⟩
    · rw [hnone] at hcreated
      cases hcreated
    · obtain ⟨hdone, hwatch⟩ := hdone hstage
      exact hclean id (h.clean k run id hrun hdone (hwatch ▸ habandoned) (hsame ▸ hcreated))

theorem Sessions.create {k : ℕ} {run : ConnectRun} (h : w.Sessions) (hrun : w.runs[k]? = some run)
    (hstage : run.stage = .connecting) (hfresh : sessionId ∉ w.issued) :
    { w.setRun k { run with created := some sessionId } with
      issued := sessionId :: w.issued }.Sessions := by
  have hget := getElem?_setRun { run with created := some sessionId } hrun
  refine ⟨?_, ?_, ?_, ?_, ?_, ?_⟩
  · exact fun id hid => (h.fresh id fun hmem => hid (List.mem_cons_of_mem _ hmem)).congr rfl
      fun h => h
  · intro j other id hother hcreated
    rw [hget j] at hother
    split at hother
    · cases hother
      cases hcreated
      exact List.mem_cons_self
    · exact List.mem_cons_of_mem _ (h.created j other id hother hcreated)
  · intro j i one other id hone hother hcreated hcreated'
    rw [hget j] at hone
    rw [hget i] at hother
    split at hone
    · rename_i hj
      cases hone
      cases hcreated
      split at hother
      · rename_i hi
        exact hj.trans hi.symm
      · exact absurd (h.created i other _ hother hcreated') hfresh
    · split at hother
      · cases hother
        cases hcreated'
        exact absurd (h.created j one _ hone hcreated) hfresh
      · exact h.apart j i one other id hone hother hcreated hcreated'
  · intro j other hother hsaving
    rw [hget j] at hother
    split at hother
    · cases hother
      rw [hstage] at hsaving
      cases hsaving
    · exact h.saving j other hother hsaving
  · intro j other id hother hflight hcreated
    rw [hget j] at hother
    split at hother
    · cases hother
      cases hcreated
      exact (h.fresh sessionId hfresh).congr rfl fun h => h
    · exact (h.waiting j other id hother hflight hcreated).congr rfl fun h => h
  · intro j other id hother hdone habandoned hcreated
    rw [hget j] at hother
    split at hother
    · cases hother
      rw [hstage] at hdone
      cases hdone
    · exact h.clean j other id hother hdone habandoned hcreated

theorem release_frame (k : ℕ) (profileId : Option Text) :
    (w.release k profileId).runs = w.runs ∧ (w.release k profileId).issued = w.issued ∧
      (∀ id, w.Unlisted id → (w.release k profileId).Unlisted id) ∧
      ∀ id, w.Clean id → (w.release k profileId).Clean id := by
  unfold ConnectWorld.release
  cases profileId with
  | none => exact ⟨rfl, rfl, fun _ h => h, fun _ h => h⟩
  | some profileId =>
    dsimp only [Option.elim]
    split
    · exact ⟨rfl, rfl, fun _ h => h.congr rfl fun h => h, fun _ h => h⟩
    · exact ⟨rfl, rfl, fun _ h => h, fun _ h => h⟩

theorem settle_calls (w : ConnectWorld) (config : Config) (run : ConnectRun)
    (pane : Option Text) :
    (w.settle config run pane).runs = w.runs ∧ (w.settle config run pane).issued = w.issued ∧
      (w.settle config run pane).sshConnectRuntimeRef = w.sshConnectRuntimeRef ∧
      (w.settle config run pane).connectingSshProfiles = w.connectingSshProfiles := by
  unfold ConnectWorld.settle
  cases run.created with
  | none => exact ⟨rfl, rfl, rfl, rfl⟩
  | some sessionId =>
    dsimp only [Option.elim]
    split
    · exact calls_cancelSshConnectSession
    · exact ⟨rfl, rfl, rfl, rfl⟩

theorem settle_sessions (config : Config) {run : ConnectRun} (pane : Option Text)
    (hnew : ∀ sessionId, run.created = some sessionId → w.Unlisted sessionId) :
    (∀ id, run.created ≠ some id → w.Unlisted id → (w.settle config run pane).Unlisted id) ∧
      (∀ id, run.created ≠ some id → w.Clean id → (w.settle config run pane).Clean id) ∧
      ∀ id, run.created = some id → run.cancelled = true →
        (w.settle config run pane).Clean id := by
  unfold ConnectWorld.settle
  cases hcreated : run.created with
  | none => exact ⟨fun _ _ h => h, fun _ _ h => h, nofun⟩
  | some sessionId =>
    have hnew := hnew sessionId hcreated
    dsimp only [Option.elim]
    split
    · refine ⟨?_, ?_, ?_⟩
      · exact fun id _ hother => hnew.cancelSshConnectSession hother
      · exact fun id _ hclean => hclean.cancelSshConnectSession hnew
      · rintro id ⟨⟩ -
        exact cancelSshConnectSession_clean hnew
    · rename_i hcancelled
      refine ⟨?_, ?_, ?_⟩
      · exact fun id hne hother => hother.sessionCreated fun heq => hne (heq ▸ rfl)
      · exact fun id hne hclean => hclean.sessionCreated fun heq => hne (heq ▸ rfl)
      · exact fun _ _ hcancel => absurd hcancel hcancelled

theorem Sessions.answer {k : ℕ} {run : ConnectRun} {pane : Option Text} (h : w.Sessions)
    (hrun : w.runs[k]? = some run) (hstage : run.stage = .connecting)
    (habandoned : run.abandoned = run.cancelled) : (w.answer config k run pane).Sessions := by
  obtain ⟨hruns, hissued, -⟩ := w.settle_calls config run pane
  obtain ⟨hunlisted, hclean, hown⟩ := settle_sessions config pane
    fun id hcreated => h.waiting k run id hrun (hstage ▸ nofun) hcreated
  obtain ⟨hruns', hissued', hunlisted', hclean'⟩ := release_frame
    (w := (w.settle config run pane).setRun k { run with stage := .done }) k run.profileId
  change (w.answer config k run pane).runs = _ at hruns'
  change (w.answer config k run pane).issued = (w.settle config run pane).issued at hissued'
  change ∀ id, _ → (w.answer config k run pane).Unlisted id at hunlisted'
  change ∀ id, _ → (w.answer config k run pane).Clean id at hclean'
  have hrun' : (w.settle config run pane).runs[k]? = some run := hruns ▸ hrun
  have hget : ∀ j, (w.answer config k run pane).runs[j]?
      = if j = k then some { run with stage := .done } else w.runs[j]? := by
    intro j
    rw [hruns', getElem?_setRun _ hrun' j, hruns]
  have hkept : ∀ id, run.created ≠ some id → w.Unlisted id →
      (w.answer config k run pane).Unlisted id :=
    fun id hne hother => hunlisted' id ((hunlisted id hne hother).congr rfl fun h => h)
  have hother : ∀ j other id, j ≠ k → w.runs[j]? = some other → other.created = some id →
      run.created ≠ some id :=
    fun j other id hne hother hcreated hsame =>
      hne (h.apart j k other run id hother hrun hcreated hsame)
  refine ⟨?_, ?_, ?_, ?_, ?_, ?_⟩
  · intro id hid
    have hid' : id ∉ w.issued := by
      rw [hissued'] at hid
      exact fun hmem => hid (hissued ▸ hmem)
    exact hkept id (fun hsame => hid' (h.created k run id hrun hsame)) (h.fresh id hid')
  · intro j other id hget' hcreated
    rw [hissued', hissued]
    rw [hget j] at hget'
    split at hget'
    · cases hget'
      exact h.created k run id hrun hcreated
    · exact h.created j other id hget' hcreated
  · intro j i one other id hone hother' hcreated hcreated'
    rw [hget j] at hone
    rw [hget i] at hother'
    split at hone
    · rename_i hj
      cases hone
      split at hother'
      · rename_i hi
        exact hj.trans hi.symm
      · exact hj.trans (h.apart k i run other id hrun hother' hcreated hcreated')
    · split at hother'
      · rename_i hi
        cases hother'
        exact (h.apart j k one run id hone hrun hcreated hcreated').trans hi.symm
      · exact h.apart j i one other id hone hother' hcreated hcreated'
  · intro j other hget' hsaving
    rw [hget j] at hget'
    split at hget'
    · cases hget'
      cases hsaving
    · exact h.saving j other hget' hsaving
  · intro j other id hget' hflight hcreated
    rw [hget j] at hget'
    split at hget'
    · cases hget'
      exact absurd rfl hflight
    · rename_i hne
      exact hkept id (hother j other id hne hget' hcreated)
        (h.waiting j other id hget' hflight hcreated)
  · intro j other id hget' hdone hwatch hcreated
    rw [hget j] at hget'
    split at hget'
    · cases hget'
      exact hclean' id (hown id hcreated (habandoned ▸ hwatch))
    · rename_i hne
      exact hclean' id (hclean id (hother j other id hne hget' hcreated)
        (h.clean j other id hget' hdone hwatch hcreated))

/-! ## The records of the profiles -/

/-- A call in flight that is not cancelled has the record of its profile, which is shown as
connecting; a call that is cancelled was abandoned. -/
structure Records (w : ConnectWorld) : Prop where
  recorded : ∀ (profileId : Text) (k : ℕ), w.sshConnectRuntimeRef profileId = some k →
    ∃ run : ConnectRun, w.runs[k]? = some run ∧ run.profileId = some profileId ∧
      run.stage = .connecting
  owner : ∀ (k : ℕ) (run : ConnectRun) (profileId : Text), w.runs[k]? = some run →
    run.stage ≠ .done → run.profileId = some profileId → run.cancelled = false →
      w.sshConnectRuntimeRef profileId = some k
  shown : ∀ profileId, w.connectingSshProfiles profileId = true ↔
    ∃ (k : ℕ) (run : ConnectRun), w.sshConnectRuntimeRef profileId = some k ∧
      w.runs[k]? = some run ∧ run.cancelled = false
  abandoned : ∀ (k : ℕ) (run : ConnectRun), w.runs[k]? = some run → run.abandoned = run.cancelled
  saving : ∀ (k : ℕ) (run : ConnectRun), w.runs[k]? = some run → run.stage = .saving →
    run.profileId = none ∧ run.cancelled = false

theorem Records.shown_iff (h : w.Records) (profileId : Text) :
    w.connectingSshProfiles profileId = true ↔
      ∃ run ∈ w.runs, run.profileId = some profileId ∧ run.stage ≠ .done ∧
        run.abandoned = false := by
  rw [h.shown]
  constructor
  · rintro ⟨k, run, hrecord, hrun, hcancelled⟩
    obtain ⟨recorded, hrecorded, hprofile, hstage⟩ := h.recorded profileId k hrecord
    rw [hrun, Option.some.injEq] at hrecorded
    refine ⟨run, List.mem_of_getElem? hrun, hrecorded ▸ hprofile, ?_, ?_⟩
    · rw [hrecorded, hstage]
      exact nofun
    · rw [h.abandoned k run hrun, hcancelled]
  · rintro ⟨run, hmem, hprofile, hstage, habandoned⟩
    obtain ⟨k, hrun⟩ := List.getElem?_of_mem hmem
    rw [h.abandoned k run hrun] at habandoned
    exact ⟨k, run, h.owner k run profileId hrun hstage hprofile habandoned, hrun, habandoned⟩

theorem Records.mapRuns (h : w.Records)
    (hrecord : w'.sshConnectRuntimeRef = w.sshConnectRuntimeRef)
    (hshown : w'.connectingSshProfiles = w.connectingSshProfiles)
    (hruns : ∀ k : ℕ, w'.runs[k]?.map (fun run => (run.profileId, run.stage, run.cancelled,
        run.abandoned))
      = w.runs[k]?.map fun run => (run.profileId, run.stage, run.cancelled, run.abandoned)) :
    w'.Records := by
  have hback : ∀ (k : ℕ) (run' : ConnectRun), w'.runs[k]? = some run' →
      ∃ run : ConnectRun, w.runs[k]? = some run ∧ run.profileId = run'.profileId ∧
        run.stage = run'.stage ∧ run.cancelled = run'.cancelled ∧
        run.abandoned = run'.abandoned := by
    intro k run' hrun'
    have hsame := hruns k
    rw [hrun'] at hsame
    obtain ⟨run, hrun, heq⟩ := Option.map_eq_some_iff.mp hsame.symm
    obtain ⟨hprofile, hstage, hcancelled, habandoned⟩ := Prod.mk.inj heq |>.imp_right fun h =>
      Prod.mk.inj h |>.imp_right Prod.mk.inj
    exact ⟨run, hrun, hprofile, hstage, hcancelled, habandoned⟩
  have hforth : ∀ (k : ℕ) (run : ConnectRun), w.runs[k]? = some run →
      ∃ run' : ConnectRun, w'.runs[k]? = some run' ∧ run'.profileId = run.profileId ∧
        run'.stage = run.stage ∧ run'.cancelled = run.cancelled := by
    intro k run hrun
    have hsame := hruns k
    rw [hrun] at hsame
    obtain ⟨run', hrun', heq⟩ := Option.map_eq_some_iff.mp hsame
    obtain ⟨hprofile, hstage, hcancelled, -⟩ := Prod.mk.inj heq |>.imp_right fun h =>
      Prod.mk.inj h |>.imp_right Prod.mk.inj
    exact ⟨run', hrun', hprofile, hstage, hcancelled⟩
  refine ⟨?_, ?_, ?_, ?_, ?_⟩
  · intro profileId k hk
    rw [hrecord] at hk
    obtain ⟨run, hrun, hprofile, hstage⟩ := h.recorded profileId k hk
    obtain ⟨run', hrun', hprofile', hstage', -⟩ := hforth k run hrun
    exact ⟨run', hrun', hprofile'.trans hprofile, hstage'.trans hstage⟩
  · intro k run' profileId hrun' hstage hprofile hcancelled
    obtain ⟨run, hrun, hprofile', hstage', hcancelled', -⟩ := hback k run' hrun'
    rw [hrecord]
    exact h.owner k run profileId hrun (hstage' ▸ hstage) (hprofile'.trans hprofile)
      (hcancelled'.trans hcancelled)
  · intro profileId
    rw [hshown, hrecord, h.shown]
    constructor
    · rintro ⟨k, run, hk, hrun, hcancelled⟩
      obtain ⟨run', hrun', -, -, hcancelled'⟩ := hforth k run hrun
      exact ⟨k, run', hk, hrun', hcancelled'.trans hcancelled⟩
    · rintro ⟨k, run', hk, hrun', hcancelled⟩
      obtain ⟨run, hrun, -, -, hcancelled', -⟩ := hback k run' hrun'
      exact ⟨k, run, hk, hrun, hcancelled'.trans hcancelled⟩
  · intro k run' hrun'
    obtain ⟨run, hrun, -, -, hcancelled, habandoned⟩ := hback k run' hrun'
    rw [← hcancelled, ← habandoned]
    exact h.abandoned k run hrun
  · intro k run' hrun' hstage
    obtain ⟨run, hrun, hprofile, hstage', hcancelled, -⟩ := hback k run' hrun'
    rw [← hprofile, ← hcancelled]
    exact h.saving k run hrun (hstage'.trans hstage)

theorem Records.own {k : ℕ} {run : ConnectRun} {profileId : Text} (h : w.Records)
    (hrecord : w'.sshConnectRuntimeRef = w.sshConnectRuntimeRef)
    (hshown : w'.connectingSshProfiles = w.connectingSshProfiles)
    (hget : ∀ j : ℕ, w'.runs[j]? = if j = k then some run else w.runs[j]?)
    (hold : ∀ old, w.runs[k]? = some old → old.stage ≠ .connecting)
    (hrun : run = ⟨some profileId, .connecting, false, none, false⟩)
    (hfree : w.connectingSshProfiles profileId = false) : (w'.own k profileId).Records := by
  have hrecord' : ∀ other, (w'.own k profileId).sshConnectRuntimeRef other
      = if other = profileId then some k else w.sshConnectRuntimeRef other := by
    intro other
    show Function.update w'.sshConnectRuntimeRef profileId _ other = _
    rw [Function.update_apply, hrecord]
  have hshown' : ∀ other, (w'.own k profileId).connectingSshProfiles other
      = if other = profileId then true else w.connectingSshProfiles other := by
    intro other
    show Function.update w'.connectingSshProfiles profileId _ other = _
    rw [Function.update_apply, hshown]
  -- a call that has a record is not this one
  have hkept : ∀ (other : Text) (j : ℕ), w.sshConnectRuntimeRef other = some j → j ≠ k := by
    rintro other j hj rfl
    obtain ⟨old, hrecorded, -, hstage⟩ := h.recorded other j hj
    exact hold old hrecorded hstage
  refine ⟨?_, ?_, ?_, ?_, ?_⟩
  · intro other j hj
    show ∃ run, w'.runs[j]? = some run ∧ _
    rw [hrecord'] at hj
    rw [hget]
    split at hj
    · rename_i heq
      cases hj
      exact ⟨run, if_pos rfl, hrun ▸ heq ▸ rfl, hrun ▸ rfl⟩
    · rw [if_neg (hkept other j hj)]
      exact h.recorded other j hj
  · intro j call other hcall hstage hprofile hcancelled
    change w'.runs[j]? = some call at hcall
    rw [hrecord']
    rw [hget] at hcall
    split at hcall
    · rename_i heq
      cases hcall
      rw [hrun] at hprofile
      cases hprofile
      rw [if_pos rfl, heq]
    · have hrecorded := h.owner j call other hcall hstage hprofile hcancelled
      rw [if_neg]
      · exact hrecorded
      · -- no call of the profile is in flight without a cancel
        rintro rfl
        rw [(h.shown other).mpr ⟨j, call, hrecorded, hcall, hcancelled⟩] at hfree
        cases hfree
  · intro other
    show _ ↔ ∃ j call, _ ∧ w'.runs[j]? = some call ∧ _
    rw [hshown', hrecord']
    split
    · exact iff_of_true rfl ⟨k, run, rfl, (hget k).trans (if_pos rfl), hrun ▸ rfl⟩
    · rw [h.shown]
      refine exists_congr fun j => exists_congr fun call => and_congr_right fun hj => ?_
      rw [hget, if_neg (hkept other j hj)]
  · intro j call hcall
    change w'.runs[j]? = some call at hcall
    rw [hget] at hcall
    split at hcall
    · cases hcall
      rw [hrun]
    · exact h.abandoned j call hcall
  · intro j call hcall hstage
    change w'.runs[j]? = some call at hcall
    rw [hget] at hcall
    split at hcall
    · cases hcall
      rw [hrun] at hstage
      cases hstage
    · exact h.saving j call hcall hstage

theorem release_of_none {k : ℕ} {profileId : Option Text} (h : profileId = none) :
    w.release k profileId = w := by
  rw [h]
  rfl

theorem release_record (k : ℕ) (profileId : Option Text) (other : Text) :
    (w.release k profileId).sshConnectRuntimeRef other
        = (if profileId = some other ∧ w.sshConnectRuntimeRef other = some k then none
          else w.sshConnectRuntimeRef other) ∧
      (w.release k profileId).connectingSshProfiles other
        = if profileId = some other ∧ w.sshConnectRuntimeRef other = some k then false
          else w.connectingSshProfiles other := by
  unfold ConnectWorld.release
  cases profileId with
  | none => exact ⟨rfl, rfl⟩
  | some profileId =>
    dsimp only [Option.elim]
    simp only [Option.some.injEq]
    by_cases heq : profileId = other
    · subst heq
      split
      · rename_i hk
        rw [if_pos ⟨rfl, hk⟩, if_pos ⟨rfl, hk⟩]
        exact ⟨Function.update_self _ _ _, Function.update_self _ _ _⟩
      · rename_i hk
        rw [if_neg (fun h => hk h.2), if_neg (fun h => hk h.2)]
        exact ⟨rfl, rfl⟩
    · split
      · rw [if_neg (fun h => heq h.1), if_neg (fun h => heq h.1)]
        exact ⟨Function.update_of_ne (Ne.symm heq) _ _, Function.update_of_ne (Ne.symm heq) _ _⟩
      · rw [if_neg (fun h => heq h.1), if_neg (fun h => heq h.1)]
        exact ⟨rfl, rfl⟩

theorem Records.release {k : ℕ} {run : ConnectRun} (h : w.Records) (hrun : w.runs[k]? = some run)
    (hrecord : w'.sshConnectRuntimeRef = w.sshConnectRuntimeRef)
    (hshown : w'.connectingSshProfiles = w.connectingSshProfiles)
    (hget : ∀ j : ℕ, w'.runs[j]? = if j = k then some { run with stage := .done } else w.runs[j]?) :
    (w'.release k run.profileId).Records := by
  have hruns : (w'.release k run.profileId).runs = w'.runs := (release_frame k _).1
  have hrecord' := fun other => (release_record (w := w') k run.profileId other).1
  have hshown' := fun other => (release_record (w := w') k run.profileId other).2
  rw [hrecord] at hrecord' hshown'
  rw [hshown] at hshown'
  -- the call has no other record
  have hkept : ∀ (other : Text) (j : ℕ), w.sshConnectRuntimeRef other = some j →
      ¬(run.profileId = some other ∧ w.sshConnectRuntimeRef other = some k) → j ≠ k := by
    rintro other j hj hnot rfl
    obtain ⟨recorded, hrecorded, hprofile, -⟩ := h.recorded other j hj
    rw [hrun, Option.some.injEq] at hrecorded
    exact hnot ⟨hrecorded ▸ hprofile, hj⟩
  refine ⟨?_, ?_, ?_, ?_, ?_⟩
  · intro other j hj
    rw [hrecord'] at hj
    rw [hruns, hget]
    split at hj
    · cases hj
    · rename_i hnot
      rw [if_neg (hkept other j hj hnot)]
      exact h.recorded other j hj
  · intro j call other hcall hstage hprofile hcancelled
    rw [hruns, hget] at hcall
    rw [hrecord']
    split at hcall
    · cases hcall
      exact absurd rfl hstage
    · rename_i hne
      have hrecorded := h.owner j call other hcall hstage hprofile hcancelled
      rw [hrecorded, if_neg]
      rintro ⟨-, hj⟩
      exact hne (Option.some.inj hj)
  · intro other
    rw [hshown', hrecord', hruns]
    split
    · refine iff_of_false Bool.false_ne_true ?_
      rintro ⟨_, _, hj, _⟩
      cases hj
    · rename_i hnot
      rw [h.shown]
      refine exists_congr fun j => exists_congr fun call => and_congr_right fun hj => ?_
      rw [hget, if_neg (hkept other j hj hnot)]
  · intro j call hcall
    rw [hruns, hget] at hcall
    split at hcall
    · cases hcall
      exact h.abandoned k run hrun
    · exact h.abandoned j call hcall
  · intro j call hcall hstage
    rw [hruns, hget] at hcall
    split at hcall
    · cases hcall
      cases hstage
    · exact h.saving j call hcall hstage

/-! ## A cancel -/

theorem runs_cancel (h : w.Records) (profileId : Text) (k : ℕ) :
    (w.cancel profileId).runs[k]? = (w.runs[k]?).map fun run =>
      { abandon profileId run with
        cancelled := run.cancelled || w.sshConnectRuntimeRef profileId = some k } := by
  have hcancelled : ∀ run : ConnectRun, (abandon profileId run).cancelled = run.cancelled := by
    intro run
    unfold abandon
    split <;> rfl
  unfold ConnectWorld.cancel
  dsimp only
  cases hrecord : w.sshConnectRuntimeRef profileId with
  | none =>
    show (w.runs.map _)[k]? = _
    rw [List.getElem?_map]
    refine Option.map_congr fun run _ => ?_
    rw [decide_eq_false (Option.some_ne_none k).symm, Bool.or_false, ← hcancelled]
  | some owner =>
    obtain ⟨recorded, hrecorded, -⟩ := h.recorded profileId owner hrecord
    have hmap : (w.runs.map (abandon profileId))[owner]? = some (abandon profileId recorded) := by
      rw [List.getElem?_map, hrecorded]
      rfl
    dsimp only [Option.elim]
    rw [hmap]
    dsimp only
    rw [getElem?_setRun (w := { w with runs := w.runs.map (abandon profileId) }) _ hmap]
    split
    · rename_i heq
      subst heq
      rw [hrecorded, Option.map_some, decide_eq_true rfl, Bool.or_true]
    · rename_i hne
      show (w.runs.map _)[k]? = _
      rw [List.getElem?_map]
      refine Option.map_congr fun run _ => ?_
      rw [decide_eq_false fun heq => hne (Option.some.inj heq).symm, Bool.or_false, ← hcancelled]

theorem abandon_calls (profileId : Text) (run : ConnectRun) :
    (abandon profileId run).profileId = run.profileId ∧ (abandon profileId run).stage = run.stage ∧
      (abandon profileId run).created = run.created := by
  unfold abandon
  split
  · exact ⟨rfl, rfl, rfl⟩
  · exact ⟨rfl, rfl, rfl⟩

theorem cancel_frame (profileId : Text) :
    (w.cancel profileId).issued = w.issued ∧
      (w.cancel profileId).sshConnectRuntimeRef = w.sshConnectRuntimeRef ∧
      (∀ id, w.Unlisted id → (w.cancel profileId).Unlisted id) ∧
      ∀ id, w.Clean id → (w.cancel profileId).Clean id := by
  unfold ConnectWorld.cancel
  dsimp only
  cases w.sshConnectRuntimeRef profileId with
  | none => exact ⟨rfl, rfl, fun _ h => h, fun _ h => h⟩
  | some owner =>
    dsimp only [Option.elim]
    cases (w.runs.map (abandon profileId))[owner]? with
    | none => exact ⟨rfl, rfl, fun _ h => h, fun _ h => h⟩
    | some run => exact ⟨rfl, rfl, fun _ h => h, fun _ h => h⟩

theorem connectingSshProfiles_cancel (h : w.Records) (profileId other : Text) :
    (w.cancel profileId).connectingSshProfiles other
      = if other = profileId then false else w.connectingSshProfiles other := by
  unfold ConnectWorld.cancel
  dsimp only
  cases hrecord : w.sshConnectRuntimeRef profileId with
  | none =>
    show w.connectingSshProfiles other = _
    split
    · rename_i heq
      rw [heq, Bool.eq_false_iff]
      intro hshown
      obtain ⟨k, -, hk, -⟩ := (h.shown profileId).mp hshown
      rw [hrecord] at hk
      cases hk
    · rfl
  | some owner =>
    obtain ⟨recorded, hrecorded, -⟩ := h.recorded profileId owner hrecord
    dsimp only [Option.elim]
    rw [List.getElem?_map, hrecorded]
    exact Function.update_apply _ _ _ _

theorem Records.cancel (h : w.Records) (profileId : Text) : (w.cancel profileId).Records := by
  have hget := runs_cancel h profileId
  obtain ⟨-, hrecord, -⟩ := cancel_frame (w := w) profileId
  have hcalls := abandon_calls profileId
  refine ⟨?_, ?_, ?_, ?_, ?_⟩
  · intro other k hk
    rw [hrecord] at hk
    obtain ⟨run, hrun, hprofile, hstage⟩ := h.recorded other k hk
    refine ⟨_, (hget k).trans (congrArg _ hrun), ?_, ?_⟩
    · exact (hcalls run).1.trans hprofile
    · exact (hcalls run).2.1.trans hstage
  · intro k run' other hrun' hstage hprofile hcancelled
    rw [hget, Option.map_eq_some_iff] at hrun'
    obtain ⟨run, hrun, rfl⟩ := hrun'
    rw [hrecord]
    refine h.owner k run other hrun ?_ ((hcalls run).1.symm.trans hprofile) ?_
    · exact fun hdone => hstage ((hcalls run).2.1.trans hdone)
    · exact (Bool.or_eq_false_iff.mp hcancelled).1
  · intro other
    rw [connectingSshProfiles_cancel h, hrecord]
    split
    · rename_i heq
      subst heq
      refine iff_of_false nofun ?_
      rintro ⟨k, run', hk, hrun', hcancelled⟩
      rw [hget, Option.map_eq_some_iff] at hrun'
      obtain ⟨run, -, rfl⟩ := hrun'
      have hnot := (Bool.or_eq_false_iff.mp hcancelled).2
      rw [hk, decide_eq_true rfl] at hnot
      cases hnot
    · rename_i hne
      rw [h.shown]
      -- the record of another profile is of another call
      have hother : ∀ k, w.sshConnectRuntimeRef other = some k →
          w.sshConnectRuntimeRef profileId ≠ some k := by
        intro k hk hsame
        obtain ⟨run, hrun, hprofile, -⟩ := h.recorded other k hk
        obtain ⟨run', hrun', hprofile', -⟩ := h.recorded profileId k hsame
        rw [hrun, Option.some.injEq] at hrun'
        rw [← hrun', hprofile] at hprofile'
        exact hne (Option.some.inj hprofile')
      constructor
      · rintro ⟨k, run, hk, hrun, hcancelled⟩
        refine ⟨k, _, hk, (hget k).trans (congrArg _ hrun), ?_⟩
        exact Bool.or_eq_false_iff.mpr ⟨hcancelled, decide_eq_false (hother k hk)⟩
      · rintro ⟨k, run', hk, hrun', hcancelled⟩
        rw [hget, Option.map_eq_some_iff] at hrun'
        obtain ⟨run, hrun, rfl⟩ := hrun'
        exact ⟨k, run, hk, hrun, (Bool.or_eq_false_iff.mp hcancelled).1⟩
  · intro k run' hrun'
    rw [hget, Option.map_eq_some_iff] at hrun'
    obtain ⟨run, hrun, rfl⟩ := hrun'
    show (abandon profileId run).abandoned
      = (run.cancelled || decide (w.sshConnectRuntimeRef profileId = some k))
    unfold abandon
    split
    · rename_i hflight
      symm
      rw [Bool.or_eq_true, decide_eq_true_iff]
      cases hcancelled : run.cancelled with
      | true => exact .inl rfl
      | false => exact .inr (h.owner k run profileId hrun hflight.1 hflight.2 hcancelled)
    · rename_i hnot
      rw [h.abandoned k run hrun, decide_eq_false, Bool.or_false]
      intro hk
      obtain ⟨recorded, hrecorded, hprofile, hstage⟩ := h.recorded profileId k hk
      rw [hrun, Option.some.injEq] at hrecorded
      rw [← hrecorded] at hprofile hstage
      exact hnot ⟨hstage ▸ nofun, hprofile⟩
  · intro k run' hrun' hstage
    rw [hget, Option.map_eq_some_iff] at hrun'
    obtain ⟨run, hrun, rfl⟩ := hrun'
    have hstage : run.stage = .saving := (hcalls run).2.1.symm.trans hstage
    obtain ⟨hprofile, hcancelled⟩ := h.saving k run hrun hstage
    refine ⟨(hcalls run).1.trans hprofile, Bool.or_eq_false_iff.mpr ⟨hcancelled, ?_⟩⟩
    rw [decide_eq_false_iff_not]
    intro hk
    obtain ⟨recorded, hrecorded, -, hconnecting⟩ := h.recorded profileId k hk
    rw [hrun, Option.some.injEq] at hrecorded
    rw [← hrecorded, hstage] at hconnecting
    cases hconnecting

theorem Sessions.cancel (h : w.Sessions) (hrecords : w.Records) (profileId : Text) :
    (w.cancel profileId).Sessions := by
  obtain ⟨hissued, -, hunlisted, hclean⟩ := cancel_frame (w := w) profileId
  refine h.mapRuns hissued hunlisted hclean fun k run' hrun' => ?_
  rw [runs_cancel hrecords, Option.map_eq_some_iff] at hrun'
  obtain ⟨run, hrun, rfl⟩ := hrun'
  obtain ⟨-, hstage, hcreated⟩ := abandon_calls profileId run
  refine .inr ⟨run, hrun, hcreated, ?_, ?_, ?_⟩
  · exact fun hsaving => hstage.symm.trans hsaving
  · exact fun hflight hdone => hflight (hstage.trans hdone)
  · intro hdone
    have hdone : run.stage = .done := hstage.symm.trans hdone
    refine ⟨hdone, ?_⟩
    show (abandon profileId run).abandoned = run.abandoned
    unfold abandon
    rw [if_neg]
    exact fun hflight => hflight.1 hdone

/-! ## Every event -/

structure Tracked (w : ConnectWorld) : Prop where
  sessions : w.Sessions
  records : w.Records

theorem Tracked.frame (h : w.Tracked)
    (hcalls : w'.runs = w.runs ∧ w'.issued = w.issued ∧
      w'.sshConnectRuntimeRef = w.sshConnectRuntimeRef ∧
      w'.connectingSshProfiles = w.connectingSshProfiles)
    (hunlisted : ∀ id, w.Unlisted id → w'.Unlisted id)
    (hclean : ∀ id, w.Clean id → w'.Clean id) : w'.Tracked where
  sessions := h.sessions.frame hcalls.1 hcalls.2.1 hunlisted hclean
  records := h.records.mapRuns hcalls.2.2.1 hcalls.2.2.2 fun k => by rw [hcalls.1]

theorem Records.begin (h : w.Records) :
    { w with runs := w.runs ++ [ConnectRun.begun none] }.Records := by
  have hget := fun k => getElem?_concat (l := w.runs) (a := ConnectRun.begun none) k
  have hkept : ∀ (other : Text) (k : ℕ), w.sshConnectRuntimeRef other = some k →
      k ≠ w.runs.length := by
    rintro other k hk rfl
    obtain ⟨run, hrun, -⟩ := h.recorded other _ hk
    exact absurd (List.getElem?_eq_some_iff.mp hrun).1 (Nat.lt_irrefl _)
  refine ⟨?_, ?_, ?_, ?_, ?_⟩
  · intro other k hk
    obtain ⟨run, hrun, hrecorded⟩ := h.recorded other k hk
    refine ⟨run, ?_, hrecorded⟩
    rw [hget, if_neg (hkept other k hk), hrun]
  · intro k run other hrun hstage hprofile hcancelled
    rw [hget] at hrun
    split at hrun
    · cases hrun
      cases hprofile
    · exact h.owner k run other hrun hstage hprofile hcancelled
  · intro other
    refine (h.shown other).trans ?_
    refine exists_congr fun k => exists_congr fun run => and_congr_right fun hk => ?_
    rw [hget, if_neg (hkept other k hk)]
  · intro k run hrun
    rw [hget] at hrun
    split at hrun
    · cases hrun
      rfl
    · exact h.abandoned k run hrun
  · intro k run hrun hstage
    rw [hget] at hrun
    split at hrun
    · cases hrun
      exact ⟨rfl, rfl⟩
    · exact h.saving k run hrun hstage

theorem Tracked.connect {profileId : Option Text} (h : w.Tracked)
    (hguard : OneAtATime w (.connect profileId)) {w' : ConnectWorld}
    (hstep : w.next config (.connect profileId) = some w') : w'.Tracked := by
  cases hstep
  have hget := fun k => getElem?_concat (l := w.runs) (a := ConnectRun.begun profileId) k
  have hnew : ∀ (k : ℕ) (run' : ConnectRun),
      (w.runs ++ [ConnectRun.begun profileId])[k]? = some run' → run'.created = none ∨
        ∃ run : ConnectRun, w.runs[k]? = some run ∧ run'.created = run.created ∧
          (run'.stage = .saving → run.stage = .saving) ∧
          (run'.stage ≠ .done → run.stage ≠ .done) ∧
          (run'.stage = .done → run.stage = .done ∧ run'.abandoned = run.abandoned) := by
    intro k run hrun
    rw [hget] at hrun
    split at hrun
    · cases hrun
      exact .inl rfl
    · exact .inr ⟨run, hrun, rfl, fun h => h, fun h => h, fun h => ⟨h, rfl⟩⟩
  cases profileId with
  | none => exact ⟨h.sessions.mapRuns rfl (fun _ h => h) (fun _ h => h) hnew, h.records.begin⟩
  | some profileId =>
    refine ⟨h.sessions.mapRuns rfl (fun _ h => h) (fun _ h => h) hnew, ?_⟩
    refine h.records.own rfl rfl hget ?_ rfl hguard
    intro old hold
    exact absurd (List.getElem?_eq_some_iff.mp hold).1 (Nat.lt_irrefl _)

theorem Tracked.saved {k : ℕ} {profileId : Option Text} (h : w.Tracked)
    (hstep : w.next config (.saved k profileId) = some w') : w'.Tracked := by
  unfold next at hstep
  dsimp only at hstep
  obtain ⟨run, hrun, hstep⟩ := Option.bind_eq_some_iff.mp hstep
  split at hstep
  · cases hstep
  · rename_i hstage
    have hstage : run.stage = .saving := not_not.mp hstage
    have hcreated := h.sessions.saving k run hrun hstage
    obtain ⟨hprofile, hcancelled⟩ := h.records.saving k run hrun hstage
    have hwatch := h.records.abandoned k run hrun
    cases profileId with
    | none =>
      cases hstep
      have hget := getElem?_setRun { run with stage := .done } hrun
      refine ⟨?_, ?_⟩
      · refine h.sessions.mapRuns rfl (fun _ h => h) (fun _ h => h) fun j call hcall => ?_
        rw [hget] at hcall
        split at hcall
        · cases hcall
          exact .inl hcreated
        · exact .inr ⟨call, hcall, rfl, fun h => h, fun h => h, fun h => ⟨h, rfl⟩⟩
      · have hrecords : ((w.setRun k { run with stage := .done }).release k run.profileId).Records :=
          h.records.release hrun rfl rfl hget
        rw [release_of_none hprofile] at hrecords
        exact hrecords
    | some profileId =>
      dsimp only [Option.elim] at hstep
      split at hstep
      · rename_i hfresh
        cases hstep
        have hget := getElem?_setRun
          { run with profileId := some profileId, stage := .connecting } hrun
        refine ⟨?_, ?_⟩
        · refine h.sessions.mapRuns rfl (fun _ h => h) (fun _ h => h) fun j call hcall => ?_
          change (w.setRun k _).runs[j]? = some call at hcall
          rw [hget] at hcall
          split at hcall
          · cases hcall
            exact .inl hcreated
          · exact .inr ⟨call, hcall, rfl, fun h => h, fun h => h, fun h => ⟨h, rfl⟩⟩
        · refine h.records.own rfl rfl hget ?_ ?_ ?_
          · intro old hold
            rw [hrun, Option.some.injEq] at hold
            rw [← hold, hstage]
            exact nofun
          · rw [hcreated, hwatch, hcancelled]
          · rw [Bool.eq_false_iff]
            intro hshown
            obtain ⟨j, -, hj, -⟩ := (h.records.shown profileId).mp hshown
            obtain ⟨other, hother, hsame, -⟩ := h.records.recorded profileId j hj
            exact hfresh other (List.mem_of_getElem? hother) hsame
      · cases hstep

theorem Tracked.created {k : ℕ} (h : w.Tracked)
    (hstep : w.next config (.created k sessionId) = some w') : w'.Tracked := by
  unfold next at hstep
  dsimp only at hstep
  obtain ⟨run, hrun, hstep⟩ := Option.bind_eq_some_iff.mp hstep
  split at hstep
  · rename_i hfree
    cases hstep
    refine ⟨h.sessions.create hrun hfree.1 hfree.2.2, ?_⟩
    refine h.records.mapRuns rfl rfl fun j => ?_
    show ((w.setRun k { run with created := some sessionId }).runs[j]?).map _ = _
    rw [getElem?_setRun _ hrun]
    split
    · rename_i heq
      rw [heq, hrun]
      rfl
    · rfl
  · cases hstep

theorem Tracked.answered {k : ℕ} {pane : Option Text} (h : w.Tracked)
    (hstep : w.next config (.answered k pane) = some w') : w'.Tracked := by
  unfold next at hstep
  dsimp only at hstep
  obtain ⟨run, hrun, hstep⟩ := Option.bind_eq_some_iff.mp hstep
  split at hstep
  · rename_i hstage
    cases hstep
    obtain ⟨hruns, -, hrecord, hshown⟩ := w.settle_calls config run pane
    have hwatch := h.records.abandoned k run hrun
    refine ⟨h.sessions.answer hrun hstage hwatch, ?_⟩
    refine h.records.release hrun hrecord hshown fun j => ?_
    rw [getElem?_setRun _ (hruns ▸ hrun), hruns]
  · cases hstep

theorem calls_deliver {state : SessionStateUi} {lastCommand : Option Text}
    {terminalEofRequested : Bool} :
    (w.deliver config sessionId state lastCommand terminalEofRequested).runs = w.runs ∧
      (w.deliver config sessionId state lastCommand terminalEofRequested).issued = w.issued ∧
      (w.deliver config sessionId state lastCommand terminalEofRequested).sshConnectRuntimeRef
        = w.sshConnectRuntimeRef ∧
      (w.deliver config sessionId state lastCommand terminalEofRequested).connectingSshProfiles
        = w.connectingSshProfiles := by
  unfold ConnectWorld.deliver
  dsimp only
  split
  · split
    · exact ⟨rfl, rfl, rfl, rfl⟩
    · exact ⟨rfl, rfl, rfl, rfl⟩
  · split
    · exact calls_disconnectSession
    · exact ⟨rfl, rfl, rfl, rfl⟩

theorem Clean.terminalExit {lastCommand : Option Text} {terminalEofRequested : Bool}
    (h : w.Clean id) :
    { w with
      runtime := w.runtime.handleSessionDisconnected config sessionId lastCommand
        terminalEofRequested }.Clean id := by
  obtain ⟨hunlisted, htold, hstate, hquiet⟩ := h
  by_cases heq : id = sessionId
  · subst heq
    rw [Runtime.handleSessionDisconnected_of_notMem config _ _ hunlisted.2.2.1]
    exact ⟨hunlisted, htold, hstate, hquiet⟩
  · refine ⟨hunlisted.congr (w.runtime.core_handleSessionDisconnected sessionId config
      lastCommand terminalEofRequested) fun h => h, htold, ?_, hquiet⟩
    exact (Runtime.state_handleSessionDisconnected config lastCommand terminalEofRequested
      heq).trans hstate

theorem Clean.suppressionEnds (h : w.Clean id)
    (hsettled : sessionId ∈ w.suppressed → IsSettled (w.statuses sessionId)) :
    { w with suppressed := w.suppressed.filter (· ≠ sessionId) }.Clean id := by
  obtain ⟨hunlisted, htold, hstate, hquiet⟩ := h
  refine ⟨hunlisted.congr rfl fun h => h, htold, hstate, ?_⟩
  by_cases heq : id = sessionId
  · subst heq
    exact .inr (hquiet.elim hsettled fun h => h)
  · refine hquiet.imp_left fun hmem => List.mem_filter.mpr ⟨hmem, ?_⟩
    rw [decide_eq_true_iff]
    exact heq

/-- **The step lemma.** Every event of a run that meets the condition keeps track. -/
theorem Tracked.next {event : ConnectEvent} (h : w.Tracked) (hguard : OneAtATime w event)
    (hstep : w.next config event = some w') : w'.Tracked := by
  have hsame : w.runs = w.runs ∧ w.issued = w.issued ∧
      w.sshConnectRuntimeRef = w.sshConnectRuntimeRef ∧
      w.connectingSshProfiles = w.connectingSshProfiles := ⟨rfl, rfl, rfl, rfl⟩
  cases event with
  | connect profileId => exact h.connect hguard hstep
  | saved k profileId => exact h.saved hstep
  | created k sessionId => exact h.created hstep
  | answered k pane => exact h.answered hstep
  | cancel profileId =>
    cases hstep
    exact ⟨h.sessions.cancel h.records profileId, h.records.cancel profileId⟩
  | status sessionId state lastCommand terminalEofRequested =>
    unfold ConnectWorld.next at hstep
    dsimp only at hstep
    split at hstep
    · rename_i hfollows
      cases hstep
      exact h.frame calls_deliver (fun _ h => h.deliver) fun _ h => h.deliver hfollows.2
    · cases hstep
  | terminalExit sessionId lastCommand terminalEofRequested =>
    cases hstep
    refine h.frame hsame (fun id h => h.congr ?_ fun h => h) fun id h => h.terminalExit
    exact w.runtime.core_handleSessionDisconnected sessionId config lastCommand
      terminalEofRequested
  | suppressionEnds sessionId =>
    cases hstep
    refine h.frame hsame (fun id h => h.congr rfl fun h => h) fun id h => ?_
    exact h.suppressionEnds hguard
  | disconnectSession sessionId =>
    cases hstep
    exact h.frame calls_disconnectSession (fun _ h => h.disconnectSession)
      fun _ h => h.disconnectSession
  | disconnectSent sessionId =>
    unfold ConnectWorld.next at hstep
    dsimp only at hstep
    split at hstep
    · cases hstep
      have hleft : ∀ id, w.Unlisted id → id ∉ w.closes.erase sessionId :=
        fun id h hmem => h.2.2.2.2 (List.mem_of_mem_erase hmem)
      refine h.frame hsame (fun id h => h.sessionRemoved (hleft id h)) fun id h => ?_
      exact ⟨h.1.sessionRemoved (hleft id h.1), h.2.1, state_sessionRemoved h.2.2.1, h.2.2.2⟩
    · cases hstep
  | render =>
    cases hstep
    have hmoved : ∀ id, w.Unlisted id →
        { w with runtime := { w.runtime with rendered := w.runtime.now } }.Unlisted id :=
      fun _ h => ⟨h.1, h.1, h.2.2⟩
    exact h.frame hsame hmoved fun id h => ⟨hmoved id h.1, h.2⟩
  | effects =>
    cases hstep
    have hmoved : ∀ id, w.Unlisted id →
        { w with runtime := { w.runtime with refs := w.runtime.rendered } }.Unlisted id :=
      fun _ h => ⟨h.1, h.2.1, h.2.1, h.2.2.2⟩
    exact h.frame hsame hmoved fun id h => ⟨hmoved id h.1, h.2⟩

theorem Tracked.leavesNothing (h : w.Tracked) : w.LeavesNothing where
  ended run hmem hdone habandoned id hcreated := by
    obtain ⟨k, hrun⟩ := List.getElem?_of_mem hmem
    obtain ⟨hunlisted, htold, hstate, -⟩ :=
      h.sessions.clean k run id hrun hdone habandoned hcreated
    exact ⟨hunlisted.1, hunlisted.2.2.2.1, htold, hstate⟩
  shown := h.records.shown_iff

theorem tracked_of_idle (h : Idle w) : w.Tracked where
  sessions := by
    refine ⟨h.issued, ?_, ?_, ?_, ?_, ?_⟩ <;> simp [h.runs]
  records := by
    refine ⟨?_, ?_, ?_, ?_, ?_⟩ <;> simp [h.runs, h.record, h.shown]

end ConnectWorld

/-- **A cancelled connect leaves nothing behind**, in runs where no profile that is shown as
connecting is connected again. -/
theorem leavesNothing_of_oneAtATime (config : Config) (w : ConnectWorld)
    (h : ((connectMachine config).restrict OneAtATime).Reachable w) : w.LeavesNothing := by
  have htracked : w.Tracked := by
    refine h.induct (I := ConnectWorld.Tracked) ?_ ?_
    · exact fun w hidle => ConnectWorld.tracked_of_idle hidle
    · rintro w event w' - htracked ⟨hguard, hstep⟩
      exact htracked.next hguard hstep
  exact htracked.leavesNothing

/-- One tab is open and no connect has been made. -/
def sampleIdle : ConnectWorld where
  runtime := (oneTab .connected []).runtime
  runs := []
  sshConnectRuntimeRef := fun _ => none
  connectingSshProfiles := fun _ => false
  suppressed := []
  told := []
  closes := []
  issued := ["s0".toList]
  statuses := fun _ => none

theorem idle_sampleIdle : Idle sampleIdle where
  runs := rfl
  record _ := rfl
  shown _ := rfl
  issued _ hid :=
    ⟨hid, hid, hid, fun hmem => hid hmem, fun hmem => absurd hmem List.not_mem_nil⟩

def sampleCancel : List ConnectEvent :=
  [.connect (some "q".toList), .created 0 "s1".toList, .status "s1".toList .connecting none false,
    .cancel "q".toList, .answered 0 none, .status "s1".toList .connected none false]

def sampleWorld (events : List ConnectEvent) : ConnectWorld :=
  (Machine.exec (fun w event => w.next autoReconnectConfig event) sampleIdle events).getD sampleIdle

theorem leavesNothing_of_oneAtATime_sampleCancel :
    (sampleWorld sampleCancel).LeavesNothing ∧ (sampleWorld sampleCancel).told = ["s1".toList] := by
  refine ⟨leavesNothing_of_oneAtATime autoReconnectConfig _ ?_, by decide⟩
  refine @Machine.Reachable.exec _ _ _
    (fun w event => if OneAtATime w event then w.next autoReconnectConfig event else none)
    ?_ sampleCancel _ _ (.init idle_sampleIdle) rfl
  intro w event w' h
  rw [Option.ite_none_right_eq_some] at h
  exact h

def sampleTwice : List ConnectEvent :=
  [.connect (some "q".toList), .connect (some "q".toList), .cancel "q".toList,
    .created 0 "s1".toList, .answered 0 none]

def sampleLate : List ConnectEvent :=
  [.connect (some "q".toList), .created 0 "s1".toList, .cancel "q".toList, .answered 0 none,
    .suppressionEnds "s1".toList, .status "s1".toList .connecting none false]

theorem sampleTwice_leavesSession :
    ((connectMachine autoReconnectConfig).Reachable (sampleWorld sampleTwice) ∧
      "s1".toList ∈ sessionIdsOf (sampleWorld sampleTwice).runtime.now.sessions ∧
      ¬(sampleWorld sampleTwice).LeavesNothing) ∧
    (connectMachine autoReconnectConfig).Reachable (sampleWorld sampleLate) ∧
      (sampleWorld sampleLate).runtime.now.sessionStates "s1".toList = some .connecting ∧
      ¬(sampleWorld sampleLate).LeavesNothing := by
  have hnext : ∀ w event w', w.next autoReconnectConfig event = some w' →
      (connectMachine autoReconnectConfig).step w event w' := fun _ _ _ h => h
  refine ⟨⟨?_, ?_, ?_⟩, ?_, ?_, ?_⟩
  · exact Machine.Reachable.exec hnext sampleTwice (.init idle_sampleIdle) rfl
  · decide
  · intro h
    have hended := h.ended ⟨some "q".toList, .done, false, some "s1".toList, true⟩
      (List.mem_cons_self) rfl rfl "s1".toList rfl
    exact absurd hended.1 (by decide)
  · exact Machine.Reachable.exec hnext sampleLate (.init idle_sampleIdle) rfl
  · rfl
  · intro h
    have hended := h.ended ⟨some "q".toList, .done, true, some "s1".toList, true⟩
      (List.mem_cons_self) rfl rfl "s1".toList rfl
    exact absurd hended.2.2.2 nofun

end FluxTerm.Reconnect
