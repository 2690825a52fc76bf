import FluxTerm.Ssh.SessionQuiet

/-!
# FluxTerm — connecting and disconnecting a session

`Engine::connect` and `Engine::disconnect` of `crates/engine/src/engine.rs` around the loop of one
session. The caller that connects and the task that runs the loop go their own ways, and
`disconnect` may be called at any time.

A disconnect is a command in a queue that the loop reads when it is connected, not before.

* **`connectsCleanly_of_disconnectsConnected`** — under this condition a session connects cleanly.
-/

namespace FluxTerm.Ssh

open FluxTerm.Engine FluxTerm.Lib

/-! ## The engine -/

/-- Where `connect` and the task that it spawns are. -/
inductive ConnectPhase where
  | start
  /-- `Connecting` is emitted. -/
  | announced
  | inserted
  | spawned
  | reported
  | removed
deriving DecidableEq

def ConnectPhase.isSpawned : ConnectPhase → Bool
  | start | announced | inserted => false
  | spawned | reported | removed => true

inductive HistoryEntry where
  | log (entry : LogEntry)
  /-- `disconnect` returns `Ok`. -/
  | disconnectReturned

structure ConnectRun where
  phase : ConnectPhase
  /-- The handle is in `sessions`. -/
  listed : Bool
  /-- Calls of `disconnect` that have the handle and send next. -/
  disconnecting : ℕ
  session : SessionRun
  history : List HistoryEntry

inductive ConnectEvent where
  /-- `connect` takes its next step. -/
  | connect
  /-- `disconnect` takes the handle from the map. -/
  | disconnect
  | disconnectSend
  | session (event : SessionEvent)
  | report
  | remove

def ConnectRun.begin : ConnectRun := ⟨.start, false, 0, .start, []⟩

def SessionRun.isOpen (s : SessionRun) : Bool :=
  match s.stage with
  | .returned _ => false
  | _ => true

/-- A command that only `disconnect` sends. -/
def SessionEvent.isDisconnect : SessionEvent → Bool
  | send .disconnect => true
  | _ => false

def SessionEvent.isSend : SessionEvent → Bool
  | send _ => true
  | _ => false

/-- The step of `connect`. -/
def ConnectRun.connect (sessionId : Text) (run : ConnectRun) : Option ConnectRun :=
  match run.phase with
  | .start => some { run with
      phase := .announced
      history := run.history ++ [.log (.emit (.sessionStatus sessionId .connecting none))] }
  | .announced => some { run with phase := .inserted, listed := true }
  | .inserted => some { run with phase := .spawned }
  | _ => none

/-- One step of the engine. -/
def ConnectRun.next (request : SessionLoopRequest) (run : ConnectRun) :
    ConnectEvent → Option ConnectRun
  | .connect => run.connect request.sessionId
  | .disconnect =>
    if run.listed then some { run with listed := false, disconnecting := run.disconnecting + 1 }
    else none
  | .disconnectSend =>
    if 0 < run.disconnecting then
      let run := { run with disconnecting := run.disconnecting - 1 }
      if run.session.isOpen then
        some { run with
          session := { run.session with rx := run.session.rx ++ [.disconnect] }
          history := run.history ++ [.disconnectReturned] }
      else some run
    else none
  | .session event =>
    if event.isDisconnect = true ∨ (event.isSend = false ∧ run.phase.isSpawned = false) then none
    else (run.session.next request event).map fun session =>
      { run with
        session
        history := run.history ++ (session.log.drop run.session.log.length).map .log }
  | .report =>
    match run.phase, run.session.stage with
    | .spawned, .returned (.error err) => some { run with
        phase := .reported
        history := run.history ++
          [.log (.emit (.sessionStatus request.sessionId .error (some err)))] }
    | _, _ => none
  | .remove =>
    match run.phase, run.session.stage with
    | .spawned, .returned (.ok ()) | .reported, _ =>
      some { run with phase := .removed, listed := false }
    | _, _ => none

def engineConnect (request : SessionLoopRequest) : Machine ConnectRun ConnectEvent :=
  .ofStep .begin (ConnectRun.next request)

/-! ## A clean connect -/

namespace HistoryEntry

def status : HistoryEntry → Option SessionState
  | log entry => entry.status
  | disconnectReturned => none

def isDisconnect : HistoryEntry → Bool
  | log _ => false
  | disconnectReturned => true

/-- `Connected`, or the start of an authentication. -/
def connects : HistoryEntry → Bool
  | log entry => entry.status = some .connected || entry.isAuthenticate
  | disconnectReturned => false

end HistoryEntry

namespace ConnectRun

def statuses (run : ConnectRun) : List SessionState := run.history.filterMap HistoryEntry.status

end ConnectRun

/-- The statuses come in order, and a disconnect wins over a pending connect. -/
structure ConnectsCleanly (run : ConnectRun) : Prop where
  order : run.statuses <+: [.connecting, .error] ∨
    run.statuses <+: [.connecting, .connected, .disconnected]
  wins : run.history.Pairwise fun e later => e.isDisconnect = true → later.connects = false

/-- `disconnect` is not called while the session connects, or else the connection is bound to
fail. -/
def DisconnectsConnected (request : SessionLoopRequest) (run : ConnectRun) : ConnectEvent → Prop
  | .disconnectSend =>
    run.session.stage.isConnecting = true → sshJumpMaxDepth < request.jumpHosts
  | _ => True

instance (request : SessionLoopRequest) (run : ConnectRun) :
    ∀ event, Decidable (DisconnectsConnected request run event)
  | .disconnectSend => inferInstanceAs (Decidable (_ → _ < _))
  | .connect | .disconnect | .session _ | .report | .remove => .isTrue trivial

variable {request : SessionLoopRequest} {run run' : ConnectRun}

/-! ## The steps of the session -/

theorem LoopNews.connected_of {sessionId : Text} {old new : LoopStage} {news : List LogEntry}
    (h : LoopNews sessionId old new news) (hold : old.isConnecting = false) :
    new.isConnecting = false ∧ ∀ e ∈ news, (HistoryEntry.log e).connects = false := by
  cases h with
  | plain hnews _ hconnecting =>
    rw [hold] at hconnecting
    refine ⟨by simpa using hconnecting, fun e he => ?_⟩
    obtain ⟨hstatus, hauthenticate⟩ := hnews e he
    simp [HistoryEntry.connects, hstatus, hauthenticate]
  | authenticate hop => cases hold
  | connected => cases hold
  | disconnected =>
    refine ⟨rfl, fun e he => ?_⟩
    rw [List.mem_singleton.mp he]
    rfl

def LoopStage.isBarred : LoopStage → Bool
  | connecting .start | returned (.error _) => true
  | _ => false

theorem LoopNews.of_barred {sessionId : Text} {old new : LoopStage} {news : List LogEntry}
    (h : LoopNews sessionId old new news) (hold : old.isBarred = true) :
    ∀ e ∈ news, (HistoryEntry.log e).connects = false := by
  intro e he
  cases h with
  | plain hnews _ _ =>
    obtain ⟨hstatus, hauthenticate⟩ := hnews e he
    simp [HistoryEntry.connects, hstatus, hauthenticate]
  | authenticate hop => cases hold
  | connected => cases hold
  | disconnected => cases hold

theorem SessionRun.loopNext_barred {s s' : SessionRun} {event : LoopEvent}
    (hdeep : sshJumpMaxDepth < request.jumpHosts) (hbarred : s.stage.isBarred = true)
    (hstep : s.loopNext request event = some s') : s'.stage.isBarred = true := by
  generalize hstage : s.stage = stage at hbarred
  cases stage with
  | connecting connect =>
    cases connect with
    | start =>
      -- the depth is checked first
      unfold loopNext at hstep
      rw [hstage] at hstep
      cases event with
      | answer result =>
        cases result with
        | ok done =>
          cases hstep
          unfold connectNext
          rw [if_pos hdeep]
          rfl
        | error err => cases hstep
      | timeout =>
        have hstep : some (s.goTo (.returned (.error (connectTimeoutError request)))) = some s' :=
          hstep
        cases hstep
        rfl
      | _ => cases hstep
    | _ => cases hbarred
  | returned result =>
    rw [loopNext_returned hstage] at hstep
    cases hstep
  | _ => cases hbarred

/-! ## The invariant -/

def ConnectRun.expected (run : ConnectRun) : List SessionState :=
  match run.phase, run.session.stage with
  | .start, _ => []
  | .reported, .returned (.error _) | .removed, .returned (.error _) => [.connecting, .error]
  | _, stage => .connecting :: stage.statuses

/-- What holds while a session connects, runs and ends. -/
structure Connects (request : SessionLoopRequest) (run : ConnectRun) : Prop where
  statuses : run.statuses = run.expected
  early : run.phase.isSpawned = false → run.session.stage = .connecting .start
  late : run.phase = .reported ∨ run.phase = .removed → ∃ result, run.session.stage = .returned result
  barred : sshJumpMaxDepth < request.jumpHosts → run.session.stage.isBarred = true
  settled : (∃ e ∈ run.history, e.isDisconnect = true) →
    run.session.stage.isConnecting = false ∨ sshJumpMaxDepth < request.jumpHosts
  wins : run.history.Pairwise fun e later => e.isDisconnect = true → later.connects = false

theorem Connects.begin : Connects request .begin where
  statuses := rfl
  early _ := rfl
  late h := by
    rcases h with h | h
    · cases h
    · cases h
  barred _ := rfl
  settled h := by
    obtain ⟨e, he, -⟩ := h
    cases he
  wins := .nil

def Settled (request : SessionLoopRequest) (stage : LoopStage) : Prop :=
  stage.isConnecting = false ∨ sshJumpMaxDepth < request.jumpHosts

theorem Connects.extend {new : List HistoryEntry} (h : Connects request run)
    (hhistory : run'.history = run.history ++ new)
    (hexpected : run.expected ++ new.filterMap HistoryEntry.status = run'.expected)
    (hearly : run'.phase.isSpawned = false → run'.session.stage = .connecting .start)
    (hlate : run'.phase = .reported ∨ run'.phase = .removed →
      ∃ result, run'.session.stage = .returned result)
    (hbarred : sshJumpMaxDepth < request.jumpHosts → run'.session.stage.isBarred = true)
    (hstage : Settled request run.session.stage → Settled request run'.session.stage)
    (hsettled : (∃ e ∈ new, e.isDisconnect = true) → Settled request run'.session.stage)
    (hnew : new.Pairwise fun e later => e.isDisconnect = true → later.connects = false)
    (hquiet : Settled request run.session.stage → ∀ e ∈ new, e.connects = false) :
    Connects request run' := by
  refine ⟨?_, hearly, hlate, hbarred, ?_, ?_⟩
  · unfold ConnectRun.statuses
    rw [hhistory, List.filterMap_append, ← hexpected]
    exact congrArg (· ++ _) h.statuses
  · rintro ⟨e, he, hdisconnect⟩
    rw [hhistory] at he
    rcases List.mem_append.mp he with hold | hnew
    · exact hstage (h.settled ⟨e, hold, hdisconnect⟩)
    · exact hsettled ⟨e, hnew, hdisconnect⟩
  · rw [hhistory, List.pairwise_append]
    refine ⟨h.wins, hnew, fun e he later hlater hdisconnect => ?_⟩
    exact hquiet (h.settled ⟨e, he, hdisconnect⟩) later hlater

theorem Connects.silent (h : Connects request run) (hhistory : run'.history = run.history)
    (hstage : run'.session.stage = run.session.stage)
    (hexpected : run'.expected = run.expected)
    (hearly : run'.phase.isSpawned = false → run.phase.isSpawned = false)
    (hlate : run'.phase = .reported ∨ run'.phase = .removed →
      ∃ result, run.session.stage = .returned result) : Connects request run' := by
  have hnone : run'.history = run.history ++ [] := by rw [hhistory, List.append_nil]
  refine h.extend hnone ?_ ?_ ?_ ?_ ?_ ?_ .nil fun _ => List.forall_mem_nil _
  · rw [hexpected]
    exact List.append_nil _
  · exact fun hspawned => hstage.trans (h.early (hearly hspawned))
  · exact fun hphase => (hlate hphase).imp fun _ hresult => hstage.trans hresult
  · exact fun hdeep => hstage ▸ h.barred hdeep
  · exact fun hsettled => hstage ▸ hsettled
  · rintro ⟨e, he, -⟩
    cases he

theorem Connects.connect (h : Connects request run)
    (hstep : run.connect request.sessionId = some run') : Connects request run' := by
  unfold ConnectRun.connect at hstep
  split at hstep
  · -- `Connecting`
    rename_i hphase
    cases hstep
    have hstage := h.early (hphase ▸ rfl)
    refine h.extend rfl ?_ (fun _ => hstage) ?_ h.barred id ?_ (List.pairwise_singleton _ _) ?_
    · unfold ConnectRun.expected
      dsimp only
      rw [hphase, hstage]
      rfl
    · rintro (hphase | hphase)
      · cases hphase
      · cases hphase
    · rintro ⟨e, he, hdisconnect⟩
      rw [List.mem_singleton.mp he] at hdisconnect
      cases hdisconnect
    · intro _ e he
      rw [List.mem_singleton.mp he]
      rfl
  · rename_i hphase
    cases hstep
    refine h.silent rfl rfl ?_ (fun _ => hphase ▸ rfl) ?_
    · unfold ConnectRun.expected
      dsimp only
      rw [hphase]
    · rintro (hphase | hphase)
      · cases hphase
      · cases hphase
  · rename_i hphase
    cases hstep
    refine h.silent rfl rfl ?_ (fun _ => hphase ▸ rfl) ?_
    · unfold ConnectRun.expected
      dsimp only
      rw [hphase]
    · rintro (hphase | hphase)
      · cases hphase
      · cases hphase
  · cases hstep

/-! ### The session takes a step -/

theorem LoopNews.settled {sessionId : Text} {old new : LoopStage} {news : List LogEntry}
    (h : LoopNews sessionId old new news) (hbarred : sshJumpMaxDepth < request.jumpHosts →
      old.isBarred = true) (hsettled : Settled request old) :
    Settled request new ∧ ∀ e ∈ news, (HistoryEntry.log e).connects = false := by
  rcases hsettled with hconnecting | hdeep
  · obtain ⟨hnew, hquiet⟩ := h.connected_of hconnecting
    exact ⟨.inl hnew, hquiet⟩
  · exact ⟨.inr hdeep, h.of_barred (hbarred hdeep)⟩

theorem filterMap_log (news : List LogEntry) :
    (news.map HistoryEntry.log).filterMap HistoryEntry.status = news.filterMap LogEntry.status := by
  rw [List.filterMap_map]
  rfl

theorem Connects.session {event : SessionEvent} {session : SessionRun} (h : Connects request run)
    (hspawned : event.isSend = true ∨ run.phase.isSpawned = true)
    (hstep : run.session.next request event = some session) :
    Connects request { run with
      session
      history := run.history ++ (session.log.drop run.session.log.length).map .log } := by
  obtain ⟨news, hlog, hnews⟩ := SessionRun.next_news hstep
  have hdrop : session.log.drop run.session.log.length = news := by
    rw [hlog, List.drop_left]
  rw [hdrop]
  -- the loop moves only while its task runs
  have hmoves : session.stage = run.session.stage ∨ run.phase = .spawned := by
    rcases SessionRun.next_stage hstep with ⟨loopEvent, rfl, hloop⟩ | hsame
    · right
      have hspawned := hspawned.resolve_left nofun
      have hreturns : ¬(run.phase = .reported ∨ run.phase = .removed) := by
        intro hphase
        obtain ⟨result, hresult⟩ := h.late hphase
        rw [SessionRun.loopNext_returned hresult] at hloop
        cases hloop
      cases hphase : run.phase with
      | spawned => rfl
      | reported => exact absurd (.inl hphase) hreturns
      | removed => exact absurd (.inr hphase) hreturns
      | _ =>
        rw [hphase] at hspawned
        cases hspawned
    · exact .inl hsame
  refine h.extend rfl ?_ ?_ ?_ ?_ ?_ ?_ ?_ ?_
  · rw [filterMap_log]
    have hstatuses := hnews.statuses
    rcases hmoves with hsame | hphase
    · rw [hsame] at hstatuses
      have hnone : news.filterMap LogEntry.status = [] := by simpa using hstatuses
      rw [hnone, List.append_nil]
      unfold ConnectRun.expected
      dsimp only
      rw [hsame]
    · unfold ConnectRun.expected
      dsimp only
      rw [hphase]
      exact congrArg (SessionState.connecting :: ·) hstatuses
  · intro hearly
    rcases hmoves with hsame | hphase
    · exact hsame.trans (h.early hearly)
    · have hearly : run.phase.isSpawned = false := hearly
      rw [hphase] at hearly
      cases hearly
  · intro hlate
    rcases hmoves with hsame | hphase
    · exact (h.late hlate).imp fun _ hresult => hsame.trans hresult
    · have hlate : run.phase = .reported ∨ run.phase = .removed := hlate
      rw [hphase] at hlate
      rcases hlate with hlate | hlate
      · cases hlate
      · cases hlate
  · intro hdeep
    rcases SessionRun.next_stage hstep with ⟨loopEvent, rfl, hloop⟩ | hsame
    · exact SessionRun.loopNext_barred hdeep (h.barred hdeep) hloop
    · show session.stage.isBarred = true
      rw [hsame]
      exact h.barred hdeep
  · exact fun hsettled => (hnews.settled h.barred hsettled).1
  · rintro ⟨e, he, hdisconnect⟩
    obtain ⟨entry, -, rfl⟩ := List.mem_map.mp he
    cases hdisconnect
  · have hall : (news.map HistoryEntry.log).Pairwise fun _ _ => True :=
      List.pairwise_of_forall fun _ _ => trivial
    refine hall.imp_of_mem ?_
    intro e later he _ _ hdisconnect
    obtain ⟨entry, -, rfl⟩ := List.mem_map.mp he
    cases hdisconnect
  · intro hsettled e he
    obtain ⟨entry, hentry, rfl⟩ := List.mem_map.mp he
    exact (hnews.settled h.barred hsettled).2 entry hentry

/-! ### Every step -/

theorem Connects.report (h : Connects request run)
    (hstep : run.next request .report = some run') : Connects request run' := by
  unfold ConnectRun.next at hstep
  dsimp only at hstep
  split at hstep
  · rename_i err hphase hstage
    cases hstep
    refine h.extend rfl ?_ nofun (fun _ => ⟨_, hstage⟩) h.barred id ?_
      (List.pairwise_singleton _ _) ?_
    · unfold ConnectRun.expected
      dsimp only
      rw [hphase, hstage]
      rfl
    · rintro ⟨e, he, hdisconnect⟩
      rw [List.mem_singleton.mp he] at hdisconnect
      cases hdisconnect
    · intro _ e he
      rw [List.mem_singleton.mp he]
      rfl
  · cases hstep

theorem Connects.remove (h : Connects request run)
    (hstep : run.next request .remove = some run') : Connects request run' := by
  unfold ConnectRun.next at hstep
  dsimp only at hstep
  split at hstep
  · -- after the regular end
    rename_i hphase hstage
    cases hstep
    refine h.silent rfl rfl ?_ nofun fun _ => ⟨_, hstage⟩
    unfold ConnectRun.expected
    dsimp only
    rw [hphase, hstage]
  · -- after the error
    rename_i hphase
    cases hstep
    obtain ⟨result, hstage⟩ := h.late (.inl hphase)
    refine h.silent rfl rfl ?_ nofun fun _ => ⟨result, hstage⟩
    unfold ConnectRun.expected
    dsimp only
    rw [hphase, hstage]
    cases result with
    | ok => rfl
    | error err => rfl
  · cases hstep

theorem Connects.next {event : ConnectEvent} (h : Connects request run)
    (hguard : DisconnectsConnected request run event)
    (hstep : run.next request event = some run') : Connects request run' := by
  cases event with
  | connect => exact h.connect hstep
  | disconnect =>
    unfold ConnectRun.next at hstep
    dsimp only at hstep
    split at hstep <;> cases hstep
    exact h.silent rfl rfl rfl id h.late
  | disconnectSend =>
    unfold ConnectRun.next at hstep
    dsimp only at hstep
    split at hstep
    · split at hstep
      · -- the command is in the queue
        cases hstep
        have hsettled : Settled request run.session.stage := by
          cases hconnecting : run.session.stage.isConnecting with
          | true => exact .inr (hguard hconnecting)
          | false => exact .inl hconnecting
        refine h.extend rfl ?_ h.early h.late h.barred id (fun _ => hsettled)
          (List.pairwise_singleton _ _) fun _ e he => ?_
        · exact List.append_nil _
        · rw [List.mem_singleton.mp he]
          rfl
      · cases hstep
        exact h.silent rfl rfl rfl id h.late
    · cases hstep
  | session event =>
    unfold ConnectRun.next at hstep
    dsimp only at hstep
    split at hstep
    · cases hstep
    · rename_i hallowed
      obtain ⟨session, hnext, rfl⟩ := Option.map_eq_some_iff.mp hstep
      refine h.session ?_ hnext
      cases hsend : event.isSend with
      | true => exact .inl rfl
      | false =>
        right
        by_contra hspawned
        exact hallowed (.inr ⟨hsend, by simpa using hspawned⟩)
  | report => exact h.report hstep
  | remove => exact h.remove hstep

theorem Connects.order (h : Connects request run) :
    run.statuses <+: [.connecting, .error] ∨
      run.statuses <+: [.connecting, .connected, .disconnected] := by
  have hloop : ∀ stage : LoopStage,
      (SessionState.connecting :: stage.statuses) <+: [.connecting, .connected, .disconnected] := by
    intro stage
    cases stage with
    | returned result =>
      cases result with
      | ok => exact List.prefix_refl _
      | error err => exact ⟨[.connected, .disconnected], rfl⟩
    | connecting connect => exact ⟨[.connected, .disconnected], rfl⟩
    | _ => exact ⟨[.disconnected], rfl⟩
  rw [h.statuses]
  unfold ConnectRun.expected
  split
  · exact .inl (List.nil_prefix)
  · exact .inl (List.prefix_refl _)
  · exact .inl (List.prefix_refl _)
  · exact .inr (hloop _)

/-- **A disconnect wins over a pending connect**, in every run in which `disconnect` is not called
while the session connects, unless the connection is bound to fail. -/
theorem connectsCleanly_of_disconnectsConnected (request : SessionLoopRequest) (run : ConnectRun)
    (h : ((engineConnect request).restrict (DisconnectsConnected request)).Reachable run) :
    ConnectsCleanly run := by
  have hconnects : Connects request run := by
    refine Machine.Reachable.induct ?_ (fun _ _ _ _ hconnects hstep => ?_) h
    · rintro _ rfl
      exact .begin
    · exact hconnects.next hstep.1 hstep.2
  exact ⟨hconnects.order, hconnects.wins⟩

/-- `connect`, and the task runs. -/
def sampleEngineConnect : List ConnectEvent := [.connect, .connect, .connect]

/-- A session is connected, then disconnected. -/
theorem sampleDisconnect_clean : ∃ run, ConnectsCleanly run ∧
    run.statuses = [.connecting, .connected] ∧ .disconnectReturned ∈ run.history := by
  have hrun : ∃ run, Machine.exec (fun run event =>
        if DisconnectsConnected sampleSession run event then run.next sampleSession event
        else none) .begin (sampleEngineConnect ++ sampleConnect.map .session ++
      [.disconnect, .disconnectSend]) = some run ∧
      run.statuses = [.connecting, .connected] ∧ .disconnectReturned ∈ run.history :=
    ⟨_, rfl, rfl, List.mem_append_right _ (List.mem_singleton_self _)⟩
  obtain ⟨run, hexec, hrest⟩ := hrun
  have hreach := Machine.reachable_restrict (Machine.reachable_exec hexec)
  exact ⟨run, connectsCleanly_of_disconnectsConnected sampleSession run hreach, hrest⟩

/-- A session is disconnected while it connects, and connects all the same. -/
theorem sampleDisconnect_loses :
    ¬∀ run, (engineConnect sampleSession).Reachable run → ConnectsCleanly run := by
  intro h
  have hrun : ∃ run, Machine.exec (ConnectRun.next sampleSession) .begin (sampleEngineConnect ++
      [.disconnect, .disconnectSend] ++ sampleConnect.map .session) = some run ∧
      run.history = [.log (.emit (.sessionStatus "s".toList .connecting none))] ++
        [.disconnectReturned, .log (.authenticate 0),
          .log (.emit (.sessionStatus "s".toList .connected none))] := ⟨_, rfl, rfl⟩
  obtain ⟨run, hexec, hhistory⟩ := hrun
  have hwins := (h run (Machine.reachable_exec hexec)).wins
  rw [hhistory, List.pairwise_append] at hwins
  have hfalse := (List.pairwise_cons.mp hwins.2.1).1 _ (List.mem_cons_self ..) rfl
  cases hfalse

end FluxTerm.Ssh
