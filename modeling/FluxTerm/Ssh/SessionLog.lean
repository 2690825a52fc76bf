import FluxTerm.Ssh.SessionSteps

/-!
# FluxTerm — what a session reports

What a step adds to the log. A status comes from the loop alone: `Connected` when the shell is
there, `Disconnected` as the last thing before it returns.
-/

namespace FluxTerm.Ssh

open FluxTerm.Engine FluxTerm.Lib FluxTerm.Sftp

def LogEntry.status : LogEntry → Option SessionState
  | emit (.sessionStatus _ state _) => some state
  | _ => none

def LogEntry.isAuthenticate : LogEntry → Bool
  | authenticate _ => true
  | _ => false

def LogEntry.IsPlain (entry : LogEntry) : Prop :=
  entry.status = none ∧ entry.isAuthenticate = false

def LoopStage.isConnecting : LoopStage → Bool
  | connecting _ => true
  | _ => false

def LoopStage.statuses : LoopStage → List SessionState
  | connecting _ | returned (.error _) => []
  | returned (.ok ()) => [.connected, .disconnected]
  | _ => [.connected]

/-- What a step of the loop adds to the log. -/
inductive LoopNews (sessionId : Text) : LoopStage → LoopStage → List LogEntry → Prop
  | plain {old new : LoopStage} {news : List LogEntry} (hnews : ∀ e ∈ news, e.IsPlain)
      (hstatuses : new.statuses = old.statuses)
      (hconnecting : (old.isConnecting || !new.isConnecting) = true) :
      LoopNews sessionId old new news
  | authenticate (hop : ℕ) :
      LoopNews sessionId (.connecting (.handshake hop)) (.connecting (.authenticate hop))
        [.authenticate hop]
  | connected :
      LoopNews sessionId (.connecting .shell) .select
        [.emit (.sessionStatus sessionId .connected none)]
  | disconnected :
      LoopNews sessionId .lastStatus (.returned (.ok ()))
        [.emit (.sessionStatus sessionId .disconnected none)]

theorem LogEntry.IsOutput.isPlain {entry : LogEntry} (h : entry.IsOutput) : entry.IsPlain := by
  obtain ⟨sessionId, data, rfl⟩ := h
  exact ⟨rfl, rfl⟩

theorem LogEntry.IsProgress.isPlain {entry : LogEntry} (h : entry.IsProgress) :
    entry.IsPlain := by
  obtain ⟨progress, rfl⟩ := h
  exact ⟨rfl, rfl⟩

theorem LogEntry.IsTunnelUpdate.isPlain {entry : LogEntry} (h : entry.IsTunnelUpdate) :
    entry.IsPlain := by
  obtain ⟨runtime, rfl⟩ := h
  exact ⟨rfl, rfl⟩

namespace SessionRun

variable {request : SessionLoopRequest} {s s' : SessionRun}

/-- `s'` has the log of `s` and some news. -/
def Adds (sessionId : Text) (s s' : SessionRun) : Prop :=
  ∃ news, s'.log = s.log ++ news ∧ LoopNews sessionId s.stage s'.stage news

theorem Adds.silent {sessionId : Text} {old new : LoopStage} (hold : s.stage = old)
    (hnew : s'.stage = new) (hlog : s'.log = s.log) (hstatuses : new.statuses = old.statuses)
    (hconnecting : (old.isConnecting || !new.isConnecting) = true) : Adds sessionId s s' := by
  subst hold hnew
  refine ⟨[], ?_, .plain (List.forall_mem_nil _) hstatuses hconnecting⟩
  rw [hlog, List.append_nil]

theorem Adds.event {sessionId : Text} {event : EngineEvent} {old new : LoopStage}
    (hold : s.stage = old) (hnew : s'.stage = new) (hlog : s'.log = s.log ++ [.emit event])
    (hplain : (LogEntry.emit event).IsPlain) (hstatuses : new.statuses = old.statuses)
    (hconnecting : (old.isConnecting || !new.isConnecting) = true) : Adds sessionId s s' := by
  subst hold hnew
  refine ⟨[.emit event], hlog, .plain (fun e he => ?_) hstatuses hconnecting⟩
  rw [List.mem_singleton.mp he]
  exact hplain

theorem leave_adds {sessionId : Text} (hstage : s.stage = .select) :
    Adds sessionId s (s.leave sessionId) := by
  unfold leave
  obtain ⟨left, new, hflush, hnew⟩ := s.flush_effect sessionId true
  rw [hflush]
  exact ⟨new, rfl, .plain (fun e he => (hnew e he).isPlain) (hstage ▸ rfl) (hstage ▸ rfl)⟩

theorem serve_adds {sessionId : Text} (hsession : sessionId = request.sessionId)
    (hstage : s.stage = .select) (command : SessionCommand) :
    Adds sessionId s (serve request s command) := by
  cases command with
  | write data => exact .silent hstage rfl rfl rfl rfl
  | resize cols rows => exact .silent hstage rfl rfl rfl rfl
  | sftp sftpRequest => exact .silent hstage hstage rfl rfl rfl
  | transfer transferRequest => exact .silent hstage hstage rfl rfl rfl
  | sftpCancelTransfer transferId => exact .silent hstage hstage rfl rfl rfl
  | tunnelOpen spec =>
    unfold serve
    dsimp only
    split
    · exact .silent hstage rfl rfl rfl rfl
    · exact .silent hstage rfl rfl rfl rfl
    · exact .silent hstage rfl rfl rfl rfl
  | tunnelClose tunnelId =>
    show Adds sessionId s (if tunnelId ∈ s.handles then _ else _)
    split
    · exact .silent hstage rfl rfl rfl rfl
    · exact .silent hstage hstage rfl rfl rfl
  | tunnelList => exact .silent hstage hstage rfl rfl rfl
  | tunnelCloseAll => exact .silent hstage rfl rfl rfl rfl
  | disconnect =>
    subst hsession
    exact leave_adds hstage

theorem connectNext_adds {connect : ConnectStage} (hstage : s.stage = .connecting connect) :
    Adds request.sessionId s (s.connectNext request connect) := by
  cases connect with
  | start =>
    show Adds request.sessionId s (if sshJumpMaxDepth < request.jumpHosts then _ else _)
    split
    · exact .silent hstage rfl rfl rfl rfl
    · exact .silent hstage rfl rfl rfl rfl
  | stream hop => exact .silent hstage rfl rfl rfl rfl
  | handshake hop => exact ⟨_, rfl, hstage ▸ .authenticate hop⟩
  | authenticate hop => exact .silent hstage rfl rfl rfl rfl
  | channelOpen => exact .silent hstage rfl rfl rfl rfl
  | pty => exact .silent hstage rfl rfl rfl rfl
  | shell => exact ⟨_, rfl, hstage ▸ .connected⟩

/-- **What a step of the loop adds to the log.** -/
theorem loopNext_news {event : LoopEvent} (h : s.loopNext request event = some s') :
    Adds request.sessionId s s' := by
  unfold loopNext at h
  split at h
  · rename_i hstage
    cases h
    exact connectNext_adds hstage
  · cases h
  · rename_i hstage
    cases h
    exact .silent hstage rfl rfl rfl rfl
  · rename_i hstage
    split at h <;> cases h
    exact .silent hstage rfl rfl rfl rfl
  · -- a command
    rename_i hstage
    split at h
    · cases h
    · rename_i command rx hrx
      cases h
      exact serve_adds (s := { s with rx }) rfl hstage command
  · rename_i hstage
    split at h
    · split at h
      · cases h
        exact .silent hstage hstage rfl rfl rfl
      · cases h
        exact .silent hstage hstage rfl rfl rfl
      · cases h
        exact leave_adds hstage
    · cases h
  · -- output
    rename_i hstage
    split at h <;> cases h
    obtain ⟨left, new, hflush, hnew⟩ := s.flush_effect request.sessionId false
    rw [hflush]
    exact ⟨new, rfl, .plain (fun e he => (hnew e he).isPlain) rfl (by simp)⟩
  · rename_i hstage
    cases h
    exact .silent hstage rfl rfl rfl rfl
  · rename_i hstage
    cases h
    exact .silent hstage rfl rfl rfl rfl
  · -- a local tunnel is there
    rename_i hstage
    cases h
    exact .event hstage rfl rfl ⟨rfl, rfl⟩ rfl rfl
  · rename_i hstage
    split at h
    · split at h
      · cases h
        exact .silent hstage rfl rfl rfl rfl
      · cases h
        exact .silent hstage rfl rfl rfl rfl
    · cases h
  · -- a remote tunnel is there
    rename_i hstage
    cases h
    exact .event hstage rfl rfl ⟨rfl, rfl⟩ rfl rfl
  · rename_i hstage
    split at h <;> cases h
    exact .silent hstage rfl rfl rfl rfl
  · rename_i leaving hstage
    cases h
    cases leaving with
    | true => exact .silent hstage rfl rfl rfl rfl
    | false => exact .silent hstage rfl rfl rfl rfl
  · rename_i hstage
    split at h <;> cases h
    exact .silent hstage rfl rfl rfl rfl
  · rename_i hstage
    cases h
    exact .silent hstage rfl rfl rfl rfl
  · rename_i hstage
    cases h
    exact .silent hstage rfl rfl rfl rfl
  · rename_i hstage
    split at h <;> cases h
    exact .silent hstage rfl rfl rfl rfl
  · rename_i hstage
    cases h
    exact .silent hstage rfl rfl rfl rfl
  · -- `TerminalExit`
    rename_i hstage
    cases h
    exact .event hstage rfl rfl ⟨rfl, rfl⟩ rfl rfl
  · rename_i hstage
    cases h
    exact ⟨_, rfl, hstage ▸ .disconnected⟩
  · cases h

theorem next_stage {event : SessionEvent} (h : s.next request event = some s') :
    (∃ loopEvent, event = .loop loopEvent ∧ s.loopNext request loopEvent = some s') ∨
      s'.stage = s.stage := by
  cases event with
  | send command =>
    cases h
    exact .inr rfl
  | loop event => exact .inl ⟨event, rfl, h⟩
  | task index event =>
    obtain ⟨task, -, hnext⟩ := Option.bind_eq_some_iff.mp h
    obtain ⟨task', lock, new, rfl, -⟩ := taskNext_effect hnext
    exact .inr rfl
  | tunnel number event =>
    obtain ⟨tunnel, -, hnext⟩ := Option.bind_eq_some_iff.mp h
    exact .inr (tunnelNext_effect hnext).stage
  | channel connectedPort =>
    obtain ⟨forwards, hopen⟩ := s.openChannel_effect connectedPort
    cases h
    rw [hopen]
    exact .inr rfl
  | forward index event =>
    obtain ⟨forward, -, hnext⟩ := Option.bind_eq_some_iff.mp h
    obtain ⟨forwards, new, rfl, -⟩ := forwardNext_effect hnext
    exact .inr rfl

/-- **What a step adds to the log**: that of the loop, or what is no status. -/
theorem next_news {event : SessionEvent} (h : s.next request event = some s') :
    Adds request.sessionId s s' := by
  have hquiet : ∀ news : List LogEntry, s'.log = s.log ++ news → s'.stage = s.stage →
      (∀ e ∈ news, e.IsPlain) → Adds request.sessionId s s' := by
    intro news hlog hstage hplain
    refine ⟨news, hlog, .plain hplain (hstage ▸ rfl) ?_⟩
    rw [hstage]
    exact Bool.or_not_self _
  cases event with
  | send command =>
    cases h
    exact .silent rfl rfl rfl rfl (Bool.or_not_self _)
  | loop event => exact loopNext_news h
  | task index event =>
    obtain ⟨task, -, hnext⟩ := Option.bind_eq_some_iff.mp h
    obtain ⟨task', lock, new, rfl, -, -, hnew, -⟩ := taskNext_effect hnext
    exact hquiet new rfl rfl fun e he => (hnew e he).isPlain
  | tunnel number event =>
    obtain ⟨tunnel, -, hnext⟩ := Option.bind_eq_some_iff.mp h
    have heffect := tunnelNext_effect hnext
    obtain ⟨new, hlog, hnew⟩ := heffect.log
    exact hquiet new hlog heffect.stage fun e he => (hnew e he).isPlain
  | channel connectedPort =>
    obtain ⟨forwards, hopen⟩ := s.openChannel_effect connectedPort
    cases h
    rw [hopen]
    exact .silent rfl rfl rfl rfl (Bool.or_not_self _)
  | forward index event =>
    obtain ⟨forward, -, hnext⟩ := Option.bind_eq_some_iff.mp h
    obtain ⟨forwards, new, rfl, hnew⟩ := forwardNext_effect hnext
    refine hquiet new rfl rfl fun e he => ?_
    obtain ⟨runtime, rfl, -⟩ := hnew e he
    exact ⟨rfl, rfl⟩

end SessionRun

end FluxTerm.Ssh
