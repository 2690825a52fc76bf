import FluxTerm.Ssh.Session

/-!
# FluxTerm — what the steps of a session do

What a step of a task, a tunnel or a forwarded channel changes, and what it leaves alone. The
invariants of a session are proved from this, without unfolding the steps again.
-/

namespace FluxTerm.Ssh

open FluxTerm.Engine FluxTerm.Lib FluxTerm.Sftp

/-- `tcpip_forward` of a tunnel. -/
def LoopStage.isForwarding : LoopStage → Bool
  | forwarding _ => true
  | _ => false

def LoopStage.wantsLock : LoopStage → Bool
  | forwarding _ | disconnecting => true
  | _ => false

def LoopStage.isGone : LoopStage → Bool
  | joining _ _ leaving => leaving
  | eof | closing | disconnecting | exiting | lastStatus | returned _ => true
  | _ => false

def LoopStage.isRouting : LoopStage → Bool
  | routing _ _ => true
  | _ => false

/-! ## Tasks -/

def SftpTask.isTransfer (task : SftpTask) : Bool :=
  match task.body with
  | .transfer _ _ => true
  | .request _ => false

def LogEntry.IsProgress (entry : LogEntry) : Prop :=
  ∃ progress, entry = .emit (.sftpProgress progress)

def LogEntry.IsTunnelUpdate (entry : LogEntry) : Prop :=
  ∃ runtime, entry = .emit (.sshTunnelUpdate runtime)

def LogEntry.IsOutput (entry : LogEntry) : Prop :=
  ∃ sessionId data, entry = .emit (.terminalOutput sessionId data)

def Tunnel.IsSound (tunnel : Tunnel) : Prop :=
  tunnel.runtime.kind ≠ .remote → tunnel.stage = .opened ∨ tunnel.stage = .finished

def LockUser.OfTunnel : LockUser → Prop
  | tunnel _ | connection _ _ => True
  | loop | task _ => False

inductive TaskMove (index : ℕ) (lock : List LockUser) :
    TaskStage → TaskStage → List LockUser → Prop
  | request : TaskMove index lock .spawned .locked (lock ++ [.task index])
  | work : TaskMove index lock .locked .locked lock
  | done : TaskMove index lock .locked .finished (lock.erase (.task index))

namespace SessionRun

variable {request : SessionLoopRequest} {s s' : SessionRun}

/-- **A step of a task.** It changes its task and its place in the queue; only a transfer adds to
the log. -/
theorem taskNext_effect {index : ℕ} {task : SftpTask} {event : TaskEvent}
    (h : s.taskNext index task event = some s') :
    ∃ task' lock new,
      s' = { s with tasks := s.tasks.set index task', lock, log := s.log ++ new } ∧
      TaskMove index s.lock task.stage task'.stage lock ∧ task'.isTransfer = task.isTransfer ∧
      (∀ e ∈ new, e.IsProgress) ∧ (task.isTransfer = false → new = []) := by
  obtain ⟨body, stage, listed⟩ := task
  unfold taskNext at h
  split at h
  · -- the task asks for the lock
    rename_i hstage
    cases hstage
    cases h
    refine ⟨⟨body, .locked, listed⟩, s.lock ++ [.task index], [], ?_, .request, rfl,
      List.forall_mem_nil _, fun _ => rfl⟩
    rw [List.append_nil]
    rfl
  · rename_i hstage
    cases hstage
    split at h
    · rename_i sftpRequest hbody
      cases hbody
      split at h
      · cases h
        refine ⟨⟨.request sftpRequest, .finished, listed⟩, s.lock.erase (.task index), [], ?_,
          .done, rfl, List.forall_mem_nil _, fun _ => rfl⟩
        rw [List.append_nil]
        rfl
      · cases h
    · cases h
  · -- the transfer goes on
    rename_i hstage
    cases hstage
    split at h
    · rename_i transferId job hbody
      cases hbody
      split at h
      · obtain ⟨job', -, rfl⟩ := Option.map_eq_some_iff.mp h
        refine ⟨⟨.transfer transferId job', .locked, listed⟩, s.lock, newEvents job job', rfl,
          .work, rfl, ?_, fun hrequest => Bool.noConfusion hrequest⟩
        intro e he
        obtain ⟨progress, -, rfl⟩ := List.mem_map.mp he
        exact ⟨progress, rfl⟩
      · cases h
    · cases h
  · rename_i hstage
    cases hstage
    split at h
    · rename_i transferId job hbody
      cases hbody
      split at h
      · cases h
        refine ⟨⟨.transfer transferId job, .finished, false⟩, s.lock.erase (.task index), [], ?_,
          .done, rfl, List.forall_mem_nil _, fun _ => rfl⟩
        rw [List.append_nil]
        rfl
      · cases h
    · cases h
  · cases h

/-! ## Tunnels -/

/-- What a step of a tunnel leaves alone, and what becomes of the tunnel. -/
structure TunnelEffect (number : ℕ) (tunnel : Tunnel) (s s' : SessionRun) : Prop where
  busy : tunnel.stage ≠ .finished
  stage : s'.stage = s.stage
  rx : s'.rx = s.rx
  tasks : s'.tasks = s.tasks
  handles : s'.handles = s.handles
  tunnels : ∃ tunnel', s'.tunnels = s.tunnels.set number tunnel' ∧ tunnel'.stop = tunnel.stop ∧
    (tunnel.IsSound → tunnel'.IsSound)
  lock : ∀ user, ¬user.OfTunnel → s'.lock.count user = s.lock.count user
  log : ∃ new, s'.log = s.log ++ new ∧ ∀ e ∈ new, e.IsTunnelUpdate

variable {number : ℕ} {tunnel tunnel' : Tunnel}

theorem TunnelEffect.set (hbusy : tunnel.stage ≠ .finished) (hstop : tunnel'.stop = tunnel.stop)
    (hsound : tunnel.IsSound → tunnel'.IsSound) :
    TunnelEffect number tunnel s (s.setTunnel number tunnel') where
  busy := hbusy
  stage := rfl
  rx := rfl
  tasks := rfl
  handles := rfl
  tunnels := ⟨tunnel', rfl, hstop, hsound⟩
  lock _ _ := rfl
  log := ⟨[], (List.append_nil _).symm, List.forall_mem_nil _⟩

theorem TunnelEffect.update (hbusy : tunnel.stage ≠ .finished)
    (hstop : tunnel'.stop = tunnel.stop) (hsound : tunnel.IsSound → tunnel'.IsSound) :
    TunnelEffect number tunnel s (s.updateTunnel number tunnel') where
  busy := hbusy
  stage := rfl
  rx := rfl
  tasks := rfl
  handles := rfl
  tunnels := ⟨tunnel', rfl, hstop, hsound⟩
  lock _ _ := rfl
  log := by
    refine ⟨[.emit (.sshTunnelUpdate tunnel'.runtime)], rfl, fun e he => ?_⟩
    rw [List.mem_singleton.mp he]
    exact ⟨_, rfl⟩

theorem TunnelEffect.after {s₀ : SessionRun} (h : TunnelEffect number tunnel s₀ s')
    (hstage : s₀.stage = s.stage) (hrx : s₀.rx = s.rx) (htasks : s₀.tasks = s.tasks)
    (hhandles : s₀.handles = s.handles) (htunnels : s₀.tunnels = s.tunnels)
    (hlog : s₀.log = s.log)
    (hlock : ∀ user, ¬user.OfTunnel → s₀.lock.count user = s.lock.count user) :
    TunnelEffect number tunnel s s' where
  busy := h.busy
  stage := h.stage.trans hstage
  rx := h.rx.trans hrx
  tasks := h.tasks.trans htasks
  handles := h.handles.trans hhandles
  tunnels := htunnels ▸ h.tunnels
  lock user huser := (h.lock user huser).trans (hlock user huser)
  log := hlog ▸ h.log

theorem count_erase_ofTunnel {user own : LockUser} (lock : List LockUser) (hown : own.OfTunnel)
    (huser : ¬user.OfTunnel) : (lock.erase own).count user = lock.count user := by
  have hne : user ≠ own := fun h => huser (h ▸ hown)
  exact List.count_erase_of_ne hne

theorem TunnelEffect.afterRelease (own : LockUser) (hown : own.OfTunnel)
    (h : TunnelEffect number tunnel (s.release own) s') : TunnelEffect number tunnel s s' :=
  h.after rfl rfl rfl rfl rfl rfl fun _ huser => count_erase_ofTunnel s.lock hown huser

theorem TunnelEffect.thenRequest {own : LockUser} (hown : own.OfTunnel)
    (h : TunnelEffect number tunnel s s') : TunnelEffect number tunnel s (s'.request own) where
  busy := h.busy
  stage := h.stage
  rx := h.rx
  tasks := h.tasks
  handles := h.handles
  tunnels := h.tunnels
  lock user huser := by
    have hne : user ≠ own := fun h => huser (h ▸ hown)
    show (s'.lock ++ [own]).count user = s.lock.count user
    rw [List.count_append, List.count_singleton, if_neg (by simpa using hne.symm)]
    exact h.lock user huser
  log := h.log

theorem stopTunnel_effect (hbusy : tunnel.stage ≠ .finished) :
    TunnelEffect number tunnel s (s.stopTunnel number tunnel) := by
  have hupdate : TunnelEffect number tunnel (s.abortConnections number)
      (s.stopTunnel number tunnel) := .update hbusy rfl fun _ _ => .inr rfl
  refine hupdate.after rfl rfl rfl rfl rfl rfl fun user huser => ?_
  refine List.count_filter ?_
  cases user with
  | loop => rfl
  | task index => rfl
  | tunnel index => exact absurd trivial huser
  | connection other index => exact absurd trivial huser

theorem connectionNext_effect {index : ℕ} {stage : ConnectionStage} {event : TunnelEvent}
    (hbusy : tunnel.stage ≠ .finished)
    (h : s.connectionNext number tunnel index stage event = some s') :
    TunnelEffect number tunnel s s' := by
  unfold connectionNext at h
  dsimp only at h
  split at h
  · cases h
    exact .set hbusy rfl id
  · -- the connection is counted
    cases h
    exact .thenRequest trivial (.update hbusy rfl id)
  · split at h
    · split at h
      · cases h
        exact .afterRelease (.connection number index) trivial (.set hbusy rfl id)
      · cases h
        exact .afterRelease (.connection number index) trivial (.update hbusy rfl id)
    · cases h
  · split at h
    · cases h
      exact .set hbusy rfl id
    · cases h
      exact .set hbusy rfl id
  · cases h
    exact .update hbusy rfl id
  · cases h

theorem localTunnelNext_effect {event : TunnelEvent}
    (h : s.localTunnelNext number tunnel event = some s') : TunnelEffect number tunnel s s' := by
  unfold localTunnelNext at h
  split at h
  · rename_i hstage
    cases h
    exact .set (hstage ▸ nofun) rfl id
  · rename_i hstage
    cases h
    exact stopTunnel_effect (hstage ▸ nofun)
  · rename_i hstage
    split at h
    · cases h
      exact stopTunnel_effect (hstage ▸ nofun)
    · cases h
  · -- a connection
    rename_i hstage _ _ _
    obtain ⟨index, -, h⟩ := Option.bind_eq_some_iff.mp h
    obtain ⟨stage, -, h⟩ := Option.bind_eq_some_iff.mp h
    exact connectionNext_effect (hstage ▸ nofun) h
  · cases h

theorem remoteTunnelNext_effect {event : TunnelEvent}
    (hkind : tunnel.runtime.kind = .remote) (h : s.remoteTunnelNext number tunnel event = some s') : TunnelEffect number tunnel s s' := by
  have hsound : ∀ {tunnel' : Tunnel}, tunnel'.runtime.kind = tunnel.runtime.kind →
      tunnel.IsSound → tunnel'.IsSound := fun h _ hne => absurd (h.trans hkind) hne
  unfold remoteTunnelNext at h
  dsimp only at h
  split at h
  · rename_i hstage
    split at h
    · cases h
      exact .update (hstage ▸ nofun) rfl (hsound rfl)
    · cases h
  · -- the route is taken away
    rename_i hstage
    cases h
    refine .thenRequest trivial (.after (.set (hstage ▸ nofun) rfl (hsound rfl)) rfl rfl rfl rfl rfl rfl ?_)
    intro user huser
    rfl
  · rename_i hstage
    split at h
    · cases h
      exact .afterRelease (.tunnel number) trivial (.update (hstage ▸ nofun) rfl (hsound rfl))
    · cases h
  · rename_i hstage
    cases h
    exact .afterRelease (.tunnel number) trivial (.update (hstage ▸ nofun) rfl (hsound rfl))
  · cases h

/-- **A step of a tunnel.** -/
theorem tunnelNext_effect {event : TunnelEvent}
    (h : s.tunnelNext number tunnel event = some s') : TunnelEffect number tunnel s s' := by
  unfold tunnelNext at h
  split at h
  · rename_i hkind
    exact remoteTunnelNext_effect hkind h
  · exact localTunnelNext_effect h

/-! ## Forwarded channels -/

/-- **A step of a forwarded channel.** It changes the channel, and may report that it failed. -/
theorem forwardNext_effect {index : ℕ} {forward : Forward} {event : ForwardEvent}
    (h : s.forwardNext request index forward event = some s') :
    ∃ forwards new, s' = { s with forwards, log := s.log ++ new } ∧
      ∀ e ∈ new, ∃ runtime, e = .emit (.sshTunnelUpdate runtime) ∧ runtime.status = .failed := by
  have hsilent : ∀ forward', s' = s.setForward index forward' →
      ∃ forwards new, s' = { s with forwards, log := s.log ++ new } ∧
        ∀ e ∈ new, ∃ runtime, e = .emit (.sshTunnelUpdate runtime) ∧ runtime.status = .failed := by
    rintro forward' rfl
    refine ⟨s.forwards.set index forward', [], ?_, List.forall_mem_nil _⟩
    rw [List.append_nil]
    rfl
  unfold forwardNext at h
  split at h
  · exact hsilent _ (Option.some.inj h).symm
  · exact hsilent _ (Option.some.inj h).symm
  · -- the target cannot be reached
    cases h
    refine ⟨_, [.emit (.sshTunnelUpdate (forwardFailed request.sessionId forward))], rfl, ?_⟩
    intro e he
    rw [List.mem_singleton.mp he]
    exact ⟨_, rfl, rfl⟩
  · exact hsilent _ (Option.some.inj h).symm
  all_goals
    first
    | cases h
    | unfold listForward at h
      split at h
      · cases h
      · split at h
        · exact hsilent _ (Option.some.inj h).symm
        · exact hsilent _ (Option.some.inj h).symm

theorem openChannel_effect (s : SessionRun) (connectedPort : ℕ) :
    ∃ forwards, s.openChannel connectedPort = { s with forwards } := by
  unfold openChannel
  split
  · exact ⟨_, rfl⟩
  · exact ⟨s.forwards, rfl⟩

/-! ## The loop -/

/-- **The terminal output.** It is taken from the buffer and put into the log. -/
theorem flush_effect (s : SessionRun) (sessionId : Text) (endOfStream : Bool) :
    ∃ left new, s.flush sessionId endOfStream =
        { s with terminalOutput := left, log := s.log ++ new } ∧ ∀ e ∈ new, e.IsOutput := by
  unfold flush
  dsimp only
  split
  · refine ⟨(decodeTerminalOutput s.terminalOutput endOfStream).2, [], ?_, List.forall_mem_nil _⟩
    rw [List.append_nil]
  · refine ⟨_, [.emit (.terminalOutput sessionId _)], rfl, fun e he => ?_⟩
    rw [List.mem_singleton.mp he]
    exact ⟨_, _, rfl⟩

def LoopLock (s : SessionRun) : Prop :=
  s.lock.count .loop = if s.stage.wantsLock then 1 else 0

/-- What the other steps of the loop leave alone. -/
structure LoopMove (s s' : SessionRun) : Prop where
  rx : s'.rx = s.rx
  tasks : s'.tasks = s.tasks
  lock : ∀ index, s'.lock.count (.task index) = s.lock.count (.task index)
  forwarding : s'.stage.isForwarding = false
  routing : s'.stage.isRouting = true → s.stage.isForwarding = true
  gone : s.stage.isGone = true → s'.stage.isGone = true
  asks : s'.stage.wantsLock = true → s.stage = .closing
  loopLock : LoopLock s → LoopLock s'

theorem LoopMove.of_stage {old new : LoopStage} (hold : s.stage = old) (hnew : s'.stage = new)
    (hforwarding : new.isForwarding = false) (hrouting : new.isRouting = false)
    (hwants : (old.wantsLock || new.wantsLock) = false) (hgone : (!old.isGone || new.isGone) = true)
    (hrx : s'.rx = s.rx) (htasks : s'.tasks = s.tasks) (hlock : s'.lock = s.lock) :
    LoopMove s s' where
  rx := hrx
  tasks := htasks
  lock _ := by rw [hlock]
  forwarding := hnew ▸ hforwarding
  routing h := by
    rw [hnew, hrouting] at h
    cases h
  gone h := by
    rw [hold] at h
    rw [h] at hgone
    exact hnew ▸ hgone
  asks h := by
    rw [hnew, (Bool.or_eq_false_iff.mp hwants).2] at h
    cases h
  loopLock h := by
    have hwants := Bool.or_eq_false_iff.mp hwants
    unfold LoopLock at h ⊢
    rw [hlock, hnew, hwants.2, ← hwants.1, ← hold]
    exact h

theorem LoopMove.of_release {new : LoopStage} (hold : s.stage.wantsLock = true)
    (hforwarding : new.isForwarding = false)
    (hrouting : new.isRouting = true → s.stage.isForwarding = true)
    (hgone : s.stage.isGone = true → new.isGone = true)
    (hwants : new.wantsLock = false) : LoopMove s ((s.release .loop).goTo new) where
  rx := rfl
  tasks := rfl
  lock index := by
    have hne : LockUser.task index ≠ LockUser.loop := nofun
    exact List.count_erase_of_ne hne
  forwarding := hforwarding
  routing := hrouting
  gone := hgone
  asks h := by
    have h : new.wantsLock = true := h
    rw [hwants] at h
    cases h
  loopLock h := by
    unfold LoopLock at h ⊢
    show (s.lock.erase .loop).count .loop = if new.wantsLock then 1 else 0
    rw [List.count_erase_self, h, hold, hwants]
    rfl

theorem count_request_loop (lock : List LockUser) (index : ℕ) :
    (lock ++ [LockUser.loop]).count (LockUser.task index) = lock.count (LockUser.task index) := by
  rw [List.count_append]
  exact Nat.add_zero _

theorem loopLock_request {new : LoopStage} (hold : s.stage.wantsLock = false)
    (hwants : new.wantsLock = true) (h : LoopLock s) : LoopLock ((s.request .loop).goTo new) := by
  unfold LoopLock at h ⊢
  show (s.lock ++ [LockUser.loop]).count .loop = if new.wantsLock then 1 else 0
  rw [List.count_append, h, hold, hwants]
  rfl

theorem leave_move (s : SessionRun) (sessionId : Text) (hstage : s.stage = .select) :
    LoopMove s (s.leave sessionId) := by
  unfold leave
  obtain ⟨left, new, hflush, -⟩ := s.flush_effect sessionId true
  rw [hflush]
  exact .of_stage hstage rfl rfl rfl rfl rfl rfl rfl rfl

theorem connectNext_move {connect : ConnectStage} (hstage : s.stage = .connecting connect) :
    LoopMove s (s.connectNext request connect) := by
  cases connect with
  | start =>
    show LoopMove s (if sshJumpMaxDepth < request.jumpHosts then _ else _)
    split
    · exact .of_stage hstage rfl rfl rfl rfl rfl rfl rfl rfl
    · exact .of_stage hstage rfl rfl rfl rfl rfl rfl rfl rfl
  | authenticate hop => exact .of_stage hstage rfl rfl rfl rfl rfl rfl rfl rfl
  | stream hop => exact .of_stage hstage rfl rfl rfl rfl rfl rfl rfl rfl
  | handshake hop => exact .of_stage hstage rfl rfl rfl rfl rfl rfl rfl rfl
  | channelOpen => exact .of_stage hstage rfl rfl rfl rfl rfl rfl rfl rfl
  | pty => exact .of_stage hstage rfl rfl rfl rfl rfl rfl rfl rfl
  | shell => exact .of_stage hstage rfl rfl rfl rfl rfl rfl rfl rfl

/-- **A step of the loop.** It takes a command and serves it, or it leaves the commands and the
tasks alone. -/
theorem loopNext_cases {event : LoopEvent} (h : s.loopNext request event = some s') :
    (∃ command rx, s.stage = .select ∧ s.rx = command :: rx ∧
      s' = SessionRun.serve request { s with rx } command) ∨ LoopMove s s' := by
  unfold loopNext at h
  split at h
  · rename_i hstage
    cases h
    exact .inr (connectNext_move hstage)
  · cases h
  · rename_i hstage
    cases h
    exact .inr (.of_stage hstage rfl rfl rfl rfl rfl rfl rfl rfl)
  · rename_i hstage
    split at h <;> cases h
    exact .inr (.of_stage hstage rfl rfl rfl rfl rfl rfl rfl rfl)
  · -- a command
    rename_i hstage
    split at h
    · cases h
    · rename_i command rx hrx
      cases h
      exact .inl ⟨command, rx, hstage, hrx, rfl⟩
  · -- a message of the terminal
    rename_i hstage
    right
    split at h
    · split at h
      · cases h
        exact .of_stage hstage hstage rfl rfl rfl rfl rfl rfl rfl
      · cases h
        exact .of_stage hstage hstage rfl rfl rfl rfl rfl rfl rfl
      · cases h
        exact leave_move s request.sessionId hstage
    · cases h
  · rename_i hstage
    right
    split at h <;> cases h
    obtain ⟨left, new, hflush, -⟩ := s.flush_effect request.sessionId false
    rw [hflush]
    exact .of_stage hstage hstage rfl rfl rfl rfl rfl rfl rfl
  · rename_i hstage
    cases h
    exact .inr (.of_stage hstage rfl rfl rfl rfl rfl rfl rfl rfl)
  · rename_i hstage
    cases h
    exact .inr (.of_stage hstage rfl rfl rfl rfl rfl rfl rfl rfl)
  · rename_i hstage
    cases h
    exact .inr (.of_stage hstage rfl rfl rfl rfl rfl rfl rfl rfl)
  · -- `tcpip_forward` is answered
    rename_i hstage
    right
    split at h
    · split at h
      · cases h
        exact .of_release (hstage ▸ rfl) rfl nofun (hstage ▸ nofun) rfl
      · cases h
        exact .of_release (hstage ▸ rfl) rfl (fun _ => hstage ▸ rfl) (hstage ▸ nofun) rfl
    · cases h
  · rename_i hstage
    cases h
    exact .inr (.of_stage hstage rfl rfl rfl rfl rfl rfl rfl rfl)
  · rename_i hstage
    split at h <;> cases h
    exact .inr (.of_stage hstage rfl rfl rfl rfl (Bool.not_or_self _) rfl rfl rfl)
  · rename_i leaving hstage
    cases h
    right
    cases leaving with
    | true => exact .of_stage hstage rfl rfl rfl rfl rfl rfl rfl rfl
    | false => exact .of_stage hstage rfl rfl rfl rfl rfl rfl rfl rfl
  · rename_i hstage
    split at h <;> cases h
    exact .inr (.of_stage hstage rfl rfl rfl rfl (Bool.not_or_self _) rfl rfl rfl)
  · rename_i hstage
    cases h
    exact .inr (.of_stage hstage rfl rfl rfl rfl rfl rfl rfl rfl)
  · -- the disconnect asks for the lock
    rename_i hstage
    cases h
    exact .inr ⟨rfl, rfl, count_request_loop s.lock, rfl, nofun, fun _ => rfl,
      fun _ => hstage, loopLock_request (hstage ▸ rfl) rfl⟩
  · rename_i hstage
    split at h <;> cases h
    exact .inr (.of_release (hstage ▸ rfl) rfl nofun (fun _ => rfl) rfl)
  · rename_i hstage
    cases h
    exact .inr (.of_release (hstage ▸ rfl) rfl nofun (fun _ => rfl) rfl)
  · rename_i hstage
    cases h
    exact .inr (.of_stage hstage rfl rfl rfl rfl rfl rfl rfl rfl)
  · rename_i hstage
    cases h
    exact .inr (.of_stage hstage rfl rfl rfl rfl rfl rfl rfl rfl)
  · cases h

end SessionRun

end FluxTerm.Ssh
