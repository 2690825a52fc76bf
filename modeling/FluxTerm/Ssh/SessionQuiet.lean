import FluxTerm.Ssh.SessionLock
import FluxTerm.Ssh.SessionLog

/-!
# FluxTerm — a finished session is quiet

When the loop reports `Disconnected`, its tunnels have ended and its output is flushed. Transfers
are on their own: nothing stops them, and nothing waits for them.

* **`quiet_of_endsAlone`** — under this condition a session finishes quietly.
-/

namespace FluxTerm.Ssh

open FluxTerm.Engine FluxTerm.Lib FluxTerm.Sftp

/-! ## Silence -/

def LogEntry.isLoud : LogEntry → Bool
  | emit (.sftpProgress _) | emit (.terminalOutput _ _) => true
  | emit (.sshTunnelUpdate runtime) => runtime.status = .running
  | _ => false

/-- Nothing loud comes after `Disconnected`. -/
def FinishesQuietly (s : SessionRun) : Prop :=
  s.log.Pairwise fun e later => e.status = some .disconnected → later.isLoud = false

def LoopStage.isLastStatus : LoopStage → Bool
  | lastStatus => true
  | _ => false

/-- The loop reports `Disconnected` only when no transfer is left. -/
def EndsAlone (s : SessionRun) : SessionEvent → Prop
  | .loop _ => s.stage.isLastStatus = true → s.TransfersDone
  | _ => True

instance (s : SessionRun) : ∀ event, Decidable (EndsAlone s event)
  | .loop _ => inferInstanceAs (Decidable (_ → s.TransfersDone))
  | .send _ | .task _ _ | .tunnel _ _ | .channel _ | .forward _ _ => .isTrue trivial

variable {request : SessionLoopRequest} {s s' : SessionRun}

/-! ## The statuses -/

theorem LoopNews.statuses {sessionId : Text} {old new : LoopStage} {news : List LogEntry}
    (h : LoopNews sessionId old new news) :
    old.statuses ++ news.filterMap LogEntry.status = new.statuses := by
  cases h with
  | plain hnews hstatuses _ =>
    have hnone : news.filterMap LogEntry.status = [] :=
      List.filterMap_eq_nil_iff.mpr fun e he => (hnews e he).1
    rw [hnone, List.append_nil, hstatuses]
  | authenticate hop => rfl
  | connected => rfl
  | disconnected => rfl

/-- **The statuses of a session** are those of the place where the loop is. -/
theorem statuses_of_reachable (h : (sessionLoop request).Reachable s) :
    s.log.filterMap LogEntry.status = s.stage.statuses := by
  refine Machine.Reachable.induct (I := fun s => s.log.filterMap LogEntry.status = s.stage.statuses)
    ?_ ?_ h
  · rintro _ rfl
    rfl
  · intro s event s' _ hstatuses hstep
    have hstep : s.next request event = some s' := hstep
    obtain ⟨news, hlog, hnews⟩ := SessionRun.next_news hstep
    rw [hlog, List.filterMap_append, hstatuses]
    exact hnews.statuses

/-! ## The tunnels have ended -/

theorem Accounted.finished (h : Accounted s) (hstage : s.stage = .returned (.ok ())) :
    ∀ (i : ℕ) (tunnel : Tunnel), s.tunnels[i]? = some tunnel → tunnel.stage = .finished := by
  intro i tunnel hget
  by_contra hbusy
  have hleft := h.left (hstage ▸ rfl)
  have hknown := h.known i tunnel hget hbusy
  rw [hleft, hstage] at hknown
  rcases hknown with hhandle | hother | hcurrent
  · cases hhandle
  · cases hother
  · cases hcurrent

/-! ## What a finished session still does -/

theorem SessionRun.loopNext_returned {event : LoopEvent} {result : Except EngineError Unit}
    (hstage : s.stage = .returned result) : s.loopNext request event = none := by
  unfold loopNext
  rw [hstage]

theorem quiet_step {event : SessionEvent} (haccounted : Accounted s)
    (hstage : s.stage = .returned (.ok ())) (hdone : s.TransfersDone)
    (hstep : s.next request event = some s') :
    s'.TransfersDone ∧ ∃ news, s'.log = s.log ++ news ∧ ∀ e ∈ news, e.isLoud = false := by
  have hsilent : s'.log = s.log →
      ∃ news, s'.log = s.log ++ news ∧ ∀ e ∈ news, e.isLoud = false := by
    intro hlog
    refine ⟨[], ?_, List.forall_mem_nil _⟩
    rw [hlog, List.append_nil]
  cases event with
  | send command =>
    cases hstep
    exact ⟨hdone, hsilent rfl⟩
  | loop event =>
    have hstep : s.loopNext request event = some s' := hstep
    rw [SessionRun.loopNext_returned hstage] at hstep
    cases hstep
  | task index event =>
    obtain ⟨task, hget, hnext⟩ := Option.bind_eq_some_iff.mp hstep
    refine ⟨hdone.task hget hnext, ?_⟩
    obtain ⟨task', lock, new, rfl, hmove, -, -, hrequest⟩ := SessionRun.taskNext_effect hnext
    refine ⟨new, rfl, ?_⟩
    cases htransfer : task.isTransfer with
    | false =>
      rw [hrequest htransfer]
      exact List.forall_mem_nil _
    | true =>
      -- a transfer that is over takes no step
      rw [hdone task (List.mem_of_getElem? hget) htransfer] at hmove
      cases hmove
  | tunnel number event =>
    obtain ⟨tunnel, hget, hnext⟩ := Option.bind_eq_some_iff.mp hstep
    have heffect := SessionRun.tunnelNext_effect hnext
    exact absurd (haccounted.finished hstage number tunnel hget) heffect.busy
  | channel connectedPort =>
    obtain ⟨forwards, hopen⟩ := s.openChannel_effect connectedPort
    rw [← Option.some.inj hstep, hopen]
    exact ⟨hdone, [], (List.append_nil _).symm, List.forall_mem_nil _⟩
  | forward index event =>
    obtain ⟨forward, -, hnext⟩ := Option.bind_eq_some_iff.mp hstep
    obtain ⟨forwards, new, rfl, hnew⟩ := SessionRun.forwardNext_effect hnext
    refine ⟨hdone, new, rfl, fun e he => ?_⟩
    obtain ⟨runtime, rfl, hstatus⟩ := hnew e he
    show decide (runtime.status = .running) = false
    rw [hstatus]
    rfl

/-! ## Every run -/

theorem LoopStage.returned_of_mem {stage : LoopStage}
    (h : SessionState.disconnected ∈ stage.statuses) : stage = .returned (.ok ()) := by
  cases stage with
  | returned result =>
    cases result with
    | ok => rfl
    | error err => cases h
  | connecting connect => cases h
  | _ =>
    have h := List.mem_singleton.mp h
    cases h

theorem SessionRun.done_of_returns {event : SessionEvent} (hguard : EndsAlone s event)
    (hbefore : s.stage ≠ .returned (.ok ())) (hafter : s'.stage = .returned (.ok ()))
    (hstep : s.next request event = some s') : s'.TransfersDone := by
  obtain ⟨news, -, hnews⟩ := SessionRun.next_news hstep
  rw [hafter] at hnews
  generalize hstage : s.stage = stage at hnews
  cases hnews with
  | plain _ hstatuses _ =>
    refine absurd (LoopStage.returned_of_mem ?_) (hstage ▸ hbefore)
    rw [← hstatuses]
    exact List.mem_cons_of_mem _ (List.mem_singleton_self _)
  | disconnected =>
    rcases SessionRun.next_stage hstep with ⟨loopEvent, rfl, hloop⟩ | hsame
    · have hdone : s.TransfersDone := hguard (hstage ▸ rfl)
      rcases SessionRun.loopNext_cases hloop with ⟨command, rx, hselect, -⟩ | hmove
      · rw [hstage] at hselect
        cases hselect
      · exact hdone.same hmove.tasks
    · exact absurd (hsame.symm.trans hafter) hbefore

/-- A session that has returned has no transfer left, and is quiet. -/
structure Quiet (s : SessionRun) : Prop where
  log : FinishesQuietly s
  done : s.stage = .returned (.ok ()) → s.TransfersDone

theorem LoopNews.pairwise {sessionId : Text} {old new : LoopStage} {news : List LogEntry}
    (h : LoopNews sessionId old new news) :
    news.Pairwise fun e later => e.status = some .disconnected → later.isLoud = false := by
  cases h with
  | plain hnews _ _ =>
    have hall : news.Pairwise fun _ _ => True := List.pairwise_of_forall fun _ _ => trivial
    refine hall.imp_of_mem ?_
    intro e later he _ _ hstatus
    rw [(hnews e he).1] at hstatus
    cases hstatus
  | authenticate hop => exact List.pairwise_singleton _ _
  | connected => exact List.pairwise_singleton _ _
  | disconnected => exact List.pairwise_singleton _ _

theorem Quiet.next {event : SessionEvent} (h : Quiet s)
    (hreach : (sessionLoop request).Reachable s) (hguard : EndsAlone s event)
    (hstep : s.next request event = some s') : Quiet s' := by
  have haccounted := accounted_of_reachable hreach
  obtain ⟨news, hlog, hnews⟩ := SessionRun.next_news hstep
  by_cases hreturned : s.stage = .returned (.ok ())
  · obtain ⟨hdone, news', hlog', hquiet⟩ := quiet_step haccounted hreturned (h.done hreturned) hstep
    have heq : news' = news := List.append_cancel_left (hlog'.symm.trans hlog)
    subst heq
    refine ⟨?_, fun _ => hdone⟩
    unfold FinishesQuietly
    rw [hlog, List.pairwise_append]
    exact ⟨h.log, hnews.pairwise, fun _ _ later hlater _ => hquiet later hlater⟩
  · refine ⟨?_, ?_⟩
    · -- nothing is behind the last status
      unfold FinishesQuietly
      rw [hlog, List.pairwise_append]
      refine ⟨h.log, hnews.pairwise, fun e he _ _ hstatus => ?_⟩
      have hmem : SessionState.disconnected ∈ s.log.filterMap LogEntry.status :=
        List.mem_filterMap.mpr ⟨e, he, hstatus⟩
      rw [statuses_of_reachable hreach] at hmem
      exact absurd (LoopStage.returned_of_mem hmem) hreturned
    · intro hreturned'
      exact SessionRun.done_of_returns hguard hreturned hreturned' hstep

/-- **A finished session is quiet**, in every run in which the loop reports `Disconnected` only when
no transfer is left. -/
theorem quiet_of_endsAlone (request : SessionLoopRequest) (s : SessionRun)
    (h : ((sessionLoop request).restrict EndsAlone).Reachable s) : FinishesQuietly s := by
  refine (Machine.Reachable.induct (I := Quiet) ?_ ?_ h).log
  · rintro _ rfl
    exact ⟨.nil, nofun⟩
  · intro s event s' hreach hquiet hstep
    exact hquiet.next hreach.of_restrict hstep.1 hstep.2

def sampleEnd : List SessionEvent :=
  [.loop (.message .ended), .loop .go, .loop .channelDone, .loop .channelDone, .loop .deadline,
    .loop .go]

/-- A session without a transfer. -/
theorem sampleEnd_quiet : ∃ s, FinishesQuietly s ∧
    s.log.filterMap LogEntry.status = [.connected, .disconnected] := by
  have hrun : ∃ s, Machine.exec (fun s event =>
        if EndsAlone s event then s.next sampleSession event else none) .start (sampleConnect ++
      sampleEnd ++ [.loop .go]) = some s ∧
      s.log.filterMap LogEntry.status = [.connected, .disconnected] := ⟨_, rfl, rfl⟩
  obtain ⟨s, hexec, hstatuses⟩ := hrun
  have hreach := Machine.reachable_restrict (Machine.reachable_exec hexec)
  exact ⟨s, quiet_of_endsAlone sampleSession s hreach, hstatuses⟩

/-- A download that runs goes on after `Disconnected`. -/
theorem sampleDownload_loud :
    ¬∀ s, (sessionLoop sampleSession).Reachable s → FinishesQuietly s := by
  intro h
  have hrun : ∃ s progress, Machine.exec (SessionRun.next sampleSession) .start (sampleConnect ++
      sampleDownload ++ sampleEnd ++ [.loop .go,
        .task 0 (.transfer (.download (.sftpOpened (.ok none)))),
        .task 0 (.transfer (.download (.remoteStat none))),
        .task 0 (.transfer (.download (.candidate false)))]) = some s ∧
      s.log = [.authenticate 0, .emit (.sessionStatus "s".toList .connected none),
        .emit (.terminalExit "s".toList)] ++ [.emit (.sessionStatus "s".toList .disconnected none),
        .emit (.sftpProgress progress)] := ⟨_, _, rfl, rfl⟩
  obtain ⟨s, progress, hexec, hlog⟩ := hrun
  have hquiet : FinishesQuietly s := h s (Machine.reachable_exec hexec)
  unfold FinishesQuietly at hquiet
  rw [hlog, List.pairwise_append] at hquiet
  have hfalse := (List.pairwise_cons.mp hquiet.2.1).1 _ (List.mem_singleton_self _) rfl
  cases hfalse

end FluxTerm.Ssh
