import FluxTerm.Ssh.SessionLock

/-!
# FluxTerm — transfers do not block the session loop

A transfer holds the connection for its whole duration. While it does, a remote tunnel that is
asked for stops the loop until the transfer is over, and with it every command behind it; the
final disconnect stops it for as long as its deadline.

* **`responsive_of_asksAlone`** — the loop stays responsive in every run in which it asks for the
  connection only while no transfer is queued or runs.
-/

namespace FluxTerm.Ssh

open FluxTerm.Engine FluxTerm.Lib FluxTerm.Sftp

def SessionCommand.isUrgent : SessionCommand → Bool
  | sftpCancelTransfer _ | disconnect => true
  | _ => false

def LoopStage.isInLoop : LoopStage → Bool
  | connecting _ => false
  | stage => !stage.isGone

def SessionEvent.isTask : SessionEvent → Bool
  | task _ _ => true
  | _ => false

/-- Transfers do not block the loop. -/
structure Responsive (request : SessionLoopRequest) (s : SessionRun) : Prop where
  waits : .loop ∈ s.lock → ¬s.TransferHolds
  serves : s.stage.isInLoop = true → ¬s.TransfersDone → ∀ pre command post,
    s.rx = pre ++ command :: post → command.isUrgent = true → .disconnect ∉ pre →
    ∃ labels u, (sessionLoop request).Run s labels u ∧ (∀ l ∈ labels, l.isTask = false) ∧
      u.stage = .select ∧ u.rx = command :: post

variable {request : SessionLoopRequest} {s t u : SessionRun}

/-! ## Runs without a task -/

/-- A run from `s` to `u` in which no task takes a step. -/
def Drains (request : SessionLoopRequest) (s u : SessionRun) : Prop :=
  ∃ labels, (sessionLoop request).Run s labels u ∧ ∀ l ∈ labels, l.isTask = false

theorem Drains.refl (s : SessionRun) : Drains request s s := ⟨[], .nil, List.forall_mem_nil _⟩

theorem Drains.trans (h : Drains request s t) (h' : Drains request t u) : Drains request s u := by
  obtain ⟨labels, hrun, hlabels⟩ := h
  obtain ⟨labels', hrun', hlabels'⟩ := h'
  refine ⟨labels ++ labels', hrun.append hrun', fun l hl => ?_⟩
  rcases List.mem_append.mp hl with hl | hl
  · exact hlabels l hl
  · exact hlabels' l hl

theorem Drains.step (event : SessionEvent) (hstep : s.next request event = some u)
    (hevent : event.isTask = false) : Drains request s u := by
  refine ⟨[event], .cons hstep .nil, fun l hl => ?_⟩
  rw [List.mem_singleton.mp hl]
  exact hevent

theorem Drains.loop (event : LoopEvent) (hstep : s.loopNext request event = some u) :
    Drains request s u := .step (.loop event) hstep rfl

/-! ## A tunnel ends -/

theorem Drains.tunnel {number : ℕ} {tunnel : Tunnel} {event : TunnelEvent}
    (hget : s.tunnels[number]? = some tunnel)
    (hstep : s.tunnelNext number tunnel event = some u) : Drains request s u := by
  refine .step (.tunnel number event) ?_ rfl
  show (s.tunnels[number]?).bind _ = some u
  rw [hget]
  exact hstep

/-- What a run that ends a tunnel leaves alone. -/
structure Ends (request : SessionLoopRequest) (number : ℕ) (s u : SessionRun) : Prop where
  run : Drains request s u
  stage : u.stage = s.stage
  rx : u.rx = s.rx
  finished : (u.tunnels[number]?).any (·.stage = .finished) = true

theorem Ends.after {number : ℕ} {tunnel : Tunnel} {event : TunnelEvent}
    (hget : s.tunnels[number]? = some tunnel)
    (hstep : s.tunnelNext number tunnel event = some t) (h : Ends request number t u) :
    Ends request number s u := by
  have heffect := SessionRun.tunnelNext_effect hstep
  exact ⟨.trans (.tunnel hget hstep) h.run, h.stage.trans heffect.stage, h.rx.trans heffect.rx,
    h.finished⟩

theorem Ends.last {number : ℕ} {tunnel tunnel' : Tunnel} {event : TunnelEvent}
    (hget : s.tunnels[number]? = some tunnel)
    (hstep : s.tunnelNext number tunnel event = some u)
    (htunnels : u.tunnels = s.tunnels.set number tunnel') (hfinished : tunnel'.stage = .finished) :
    Ends request number s u := by
  have heffect := SessionRun.tunnelNext_effect hstep
  have hnumber : number < s.tunnels.length := (List.getElem?_eq_some_iff.mp hget).1
  refine ⟨.tunnel hget hstep, heffect.stage, heffect.rx, ?_⟩
  rw [htunnels, List.getElem?_set_self hnumber]
  exact decide_eq_true hfinished

theorem ends_of_cancelling {number : ℕ} {tunnel : Tunnel}
    (hget : s.tunnels[number]? = some tunnel) (hkind : tunnel.runtime.kind = .remote)
    (hstage : tunnel.stage = .cancelling) : ∃ u, Ends request number s u := by
  let stopped : Tunnel :=
    { tunnel with runtime := { tunnel.runtime with status := .stopped }, stage := .finished }
  have hstep : s.tunnelNext number tunnel .deadline =
      some ((s.release (.tunnel number)).updateTunnel number stopped) := by
    unfold SessionRun.tunnelNext SessionRun.remoteTunnelNext
    rw [if_pos hkind, hstage]
  exact ⟨_, .last hget hstep rfl rfl⟩

theorem ends_of_stopping {number : ℕ} {tunnel : Tunnel}
    (hget : s.tunnels[number]? = some tunnel) (hkind : tunnel.runtime.kind = .remote)
    (hstage : tunnel.stage = .stopping) : ∃ u, Ends request number s u := by
  have hnumber : number < s.tunnels.length := (List.getElem?_eq_some_iff.mp hget).1
  let cancelling : Tunnel := { tunnel with stage := .cancelling, registered := false }
  let routes := Function.update s.routes tunnel.runtime.bindPort none
  let t := ((({ s with routes }).abortForwards number).setTunnel number cancelling).request
    (.tunnel number)
  have hstep : s.tunnelNext number tunnel .unroute = some t := by
    unfold SessionRun.tunnelNext SessionRun.remoteTunnelNext
    rw [if_pos hkind, hstage]
  have hget' : t.tunnels[number]? = some cancelling := List.getElem?_set_self hnumber
  obtain ⟨u, hends⟩ : ∃ u, Ends request number t u := ends_of_cancelling hget' hkind rfl
  exact ⟨u, hends.after hget hstep⟩

/-- **A tunnel that has its stop signal ends**, and no task has to take a step for it. -/
theorem ends_of_signalled {number : ℕ} {tunnel : Tunnel} (hget : s.tunnels[number]? = some tunnel)
    (hstop : tunnel.stop = true) (hsound : tunnel.IsSound) : ∃ u, Ends request number s u := by
  have hnumber : number < s.tunnels.length := (List.getElem?_eq_some_iff.mp hget).1
  by_cases hfinished : tunnel.stage = .finished
  · refine ⟨s, .refl s, rfl, rfl, ?_⟩
    rw [hget]
    exact decide_eq_true hfinished
  by_cases hkind : tunnel.runtime.kind = .remote
  · cases hstage : tunnel.stage with
    | opened =>
      let stopping : Tunnel :=
        { tunnel with runtime := { tunnel.runtime with status := .stopping }, stage := .stopping }
      have hstep : s.tunnelNext number tunnel .stop = some (s.updateTunnel number stopping) := by
        unfold SessionRun.tunnelNext SessionRun.remoteTunnelNext
        rw [if_pos hkind, hstage]
        exact if_pos hstop
      have hget' : (s.updateTunnel number stopping).tunnels[number]? = some stopping :=
        List.getElem?_set_self hnumber
      obtain ⟨u, hends⟩ : ∃ u, Ends request number (s.updateTunnel number stopping) u :=
        ends_of_stopping hget' hkind rfl
      exact ⟨u, hends.after hget hstep⟩
    | stopping => exact ends_of_stopping hget hkind hstage
    | cancelling => exact ends_of_cancelling hget hkind hstage
    | finished => exact absurd hstage hfinished
  · -- a local or dynamic tunnel ends in one step
    have hstage : tunnel.stage = .opened := (hsound hkind).resolve_right hfinished
    have hstep : s.tunnelNext number tunnel .stop = some (s.stopTunnel number tunnel) := by
      unfold SessionRun.tunnelNext SessionRun.localTunnelNext
      rw [if_neg hkind, hstage]
      exact if_pos hstop
    exact ⟨_, .last hget hstep rfl rfl⟩

/-! ## The loop comes back -/

theorem Accounted.drains (h : Accounted s) (hdrains : Drains request s u) : Accounted u := by
  obtain ⟨labels, hrun, -⟩ := hdrains
  induction hrun with
  | nil => exact h
  | snoc _ hstep ih => exact ih.next hstep

/-- The loop is at its `select!` with the same commands. -/
def Settles (request : SessionLoopRequest) (s : SessionRun) : Prop :=
  ∃ u, Drains request s u ∧ u.stage = .select ∧ u.rx = s.rx

theorem Settles.after (hdrains : Drains request s t) (hrx : t.rx = s.rx)
    (h : Settles request t) : Settles request s := by
  obtain ⟨u, hrest, hstage, hurx⟩ := h
  exact ⟨u, hdrains.trans hrest, hstage, hurx.trans hrx⟩

theorem settles_of_current {index : ℕ} {others : List ℕ} (haccounted : Accounted s)
    (hstage : s.stage = .joining (some index) others false)
    (hrest : ∀ t : SessionRun, Accounted t → t.stage = .joining none others false →
      Settles request t) : Settles request s := by
  have hsignalled := haccounted.signalled index (hstage ▸ rfl)
  obtain ⟨tunnel, hget, hstop⟩ : ∃ tunnel, s.tunnels[index]? = some tunnel ∧ tunnel.stop = true := by
    simpa [Option.any_eq_true] using hsignalled
  obtain ⟨u, hends⟩ : ∃ u, Ends request index s u :=
    ends_of_signalled hget hstop (haccounted.sound index tunnel hget)
  have hjoined : u.loopNext request .joined = some (u.goTo (.joining none others false)) := by
    unfold SessionRun.loopNext
    rw [hends.stage, hstage]
    exact if_pos hends.finished
  have hdrains : Drains request s (u.goTo (.joining none others false)) :=
    hends.run.trans (.loop _ hjoined)
  exact .after hdrains hends.rx (hrest _ (haccounted.drains hdrains) rfl)

theorem settles_of_joining : ∀ (count : ℕ) (others : List ℕ), others.length = count →
    ∀ s : SessionRun, Accounted s → s.stage = .joining none others false → Settles request s
  | 0, others, hlength, s, _, hstage => by
    rw [List.length_eq_zero_iff] at hlength
    subst hlength
    refine ⟨s.goTo .select, .loop .go ?_, rfl, rfl⟩
    unfold SessionRun.loopNext
    rw [hstage]
    rfl
  | count + 1, others, hlength, s, haccounted, hstage => by
    obtain ⟨index, hmem⟩ := List.exists_mem_of_length_pos (by omega : 0 < others.length)
    -- the next tunnel is picked
    have hpick : s.loopNext request (.pick index) =
        some ((s.signal index).goTo (.joining (some index) (others.erase index) false)) := by
      unfold SessionRun.loopNext
      rw [hstage]
      exact if_pos hmem
    have hdrains : Drains request s _ := .loop _ hpick
    refine .after hdrains rfl (settles_of_current (haccounted.drains hdrains) rfl ?_)
    refine settles_of_joining count (others.erase index) ?_
    rw [List.length_erase_of_mem hmem, hlength]
    rfl

def LoopStage.isCalm : LoopStage → Bool
  | select | channelIo | binding _ => true
  | joining _ _ leaving => !leaving
  | _ => false

/-- **The loop comes back to its `select!`.** -/
theorem settles (haccounted : Accounted s) (hcalm : s.stage.isCalm = true) :
    Settles request s := by
  cases hstage : s.stage with
  | select => exact ⟨s, .refl s, hstage, rfl⟩
  | channelIo =>
    refine ⟨s.goTo .select, .loop .channelDone ?_, rfl, rfl⟩
    unfold SessionRun.loopNext
    rw [hstage]
  | binding spec =>
    refine ⟨s.goTo .select, .loop (.bound (.error "")) ?_, rfl, rfl⟩
    unfold SessionRun.loopNext
    rw [hstage]
  | joining current others leaving =>
    rw [hstage] at hcalm
    cases leaving with
    | true => cases hcalm
    | false =>
      cases current with
      | none => exact settles_of_joining others.length others rfl s haccounted hstage
      | some index =>
        exact settles_of_current haccounted hstage (settles_of_joining _ others rfl)
  | _ =>
    rw [hstage] at hcalm
    cases hcalm

/-! ## The commands before -/

theorem serve_calm (request : SessionLoopRequest) {command : SessionCommand} (hstage : s.stage = .select)
    (hopen : command.isRemoteOpen = false) (hne : command ≠ .disconnect) :
    (SessionRun.serve request s command).stage.isCalm = true ∧
      (SessionRun.serve request s command).rx = s.rx := by
  have hselect : s.stage.isCalm = true := hstage ▸ rfl
  cases command with
  | write data => exact ⟨rfl, rfl⟩
  | resize cols rows => exact ⟨rfl, rfl⟩
  | sftp sftpRequest => exact ⟨hselect, rfl⟩
  | transfer transferRequest => exact ⟨hselect, rfl⟩
  | sftpCancelTransfer transferId => exact ⟨hselect, rfl⟩
  | tunnelOpen spec =>
    unfold SessionRun.serve
    dsimp only
    split
    · exact ⟨rfl, rfl⟩
    · exact ⟨rfl, rfl⟩
    · rename_i hkind
      rw [SessionCommand.isRemoteOpen, hkind] at hopen
      cases hopen
  | tunnelClose tunnelId =>
    unfold SessionRun.serve
    dsimp only
    split
    · exact ⟨rfl, rfl⟩
    · exact ⟨hselect, rfl⟩
  | tunnelList => exact ⟨hselect, rfl⟩
  | tunnelCloseAll => exact ⟨rfl, rfl⟩
  | disconnect => exact absurd rfl hne

/-- **The queue drains.** The loop serves the commands before a given one, without a step of a
task. -/
theorem drains : ∀ (pre : List SessionCommand) (rest : List SessionCommand) (s : SessionRun),
    Accounted s → s.stage.isCalm = true → s.rx = pre ++ rest → .disconnect ∉ pre →
    (∀ c ∈ pre, c.isRemoteOpen = false) →
    ∃ u, Drains request s u ∧ u.stage = .select ∧ u.rx = rest
  | [], rest, s, haccounted, hcalm, hrx, _, _ => by
    obtain ⟨u, hdrains, hstage, hurx⟩ : Settles request s := settles haccounted hcalm
    exact ⟨u, hdrains, hstage, hurx.trans hrx⟩
  | command :: pre, rest, s, haccounted, hcalm, hrx, hdisconnect, hopens => by
    obtain ⟨u, hdrains, hstage, hurx⟩ : Settles request s := settles haccounted hcalm
    have hne : command ≠ .disconnect := by
      rintro rfl
      exact hdisconnect (List.mem_cons_self ..)
    have hrecv : u.loopNext request .recv =
        some (SessionRun.serve request { u with rx := pre ++ rest } command) := by
      unfold SessionRun.loopNext
      rw [hstage, hurx, hrx]
      rfl
    have hserved := hdrains.trans (.loop _ hrecv)
    have hselect : SessionRun.stage { u with rx := pre ++ rest } = .select := hstage
    obtain ⟨hcalm', hrx'⟩ := serve_calm request hselect (hopens command (List.mem_cons_self ..)) hne
    obtain ⟨v, hrest, hv⟩ := drains pre rest _ (haccounted.drains hserved) hcalm' hrx'
      (fun h => hdisconnect (List.mem_cons_of_mem _ h))
      (fun c hc => hopens c (List.mem_cons_of_mem _ hc))
    exact ⟨v, hserved.trans hrest, hv⟩

/-! ## The loop stays responsive -/

theorem Alone.calm (h : Alone s) (hstage : s.stage.isInLoop = true) (hdone : ¬s.TransfersDone) :
    s.stage.isCalm = true := by
  have hasked : ¬(s.stage.wantsLock = true ∨ s.stage.isRouting = true) :=
    fun hasked => hdone (h.asked hasked)
  cases hs : s.stage with
  | select => rfl
  | channelIo => rfl
  | binding spec => rfl
  | joining current others leaving =>
    rw [hs] at hstage
    exact hstage
  | forwarding spec => exact absurd (.inl (hs ▸ rfl)) hasked
  | routing spec assignedPort => exact absurd (.inr (hs ▸ rfl)) hasked
  | _ =>
    rw [hs] at hstage
    cases hstage

theorem Alone.opens_of_pre {pre post : List SessionCommand} (h : Alone s)
    (hstage : s.stage.isInLoop = true) (hdone : ¬s.TransfersDone) (hrx : s.rx = pre ++ post)
    (hdisconnect : .disconnect ∉ pre) : ∀ c ∈ pre, c.isRemoteOpen = false := by
  intro c hc
  by_contra hopen
  refine hdone (h.opens c ?_ (by simpa using hopen))
  -- the loop comes to everything before the first disconnect
  have hgone : s.stage.isGone = false := by
    cases hs : s.stage with
    | connecting connect => rfl
    | _ =>
      rw [hs] at hstage
      simpa [LoopStage.isInLoop] using hstage
  have hpre : ∀ c ∈ pre, decide (c ≠ .disconnect) = true := by
    intro c hc
    refine decide_eq_true ?_
    rintro rfl
    exact hdisconnect hc
  unfold SessionRun.live
  rw [hgone, hrx, List.takeWhile_append_of_pos hpre]
  exact List.mem_append_left _ hc

theorem Alone.waits (h : Alone s) (hloop : .loop ∈ s.lock) : ¬s.TransferHolds := by
  have hwants : s.stage.wantsLock = true := by
    by_contra hwants
    have hcount := h.loopLock
    unfold SessionRun.LoopLock at hcount
    rw [if_neg hwants] at hcount
    exact absurd hloop (List.count_eq_zero.mp hcount)
  rintro ⟨index, task, hhead, hget, htransfer⟩
  -- a transfer that is over is not in the queue
  have hfinished := h.asked (.inl hwants) task (List.mem_of_getElem? hget) htransfer
  have hcount := h.taskLock index
  rw [hget] at hcount
  simp only [Option.any_some, hfinished, reduceCtorEq, decide_false, Bool.false_eq_true,
    if_false] at hcount
  exact absurd (List.mem_of_mem_head? hhead) (List.count_eq_zero.mp hcount)

/-- **Transfers do not block the loop**, in every run in which it asks for the connection only while
no transfer is queued or runs. -/
theorem responsive_of_asksAlone (request : SessionLoopRequest) (s : SessionRun)
    (h : ((sessionLoop request).restrict AsksAlone).Reachable s) : Responsive request s := by
  have halone := alone_of_reachable h
  have haccounted := accounted_of_reachable h.of_restrict
  refine ⟨halone.waits, ?_⟩
  intro hstage hdone pre command post hrx _ hdisconnect
  have hcalm := halone.calm hstage hdone
  have hopens := halone.opens_of_pre hstage hdone hrx hdisconnect
  obtain ⟨u, ⟨labels, hrun, hlabels⟩, hu⟩ : ∃ u, Drains request s u ∧ _ :=
    drains pre (command :: post) s haccounted hcalm hrx hdisconnect hopens
  exact ⟨labels, u, hrun, hlabels, hu⟩

/-- A download that runs is cancelled: the loop can take the command. -/
theorem sampleDownload_responsive :
    ∃ s, Responsive sampleSession s ∧ ¬s.TransfersDone ∧
      s.rx = [.sftpCancelTransfer (nextTransferId 0)] := by
  have hrun : ∃ s, Machine.exec (fun s event =>
        if AsksAlone s event then s.next sampleSession event else none) .start (sampleConnect ++
      sampleDownload ++ [.send (.sftpCancelTransfer (nextTransferId 0))]) = some s ∧
      ¬s.TransfersDone ∧ s.rx = [.sftpCancelTransfer (nextTransferId 0)] := by
    refine ⟨_, rfl, ?_, rfl⟩
    intro hdone
    have hfinished := hdone _ (List.mem_singleton_self _) rfl
    cases hfinished
  obtain ⟨s, hexec, hrest⟩ := hrun
  have hreach := Machine.reachable_restrict (Machine.reachable_exec hexec)
  exact ⟨s, responsive_of_asksAlone sampleSession s hreach, hrest⟩

/-- A remote tunnel is asked for while it runs: the loop waits for the download. -/
theorem remoteTunnel_blocks :
    ¬∀ s, (sessionLoop sampleSession).Reachable s → Responsive sampleSession s := by
  intro h
  have hreach : ∃ s, Machine.exec (SessionRun.next sampleSession) .start (sampleConnect ++
      sampleDownload ++ [.send (.tunnelOpen ⟨.remote, none, [], 0, none, none⟩),
        .loop .recv]) = some s ∧ .loop ∈ s.lock ∧ s.TransferHolds :=
    ⟨_, rfl, List.mem_cons_of_mem _ (List.mem_singleton_self _), ⟨0, _, rfl, rfl, rfl⟩⟩
  obtain ⟨s, hexec, hloop, hholds⟩ := hreach
  exact (h s (Machine.reachable_exec hexec)).waits hloop hholds

end FluxTerm.Ssh
