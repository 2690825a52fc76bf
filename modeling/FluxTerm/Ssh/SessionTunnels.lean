import FluxTerm.Ssh.SessionSteps

/-!
# FluxTerm — the tunnels of a session

Every tunnel that has not ended is known to the loop: its handle is listed, or the loop is closing
it. This is what lets `close_all_tunnels` end them all.
-/

namespace FluxTerm.Ssh

open FluxTerm.Engine FluxTerm.Lib FluxTerm.Sftp

def LoopStage.others : LoopStage → List ℕ
  | joining _ others _ => others
  | _ => []

def LoopStage.current : LoopStage → Option ℕ
  | joining current _ _ => current
  | _ => none

def LoopStage.isLeft : LoopStage → Bool
  | joining _ _ leaving => leaving
  | eof | closing | disconnecting | exiting | lastStatus | returned (.ok ()) => true
  | _ => false

/-- The loop knows every tunnel that has not ended. -/
structure Accounted (s : SessionRun) : Prop where
  valid : ∀ i ∈ s.handles ++ s.stage.others, i < s.tunnels.length
  signalled : ∀ i, s.stage.current = some i → (s.tunnels[i]?).any (·.stop) = true
  known : ∀ i tunnel, s.tunnels[i]? = some tunnel → tunnel.stage ≠ .finished →
    i ∈ s.handles ∨ i ∈ s.stage.others ∨ s.stage.current = some i
  left : s.stage.isLeft = true → s.handles = []
  sound : ∀ (i : ℕ) (tunnel : Tunnel), s.tunnels[i]? = some tunnel → tunnel.IsSound

variable {request : SessionLoopRequest} {s s' : SessionRun}

theorem Accounted.start : Accounted .start where
  valid _ hi := by cases hi
  signalled _ hi := by cases hi
  known _ _ hi := by cases hi
  left h := by cases h
  sound _ _ hi := by cases hi

theorem Accounted.same (h : Accounted s) (htunnels : s'.tunnels = s.tunnels)
    (hhandles : s'.handles = s.handles) (hothers : s'.stage.others = s.stage.others)
    (hcurrent : s'.stage.current = s.stage.current)
    (hleft : s'.stage.isLeft = true → s.stage.isLeft = true) : Accounted s' where
  valid := by
    rw [hhandles, hothers, htunnels]
    exact h.valid
  signalled := by
    rw [hcurrent, htunnels]
    exact h.signalled
  known := by
    rw [htunnels, hhandles, hothers, hcurrent]
    exact h.known
  left hs' := hhandles.trans (h.left (hleft hs'))
  sound := by
    rw [htunnels]
    exact h.sound

theorem Accounted.move {stage stage' : LoopStage} (h : Accounted s) (hstage : s.stage = stage)
    (hstage' : s'.stage = stage') (htunnels : s'.tunnels = s.tunnels)
    (hhandles : s'.handles = s.handles) (hothers : stage'.others = stage.others)
    (hcurrent : stage'.current = stage.current)
    (hleft : stage'.isLeft = true → stage.isLeft = true) : Accounted s' := by
  subst hstage hstage'
  exact h.same htunnels hhandles hothers hcurrent hleft

theorem Accounted.closeAll {leaving : Bool} (h : Accounted s)
    (hothers : s.stage.others = []) (hcurrent : s.stage.current = none) :
    Accounted (s.closeAllTunnels leaving) where
  valid i hi := h.valid i (List.mem_append_left _ hi)
  signalled _ hi := by cases hi
  known i tunnel hi hbusy := by
    rcases h.known i tunnel hi hbusy with hhandle | hother | hcur
    · exact .inr (.inl hhandle)
    · rw [hothers] at hother
      cases hother
    · rw [hcurrent] at hcur
      cases hcur
  left _ := rfl
  sound := h.sound

theorem SessionRun.signal_getElem? (s : SessionRun) (index i : ℕ) :
    (s.signal index).tunnels[i]? = (s.tunnels[i]?).map fun tunnel =>
      if index = i then { tunnel with stop := true } else tunnel := by
  show (s.tunnels.modify index _)[i]? = _
  rw [List.getElem?_modify]
  by_cases hindex : index = i
  · simp [hindex]
  · simp [hindex]

theorem SessionRun.exists_of_signal {index i : ℕ} {tunnel : Tunnel}
    (h : (s.signal index).tunnels[i]? = some tunnel) :
    ∃ before, s.tunnels[i]? = some before ∧ before.stage = tunnel.stage ∧
      before.runtime.kind = tunnel.runtime.kind := by
  rw [signal_getElem?] at h
  obtain ⟨before, hbefore, rfl⟩ := Option.map_eq_some_iff.mp h
  refine ⟨before, hbefore, ?_⟩
  split
  · exact ⟨rfl, rfl⟩
  · exact ⟨rfl, rfl⟩

theorem SessionRun.signal_stop (s : SessionRun) {index : ℕ} (hindex : index < s.tunnels.length) :
    ((s.signal index).tunnels[index]?).any (·.stop) = true := by
  rw [signal_getElem?, List.getElem?_eq_getElem hindex]
  simp

theorem Accounted.signal {index : ℕ} {stage' : LoopStage} {handles : List ℕ} (h : Accounted s)
    (hindex : index ∈ s.handles ++ s.stage.others) (hcurrent : s.stage.current = none)
    (hcurrent' : stage'.current = some index)
    (hknown : ∀ i ∈ s.handles ++ s.stage.others, i = index ∨ i ∈ handles ++ stage'.others)
    (hvalid : ∀ i ∈ handles ++ stage'.others, i ∈ s.handles ++ s.stage.others)
    (hleft : stage'.isLeft = true → handles = []) :
    Accounted ({ s with handles }.signal index |>.goTo stage') where
  valid i hi := by
    show i < (s.tunnels.modify index _).length
    rw [List.length_modify]
    exact h.valid i (hvalid i hi)
  signalled i hi := by
    have hi : i = index := Option.some.inj (hi.symm.trans hcurrent')
    rw [hi]
    exact s.signal_stop (h.valid index hindex)
  known i tunnel hi hbusy := by
    obtain ⟨before, hbefore, hstage, -⟩ := s.exists_of_signal hi
    have hmem : i ∈ s.handles ++ s.stage.others := by
      rcases h.known i before hbefore (hstage ▸ hbusy) with hhandle | hother | hcur
      · exact List.mem_append_left _ hhandle
      · exact List.mem_append_right _ hother
      · rw [hcurrent] at hcur
        cases hcur
    rcases hknown i hmem with rfl | hi
    · exact .inr (.inr hcurrent')
    · rcases List.mem_append.mp hi with hi | hi
      · exact .inl hi
      · exact .inr (.inl hi)
  left := hleft
  sound i tunnel hi := by
    obtain ⟨before, hbefore, hstage, hkind⟩ := s.exists_of_signal hi
    have hsound := h.sound i before hbefore
    unfold Tunnel.IsSound at hsound ⊢
    rw [← hstage, ← hkind]
    exact hsound

theorem Accounted.openTunnel {runtime : SshTunnelRuntime} {registered : Bool} (h : Accounted s)
    (hcurrent : s.stage.current = none) (hothers : s.stage.others = []) :
    Accounted ((s.openTunnel runtime registered).goTo .select) where
  valid i hi := by
    show i < (s.tunnels ++ [_]).length
    rw [List.length_append, List.length_singleton]
    have hi : i ∈ s.handles ++ [s.tunnels.length] := by simpa [LoopStage.others] using hi
    rcases List.mem_append.mp hi with hi | hi
    · have hlt := h.valid i (List.mem_append_left _ hi)
      omega
    · rw [List.mem_singleton.mp hi]
      omega
  signalled _ hi := by cases hi
  known i tunnel hi hbusy := by
    have hi : (s.tunnels ++ [_])[i]? = some tunnel := hi
    left
    show i ∈ s.handles ++ [s.tunnels.length]
    rcases Nat.lt_or_ge i s.tunnels.length with hlt | hge
    · rw [List.getElem?_append_left hlt] at hi
      rcases h.known i tunnel hi hbusy with hhandle | hother | hcur
      · exact List.mem_append_left _ hhandle
      · rw [hothers] at hother
        cases hother
      · rw [hcurrent] at hcur
        cases hcur
    · rw [List.getElem?_append_right hge] at hi
      have hzero : i - s.tunnels.length = 0 := by
        by_contra hne
        rw [List.getElem?_eq_none (by simp; omega)] at hi
        cases hi
      have hlength : i = s.tunnels.length := by omega
      rw [hlength]
      exact List.mem_append_right _ (List.mem_singleton_self _)
  left hleft := by cases hleft
  sound i tunnel hi := by
    have hi : (s.tunnels ++ [_])[i]? = some tunnel := hi
    rcases List.mem_append.mp (List.mem_of_getElem? hi) with hmem | hmem
    · obtain ⟨j, hj⟩ := List.mem_iff_getElem?.mp hmem
      exact h.sound j tunnel hj
    · rw [List.mem_singleton.mp hmem]
      exact fun _ => .inl rfl

theorem Accounted.tunnel {number : ℕ} {tunnel : Tunnel} (h : Accounted s)
    (hget : s.tunnels[number]? = some tunnel)
    (heffect : SessionRun.TunnelEffect number tunnel s s') : Accounted s' := by
  obtain ⟨tunnel', htunnels, hstop, hsound⟩ := heffect.tunnels
  have hnumber : number < s.tunnels.length := (List.getElem?_eq_some_iff.mp hget).1
  refine ⟨?_, ?_, ?_, ?_, ?_⟩
  · intro i hi
    rw [htunnels, List.length_set]
    rw [heffect.handles, heffect.stage] at hi
    exact h.valid i hi
  · intro i hi
    rw [heffect.stage] at hi
    have hsignalled := h.signalled i hi
    rw [htunnels]
    by_cases hin : number = i
    · subst hin
      rw [List.getElem?_set_self hnumber]
      rw [hget] at hsignalled
      exact (congrArg (fun b => b = true) hstop).mpr hsignalled
    · rw [List.getElem?_set_ne hin]
      exact hsignalled
  · intro i other hi hbusy
    rw [htunnels] at hi
    rw [heffect.handles, heffect.stage]
    by_cases hin : number = i
    · subst hin
      -- it was not finished before the step
      exact h.known number tunnel hget heffect.busy
    · rw [List.getElem?_set_ne hin] at hi
      exact h.known i other hi hbusy
  · intro hleft
    rw [heffect.stage] at hleft
    exact heffect.handles.trans (h.left hleft)
  · intro i other hi
    rw [htunnels] at hi
    by_cases hin : number = i
    · subst hin
      rw [List.getElem?_set_self hnumber] at hi
      exact Option.some.inj hi ▸ hsound (h.sound number tunnel hget)
    · rw [List.getElem?_set_ne hin] at hi
      exact h.sound i other hi

/-! ## The steps of the loop -/

theorem Accounted.leave (h : Accounted s) (sessionId : Text) (hstage : s.stage = .select) :
    Accounted (s.leave sessionId) := by
  unfold SessionRun.leave
  obtain ⟨left, new, hflush, -⟩ := s.flush_effect sessionId true
  rw [hflush]
  have hsame : Accounted { s with terminalOutput := left, log := s.log ++ new } :=
    h.same rfl rfl rfl rfl id
  refine hsame.closeAll ?_ ?_
  · show s.stage.others = []
    rw [hstage]
    rfl
  · show s.stage.current = none
    rw [hstage]
    rfl

theorem Accounted.serve (h : Accounted s) (hstage : s.stage = .select)
    (command : SessionCommand) : Accounted (SessionRun.serve request s command) := by
  have hothers : s.stage.others = [] := hstage ▸ rfl
  have hcurrent : s.stage.current = none := hstage ▸ rfl
  cases command with
  | write data => exact h.move hstage rfl rfl rfl rfl rfl nofun
  | resize cols rows => exact h.move hstage rfl rfl rfl rfl rfl nofun
  | sftp sftpRequest => exact h.same rfl rfl rfl rfl id
  | transfer transferRequest => exact h.same rfl rfl rfl rfl id
  | sftpCancelTransfer transferId => exact h.same rfl rfl rfl rfl id
  | tunnelOpen spec =>
    unfold SessionRun.serve
    dsimp only
    split
    · exact h.move hstage rfl rfl rfl rfl rfl nofun
    · exact h.move hstage rfl rfl rfl rfl rfl nofun
    · exact h.move hstage rfl rfl rfl rfl rfl nofun
  | tunnelClose tunnelId =>
    show Accounted (if tunnelId ∈ s.handles then _ else _)
    split
    · -- the handle is taken, the tunnel gets its stop signal
      rename_i hmem
      refine h.signal (List.mem_append_left _ hmem) hcurrent rfl ?_ ?_ nofun
      · intro i hi
        rw [hothers, List.append_nil] at hi
        by_cases hne : i = tunnelId
        · exact .inl hne
        · exact .inr (List.mem_append_left _ ((List.mem_erase_of_ne hne).mpr hi))
      · intro i hi
        have hi : i ∈ s.handles.erase tunnelId ++ [] := hi
        rw [List.append_nil] at hi
        exact List.mem_append_left _ (List.mem_of_mem_erase hi)
    · exact h
  | tunnelList => exact h
  | tunnelCloseAll => exact h.closeAll hothers hcurrent
  | disconnect => exact h.leave request.sessionId hstage

theorem Accounted.connectNext {connect : ConnectStage} (h : Accounted s)
    (hstage : s.stage = .connecting connect) : Accounted (s.connectNext request connect) := by
  cases connect with
  | start =>
    show Accounted (if sshJumpMaxDepth < request.jumpHosts then _ else _)
    split
    · exact h.move hstage rfl rfl rfl rfl rfl nofun
    · exact h.move hstage rfl rfl rfl rfl rfl nofun
  | stream hop => exact h.move hstage rfl rfl rfl rfl rfl nofun
  | handshake hop => exact h.move hstage rfl rfl rfl rfl rfl nofun
  | authenticate hop => exact h.move hstage rfl rfl rfl rfl rfl nofun
  | channelOpen => exact h.move hstage rfl rfl rfl rfl rfl nofun
  | pty => exact h.move hstage rfl rfl rfl rfl rfl nofun
  | shell => exact h.move hstage rfl rfl rfl rfl rfl nofun

theorem Accounted.joined {index : ℕ} {others : List ℕ} {leaving : Bool} (h : Accounted s)
    (hstage : s.stage = .joining (some index) others leaving)
    (hfinished : (s.tunnels[index]?).any (·.stage = .finished) = true) :
    Accounted (s.goTo (.joining none others leaving)) where
  valid i hi := by
    refine h.valid i ?_
    rw [hstage]
    exact hi
  signalled _ hi := by cases hi
  known i tunnel hi hbusy := by
    have hknown := h.known i tunnel hi hbusy
    rw [hstage] at hknown
    rcases hknown with hhandle | hother | hcur
    · exact .inl hhandle
    · exact .inr (.inl hother)
    · -- it is the tunnel that has ended
      have hi : s.tunnels[i]? = some tunnel := hi
      rw [Option.some.inj hcur, hi] at hfinished
      exact absurd (of_decide_eq_true hfinished) hbusy
  left hleft := by
    refine h.left ?_
    rw [hstage]
    exact hleft
  sound := h.sound

theorem Accounted.loop {event : LoopEvent} (h : Accounted s)
    (hstep : s.loopNext request event = some s') : Accounted s' := by
  unfold SessionRun.loopNext at hstep
  split at hstep
  · rename_i hstage
    cases hstep
    exact h.connectNext hstage
  · cases hstep
  · rename_i hstage
    cases hstep
    exact h.move hstage rfl rfl rfl rfl rfl nofun
  · rename_i hstage
    split at hstep <;> cases hstep
    exact h.move hstage rfl rfl rfl rfl rfl nofun
  · -- a command
    rename_i hstage
    split at hstep
    · cases hstep
    · rename_i command rx hrx
      cases hstep
      have hsame : Accounted { s with rx } := h.same rfl rfl rfl rfl id
      exact hsame.serve hstage command
  · rename_i hstage
    split at hstep
    · split at hstep
      · cases hstep
        exact h.same rfl rfl rfl rfl id
      · cases hstep
        exact h
      · cases hstep
        exact h.leave request.sessionId hstage
    · cases hstep
  · split at hstep <;> cases hstep
    obtain ⟨left, new, hflush, -⟩ := s.flush_effect request.sessionId false
    rw [hflush]
    exact h.same rfl rfl rfl rfl id
  · rename_i hstage
    cases hstep
    exact h.move hstage rfl rfl rfl rfl rfl nofun
  · rename_i hstage
    cases hstep
    exact h.move hstage rfl rfl rfl rfl rfl nofun
  · -- a local tunnel is there
    rename_i hstage
    cases hstep
    exact h.openTunnel (hstage ▸ rfl) (hstage ▸ rfl)
  · rename_i hstage
    split at hstep
    · split at hstep
      · cases hstep
        exact h.move hstage rfl rfl rfl rfl rfl nofun
      · cases hstep
        exact h.move hstage rfl rfl rfl rfl rfl nofun
    · cases hstep
  · -- a remote tunnel is there
    rename_i spec assignedPort hstage
    cases hstep
    let route : RemoteRoute :=
      ⟨s.tunnels.length, spec.targetHost.getD [], spec.targetPort.getD 0⟩
    let routes := Function.update s.routes (assignedPort % 2 ^ 16) (some route)
    have hsame : Accounted { s with routes } := h.same rfl rfl rfl rfl id
    have hcurrent : s.stage.current = none := hstage ▸ rfl
    have hothers : s.stage.others = [] := hstage ▸ rfl
    exact hsame.openTunnel hcurrent hothers
  · -- the next tunnel to close
    rename_i others leaving index hstage
    split at hstep <;> cases hstep
    rename_i hmem
    refine h.signal ?_ (hstage ▸ rfl) rfl ?_ ?_ fun hleft => ?_
    · rw [hstage]
      exact List.mem_append_right _ hmem
    · intro i hi
      rw [hstage] at hi
      rcases List.mem_append.mp hi with hi | hi
      · exact .inr (List.mem_append_left _ hi)
      · by_cases hne : i = index
        · exact .inl hne
        · exact .inr (List.mem_append_right _ ((List.mem_erase_of_ne hne).mpr hi))
    · intro i hi
      rw [hstage]
      rcases List.mem_append.mp hi with hi | hi
      · exact List.mem_append_left _ hi
      · exact List.mem_append_right _ (List.mem_of_mem_erase hi)
    · refine h.left ?_
      rw [hstage]
      exact hleft
  · -- all of them are closed
    rename_i leaving hstage
    cases hstep
    cases leaving with
    | true => exact h.move hstage rfl rfl rfl rfl rfl id
    | false => exact h.move hstage rfl rfl rfl rfl rfl nofun
  · rename_i hstage
    split at hstep <;> cases hstep
    rename_i hfinished
    exact h.joined hstage hfinished
  · rename_i hstage
    cases hstep
    exact h.move hstage rfl rfl rfl rfl rfl id
  · rename_i hstage
    cases hstep
    exact h.move hstage rfl rfl rfl rfl rfl id
  · rename_i hstage
    split at hstep <;> cases hstep
    exact h.move hstage rfl rfl rfl rfl rfl id
  · rename_i hstage
    cases hstep
    exact h.move hstage rfl rfl rfl rfl rfl id
  · rename_i hstage
    cases hstep
    exact h.move hstage rfl rfl rfl rfl rfl id
  · rename_i hstage
    cases hstep
    exact h.move hstage rfl rfl rfl rfl rfl id
  · cases hstep

/-! ## Every step -/

theorem Accounted.next {event : SessionEvent} (h : Accounted s)
    (hstep : s.next request event = some s') : Accounted s' := by
  cases event with
  | send command =>
    cases hstep
    exact h.same rfl rfl rfl rfl id
  | loop event => exact h.loop hstep
  | task index event =>
    obtain ⟨task, -, hnext⟩ := Option.bind_eq_some_iff.mp hstep
    obtain ⟨task', lock, new, rfl, -⟩ := SessionRun.taskNext_effect hnext
    exact h.same rfl rfl rfl rfl id
  | tunnel number event =>
    obtain ⟨tunnel, hget, hnext⟩ := Option.bind_eq_some_iff.mp hstep
    exact h.tunnel hget (SessionRun.tunnelNext_effect hnext)
  | channel connectedPort =>
    obtain ⟨forwards, hopen⟩ := s.openChannel_effect connectedPort
    rw [← Option.some.inj hstep, hopen]
    exact h.same rfl rfl rfl rfl id
  | forward index event =>
    obtain ⟨forward, -, hnext⟩ := Option.bind_eq_some_iff.mp hstep
    obtain ⟨forwards, new, rfl, -⟩ := SessionRun.forwardNext_effect hnext
    exact h.same rfl rfl rfl rfl id

/-- **Tunnels are accounted for.** In every reachable state the loop knows every tunnel that has
not ended. -/
theorem accounted_of_reachable (h : (sessionLoop request).Reachable s) : Accounted s := by
  refine Machine.Reachable.induct ?_ (fun _ _ _ _ haccounted hstep => haccounted.next hstep) h
  rintro _ rfl
  exact .start

end FluxTerm.Ssh
