import FluxTerm.Ssh.SessionTunnels

/-!
# FluxTerm — what the steps of a session do to its routes

The routes of the remote tunnels, the tunnels that own them and the forwarded channels behind them,
before and after a step.
-/

namespace FluxTerm.Ssh

open FluxTerm.Engine FluxTerm.Lib FluxTerm.Sftp

/-! ## Tunnels and channels -/

def Tunnel.route (tunnel : Tunnel) (number : ℕ) : RemoteRoute :=
  ⟨number, tunnel.runtime.targetHost.getD [], tunnel.runtime.targetPort.getD 0⟩

def Tunnel.IsRouted (tunnel : Tunnel) : Prop :=
  tunnel.runtime.kind = .remote ∧ (tunnel.stage = .opened ∨ tunnel.stage = .stopping)

theorem Tunnel.not_isRouted {tunnel : Tunnel}
    (hstage : tunnel.stage = .cancelling ∨ tunnel.stage = .finished) : ¬tunnel.IsRouted := by
  intro hrouted
  rcases hstage with hstage | hstage
  · rcases hrouted.2 with h | h <;> cases hstage.symm.trans h
  · rcases hrouted.2 with h | h <;> cases hstage.symm.trans h

/-- What becomes of a tunnel in a step that leaves its route alone. -/
structure Tunnel.Follows (tunnel tunnel' : Tunnel) : Prop where
  kind : tunnel'.runtime.kind = tunnel.runtime.kind
  bindPort : tunnel'.runtime.bindPort = tunnel.runtime.bindPort
  route : tunnel'.route = tunnel.route
  registered : tunnel'.registered = tunnel.registered
  routed : tunnel'.IsRouted ↔ tunnel.IsRouted

theorem Tunnel.Follows.refl (tunnel : Tunnel) : tunnel.Follows tunnel :=
  ⟨rfl, rfl, rfl, rfl, Iff.rfl⟩

theorem Tunnel.Follows.of_local {tunnel tunnel' : Tunnel} (hkind : tunnel.runtime.kind ≠ .remote)
    (hkind' : tunnel'.runtime.kind = tunnel.runtime.kind)
    (hbindPort : tunnel'.runtime.bindPort = tunnel.runtime.bindPort)
    (hroute : tunnel'.route = tunnel.route) (hregistered : tunnel'.registered = tunnel.registered) :
    tunnel.Follows tunnel' :=
  ⟨hkind', hbindPort, hroute, hregistered,
    fun h => absurd (hkind'.symm.trans h.1) hkind, fun h => absurd h.1 hkind⟩

def ForwardStage.isOver : ForwardStage → Bool
  | finished | aborted => true
  | routed | connecting | connected => false

theorem ForwardStage.eq_of_isOver {stage : ForwardStage} (h : stage.isOver = true) :
    stage = finished ∨ stage = aborted := by
  cases stage with
  | finished => exact .inl rfl
  | aborted => exact .inr rfl
  | routed => cases h
  | connecting => cases h
  | connected => cases h

/-- What becomes of a channel in a step of its own. -/
inductive Forward.Moves (tunnel : Option Tunnel) (forward forward' : Forward) : Prop where
  | goes (hroute : forward'.route = forward.route) (hbusy : forward.stage.isOver = false)
      (hstage : forward'.stage ≠ .aborted) (hlisted : forward'.listed = forward.listed)
  | listed (hroute : forward'.route = forward.route) (hstage : forward'.stage = forward.stage)
      (htunnel : tunnel.any (·.registered) = true)
  | refused (hroute : forward'.route = forward.route) (hstage : forward'.stage.isOver = true)
      (htunnel : tunnel.any (·.registered) = false)

/-- A channel of the tunnel `number`, when the tunnel takes its route away. -/
def Forward.endedBy (number : ℕ) (forward : Forward) : Forward :=
  if forward.listed ∧ forward.route.tunnelId = number ∧ forward.stage ≠ .finished then
    { forward with stage := .aborted }
  else forward

theorem Forward.endedBy_of_ne {number : ℕ} {forward : Forward}
    (hne : forward.route.tunnelId ≠ number) : forward.endedBy number = forward := by
  unfold endedBy
  exact if_neg fun h => hne h.2.1

@[simp] theorem Forward.endedBy_route (number : ℕ) (forward : Forward) :
    (forward.endedBy number).route = forward.route := by
  unfold endedBy
  split
  · rfl
  · rfl

theorem Forward.endedBy_isOver {forward : Forward}
    (hlisted : (forward.endedBy forward.route.tunnelId).listed = true) :
    (forward.endedBy forward.route.tunnelId).stage.isOver = true := by
  unfold endedBy at hlisted ⊢
  split
  · rfl
  · rename_i hnot
    rw [if_neg hnot] at hlisted
    have hfinished : forward.stage = .finished :=
      Decidable.byContradiction fun hstage => hnot ⟨hlisted, rfl, hstage⟩
    rw [hfinished]
    rfl

def Follow (tunnels tunnels' : List Tunnel) : Prop :=
  ∀ number : ℕ, Option.Rel Tunnel.Follows tunnels[number]? tunnels'[number]?

variable {tunnels tunnels' : List Tunnel} {number : ℕ} {tunnel tunnel' : Tunnel}

theorem Follow.refl (tunnels : List Tunnel) : Follow tunnels tunnels := by
  intro number
  cases tunnels[number]? with
  | none => exact .none
  | some tunnel => exact .some (.refl tunnel)

theorem Follow.length (h : Follow tunnels tunnels') : tunnels'.length = tunnels.length := by
  have hiff : ∀ number, tunnels'.length ≤ number ↔ tunnels.length ≤ number := by
    intro number
    rw [← List.getElem?_eq_none_iff, ← List.getElem?_eq_none_iff]
    have hrel := h number
    generalize tunnels[number]? = before at hrel ⊢
    generalize tunnels'[number]? = after at hrel ⊢
    cases hrel with
    | none => exact Iff.rfl
    | some _ => exact ⟨nofun, nofun⟩
  have hle := (hiff tunnels'.length).mp le_rfl
  have hge := (hiff tunnels.length).mpr le_rfl
  omega

theorem Follow.forward (h : Follow tunnels tunnels') (htunnel : tunnels[number]? = some tunnel) :
    ∃ tunnel', tunnels'[number]? = some tunnel' ∧ tunnel.Follows tunnel' := by
  have hrel := h number
  rw [htunnel] at hrel
  generalize tunnels'[number]? = after at hrel ⊢
  cases hrel with
  | some hfollows => exact ⟨_, rfl, hfollows⟩

theorem Follow.back (h : Follow tunnels tunnels') (htunnel : tunnels'[number]? = some tunnel') :
    ∃ tunnel, tunnels[number]? = some tunnel ∧ tunnel.Follows tunnel' := by
  have hrel := h number
  rw [htunnel] at hrel
  generalize tunnels[number]? = before at hrel ⊢
  cases hrel with
  | some hfollows => exact ⟨_, rfl, hfollows⟩

theorem Follow.set (htunnel : tunnels[number]? = some tunnel) (hfollows : tunnel.Follows tunnel') :
    Follow tunnels (tunnels.set number tunnel') := by
  intro other
  by_cases hother : number = other
  · subst hother
    have hlt := (List.getElem?_eq_some_iff.mp htunnel).1
    rw [htunnel, List.getElem?_set_self hlt]
    exact .some hfollows
  · rw [List.getElem?_set_ne hother]
    exact Follow.refl tunnels other

theorem Follow.signal (s : SessionRun) (index : ℕ) : Follow s.tunnels (s.signal index).tunnels := by
  intro number
  rw [s.signal_getElem?]
  cases s.tunnels[number]? with
  | none => exact .none
  | some tunnel =>
    show Option.Rel _ _ (some (if index = number then _ else _))
    split
    · exact .some ⟨rfl, rfl, rfl, rfl, Iff.rfl⟩
    · exact .some (.refl tunnel)

theorem getElem?_opened (htunnel : tunnels[number]? = some tunnel) :
    (tunnels ++ [tunnel'])[number]? = some tunnel := by
  rw [List.getElem?_append_left (List.getElem?_eq_some_iff.mp htunnel).1]
  exact htunnel

theorem of_getElem?_opened (h : (tunnels ++ [tunnel'])[number]? = some tunnel) :
    tunnels[number]? = some tunnel ∨ number = tunnels.length ∧ tunnel = tunnel' := by
  have hlt := (List.getElem?_eq_some_iff.mp h).1
  rw [List.length_append, List.length_singleton] at hlt
  by_cases hlast : number = tunnels.length
  · rw [hlast, List.getElem?_concat_length] at h
    exact .inr ⟨hlast, (Option.some.inj h).symm⟩
  · rw [List.getElem?_append_left (by omega)] at h
    exact .inl h

/-! ## The steps -/

def LoopStage.kindFits : LoopStage → Bool
  | binding spec => spec.kind ≠ .remote
  | forwarding spec | routing spec _ => spec.kind = .remote
  | _ => true

/-- What a step does to the routes. -/
inductive RouteMove (request : SessionLoopRequest) (s s' : SessionRun) : Prop where
  | keep (hstage : s'.stage = s.stage ∨ s.stage.isRouting = false ∧ s'.stage.isRouting = false)
      (htunnels : Follow s.tunnels s'.tunnels) (hroutes : s'.routes = s.routes)
      (hforwards : s'.forwards = s.forwards)
  | openLocal (spec : SshTunnelSpec) (tunnel : Tunnel) (hstage : s.stage = .binding spec)
      (hkind : tunnel.runtime.kind = spec.kind) (hstage' : s'.stage = .select)
      (htunnels : s'.tunnels = s.tunnels ++ [tunnel]) (hroutes : s'.routes = s.routes)
      (hforwards : s'.forwards = s.forwards)
  | openRemote (spec : SshTunnelSpec) (port : ℕ) (tunnel : Tunnel)
      (hstage : s.stage = .routing spec port) (hkind : tunnel.runtime.kind = spec.kind)
      (hbindPort : tunnel.runtime.bindPort = port % 2 ^ 16) (hopened : tunnel.stage = .opened)
      (hregistered : tunnel.registered = true) (hstage' : s'.stage = .select)
      (htunnels : s'.tunnels = s.tunnels ++ [tunnel])
      (hroutes : s'.routes = Function.update s.routes tunnel.runtime.bindPort
        (some (tunnel.route s.tunnels.length)))
      (hforwards : s'.forwards = s.forwards)
  | unroute (number : ℕ) (tunnel tunnel' : Tunnel) (hstage : s'.stage = s.stage)
      (htunnel : s.tunnels[number]? = some tunnel) (hrouted : tunnel.IsRouted)
      (hkind : tunnel'.runtime = tunnel.runtime) (hrouted' : ¬tunnel'.IsRouted)
      (hregistered : tunnel'.registered = false)
      (htunnels : s'.tunnels = s.tunnels.set number tunnel')
      (hroutes : s'.routes = Function.update s.routes tunnel.runtime.bindPort none)
      (hforwards : s'.forwards = s.forwards.map (Forward.endedBy number))
  | forward (index : ℕ) (forward forward' : Forward) (hstage : s'.stage = s.stage)
      (htunnels : s'.tunnels = s.tunnels) (hroutes : s'.routes = s.routes)
      (hforward : s.forwards[index]? = some forward)
      (hmoves : forward.Moves s.tunnels[forward.route.tunnelId]? forward')
      (hforwards : s'.forwards = s.forwards.set index forward')

variable {request : SessionLoopRequest} {s s' : SessionRun}

theorem RouteMove.same
    (hstage : s'.stage = s.stage ∨ s.stage.isRouting = false ∧ s'.stage.isRouting = false)
    (htunnels : s'.tunnels = s.tunnels) (hroutes : s'.routes = s.routes)
    (hforwards : s'.forwards = s.forwards) : RouteMove request s s' :=
  .keep hstage (htunnels ▸ Follow.refl s.tunnels) hroutes hforwards

theorem RouteMove.follows (htunnel : s.tunnels[number]? = some tunnel)
    (htunnels : s'.tunnels = s.tunnels.set number tunnel') (hfollows : tunnel.Follows tunnel')
    (hstage : s'.stage = s.stage) (hroutes : s'.routes = s.routes)
    (hforwards : s'.forwards = s.forwards) : RouteMove request s s' := by
  refine .keep (.inl hstage) ?_ hroutes hforwards
  rw [htunnels]
  exact .set htunnel hfollows

namespace SessionRun

theorem localTunnelNext_routes {event : TunnelEvent} (htunnel : s.tunnels[number]? = some tunnel)
    (hkind : tunnel.runtime.kind ≠ .remote) (h : s.localTunnelNext number tunnel event = some s') :
    RouteMove request s s' := by
  have hlocal : ∀ {tunnel'}, s'.tunnels = s.tunnels.set number tunnel' →
      tunnel'.runtime.kind = tunnel.runtime.kind →
      tunnel'.runtime.bindPort = tunnel.runtime.bindPort → tunnel'.route = tunnel.route →
      tunnel'.registered = tunnel.registered → s'.stage = s.stage → s'.routes = s.routes →
      s'.forwards = s.forwards → RouteMove request s s' :=
    fun htunnels hkind' hbindPort hroute hregistered =>
      .follows htunnel htunnels (.of_local hkind hkind' hbindPort hroute hregistered)
  unfold localTunnelNext at h
  split at h
  · cases h
    exact hlocal rfl rfl rfl rfl rfl rfl rfl rfl
  · cases h
    exact hlocal rfl rfl rfl rfl rfl rfl rfl rfl
  · split at h
    · cases h
      exact hlocal rfl rfl rfl rfl rfl rfl rfl rfl
    · cases h
  · -- a connection
    obtain ⟨index, -, h⟩ := Option.bind_eq_some_iff.mp h
    obtain ⟨stage, -, h⟩ := Option.bind_eq_some_iff.mp h
    unfold connectionNext at h
    dsimp only at h
    split at h
    · cases h
      exact hlocal rfl rfl rfl rfl rfl rfl rfl rfl
    · cases h
      exact hlocal rfl rfl rfl rfl rfl rfl rfl rfl
    · split at h
      · split at h
        · cases h
          exact hlocal rfl rfl rfl rfl rfl rfl rfl rfl
        · cases h
          exact hlocal rfl rfl rfl rfl rfl rfl rfl rfl
      · cases h
    · split at h
      · cases h
        exact hlocal rfl rfl rfl rfl rfl rfl rfl rfl
      · cases h
        exact hlocal rfl rfl rfl rfl rfl rfl rfl rfl
    · cases h
      exact hlocal rfl rfl rfl rfl rfl rfl rfl rfl
    · cases h
  · cases h

theorem remoteTunnelNext_routes {event : TunnelEvent} (htunnel : s.tunnels[number]? = some tunnel)
    (hkind : tunnel.runtime.kind = .remote) (h : s.remoteTunnelNext number tunnel event = some s') :
    RouteMove request s s' := by
  -- the tunnel is cancelled: it has had no route before
  have hcancelled : ∀ {runtime}, runtime = { tunnel.runtime with status := .stopped } →
      tunnel.stage = .cancelling →
      tunnel.Follows { tunnel with runtime, stage := .finished } := by
    intro runtime hruntime hstage
    subst hruntime
    refine ⟨rfl, rfl, rfl, rfl, ?_⟩
    unfold Tunnel.IsRouted
    simp [hstage]
  unfold remoteTunnelNext at h
  dsimp only at h
  split at h
  · -- the stop signal is seen
    rename_i hstage
    split at h
    · cases h
      refine .follows htunnel rfl ⟨rfl, rfl, rfl, rfl, ?_⟩ rfl rfl rfl
      unfold Tunnel.IsRouted
      simp [hstage]
    · cases h
  · rename_i hstage
    cases h
    refine .unroute number tunnel { tunnel with stage := .cancelling, registered := false } rfl
      htunnel ⟨hkind, .inr hstage⟩ rfl ?_ rfl rfl rfl rfl
    unfold Tunnel.IsRouted
    simp
  · rename_i hstage
    split at h
    · cases h
      exact .follows htunnel rfl (hcancelled rfl hstage) rfl rfl rfl
    · cases h
  · rename_i hstage
    cases h
    exact .follows htunnel rfl (hcancelled rfl hstage) rfl rfl rfl
  · cases h

theorem forwardNext_routes {index : ℕ} {forward : Forward} {event : ForwardEvent}
    (hforward : s.forwards[index]? = some forward)
    (h : s.forwardNext request index forward event = some s') : RouteMove request s s' := by
  have hmove : ∀ {forward'}, s'.forwards = s.forwards.set index forward' →
      forward.Moves s.tunnels[forward.route.tunnelId]? forward' →
      s'.stage = s.stage → s'.tunnels = s.tunnels → s'.routes = s.routes →
      RouteMove request s s' :=
    fun hforwards hmoves hstage htunnels hroutes =>
      .forward index forward _ hstage htunnels hroutes hforward hmoves hforwards
  have hlist : s.listForward index forward = some s' → RouteMove request s s' := by
    intro h
    unfold listForward at h
    split at h
    · cases h
    · split at h
      · rename_i hregistered
        cases h
        exact hmove rfl (.listed rfl rfl hregistered) rfl rfl rfl
      · -- the tunnel is closed: the task is aborted
        rename_i hregistered
        cases h
        refine hmove rfl (.refused rfl ?_ (Bool.not_eq_true _ ▸ hregistered)) rfl rfl rfl
        dsimp only
        split
        · rfl
        · rfl
  unfold forwardNext at h
  split at h
  · rename_i hstage
    cases h
    exact hmove rfl (.goes rfl (hstage ▸ rfl) nofun rfl) rfl rfl rfl
  · rename_i hstage
    cases h
    exact hmove rfl (.goes rfl (hstage ▸ rfl) nofun rfl) rfl rfl rfl
  · rename_i hstage
    cases h
    exact hmove rfl (.goes rfl (hstage ▸ rfl) nofun rfl) rfl rfl rfl
  · rename_i hstage
    cases h
    exact hmove rfl (.goes rfl (hstage ▸ rfl) nofun rfl) rfl rfl rfl
  · exact hlist h
  · exact hlist h
  · exact hlist h
  · cases h

theorem leave_effect (s : SessionRun) (sessionId : Text) :
    ∃ left new, s.leave sessionId = { s with
      terminalOutput := left, log := s.log ++ new, handles := []
      stage := .joining none s.handles true } := by
  obtain ⟨left, new, hflush, -⟩ := s.flush_effect sessionId true
  refine ⟨left, new, ?_⟩
  unfold leave
  rw [hflush]
  rfl

theorem leave_routes (s : SessionRun) (sessionId : Text) (hstage : s.stage = .select) :
    RouteMove request s (s.leave sessionId) := by
  obtain ⟨left, new, hleave⟩ := s.leave_effect sessionId
  rw [hleave]
  exact .same (.inr ⟨hstage ▸ rfl, rfl⟩) rfl rfl rfl

theorem serve_routes (s : SessionRun) (rx : List SessionCommand) (command : SessionCommand)
    (hstage : s.stage = .select) : RouteMove request s (serve request { s with rx } command) := by
  cases command with
  | write data => exact .same (.inr ⟨hstage ▸ rfl, rfl⟩) rfl rfl rfl
  | resize cols rows => exact .same (.inr ⟨hstage ▸ rfl, rfl⟩) rfl rfl rfl
  | sftp sftpRequest => exact .same (.inl rfl) rfl rfl rfl
  | transfer transferRequest => exact .same (.inl rfl) rfl rfl rfl
  | sftpCancelTransfer transferId => exact .same (.inl rfl) rfl rfl rfl
  | tunnelOpen spec =>
    unfold serve
    dsimp only
    split
    · exact .same (.inr ⟨hstage ▸ rfl, rfl⟩) rfl rfl rfl
    · exact .same (.inr ⟨hstage ▸ rfl, rfl⟩) rfl rfl rfl
    · exact .same (.inr ⟨hstage ▸ rfl, rfl⟩) rfl rfl rfl
  | tunnelClose tunnelId =>
    unfold serve
    dsimp only
    split
    · exact .keep (.inr ⟨hstage ▸ rfl, rfl⟩) (.signal _ tunnelId) rfl rfl
    · exact .same (.inl rfl) rfl rfl rfl
  | tunnelList => exact .same (.inl rfl) rfl rfl rfl
  | tunnelCloseAll => exact .same (.inr ⟨hstage ▸ rfl, rfl⟩) rfl rfl rfl
  | disconnect =>
    obtain ⟨left, new, hleave⟩ := leave_effect { s with rx } request.sessionId
    show RouteMove request s (leave { s with rx } request.sessionId)
    rw [hleave]
    exact .same (.inr ⟨hstage ▸ rfl, rfl⟩) rfl rfl rfl

theorem connectNext_routes {connect : ConnectStage} (hstage : s.stage = .connecting connect) :
    RouteMove request s (s.connectNext request connect) := by
  cases connect with
  | start =>
    show RouteMove request s (if sshJumpMaxDepth < request.jumpHosts then _ else _)
    split
    · exact .same (.inr ⟨hstage ▸ rfl, rfl⟩) rfl rfl rfl
    · exact .same (.inr ⟨hstage ▸ rfl, rfl⟩) rfl rfl rfl
  | authenticate hop => exact .same (.inr ⟨hstage ▸ rfl, rfl⟩) rfl rfl rfl
  | stream hop => exact .same (.inr ⟨hstage ▸ rfl, rfl⟩) rfl rfl rfl
  | handshake hop => exact .same (.inr ⟨hstage ▸ rfl, rfl⟩) rfl rfl rfl
  | channelOpen => exact .same (.inr ⟨hstage ▸ rfl, rfl⟩) rfl rfl rfl
  | pty => exact .same (.inr ⟨hstage ▸ rfl, rfl⟩) rfl rfl rfl
  | shell => exact .same (.inr ⟨hstage ▸ rfl, rfl⟩) rfl rfl rfl

/-- **A step of the loop.** The answer of `tcpip_forward` apart, it leaves the routes alone or it
opens a tunnel. -/
theorem loopNext_routes {event : LoopEvent} (hevent : ∀ port, event ≠ .forwarded (.ok port))
    (h : s.loopNext request event = some s') : RouteMove request s s' := by
  unfold loopNext at h
  split at h
  · rename_i hstage
    cases h
    exact connectNext_routes hstage
  · cases h
  · rename_i hstage
    cases h
    exact .same (.inr ⟨hstage ▸ rfl, rfl⟩) rfl rfl rfl
  · rename_i hstage
    split at h <;> cases h
    exact .same (.inr ⟨hstage ▸ rfl, rfl⟩) rfl rfl rfl
  · -- a command
    rename_i hstage
    split at h
    · cases h
    · cases h
      exact serve_routes s _ _ hstage
  · rename_i hstage
    split at h
    · split at h
      · cases h
        exact .same (.inl rfl) rfl rfl rfl
      · cases h
        exact .same (.inl rfl) rfl rfl rfl
      · cases h
        exact leave_routes s request.sessionId hstage
    · cases h
  · rename_i hstage
    split at h <;> cases h
    obtain ⟨left, new, hflush, -⟩ := s.flush_effect request.sessionId false
    rw [hflush]
    exact .same (.inl rfl) rfl rfl rfl
  · rename_i hstage
    cases h
    exact .same (.inr ⟨hstage ▸ rfl, rfl⟩) rfl rfl rfl
  · rename_i hstage
    cases h
    exact .same (.inr ⟨hstage ▸ rfl, rfl⟩) rfl rfl rfl
  · -- a tunnel that listens on this side
    rename_i spec port hstage
    cases h
    exact .openLocal spec _ hstage rfl rfl rfl rfl rfl
  · rename_i hstage
    split at h
    · split at h
      · cases h
        exact .same (.inr ⟨hstage ▸ rfl, rfl⟩) rfl rfl rfl
      · exact absurd rfl (hevent _)
    · cases h
  · rename_i spec port hstage
    cases h
    exact .openRemote spec port _ hstage rfl rfl rfl rfl rfl rfl rfl rfl
  · -- the next tunnel is told to stop
    rename_i hstage
    split at h <;> cases h
    exact .keep (.inr ⟨hstage ▸ rfl, rfl⟩) (.signal s _) rfl rfl
  · rename_i leaving hstage
    cases h
    cases leaving with
    | true => exact .same (.inr ⟨hstage ▸ rfl, rfl⟩) rfl rfl rfl
    | false => exact .same (.inr ⟨hstage ▸ rfl, rfl⟩) rfl rfl rfl
  · rename_i hstage
    split at h <;> cases h
    exact .same (.inr ⟨hstage ▸ rfl, rfl⟩) rfl rfl rfl
  · rename_i hstage
    cases h
    exact .same (.inr ⟨hstage ▸ rfl, rfl⟩) rfl rfl rfl
  · rename_i hstage
    cases h
    exact .same (.inr ⟨hstage ▸ rfl, rfl⟩) rfl rfl rfl
  · rename_i hstage
    split at h <;> cases h
    exact .same (.inr ⟨hstage ▸ rfl, rfl⟩) rfl rfl rfl
  · rename_i hstage
    cases h
    exact .same (.inr ⟨hstage ▸ rfl, rfl⟩) rfl rfl rfl
  · rename_i hstage
    cases h
    exact .same (.inr ⟨hstage ▸ rfl, rfl⟩) rfl rfl rfl
  · rename_i hstage
    cases h
    exact .same (.inr ⟨hstage ▸ rfl, rfl⟩) rfl rfl rfl
  · cases h

end SessionRun

def SessionEvent.isServers : SessionEvent → Bool
  | .channel _ | .loop (.forwarded (.ok _)) => true
  | _ => false

/-- **A step of a session.** -/
theorem SessionRun.next_routes {event : SessionEvent} (hevent : event.isServers = false)
    (h : s.next request event = some s') : RouteMove request s s' := by
  cases event with
  | send command =>
    cases h
    exact .same (.inl rfl) rfl rfl rfl
  | loop event =>
    refine loopNext_routes (fun port hport => ?_) h
    subst hport
    cases hevent
  | task index event =>
    obtain ⟨task, -, h⟩ := Option.bind_eq_some_iff.mp h
    obtain ⟨task', lock, new, rfl, -⟩ := taskNext_effect h
    exact .same (.inl rfl) rfl rfl rfl
  | tunnel index event =>
    obtain ⟨tunnel, htunnel, h⟩ := Option.bind_eq_some_iff.mp h
    unfold tunnelNext at h
    split at h
    · rename_i hkind
      exact remoteTunnelNext_routes htunnel hkind h
    · rename_i hkind
      exact localTunnelNext_routes htunnel hkind h
  | channel connectedPort => cases hevent
  | forward index event =>
    obtain ⟨forward, hforward, h⟩ := Option.bind_eq_some_iff.mp h
    exact forwardNext_routes hforward h

/-! ## The kinds of tunnels -/

theorem SessionRun.kindFits_serve (s : SessionRun) (command : SessionCommand)
    (hstage : s.stage = .select) : (serve request s command).stage.kindFits = true := by
  cases command with
  | tunnelOpen spec =>
    unfold serve
    dsimp only
    split
    · rename_i hkind
      show decide (spec.kind ≠ .remote) = true
      rw [hkind]
      rfl
    · rename_i hkind
      show decide (spec.kind ≠ .remote) = true
      rw [hkind]
      rfl
    · rename_i hkind
      exact decide_eq_true hkind
  | tunnelClose tunnelId =>
    unfold serve
    dsimp only
    split
    · rfl
    · rw [hstage]
      rfl
  | disconnect =>
    obtain ⟨left, new, hleave⟩ := s.leave_effect request.sessionId
    show (s.leave request.sessionId).stage.kindFits = true
    rw [hleave]
    rfl
  | write data => rfl
  | resize cols rows => rfl
  | tunnelCloseAll => rfl
  | sftp sftpRequest =>
    show s.stage.kindFits = true
    rw [hstage]
    rfl
  | transfer transferRequest =>
    show s.stage.kindFits = true
    rw [hstage]
    rfl
  | sftpCancelTransfer transferId =>
    show s.stage.kindFits = true
    rw [hstage]
    rfl
  | tunnelList =>
    show s.stage.kindFits = true
    rw [hstage]
    rfl

theorem SessionRun.kindFits_connectNext (s : SessionRun) (connect : ConnectStage) :
    (s.connectNext request connect).stage.kindFits = true := by
  cases connect with
  | start =>
    unfold connectNext
    dsimp only
    split
    · rfl
    · rfl
  | authenticate hop => rfl
  | stream hop => rfl
  | handshake hop => rfl
  | channelOpen => rfl
  | pty => rfl
  | shell => rfl

theorem SessionRun.kindFits_loopNext {event : LoopEvent} (hfits : s.stage.kindFits = true)
    (h : s.loopNext request event = some s') : s'.stage.kindFits = true := by
  unfold loopNext at h
  split at h
  · cases h
    exact kindFits_connectNext s _
  · cases h
  · cases h
    rfl
  · split at h <;> cases h
    rfl
  · rename_i hstage
    split at h
    · cases h
    · cases h
      exact kindFits_serve _ _ hstage
  · split at h
    · split at h
      · cases h
        exact hfits
      · cases h
        exact hfits
      · cases h
        obtain ⟨left, new, hleave⟩ := s.leave_effect request.sessionId
        rw [hleave]
        rfl
    · cases h
  · split at h <;> cases h
    obtain ⟨left, new, hflush, -⟩ := s.flush_effect request.sessionId false
    rw [hflush]
    exact hfits
  · cases h
    rfl
  · cases h
    rfl
  · cases h
    rfl
  · -- the answer of `tcpip_forward` keeps the specification
    rename_i hstage
    split at h
    · split at h
      · cases h
        rfl
      · cases h
        rw [hstage] at hfits
        exact hfits
    · cases h
  · cases h
    rfl
  · split at h <;> cases h
    rfl
  · rename_i leaving hstage
    cases h
    cases leaving with
    | true => rfl
    | false => rfl
  · split at h <;> cases h
    rfl
  · cases h
    rfl
  · cases h
    rfl
  · split at h <;> cases h
    rfl
  · cases h
    rfl
  · cases h
    rfl
  · cases h
    rfl
  · cases h

theorem SessionRun.kindFits_next {event : SessionEvent} (hfits : s.stage.kindFits = true)
    (h : s.next request event = some s') : s'.stage.kindFits = true := by
  cases event with
  | send command =>
    cases h
    exact hfits
  | loop event => exact kindFits_loopNext hfits h
  | task index event =>
    obtain ⟨task, -, h⟩ := Option.bind_eq_some_iff.mp h
    obtain ⟨task', lock, new, rfl, -⟩ := taskNext_effect h
    exact hfits
  | tunnel index event =>
    obtain ⟨tunnel, -, h⟩ := Option.bind_eq_some_iff.mp h
    rw [(tunnelNext_effect h).stage]
    exact hfits
  | channel connectedPort =>
    cases h
    obtain ⟨forwards, hforwards⟩ := s.openChannel_effect connectedPort
    rw [hforwards]
    exact hfits
  | forward index event =>
    obtain ⟨forward, -, h⟩ := Option.bind_eq_some_iff.mp h
    obtain ⟨forwards, new, rfl, -⟩ := forwardNext_effect h
    exact hfits

end FluxTerm.Ssh
