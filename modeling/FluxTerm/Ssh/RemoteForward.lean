import FluxTerm.Ssh.RouteSteps
import Mathlib.Data.List.Nodup

/-!
# FluxTerm — remote forwarding

The remote tunnels of an SSH session (`open_remote_tunnel`, its close task and
`server_channel_open_forwarded_tcpip` of `crates/engine/src/session.rs`) with the server at the
other end, which listens for them and opens a channel for each connection. The routes are kept
under the port that `tcpip_forward` returns: the port that the server has chosen when none is asked
for, and 0 when a port is asked for. A channel is looked up under the port that the server listens
on.

* **`routesRight_of_keepsApart`** — the routes are right where no tunnel with a fixed port gets a
  connection, and no two listeners have the same port.
* **`sampleFixed_unrouted`** — a tunnel with a fixed port, whose connections are refused.
-/

namespace FluxTerm.Ssh

open FluxTerm.Engine FluxTerm.Lib

/-! ## The server -/

structure Listener where
  host : Text
  /-- The port that `tcpip_forward` asks for. -/
  asked : ℕ
  port : ℕ
  tunnel : ℕ
deriving DecidableEq

/-- What `tcpip_forward` returns. -/
def Listener.reply (listener : Listener) : ℕ := if listener.asked = 0 then listener.port else 0

structure ChannelRecord where
  listener : Listener
  tunnel : Option Tunnel
  route : Option RemoteRoute

structure ForwardRun where
  session : SessionRun
  listeners : List Listener
  channels : List ChannelRecord

def ForwardRun.start : ForwardRun := ⟨.start, [], []⟩

inductive ForwardingEvent where
  | session (event : SessionEvent)
  /-- The server listens on a port, and answers `tcpip_forward`. -/
  | listen (port : ℕ)
  | connect (index : ℕ)
  /-- `cancel_tcpip_forward` reaches the server. -/
  | unlisten (index : ℕ)

/-- The server can listen on the port for the tunnel. -/
def canListen (listeners : List Listener) (spec : SshTunnelSpec) (port : ℕ) : Prop :=
  0 < port ∧ port < 2 ^ 16 ∧ (spec.bindPort = 0 ∨ spec.bindPort = port) ∧
    ∀ listener ∈ listeners, ¬(listener.host = spec.bindHost ∧ listener.port = port)

instance (listeners : List Listener) (spec : SshTunnelSpec) (port : ℕ) :
    Decidable (canListen listeners spec port) := by
  unfold canListen
  infer_instance

def Tunnel.cancels (tunnel : Tunnel) (listener : Listener) : Bool :=
  (tunnel.stage = .cancelling ∨ tunnel.stage = .finished) ∧
    tunnel.runtime.bindHost = listener.host ∧ tunnel.runtime.bindPort = listener.port

namespace ForwardRun

variable (request : SessionLoopRequest) (s : ForwardRun)

def stepSession (event : SessionEvent) : Option ForwardRun :=
  (s.session.next request event).map fun session => { s with session }

/-- The server listens for the tunnel that the session is about to open. -/
def listen (port : ℕ) : Option ForwardRun :=
  match s.session.stage with
  | .forwarding spec =>
    if canListen s.listeners spec port then
      let listener : Listener := ⟨spec.bindHost, spec.bindPort, port, s.session.tunnels.length⟩
      { s with listeners := s.listeners ++ [listener] }.stepSession request
        (.loop (.forwarded (.ok listener.reply)))
    else none
  | _ => none

def connect (listener : Listener) : ForwardRun :=
  let session := s.session.openChannel listener.port
  let found := session.forwards[s.session.forwards.length]?
  { s with
    session
    channels := s.channels ++
      [⟨listener, s.session.tunnels[listener.tunnel]?, found.map (·.route)⟩] }

/-- One step of a session with its server. -/
def next : ForwardingEvent → Option ForwardRun
  | .session event => if event.isServers then none else s.stepSession request event
  | .listen port => s.listen request port
  | .connect index => (s.listeners[index]?).map s.connect
  | .unlisten index =>
    (s.listeners[index]?).bind fun listener =>
      if (s.session.tunnels[listener.tunnel]?).any (·.cancels listener) then
        some { s with listeners := s.listeners.eraseIdx index }
      else none

end ForwardRun

def remoteForwarding (request : SessionLoopRequest) : Machine ForwardRun ForwardingEvent :=
  .ofStep .start (ForwardRun.next request)

/-! ## The property -/

/-- The channel goes to the target of its tunnel if that is open, and nowhere if it is closed. -/
def ChannelRecord.IsRight (channel : ChannelRecord) : Prop :=
  ∀ tunnel, channel.tunnel = some tunnel →
    (tunnel.stage = .opened → channel.route = some (tunnel.route channel.listener.tunnel)) ∧
    (tunnel.stage = .cancelling ∨ tunnel.stage = .finished → channel.route = none)

/-- Every channel has been looked up right, goes on as long as its tunnel is open, and is over
when its tunnel is closed. -/
structure RoutesRight (s : ForwardRun) : Prop where
  channels : ∀ channel ∈ s.channels, channel.IsRight
  kept : ∀ forward ∈ s.session.forwards, ∀ tunnel,
    s.session.tunnels[forward.route.tunnelId]? = some tunnel → tunnel.stage = .opened →
    forward.stage ≠ .aborted
  ended : ∀ forward ∈ s.session.forwards, forward.listed = true → ∀ tunnel,
    s.session.tunnels[forward.route.tunnelId]? = some tunnel →
    tunnel.stage = .cancelling ∨ tunnel.stage = .finished →
    forward.stage = .finished ∨ forward.stage = .aborted

def KeepsApart (s : ForwardRun) : ForwardingEvent → Prop
  | .listen port => ∀ listener ∈ s.listeners, listener.port ≠ port
  | .connect index => ∀ listener ∈ s.listeners[index]?,
      ∀ tunnel ∈ s.session.tunnels[listener.tunnel]?, tunnel.stage = .opened → listener.asked = 0
  | .session _ | .unlisten _ => True

instance (s : ForwardRun) (event : ForwardingEvent) : Decidable (KeepsApart s event) := by
  unfold KeepsApart
  split <;> infer_instance

/-! ## The invariant -/

/-- The routes, the tunnels and the listeners fit together. -/
structure Routed (s : ForwardRun) : Prop where
  fits : s.session.stage.kindFits = true
  port : ∀ listener ∈ s.listeners, 0 < listener.port ∧ listener.port < 2 ^ 16
  apart : (s.listeners.map (·.port)).Nodup
  owned : ∀ listener ∈ s.listeners, (∃ tunnel,
      s.session.tunnels[listener.tunnel]? = some tunnel ∧ tunnel.runtime.kind = .remote ∧
        (listener.asked = 0 → tunnel.runtime.bindPort = listener.port)) ∨
      listener.tunnel = s.session.tunnels.length ∧
        ∃ spec, s.session.stage = .routing spec listener.reply
  pending : ∀ spec port, s.session.stage = .routing spec port → port ≠ 0 →
    ∃ listener ∈ s.listeners, listener.tunnel = s.session.tunnels.length ∧ listener.port = port
  bound : ∀ (number : ℕ) tunnel, s.session.tunnels[number]? = some tunnel → tunnel.IsRouted →
    tunnel.runtime.bindPort ≠ 0 →
    s.session.routes tunnel.runtime.bindPort = some (tunnel.route number) ∧
      ∃ listener ∈ s.listeners, listener.tunnel = number ∧
        listener.port = tunnel.runtime.bindPort
  routes : ∀ port route, port ≠ 0 → s.session.routes port = some route →
    ∃ tunnel, s.session.tunnels[route.tunnelId]? = some tunnel ∧ tunnel.IsRouted ∧
      tunnel.runtime.bindPort = port
  registered : ∀ tunnel ∈ s.session.tunnels, tunnel.runtime.kind = .remote →
    (tunnel.registered = true ↔ tunnel.IsRouted)

/-- A channel belongs to a remote tunnel. It is aborted only when that is closed, and it is over
then if it is listed. -/
def ForwardsFit (s : SessionRun) : Prop :=
  ∀ forward ∈ s.forwards, ∃ tunnel,
    s.tunnels[forward.route.tunnelId]? = some tunnel ∧ tunnel.runtime.kind = .remote ∧
      (forward.stage = .aborted → ¬tunnel.IsRouted) ∧
      (forward.listed = true → ¬tunnel.IsRouted → forward.stage.isOver = true)

theorem Routed.start : Routed .start where
  fits := rfl
  port := List.forall_mem_nil _
  apart := List.nodup_nil
  owned := List.forall_mem_nil _
  pending := nofun
  bound _ _ h := by cases h
  routes := nofun
  registered := List.forall_mem_nil _

theorem forwardsFit_start : ForwardsFit .start := List.forall_mem_nil _

variable {request : SessionLoopRequest} {s : ForwardRun} {session : SessionRun}

theorem Routed.listener_eq (h : Routed s) {listener other : Listener}
    (hlistener : listener ∈ s.listeners) (hother : other ∈ s.listeners)
    (hport : listener.port = other.port) : listener = other :=
  List.inj_on_of_nodup_map h.apart hlistener hother hport

theorem Routed.tunnel_of_listener (h : Routed s) {listener : Listener} {tunnel : Tunnel}
    (hlistener : listener ∈ s.listeners)
    (htunnel : s.session.tunnels[listener.tunnel]? = some tunnel) :
    tunnel.runtime.kind = .remote ∧
      (listener.asked = 0 → tunnel.runtime.bindPort = listener.port) := by
  rcases h.owned listener hlistener with ⟨owner, howner, hfacts⟩ | ⟨hlast, -⟩
  · have heq : owner = tunnel := Option.some.inj (howner.symm.trans htunnel)
    exact heq ▸ hfacts
  · have hlt := (List.getElem?_eq_some_iff.mp htunnel).1
    omega

/-! ### A step of the session -/

theorem Routed.keep (h : Routed s) (hfits : session.stage.kindFits = true)
    (hstage : session.stage = s.session.stage ∨
      s.session.stage.isRouting = false ∧ session.stage.isRouting = false)
    (htunnels : Follow s.session.tunnels session.tunnels)
    (hroutes : session.routes = s.session.routes) : Routed { s with session } where
  fits := hfits
  port := h.port
  apart := h.apart
  owned listener hlistener := by
    rcases h.owned listener hlistener with ⟨tunnel, htunnel, hkind, hport⟩ | ⟨hlast, spec, hrouting⟩
    · obtain ⟨tunnel', htunnel', hfollows⟩ := htunnels.forward htunnel
      refine .inl ⟨tunnel', htunnel', hfollows.kind.trans hkind, fun hasked => ?_⟩
      exact hfollows.bindPort.trans (hport hasked)
    · rcases hstage with hstage | ⟨hnot, -⟩
      · exact .inr ⟨hlast.trans htunnels.length.symm, spec, hstage.trans hrouting⟩
      · rw [hrouting] at hnot
        cases hnot
  pending spec port hrouting hport := by
    rcases hstage with hstage | ⟨-, hnot⟩
    · obtain ⟨listener, hlistener, hlast, hlistens⟩ :=
        h.pending spec port (hstage.symm.trans hrouting) hport
      exact ⟨listener, hlistener, hlast.trans htunnels.length.symm, hlistens⟩
    · rw [show session.stage = _ from hrouting] at hnot
      cases hnot
  bound number tunnel' htunnel' hrouted hport := by
    obtain ⟨tunnel, htunnel, hfollows⟩ := htunnels.back htunnel'
    have hrouted := hfollows.routed.mp hrouted
    rw [hfollows.bindPort] at hport ⊢
    rw [hfollows.route]
    show session.routes _ = _ ∧ _
    rw [hroutes]
    exact h.bound number tunnel htunnel hrouted hport
  routes port route hport hroute := by
    have hroute : s.session.routes port = some route := hroutes ▸ hroute
    obtain ⟨tunnel, htunnel, hrouted, hbind⟩ := h.routes port route hport hroute
    obtain ⟨tunnel', htunnel', hfollows⟩ := htunnels.forward htunnel
    exact ⟨tunnel', htunnel', hfollows.routed.mpr hrouted, hfollows.bindPort.trans hbind⟩
  registered tunnel' hmem hkind := by
    obtain ⟨number, htunnel'⟩ := List.mem_iff_getElem?.mp hmem
    obtain ⟨tunnel, htunnel, hfollows⟩ := htunnels.back htunnel'
    rw [hfollows.registered, hfollows.routed]
    exact h.registered tunnel (List.mem_of_getElem? htunnel) (hfollows.kind.symm.trans hkind)

theorem Routed.openLocal (h : Routed s) {spec : SshTunnelSpec} {tunnel' : Tunnel}
    (hstage : s.session.stage = .binding spec) (hkind : tunnel'.runtime.kind = spec.kind)
    (hstage' : session.stage = .select)
    (htunnels : session.tunnels = s.session.tunnels ++ [tunnel'])
    (hroutes : session.routes = s.session.routes) : Routed { s with session } := by
  have hlocal : tunnel'.runtime.kind ≠ .remote := by
    have hfits := h.fits
    rw [hstage] at hfits
    rw [hkind]
    exact of_decide_eq_true hfits
  refine ⟨?_, h.port, h.apart, ?_, ?_, ?_, ?_, ?_⟩
  · show session.stage.kindFits = true
    rw [hstage']
    rfl
  · intro listener hlistener
    rcases h.owned listener hlistener with ⟨tunnel, htunnel, hfacts⟩ | ⟨-, spec, hrouting⟩
    · refine .inl ⟨tunnel, ?_, hfacts⟩
      show session.tunnels[_]? = _
      rw [htunnels]
      exact getElem?_opened htunnel
    · rw [hstage] at hrouting
      cases hrouting
  · intro spec port hrouting
    rw [show session.stage = _ from hstage'] at hrouting
    cases hrouting
  · intro number tunnel htunnel hrouted
    rw [show session.tunnels = _ from htunnels] at htunnel
    show _ → session.routes _ = _ ∧ _
    rw [hroutes]
    rcases of_getElem?_opened htunnel with htunnel | ⟨-, rfl⟩
    · exact h.bound number tunnel htunnel hrouted
    · exact absurd hrouted.1 hlocal
  · intro port route hport hroute
    rw [show session.routes = _ from hroutes] at hroute
    obtain ⟨tunnel, htunnel, hrouted⟩ := h.routes port route hport hroute
    refine ⟨tunnel, ?_, hrouted⟩
    show session.tunnels[_]? = _
    rw [htunnels]
    exact getElem?_opened htunnel
  · intro tunnel hmem hremote
    rw [show session.tunnels = _ from htunnels] at hmem
    rcases List.mem_append.mp hmem with hmem | hmem
    · exact h.registered tunnel hmem hremote
    · rw [List.mem_singleton.mp hmem] at hremote
      exact absurd hremote hlocal

theorem Routed.pending_port (h : Routed s) {spec : SshTunnelSpec} {port : ℕ}
    (hstage : s.session.stage = .routing spec port) : port % 2 ^ 16 = port := by
  by_cases hport : port = 0
  · rw [hport, Nat.zero_mod]
  · obtain ⟨listener, hlistener, -, hlistens⟩ := h.pending spec port hstage hport
    have hlt := (h.port listener hlistener).2
    exact Nat.mod_eq_of_lt (hlistens ▸ hlt)

theorem Routed.openRemote (h : Routed s) {spec : SshTunnelSpec} {port : ℕ} {tunnel' : Tunnel}
    (hstage : s.session.stage = .routing spec port) (hkind : tunnel'.runtime.kind = spec.kind)
    (hbindPort : tunnel'.runtime.bindPort = port % 2 ^ 16) (hopened : tunnel'.stage = .opened)
    (hregistered : tunnel'.registered = true) (hstage' : session.stage = .select)
    (htunnels : session.tunnels = s.session.tunnels ++ [tunnel'])
    (hroutes : session.routes = Function.update s.session.routes tunnel'.runtime.bindPort
      (some (tunnel'.route s.session.tunnels.length))) : Routed { s with session } := by
  have hremote : tunnel'.runtime.kind = .remote := by
    have hfits := h.fits
    rw [hstage] at hfits
    rw [hkind]
    exact of_decide_eq_true hfits
  have hrouted : tunnel'.IsRouted := ⟨hremote, .inl hopened⟩
  rw [h.pending_port hstage] at hbindPort
  rw [hbindPort] at hroutes
  have hlast : session.tunnels[s.session.tunnels.length]? = some tunnel' := by
    rw [htunnels]
    exact List.getElem?_concat_length
  refine ⟨?_, h.port, h.apart, ?_, ?_, ?_, ?_, ?_⟩
  · show session.stage.kindFits = true
    rw [hstage']
    rfl
  · intro listener hlistener
    rcases h.owned listener hlistener with ⟨tunnel, htunnel, hfacts⟩ | ⟨hwaits, spec', hrouting⟩
    · refine .inl ⟨tunnel, ?_, hfacts⟩
      show session.tunnels[_]? = _
      rw [htunnels]
      exact getElem?_opened htunnel
    · -- the tunnel that the listener waits for
      rw [hstage] at hrouting
      cases hrouting
      refine .inl ⟨tunnel', hwaits ▸ hlast, hremote, fun hasked => ?_⟩
      rw [hbindPort]
      exact if_pos hasked
  · intro spec port hrouting
    rw [show session.stage = _ from hstage'] at hrouting
    cases hrouting
  · intro number tunnel htunnel howns hport
    rw [show session.tunnels = _ from htunnels] at htunnel
    show session.routes _ = _ ∧ _
    rw [hroutes]
    rcases of_getElem?_opened htunnel with htunnel | ⟨rfl, rfl⟩
    · have hlt := (List.getElem?_eq_some_iff.mp htunnel).1
      obtain ⟨hroute, listener, hlistener, howner, hlistens⟩ :=
        h.bound number tunnel htunnel howns hport
      refine ⟨?_, listener, hlistener, howner, hlistens⟩
      rw [Function.update_of_ne ?_]
      · exact hroute
      · -- the ports differ, since their listeners do
        intro heq
        obtain ⟨other, hother, hwaits, hport'⟩ := h.pending spec port hstage (heq ▸ hport)
        have hsame := h.listener_eq hlistener hother (by omega)
        rw [hsame] at howner
        omega
    · rw [hbindPort] at hport ⊢
      exact ⟨Function.update_self _ _ _, h.pending spec port hstage hport⟩
  · intro other route hother hroute
    rw [show session.routes = _ from hroutes] at hroute
    by_cases heq : other = port
    · rw [heq, Function.update_self] at hroute
      cases hroute
      exact ⟨tunnel', hlast, hrouted, hbindPort.trans heq.symm⟩
    · rw [Function.update_of_ne heq] at hroute
      obtain ⟨tunnel, htunnel, howns⟩ := h.routes other route hother hroute
      refine ⟨tunnel, ?_, howns⟩
      show session.tunnels[_]? = _
      rw [htunnels]
      exact getElem?_opened htunnel
  · intro tunnel hmem hkind
    rw [show session.tunnels = _ from htunnels] at hmem
    rcases List.mem_append.mp hmem with hmem | hmem
    · exact h.registered tunnel hmem hkind
    · rw [List.mem_singleton.mp hmem]
      exact ⟨fun _ => hrouted, fun _ => hregistered⟩

theorem Routed.unroute (h : Routed s) {number : ℕ} {tunnel tunnel' : Tunnel}
    (hstage : session.stage = s.session.stage)
    (htunnel : s.session.tunnels[number]? = some tunnel) (hrouted : tunnel.IsRouted)
    (hruntime : tunnel'.runtime = tunnel.runtime) (hrouted' : ¬tunnel'.IsRouted)
    (hregistered : tunnel'.registered = false)
    (htunnels : session.tunnels = s.session.tunnels.set number tunnel')
    (hroutes : session.routes = Function.update s.session.routes tunnel.runtime.bindPort none) :
    Routed { s with session } := by
  have hlt := (List.getElem?_eq_some_iff.mp htunnel).1
  have hlength : session.tunnels.length = s.session.tunnels.length := by
    rw [htunnels, List.length_set]
  have hother : ∀ {other : ℕ}, other ≠ number →
      session.tunnels[other]? = s.session.tunnels[other]? := by
    intro other hne
    rw [htunnels, List.getElem?_set_ne hne.symm]
  have hself : session.tunnels[number]? = some tunnel' := by
    rw [htunnels, List.getElem?_set_self hlt]
  refine ⟨?_, h.port, h.apart, ?_, ?_, ?_, ?_, ?_⟩
  · show session.stage.kindFits = true
    rw [hstage]
    exact h.fits
  · intro listener hlistener
    rcases h.owned listener hlistener with ⟨owner, howner, hkind, hport⟩ | ⟨hlast, hrouting⟩
    · by_cases heq : listener.tunnel = number
      · rw [heq, htunnel] at howner
        cases howner
        refine .inl ⟨tunnel', heq ▸ hself, ?_⟩
        rw [hruntime]
        exact ⟨hkind, hport⟩
      · exact .inl ⟨owner, (hother heq).trans howner, hkind, hport⟩
    · refine .inr ⟨hlast.trans hlength.symm, ?_⟩
      show ∃ spec, session.stage = _
      rw [hstage]
      exact hrouting
  · intro spec port hrouting
    rw [show session.stage = _ from hstage] at hrouting
    show _ → ∃ listener ∈ s.listeners, listener.tunnel = session.tunnels.length ∧ _
    rw [hlength]
    exact h.pending spec port hrouting
  · intro other owner howner hown hport
    by_cases heq : other = number
    · rw [heq, show session.tunnels[number]? = _ from hself] at howner
      cases howner
      exact absurd hown hrouted'
    · rw [show session.tunnels[other]? = _ from hother heq] at howner
      obtain ⟨hroute, listener, hlistener, htheirs, hlistens⟩ :=
        h.bound other owner howner hown hport
      refine ⟨?_, listener, hlistener, htheirs, hlistens⟩
      show session.routes _ = _
      rw [hroutes, Function.update_of_ne ?_]
      · exact hroute
      · -- two tunnels with one port would have one listener
        intro hsame
        obtain ⟨-, mine, hmine, hours, hlistens'⟩ :=
          h.bound number tunnel htunnel hrouted (hsame ▸ hport)
        have hsame := h.listener_eq hlistener hmine (by omega)
        rw [hsame] at htheirs
        omega
  · intro port route hport hroute
    rw [show session.routes = _ from hroutes] at hroute
    by_cases heq : port = tunnel.runtime.bindPort
    · rw [heq, Function.update_self] at hroute
      cases hroute
    · rw [Function.update_of_ne heq] at hroute
      obtain ⟨owner, howner, hown, hbind⟩ := h.routes port route hport hroute
      refine ⟨owner, ?_, hown, hbind⟩
      have hne : route.tunnelId ≠ number := by
        intro hid
        rw [hid, htunnel] at howner
        cases howner
        exact heq hbind.symm
      exact (hother hne).trans howner
  · intro owner hmem hremote
    rw [show session.tunnels = _ from htunnels] at hmem
    rcases List.mem_or_eq_of_mem_set hmem with hmem | rfl
    · exact h.registered owner hmem hremote
    · rw [hregistered]
      exact ⟨nofun, fun hown => absurd hown hrouted'⟩

/-- **A step of the session** keeps the invariant. -/
theorem Routed.step (h : Routed s) {event : SessionEvent} (hevent : event.isServers = false)
    (hnext : s.session.next request event = some session) : Routed { s with session } := by
  have hfits := SessionRun.kindFits_next h.fits hnext
  cases SessionRun.next_routes hevent hnext with
  | keep hstage htunnels hroutes _ => exact h.keep hfits hstage htunnels hroutes
  | openLocal spec tunnel hstage hkind hstage' htunnels hroutes _ =>
    exact h.openLocal hstage hkind hstage' htunnels hroutes
  | openRemote spec port tunnel hstage hkind hbindPort hopened hregistered hstage' htunnels
      hroutes _ =>
    exact h.openRemote hstage hkind hbindPort hopened hregistered hstage' htunnels hroutes
  | unroute number tunnel tunnel' hstage htunnel hrouted hruntime hrouted' hregistered htunnels
      hroutes _ =>
    exact h.unroute hstage htunnel hrouted hruntime hrouted' hregistered htunnels hroutes
  | forward index forward forward' hstage htunnels hroutes _ _ _ =>
    exact h.keep hfits (.inl hstage) (htunnels ▸ Follow.refl _) hroutes

/-! ### A step of the server -/

theorem SessionRun.next_forwarded {s s' : SessionRun} {spec : SshTunnelSpec} {port : ℕ}
    (hstage : s.stage = .forwarding spec)
    (h : s.next request (.loop (.forwarded (.ok port))) = some s') :
    s' = (s.release .loop).goTo (.routing spec port) := by
  have h : s.loopNext request (.forwarded (.ok port)) = some s' := h
  unfold loopNext at h
  rw [hstage] at h
  dsimp only at h
  split at h
  · exact (Option.some.inj h).symm
  · cases h

theorem Routed.listen (h : Routed s) {port : ℕ} {s' : ForwardRun}
    (hapart : ∀ listener ∈ s.listeners, listener.port ≠ port)
    (hnext : s.listen request port = some s') : Routed s' := by
  unfold ForwardRun.listen at hnext
  split at hnext
  · rename_i spec hstage
    split at hnext
    · rename_i hcan
      obtain ⟨session, hsession, rfl⟩ := Option.map_eq_some_iff.mp hnext
      have hfits := SessionRun.kindFits_next h.fits hsession
      have hsession := SessionRun.next_forwarded hstage hsession
      subst hsession
      refine ⟨hfits, ?_, ?_, ?_, ?_, ?_, h.routes, h.registered⟩
      · intro listener hlistener
        rcases List.mem_append.mp hlistener with hlistener | hlistener
        · exact h.port listener hlistener
        · rw [List.mem_singleton.mp hlistener]
          exact ⟨hcan.1, hcan.2.1⟩
      · show ((s.listeners ++ [_]).map _).Nodup
        rw [List.map_append, List.map_singleton, ← List.concat_eq_append]
        refine h.apart.concat fun hmem => ?_
        obtain ⟨listener, hlistener, hsame⟩ := List.mem_map.mp hmem
        exact hapart listener hlistener hsame
      · intro listener hlistener
        rcases List.mem_append.mp hlistener with hlistener | hlistener
        · rcases h.owned listener hlistener with howned | ⟨-, other, hrouting⟩
          · exact .inl howned
          · rw [hstage] at hrouting
            cases hrouting
        · rw [List.mem_singleton.mp hlistener]
          exact .inr ⟨rfl, spec, rfl⟩
      · intro other reply hrouting hreply
        cases hrouting
        refine ⟨_, List.mem_append_right _ (List.mem_singleton_self _), rfl, ?_⟩
        -- a reply other than 0 is the port
        unfold Listener.reply at hreply ⊢
        split at hreply
        · rename_i hasked
          rw [if_pos hasked]
        · exact absurd rfl hreply
      · intro number tunnel htunnel hrouted hport
        obtain ⟨hroute, listener, hlistener, hfacts⟩ := h.bound number tunnel htunnel hrouted hport
        exact ⟨hroute, listener, List.mem_append_left _ hlistener, hfacts⟩
    · cases hnext
  · cases hnext

theorem Routed.connect (h : Routed s) (listener : Listener) : Routed (s.connect listener) := by
  obtain ⟨forwards, hforwards⟩ := s.session.openChannel_effect listener.port
  unfold ForwardRun.connect
  rw [hforwards]
  exact ⟨h.fits, h.port, h.apart, h.owned, h.pending, h.bound, h.routes, h.registered⟩

theorem Routed.unlisten (h : Routed s) {index : ℕ} {listener : Listener}
    (hlistener : s.listeners[index]? = some listener)
    (hcancels : (s.session.tunnels[listener.tunnel]?).any (·.cancels listener) = true) :
    Routed { s with listeners := s.listeners.eraseIdx index } := by
  have hsub := List.eraseIdx_sublist s.listeners index
  have hclosed : ∀ tunnel, s.session.tunnels[listener.tunnel]? = some tunnel →
      ¬tunnel.IsRouted := by
    intro tunnel htunnel
    rw [htunnel, Option.any_some, Tunnel.cancels, decide_eq_true_eq] at hcancels
    exact Tunnel.not_isRouted hcancels.1
  have hstays : ∀ other ∈ s.listeners, other.tunnel ≠ listener.tunnel →
      other ∈ s.listeners.eraseIdx index := by
    intro other hother hne
    obtain ⟨place, hplace⟩ := List.mem_iff_getElem?.mp hother
    refine List.mem_eraseIdx_iff_getElem?.mpr ⟨place, fun heq => hne ?_, hplace⟩
    rw [heq, hlistener] at hplace
    rw [Option.some.inj hplace]
  refine ⟨h.fits, fun other hother => h.port other (hsub.subset hother),
    h.apart.sublist (hsub.map _), fun other hother => h.owned other (hsub.subset hother), ?_, ?_,
    h.routes, h.registered⟩
  · intro spec port hrouting hport
    obtain ⟨other, hother, hwaits, hlistens⟩ := h.pending spec port hrouting hport
    refine ⟨other, hstays other hother fun heq => ?_, hwaits, hlistens⟩
    -- the tunnel of the other one is not there yet
    rw [← heq, hwaits, List.getElem?_eq_none le_rfl] at hcancels
    cases hcancels
  · intro number tunnel htunnel hrouted hport
    obtain ⟨hroute, other, hother, howner, hlistens⟩ := h.bound number tunnel htunnel hrouted hport
    refine ⟨hroute, other, hstays other hother fun heq => ?_, howner, hlistens⟩
    exact hclosed tunnel (heq ▸ howner ▸ htunnel) hrouted

/-! ### The channels -/

theorem ForwardsFit.keep {s s' : SessionRun} (h : ForwardsFit s)
    (htunnels : ∀ {number : ℕ} {tunnel}, s.tunnels[number]? = some tunnel →
      ∃ tunnel', s'.tunnels[number]? = some tunnel' ∧ tunnel.Follows tunnel')
    (hforwards : s'.forwards = s.forwards) : ForwardsFit s' := by
  intro forward hforward
  rw [hforwards] at hforward
  obtain ⟨tunnel, htunnel, hkind, haborted, hlisted⟩ := h forward hforward
  obtain ⟨tunnel', htunnel', hfollows⟩ := htunnels htunnel
  refine ⟨tunnel', htunnel', hfollows.kind.trans hkind, ?_, ?_⟩
  · rw [hfollows.routed]
    exact haborted
  · rw [hfollows.routed]
    exact hlisted

theorem ForwardsFit.unroute {s s' : SessionRun} (h : ForwardsFit s) {number : ℕ}
    {tunnel tunnel' : Tunnel} (htunnel : s.tunnels[number]? = some tunnel)
    (hruntime : tunnel'.runtime = tunnel.runtime) (hrouted' : ¬tunnel'.IsRouted)
    (htunnels : s'.tunnels = s.tunnels.set number tunnel')
    (hforwards : s'.forwards = s.forwards.map (Forward.endedBy number)) : ForwardsFit s' := by
  intro forward' hforward'
  rw [hforwards] at hforward'
  obtain ⟨forward, hforward, rfl⟩ := List.mem_map.mp hforward'
  obtain ⟨owner, howner, hkind, haborted, hlisted⟩ := h forward hforward
  rw [Forward.endedBy_route, htunnels]
  by_cases hnumber : forward.route.tunnelId = number
  · subst hnumber
    rw [htunnel] at howner
    cases howner
    refine ⟨tunnel', List.getElem?_set_self (List.getElem?_eq_some_iff.mp htunnel).1, ?_,
      fun _ => hrouted', fun hlisted _ => Forward.endedBy_isOver hlisted⟩
    rw [hruntime]
    exact hkind
  · rw [Forward.endedBy_of_ne hnumber, List.getElem?_set_ne (Ne.symm hnumber)]
    exact ⟨owner, howner, hkind, haborted, hlisted⟩

theorem ForwardsFit.move {s s' : SessionRun} (h : ForwardsFit s)
    (hregistered : ∀ tunnel ∈ s.tunnels, tunnel.runtime.kind = .remote →
      (tunnel.registered = true ↔ tunnel.IsRouted)) {index : ℕ} {forward forward' : Forward}
    (htunnels : s'.tunnels = s.tunnels) (hforward : s.forwards[index]? = some forward)
    (hmoves : forward.Moves s.tunnels[forward.route.tunnelId]? forward')
    (hforwards : s'.forwards = s.forwards.set index forward') : ForwardsFit s' := by
  intro other hother
  rw [hforwards] at hother
  rw [htunnels]
  rcases List.mem_or_eq_of_mem_set hother with hother | rfl
  · exact h other hother
  · obtain ⟨tunnel, htunnel, hkind, haborted, hlisted⟩ :=
      h forward (List.mem_of_getElem? hforward)
    have hiff := hregistered tunnel (List.mem_of_getElem? htunnel) hkind
    rw [htunnel] at hmoves
    cases hmoves with
    | goes hroute hbusy hstage hsame =>
      rw [hroute, hsame]
      refine ⟨tunnel, htunnel, hkind, fun h => absurd h hstage, fun hmine hclosed => ?_⟩
      rw [hlisted hmine hclosed] at hbusy
      cases hbusy
    | listed hroute hstage htask =>
      rw [hroute, hstage]
      exact ⟨tunnel, htunnel, hkind, haborted, fun _ hclosed => absurd (hiff.mp htask) hclosed⟩
    | refused hroute hstage htask =>
      rw [hroute]
      have hclosed : ¬tunnel.IsRouted := fun hrouted => by
        rw [Option.any_some, hiff.mpr hrouted] at htask
        cases htask
      exact ⟨tunnel, htunnel, hkind, fun _ => hclosed, fun _ _ => hstage⟩

theorem ForwardsFit.step {event : SessionEvent} (h : ForwardsFit s.session) (hrouted : Routed s)
    (hevent : event.isServers = false) (hnext : s.session.next request event = some session) :
    ForwardsFit session := by
  cases SessionRun.next_routes hevent hnext with
  | keep _ htunnels _ hforwards => exact h.keep htunnels.forward hforwards
  | openLocal spec tunnel _ _ _ htunnels _ hforwards =>
    refine h.keep (fun htunnel => ⟨_, ?_, .refl _⟩) hforwards
    rw [htunnels]
    exact getElem?_opened htunnel
  | openRemote spec port tunnel _ _ _ _ _ _ htunnels _ hforwards =>
    refine h.keep (fun htunnel => ⟨_, ?_, .refl _⟩) hforwards
    rw [htunnels]
    exact getElem?_opened htunnel
  | unroute number tunnel tunnel' _ htunnel _ hruntime hrouted' _ htunnels _ hforwards =>
    exact h.unroute htunnel hruntime hrouted' htunnels hforwards
  | forward index forward forward' _ htunnels _ hforward hmoves hforwards =>
    exact h.move hrouted.registered htunnels hforward hmoves hforwards

theorem found_of_openChannel (s : SessionRun) (port : ℕ) :
    ((s.openChannel port).forwards[s.forwards.length]?).map (·.route) =
      s.routes (port % 2 ^ 16) := by
  unfold SessionRun.openChannel
  split
  · rename_i route hroute
    rw [hroute, List.getElem?_concat_length]
    rfl
  · rename_i hroute
    rw [hroute, List.getElem?_eq_none le_rfl]
    rfl

theorem ForwardsFit.connect (h : ForwardsFit s.session) (hrouted : Routed s) {listener : Listener}
    (hlistener : listener ∈ s.listeners) : ForwardsFit (s.connect listener).session := by
  obtain ⟨hpos, hlt⟩ := hrouted.port listener hlistener
  show ForwardsFit (s.session.openChannel listener.port)
  unfold SessionRun.openChannel
  rw [Nat.mod_eq_of_lt hlt]
  split
  · rename_i route hroute
    intro forward hforward
    rcases List.mem_append.mp hforward with hforward | hforward
    · exact h forward hforward
    · rw [List.mem_singleton.mp hforward]
      obtain ⟨tunnel, htunnel, hown, -⟩ := hrouted.routes _ route (Nat.ne_of_gt hpos) hroute
      exact ⟨tunnel, htunnel, hown.1, nofun, nofun⟩
  · exact h

theorem Routed.isRight (h : Routed s) {listener : Listener} (hlistener : listener ∈ s.listeners)
    (hasked : ∀ tunnel ∈ s.session.tunnels[listener.tunnel]?, tunnel.stage = .opened →
      listener.asked = 0) :
    ∀ channel ∈ (s.connect listener).channels, channel ∈ s.channels ∨ channel.IsRight := by
  intro channel hchannel
  rcases List.mem_append.mp hchannel with hchannel | hchannel
  · exact .inl hchannel
  right
  rw [List.mem_singleton.mp hchannel]
  obtain ⟨hpos, hlt⟩ := h.port listener hlistener
  intro tunnel (htunnel : s.session.tunnels[listener.tunnel]? = some tunnel)
  obtain ⟨hkind, hport⟩ := h.tunnel_of_listener hlistener htunnel
  show (_ → _ = some (tunnel.route listener.tunnel)) ∧ (_ → _ = none)
  dsimp only
  rw [found_of_openChannel, Nat.mod_eq_of_lt hlt]
  refine ⟨fun hopened => ?_, fun hclosed => ?_⟩
  · have hport := hport (hasked tunnel htunnel hopened)
    rw [← hport]
    exact (h.bound listener.tunnel tunnel htunnel ⟨hkind, .inl hopened⟩ (by omega)).1
  · cases hroute : s.session.routes listener.port with
    | none => rfl
    | some route =>
      -- the tunnel of the route has another listener with the same port
      obtain ⟨owner, howner, hrouted, hbind⟩ := h.routes _ route (Nat.ne_of_gt hpos) hroute
      obtain ⟨-, other, hother, htheirs, hlistens⟩ :=
        h.bound route.tunnelId owner howner hrouted (by omega)
      have hsame := h.listener_eq hother hlistener (by omega)
      rw [← htheirs, hsame, htunnel] at howner
      cases howner
      exact absurd hrouted (Tunnel.not_isRouted hclosed)

/-! ## Every run -/

/-- The routes of a run are in order, and all its channels have been right. -/
structure InOrder (s : ForwardRun) : Prop where
  routed : Routed s
  forwards : ForwardsFit s.session
  channels : ∀ channel ∈ s.channels, channel.IsRight

/-- **A step** that keeps the ports apart. -/
theorem InOrder.next (h : InOrder s) {event : ForwardingEvent} {s' : ForwardRun}
    (hapart : KeepsApart s event) (hnext : s.next request event = some s') : InOrder s' := by
  cases event with
  | session event =>
    have hnext : (if event.isServers then none else s.stepSession request event) = some s' := hnext
    split at hnext
    · cases hnext
    · rename_i hevent
      have hevent : event.isServers = false := Bool.not_eq_true _ ▸ hevent
      obtain ⟨session, hsession, rfl⟩ := Option.map_eq_some_iff.mp hnext
      exact ⟨h.routed.step hevent hsession, h.forwards.step h.routed hevent hsession, h.channels⟩
  | listen port =>
    have hrouted := h.routed.listen hapart hnext
    have hsame : s'.session.tunnels = s.session.tunnels ∧
        s'.session.forwards = s.session.forwards ∧ s'.channels = s.channels := by
      have hnext : s.listen request port = some s' := hnext
      unfold ForwardRun.listen at hnext
      split at hnext
      · rename_i spec hstage
        split at hnext
        · obtain ⟨session, hsession, rfl⟩ := Option.map_eq_some_iff.mp hnext
          rw [SessionRun.next_forwarded hstage hsession]
          exact ⟨rfl, rfl, rfl⟩
        · cases hnext
      · cases hnext
    refine ⟨hrouted, ?_, hsame.2.2 ▸ h.channels⟩
    refine h.forwards.keep (fun htunnel => ⟨_, ?_, .refl _⟩) hsame.2.1
    rw [hsame.1]
    exact htunnel
  | connect index =>
    obtain ⟨listener, hlistener, rfl⟩ := Option.map_eq_some_iff.mp hnext
    have hmem := List.mem_of_getElem? hlistener
    refine ⟨h.routed.connect listener, h.forwards.connect h.routed hmem, fun channel hchannel => ?_⟩
    rcases h.routed.isRight hmem (hapart listener hlistener) channel hchannel with hold | hright
    · exact h.channels channel hold
    · exact hright
  | unlisten index =>
    obtain ⟨listener, hlistener, hnext⟩ := Option.bind_eq_some_iff.mp hnext
    split at hnext
    · rename_i hcancels
      cases hnext
      exact ⟨h.routed.unlisten hlistener hcancels, h.forwards, h.channels⟩
    · cases hnext

theorem InOrder.routesRight (h : InOrder s) : RoutesRight s where
  channels := h.channels
  kept forward hforward tunnel htunnel hopened haborted := by
    obtain ⟨owner, howner, hkind, hclosed, -⟩ := h.forwards forward hforward
    rw [htunnel] at howner
    cases howner
    exact hclosed haborted ⟨hkind, .inl hopened⟩
  ended forward hforward hlisted tunnel htunnel hstage := by
    obtain ⟨owner, howner, -, -, hover⟩ := h.forwards forward hforward
    rw [htunnel] at howner
    cases howner
    exact ForwardStage.eq_of_isOver (hover hlisted (Tunnel.not_isRouted hstage))

/-- **The routes are right** where no two listeners have the same port and no open tunnel with a
fixed port gets a connection. -/
theorem routesRight_of_keepsApart (request : SessionLoopRequest) (s : ForwardRun)
    (h : ((remoteForwarding request).restrict KeepsApart).Reachable s) : RoutesRight s := by
  refine InOrder.routesRight (h.induct ?_ ?_)
  · rintro s rfl
    exact ⟨.start, forwardsFit_start, List.forall_mem_nil _⟩
  · intro s event s' _ hs hstep
    exact hs.next hstep.1 hstep.2

def sampleRemote (bindPort : ℕ) : SshTunnelSpec :=
  ⟨.remote, none, "0.0.0.0".toList, bindPort, some "localhost".toList, some 8080⟩

/-- The tunnel is opened, the server listens on `port`, and a connection comes. -/
def sampleForwarding (bindPort port : ℕ) : List ForwardingEvent :=
  sampleConnect.map .session ++
    [.session (.send (.tunnelOpen (sampleRemote bindPort))), .session (.loop .recv), .listen port,
      .session (.loop .go), .connect 0]

/-- A tunnel without a port of its own. -/
theorem sampleForwarding_right : ∃ s, RoutesRight s ∧
    s.channels.map (·.route) = [some ⟨0, "localhost".toList, 8080⟩] := by
  have hrun : ∃ s, Machine.exec (fun s event =>
        if KeepsApart s event then s.next sampleSession event else none) .start
        (sampleForwarding 0 40000) = some s ∧
      s.channels.map (·.route) = [some ⟨0, "localhost".toList, 8080⟩] := ⟨_, rfl, rfl⟩
  obtain ⟨s, hexec, hroute⟩ := hrun
  have hreach := Machine.reachable_restrict (Machine.reachable_exec hexec)
  exact ⟨s, routesRight_of_keepsApart sampleSession s hreach, hroute⟩

/-- A tunnel with a fixed port: its route is kept under 0, and no connection finds it. -/
theorem sampleFixed_unrouted :
    ¬∀ s, (remoteForwarding sampleSession).Reachable s → RoutesRight s := by
  intro h
  have hrun : ∃ s channel tunnel, Machine.exec (ForwardRun.next sampleSession) .start
        (sampleForwarding 9000 9000) = some s ∧ s.channels = [channel] ∧
      channel.tunnel = some tunnel ∧ tunnel.stage = .opened ∧ channel.route = none :=
    ⟨_, _, _, rfl, rfl, rfl, rfl, rfl⟩
  obtain ⟨s, channel, tunnel, hexec, hchannels, htunnel, hopened, hroute⟩ := hrun
  have hright := (h s (Machine.reachable_exec hexec)).channels channel
    (hchannels ▸ List.mem_singleton_self channel)
  have hfound := (hright tunnel htunnel).1 hopened
  rw [hroute] at hfound
  cases hfound

end FluxTerm.Ssh
