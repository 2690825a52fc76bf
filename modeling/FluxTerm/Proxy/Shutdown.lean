import FluxTerm.Proxy.Lifecycle

/-!
# FluxTerm — stopping a proxy

The shutdown drops futures: the stop signal drops `handle_client`, and the end of the grace period
aborts what is left. `relay_with_timeouts` aborts the other direction where it returns an error,
but when it is dropped itself nobody does: the two relay tasks run on, also after the status has
become `Stopped`.

* **`stopsForwarding_of_dropsNoRelay`** — the run lemma: steps that meet it keep every relay below
  a connection task that waits for it.
* **`close_detaches_relays`** — a proxy closed while a connection relays.
-/

namespace FluxTerm.Proxy

open FluxTerm.Lib

/-- Once the status is `Stopped`, no relay writes another byte and the traffic does not change. -/
def StopsForwarding (p : OpenProxy) : Prop :=
  p.status = .stopped → ∀ events p', openProxy.Run p events p' →
    (∀ index direction count, ProxyEvent.relay index direction (.wrote count) ∉ events) ∧
      p'.bytesOut = p.bytesOut ∧ p'.bytesIn = p.bytesIn

def DropsNoRelay (p : OpenProxy) : ProxyEvent → Prop
  | .conn index .stopSeen =>
    ∀ c, p.conns[index]? = some c → ∀ direction, c.relayLive direction = false
  | .graceOver => ∀ c ∈ p.conns, c.reaped = false → ∀ direction, c.relayLive direction = false
  | _ => True

/-! ## Relays under their connection -/

/-- A relay that runs is awaited by its connection. -/
def Conn.Owned (c : Conn) : Prop :=
  ∀ direction, c.relayLive direction = true →
    c.phase = .relaying ∨ c.phase = .awaiting direction

theorem Conn.running_of_relayLive {c : Conn} (h : c.Owned) {direction : TrafficDirection}
    (hlive : c.relayLive direction = true) : c.running = true := by
  rcases h direction hlive with hphase | hphase <;> simp [Conn.running, hphase]

theorem Conn.owned_of_quiet {c : Conn} (h : ∀ direction, c.relayLive direction = false) :
    c.Owned := fun direction hlive => by simp [h direction] at hlive

theorem Conn.Owned.quiet {c : Conn} (h : c.Owned) (hrelaying : c.phase ≠ .relaying)
    (hawaiting : ∀ direction, c.phase ≠ .awaiting direction) (direction : TrafficDirection) :
    c.relayLive direction = false := by
  rw [← Bool.not_eq_true]
  intro hlive
  rcases h direction hlive with hphase | hphase
  · exact hrelaying hphase
  · exact hawaiting direction hphase

theorem TrafficDirection.eq_or_eq_other (direction d : TrafficDirection) :
    d = direction ∨ d = direction.other := by
  cases direction <;> cases d <;> simp [TrafficDirection.other]

theorem TrafficDirection.other_ne (direction : TrafficDirection) :
    direction.other ≠ direction := by
  cases direction <;> simp [TrafficDirection.other]

theorem Conn.relayLive_of_done {c : Conn} {direction : TrafficDirection}
    {result : Except String ℕ}
    (h : (c.relays direction).map Relay.phase = some (.done result)) :
    c.relayLive direction = false := by
  obtain ⟨r, hr, hphase⟩ := Option.map_eq_some_iff.mp h
  simp [Conn.relayLive, hr, Relay.live, hphase]

theorem Conn.Owned.join {c c' : Conn} (h : c.Owned) {direction : TrafficDirection}
    (hjoin : c.join direction = some c') :
    c'.Owned ∧ c.running = true ∧ c'.reaped = c.reaped := by
  unfold Conn.join at hjoin
  split at hjoin
  · -- the first one is done, the other is awaited
    rename_i hphase hdone
    cases hjoin
    refine ⟨fun d hlive => ?_, by simp [Conn.running, hphase], rfl⟩
    rcases direction.eq_or_eq_other d with rfl | rfl
    · have hdead := Conn.relayLive_of_done hdone
      change c.relayLive d = true at hlive
      simp [hdead] at hlive
    · exact .inr rfl
  · -- the first one failed, the other is aborted
    rename_i hphase hdone
    cases hjoin
    refine ⟨Conn.owned_of_quiet fun d => ?_, by simp [Conn.running, hphase], rfl⟩
    rcases direction.eq_or_eq_other d with rfl | rfl
    · have hdead := Conn.relayLive_of_done hdone
      simpa [Conn.relayLive, Function.update_of_ne d.other_ne.symm] using hdead
    · cases c.relays direction.other <;> simp [Conn.relayLive, Relay.live_abort]
  · rename_i awaited result hphase hdone
    split at hjoin
    · rename_i heq
      subst heq
      -- both are done now
      have hquiet : ∀ d, c.relayLive d = false := by
        intro d
        rw [← Bool.not_eq_true]
        intro hlive
        rcases h d hlive with hp | hp
        · simp [hphase] at hp
        · rw [hphase, ConnPhase.awaiting.injEq] at hp
          subst hp
          simp [Conn.relayLive_of_done hdone] at hlive
      split at hjoin <;> cases hjoin <;>
        exact ⟨Conn.owned_of_quiet hquiet, by simp [Conn.running, hphase], rfl⟩
    · cases hjoin
  · cases hjoin

/-! ## One lemma a kind of step -/

variable {p p' : OpenProxy}

@[simp] theorem addTraffic_conns (p : OpenProxy) (direction : TrafficDirection) (count : ℕ) :
    (p.addTraffic direction count).conns = p.conns := by
  cases direction <;> rfl

@[simp] theorem addTraffic_loop (p : OpenProxy) (direction : TrafficDirection) (count : ℕ) :
    (p.addTraffic direction count).loop = p.loop := by
  cases direction <;> rfl

@[simp] theorem addTraffic_status (p : OpenProxy) (direction : TrafficDirection) (count : ℕ) :
    (p.addTraffic direction count).status = p.status := by
  cases direction <;> rfl

theorem connStep_spec {index : ℕ} {c : Conn} {event : ConnEvent}
    (hstep : p.connStep index c event = some p') (howned : c.Owned)
    (hdrops : event = .stopSeen → ∀ direction, c.relayLive direction = false) :
    c.running = true ∧ p'.loop = p.loop ∧ p'.status = p.status ∧
      ∃ c' : Conn, p'.conns = p.conns.set index c' ∧ c'.Owned ∧ c'.reaped = c.reaped := by
  -- before the relays are spawned, and after they were joined, none runs
  have hquiet : c.phase ≠ .relaying → (∀ direction, c.phase ≠ .awaiting direction) →
      ∀ phase, Conn.Owned { c with phase := phase } := fun hr ha phase =>
    Conn.owned_of_quiet (howned.quiet hr ha)
  cases event with
  | opened | reported | closed | handshakeFailed code =>
    rw [OpenProxy.connStep] at hstep
    split at hstep
    · rename_i hphase
      cases hstep
      refine ⟨by simp [Conn.running, hphase], rfl, rfl, _, rfl, ?_, rfl⟩
      exact hquiet (by simp [hphase]) (by simp [hphase]) _
    · cases hstep
  | handshakeDone initial =>
    rw [OpenProxy.connStep] at hstep
    split at hstep
    · rename_i hphase
      have hrunning : c.running = true := by simp [Conn.running, hphase]
      dsimp only at hstep
      split at hstep <;> cases hstep
      all_goals
        refine ⟨hrunning, rfl, rfl, _, rfl, ?_, rfl⟩
        exact hquiet (by simp [hphase]) (by simp [hphase]) _
    · cases hstep
  | accounted =>
    rw [OpenProxy.connStep] at hstep
    split at hstep
    · rename_i initial hphase
      cases hstep
      refine ⟨by simp [Conn.running, hphase], rfl, rfl, _, rfl, ?_, rfl⟩
      exact hquiet (by simp [hphase]) (by simp [hphase]) _
    · cases hstep
  | relaysSpawned =>
    rw [OpenProxy.connStep] at hstep
    split at hstep
    · rename_i hphase
      cases hstep
      exact ⟨by simp [Conn.running, hphase], rfl, rfl, _, rfl, fun _ _ => .inl rfl, rfl⟩
    · cases hstep
  | joined direction =>
    obtain ⟨c', hjoin, rfl⟩ := Option.map_eq_some_iff.mp hstep
    obtain ⟨howned', hrunning, hreaped⟩ := howned.join hjoin
    exact ⟨hrunning, rfl, rfl, c', rfl, howned', hreaped⟩
  | stopSeen =>
    rw [OpenProxy.connStep] at hstep
    split at hstep
    · rename_i hhandling
      cases hstep
      have hrunning : c.running = true := by
        rw [Bool.and_eq_true] at hhandling
        unfold Conn.handling at hhandling
        unfold Conn.running
        cases hphase : c.phase <;> simp_all
      exact ⟨hrunning, rfl, rfl, _, rfl, Conn.owned_of_quiet (hdrops rfl), rfl⟩
    · cases hstep

theorem relayStep_spec {index : ℕ} {direction : TrafficDirection} {event : RelayEvent}
    (hstep : p.step (.relay index direction event) = some p') :
    ∃ c c' : Conn, p.conns[index]? = some c ∧ c.relayLive direction = true ∧
      p'.conns = p.conns.set index c' ∧ p'.loop = p.loop ∧ p'.status = p.status ∧
      (c.Owned → c'.Owned) ∧ c'.reaped = c.reaped := by
  rw [OpenProxy.step] at hstep
  split at hstep
  · cases hstep
  rename_i c hc
  split at hstep
  · cases hstep
  rename_i r traffic hbind
  cases hstep
  obtain ⟨before, hbefore, hr⟩ := Option.bind_eq_some_iff.mp hbind
  have hlive : c.relayLive direction = true := by
    simp [Conn.relayLive, hbefore, Relay.live_of_step hr]
  refine ⟨c, { c with relays := Function.update c.relays direction (some r) }, hc, hlive,
    ?_, ?_, ?_, ?_, rfl⟩
  · simp [OpenProxy.setConn]
  · simp [OpenProxy.setConn]
  · simp [OpenProxy.setConn]
  · intro howned d hd
    by_cases heq : d = direction
    · subst heq
      exact howned d hlive
    · refine howned d ?_
      simpa [Conn.relayLive, Function.update_of_ne heq] using hd

/-! ## The invariant -/

/-- Every relay is awaited by its connection, and all connections have ended once the loop has
aborted them. -/
structure Owning (p : OpenProxy) : Prop where
  owned : ∀ c ∈ p.conns, c.Owned
  reaped : ∀ c ∈ p.conns, c.reaped = true → c.running = false
  ended : p.loop = .aborted ∨ p.loop = .stopped → ∀ c ∈ p.conns, c.running = false
  stopped : p.status = .stopped → p.loop = .stopped

theorem owning_listening : Owning listening := by
  refine ⟨?_, ?_, ?_, ?_⟩ <;> simp [listening]

theorem Owning.setConn (h : Owning p) {index : ℕ} {c c' : Conn} (hc : p.conns[index]? = some c)
    (hrunning : c.running = true) (howned : c'.Owned) (hreaped : c'.reaped = c.reaped)
    (hconns : p'.conns = p.conns.set index c') (hloop : p'.loop = p.loop)
    (hstatus : p'.status = p.status) : Owning p' := by
  have hmem : c ∈ p.conns := List.mem_of_getElem? hc
  refine ⟨?_, ?_, ?_, ?_⟩
  · rw [hconns]
    intro d hd
    rcases List.mem_or_eq_of_mem_set hd with hold | rfl
    · exact h.owned d hold
    · exact howned
  · rw [hconns]
    intro d hd hdone
    rcases List.mem_or_eq_of_mem_set hd with hold | rfl
    · exact h.reaped d hold hdone
    · rw [hreaped] at hdone
      simp [h.reaped c hmem hdone] at hrunning
  · rw [hloop]
    intro hover
    simp [h.ended hover c hmem] at hrunning
  · rw [hloop, hstatus]
    exact h.stopped

/-- **The step lemma.** -/
theorem Owning.step (h : Owning p) {event : ProxyEvent} (hdrops : DropsNoRelay p event)
    (hstep : p.step event = some p') : Owning p' := by
  cases event with
  | close =>
    cases hstep
    exact ⟨h.owned, h.reaped, h.ended, h.stopped⟩
  | stopRequested =>
    rw [OpenProxy.step] at hstep
    split at hstep
    · rename_i hloop
      cases hstep
      refine ⟨h.owned, h.reaped, by simp, fun hstatus => ?_⟩
      have hstopped := h.stopped hstatus
      simp [hloop.1] at hstopped
    · cases hstep
  | accepted =>
    rw [OpenProxy.step] at hstep
    split at hstep
    · rename_i hloop
      split at hstep
      · cases hstep
        have hnew : ∀ P : Conn → Prop, (∀ c ∈ p.conns, P c) → P { subscribed := p.version } →
            ∀ c ∈ p.conns ++ [{ subscribed := p.version }], P c := by
          intro P hall hlast c hmem
          rcases List.mem_append.mp hmem with hold | hlast'
          · exact hall c hold
          · cases List.mem_singleton.mp hlast'
            exact hlast
        refine ⟨?_, ?_, ?_, h.stopped⟩
        · exact hnew Conn.Owned h.owned (Conn.owned_of_quiet fun _ => rfl)
        · exact hnew _ h.reaped (by simp)
        · simp [hloop]
      · cases hstep
        exact ⟨h.owned, h.reaped, h.ended, h.stopped⟩
    · cases hstep
  | acceptFailed =>
    rw [OpenProxy.step] at hstep
    split at hstep
    · rename_i hloop
      cases hstep
      refine ⟨h.owned, h.reaped, by simp, fun hstatus => ?_⟩
      have hstopped := h.stopped hstatus
      simp [hloop] at hstopped
    · cases hstep
  | statusStopping =>
    rw [OpenProxy.step] at hstep
    split at hstep
    · cases hstep
      exact ⟨h.owned, h.reaped, by simp, by simp⟩
    · cases hstep
  | reap =>
    rw [OpenProxy.step] at hstep
    split at hstep
    · rename_i hloop
      cases hstep
      refine ⟨?_, ?_, ?_, h.stopped⟩
      · intro c hmem
        obtain ⟨c, hc, rfl⟩ := List.mem_map.mp hmem
        exact h.owned c hc
      · intro c hmem hreaped
        obtain ⟨c, hc, rfl⟩ := List.mem_map.mp hmem
        rcases Bool.or_eq_true_iff.mp hreaped with hold | hdone
        · exact h.reaped c hc hold
        · change c.running = false
          simpa using hdone
      · intro hover
        rcases hloop with hl | hl <;> simp [hl] at hover
    · cases hstep
  | graceOver =>
    rw [OpenProxy.step] at hstep
    split at hstep
    · rename_i hloop
      cases hstep
      -- what is aborted here has no relay, what was reaped has ended
      have hall : ∀ c ∈ p.conns.map fun c => if c.reaped then c else { c.abort with reaped := true },
          c.Owned ∧ c.running = false := by
        intro c hmem
        obtain ⟨c, hc, rfl⟩ := List.mem_map.mp hmem
        by_cases hreaped : c.reaped = true
        · rw [if_pos hreaped]
          exact ⟨h.owned c hc, h.reaped c hc hreaped⟩
        · rw [if_neg hreaped]
          exact ⟨Conn.owned_of_quiet (hdrops c hc (by simpa using hreaped)), rfl⟩
      refine ⟨fun c hmem => (hall c hmem).1, fun c hmem _ => (hall c hmem).2,
        fun _ c hmem => (hall c hmem).2, fun hstatus => ?_⟩
      have hstopped := h.stopped hstatus
      simp [hloop] at hstopped
    · cases hstep
  | statusStopped =>
    rw [OpenProxy.step] at hstep
    split at hstep
    · rename_i hloop
      cases hstep
      exact ⟨h.owned, h.reaped, fun _ => h.ended (.inl hloop), fun _ => rfl⟩
    · cases hstep
  | conn index event =>
    rw [OpenProxy.step] at hstep
    split at hstep
    · cases hstep
    · rename_i c hc
      have hquiet : event = .stopSeen → ∀ direction, c.relayLive direction = false := by
        rintro rfl
        exact hdrops c hc
      obtain ⟨hrunning, hloop, hstatus, c', hconns, howned, hreaped⟩ :=
        connStep_spec hstep (h.owned c (List.mem_of_getElem? hc)) hquiet
      exact h.setConn hc hrunning howned hreaped hconns hloop hstatus
  | relay index direction event =>
    obtain ⟨c, c', hc, hlive, hconns, hloop, hstatus, howned, hreaped⟩ := relayStep_spec hstep
    have hown := h.owned c (List.mem_of_getElem? hc)
    exact h.setConn hc (Conn.running_of_relayLive hown hlive) (howned hown) hreaped hconns hloop
      hstatus

/-! ## A stopped proxy -/

/-- The loop and all tasks have ended. -/
structure Quiet (p : OpenProxy) : Prop where
  loop : p.loop = .stopped
  conns : ∀ c ∈ p.conns, c.Owned ∧ c.running = false

theorem Quiet.step (h : Quiet p) {event : ProxyEvent} (hstep : p.step event = some p') :
    event = .close ∧ p' = { p with version := p.version + 1 } := by
  cases event with
  | close =>
    cases hstep
    exact ⟨rfl, rfl⟩
  | stopRequested | accepted | acceptFailed | statusStopping | reap | graceOver | statusStopped =>
    simp [OpenProxy.step, h.loop] at hstep
  | conn index event =>
    rw [OpenProxy.step] at hstep
    split at hstep
    · cases hstep
    · rename_i c hc
      obtain ⟨howned, hdone⟩ := h.conns c (List.mem_of_getElem? hc)
      have hquiet : ∀ direction, c.relayLive direction = false := by
        intro direction
        rw [← Bool.not_eq_true]
        intro hlive
        simp [Conn.running_of_relayLive howned hlive] at hdone
      have hrunning := (connStep_spec hstep howned fun _ => hquiet).1
      simp [hdone] at hrunning
  | relay index direction event =>
    obtain ⟨c, -, hc, hlive, -⟩ := relayStep_spec hstep
    obtain ⟨howned, hdone⟩ := h.conns c (List.mem_of_getElem? hc)
    simp [Conn.running_of_relayLive howned hlive] at hdone

theorem Quiet.run (h : Quiet p) {events : List ProxyEvent} (hrun : openProxy.Run p events p') :
    Quiet p' ∧ (∀ event ∈ events, event = .close) ∧ p'.bytesOut = p.bytesOut ∧
      p'.bytesIn = p.bytesIn := by
  induction hrun with
  | nil => exact ⟨h, by simp, rfl, rfl⟩
  | snoc _ hstep ih =>
    obtain ⟨hquiet, hevents, hout, hin⟩ := ih
    obtain ⟨rfl, rfl⟩ := hquiet.step hstep
    refine ⟨⟨hquiet.loop, hquiet.conns⟩, ?_, hout, hin⟩
    intro event hmem
    rcases List.mem_append.mp hmem with hold | hlast
    · exact hevents event hold
    · exact List.mem_singleton.mp hlast

/-- **A stopped proxy forwards nothing**, in every run whose steps drop no connection with a relay
that still runs. -/
theorem stopsForwarding_of_dropsNoRelay {p : OpenProxy}
    (h : (openProxy.restrict DropsNoRelay).Reachable p) : StopsForwarding p := by
  have howning : Owning p := by
    refine Machine.Reachable.induct ?_ ?_ h
    · rintro start rfl
      exact owning_listening
    · rintro before event after - ih ⟨hdrops, hstep⟩
      exact ih.step hdrops hstep
  intro hstatus events p' hrun
  have hloop := howning.stopped hstatus
  have hquiet : Quiet p :=
    ⟨hloop, fun c hmem => ⟨howning.owned c hmem, howning.ended (.inr hloop) c hmem⟩⟩
  obtain ⟨-, hevents, hout, hin⟩ := hquiet.run hrun
  refine ⟨fun index direction count hmem => ?_, hout, hin⟩
  cases hevents _ hmem

/-- A proxy is closed while its only client is still in the handshake. -/
theorem stopsForwarding_of_dropsNoRelay_handshake :
    ∃ p : OpenProxy, p.status = .stopped ∧ StopsForwarding p := by
  refine ⟨_, rfl, stopsForwarding_of_dropsNoRelay
    (.step (a := .statusStopped) (.step (a := .graceOver) (.step (a := .reap)
      (.step (a := .statusStopping) (.step (a := .stopRequested)
        (.step (a := .conn 0 .closed) (.step (a := .conn 0 .reported)
          (.step (a := .conn 0 .stopSeen) (.step (a := .close)
            (.step (a := .conn 0 .opened) (.step (a := .accepted) (.init rfl)
              ⟨trivial, rfl⟩) ⟨trivial, rfl⟩) ⟨trivial, rfl⟩) ⟨?_, rfl⟩) ⟨trivial, rfl⟩)
        ⟨trivial, rfl⟩) ⟨trivial, rfl⟩) ⟨trivial, rfl⟩) ⟨trivial, rfl⟩) ⟨?_, rfl⟩)
      ⟨trivial, rfl⟩)⟩
  · intro c hc direction
    cases hc
    rfl
  · intro c hmem hreaped
    cases List.mem_singleton.mp hmem
    cases hreaped

def relayingClient : List ProxyEvent :=
  [.accepted, .conn 0 .opened, .conn 0 (.handshakeDone 0), .conn 0 .relaysSpawned]

def closedByUser : List ProxyEvent :=
  [.close, .conn 0 .stopSeen, .conn 0 .reported, .conn 0 .closed, .stopRequested, .statusStopping,
    .reap, .graceOver, .statusStopped]

/-- A proxy is closed while a connection relays. Its status is `Stopped`, and the relay to the
upstream goes on. -/
theorem close_detaches_relays :
    ∃ p, openProxy.Reachable p ∧ p.status = .stopped ∧ ¬ StopsForwarding p := by
  obtain ⟨p, hp, p', hp'⟩ : ∃ p, Machine.exec OpenProxy.step listening
      (relayingClient ++ closedByUser) = some p ∧ ∃ p', Machine.exec OpenProxy.step p
        [.relay 0 .out (.read 5), .relay 0 .out (.wrote 5)] = some p' := ⟨_, rfl, _, rfl⟩
  have hstatus : p.status = .stopped := by
    cases hp
    rfl
  refine ⟨p, Machine.reachable_exec hp, hstatus, fun hstops => ?_⟩
  have hstill := hstops hstatus _ p' (Machine.run_of_exec _ p p' hp')
  exact hstill.1 0 .out 5 (by simp)

end FluxTerm.Proxy
