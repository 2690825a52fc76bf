import Mathlib.Algebra.Order.BigOperators.Group.Finset
import FluxTerm.Lib.Workers
import FluxTerm.Proxy.Shutdown

/-!
# FluxTerm — what a proxy counts

The counters of a proxy beside a meter of what was really written: the traffic is added up in each
relay and passed to `add_traffic` now and then, a connection is counted between `on_conn_open` and
`on_conn_close`, and a permit is held as long as its task.

* **`accounting_exact`** — the connections are counted in every run, the bytes in runs that keep
  to it.
-/

namespace FluxTerm.Proxy

open FluxTerm.Lib

/-! ## The meter -/

def Relay.payload (r : Relay) : RelayEvent → ℕ
  | .wrote count =>
    match r.phase with
    | .writing left delta => if count = left then delta else 0
    | _ => 0
  | _ => 0

namespace OpenProxy

def bytes (p : OpenProxy) : TrafficDirection → ℕ
  | .out => p.bytesOut
  | .into => p.bytesIn

def payload (p : OpenProxy) (event : ProxyEvent) (direction : TrafficDirection) : ℕ :=
  match event with
  | .relay index moved event =>
    if moved = direction then
      ((p.conns[index]?).bind (·.relays moved)).elim 0 (·.payload event)
    else 0
  | _ => 0

end OpenProxy

structure Meter where
  proxy : OpenProxy
  wrote : TrafficDirection → ℕ
  head : ℕ → ℕ

inductive MeterEvent where
  | proxy (event : ProxyEvent)
  | handshakeWrote (index count : ℕ)

namespace Meter

def start : Meter := ⟨listening, fun _ => 0, fun _ => 0⟩

/-- `initial_bytes_out` is what the handshake has written. -/
def allows (m : Meter) : ProxyEvent → Bool
  | .conn index (.handshakeDone initial) => initial == m.head index
  | _ => true

def next (m : Meter) : MeterEvent → Option Meter
  | .proxy event =>
    if m.allows event then
      (m.proxy.step event).map fun proxy =>
        { m with
          proxy := proxy
          wrote := fun direction => m.wrote direction + m.proxy.payload event direction }
    else none
  | .handshakeWrote index count => do
    let c ← m.proxy.conns[index]?
    match c.phase with
    | .handshaking =>
      some
        { m with
          wrote := Function.update m.wrote .out (m.wrote .out + count)
          head := Function.update m.head index (m.head index + count) }
    | _ => none

end Meter

def meter : Machine Meter MeterEvent := .ofStep .start Meter.next

/-! ## What is wanted -/

/-- The task is between `on_conn_open` and `on_conn_close`. -/
def Conn.counted (c : Conn) : Bool :=
  match c.phase with
  | .opening | .finished => false
  | .handshaking | .accounting _ | .starting | .relaying | .awaiting _ | .reporting _ | .closing =>
    true

def OpenProxy.Idle (p : OpenProxy) : Prop := ∀ c ∈ p.conns, c.running = false

structure Counted (p : OpenProxy) : Prop where
  active : p.activeConnections = p.conns.countP Conn.counted
  limit : p.activeConnections ≤ maxActiveConnections
  idle : p.Idle → p.activeConnections = 0 ∧ maxActiveConnections - p.permitsHeld = 256

def Accounted (m : Meter) : Prop :=
  m.proxy.Idle → m.proxy.bytesOut = m.wrote .out ∧ m.proxy.bytesIn = m.wrote .into

/-- `close` is not called, and `accept` does not fail. -/
def StaysOpen (_ : Meter) : MeterEvent → Prop
  | .proxy .close | .proxy .acceptFailed => False
  | _ => True

/-- A direction that is aborted has passed on what it has counted, a handshake that fails has
written nothing, and the bytes fit in 64 bits. -/
def LosesNothing (m : Meter) : MeterEvent → Prop
  | .proxy (.conn index (.handshakeFailed _)) => m.head index = 0
  | .proxy (.conn index (.joined direction)) =>
    ∀ (c : Conn) (code : String), m.proxy.conns[index]? = some c → c.phase = .relaying →
      (c.relays direction).map Relay.phase = some (.done (.error code)) →
      ∀ r, c.relays direction.other = some r → r.live = true → r.pending = 0
  | .proxy event => ∀ direction, m.wrote direction + m.proxy.payload event direction < 2 ^ 64
  | .handshakeWrote _ count => m.wrote .out + count < 2 ^ 64

/-! ## What is owed to the counters -/

def Relay.owed (r : Relay) : ℕ := if r.live then r.pending else 0

namespace Conn

def relayOwed (c : Conn) (direction : TrafficDirection) : ℕ :=
  (c.relays direction).elim 0 Relay.owed

/-- The bytes of the request that are not added up yet; `head` of them are written. -/
def initialOwed (c : Conn) (head : ℕ) : TrafficDirection → ℕ
  | .into => 0
  | .out =>
    match c.phase with
    | .opening | .handshaking => head
    | .accounting initial => initial
    | _ => 0

def owed (c : Conn) (head : ℕ) (direction : TrafficDirection) : ℕ :=
  c.relayOwed direction + c.initialOwed head direction

end Conn

theorem saturatingAdd_of_lt {a b : ℕ} (h : a + b < 2 ^ 64) : saturatingAdd a b = a + b := by
  unfold saturatingAdd
  omega

theorem bytes_addTraffic {p : OpenProxy} {moved : TrafficDirection} {count : ℕ}
    (h : p.bytes moved + count < 2 ^ 64) (direction : TrafficDirection) :
    (p.addTraffic moved count).bytes direction =
      p.bytes direction + if moved = direction then count else 0 := by
  cases moved <;> cases direction <;>
    simp [OpenProxy.addTraffic, OpenProxy.bytes] at h ⊢ <;> exact saturatingAdd_of_lt h

theorem Relay.owed_step {r r' : Relay} {event : RelayEvent} {traffic : ℕ}
    (h : r.step event = some (r', traffic)) (hsmall : r.owed + r.payload event < 2 ^ 64) :
    r'.owed + traffic = r.owed + r.payload event := by
  have hlive := Relay.live_of_step h
  have howed : r.owed = r.pending := if_pos hlive
  rw [howed] at hsmall ⊢
  cases event with
  | read count =>
    have hphase : r.phase = .reading := Relay.phase_of_step h
    simp only [Relay.step, hphase] at h
    split at h
    · cases h
      rfl
    · split at h
      · cases h
        rfl
      · cases h
  | failed timedOut =>
    rcases Relay.phase_of_step h with hphase | ⟨left, delta, hphase⟩
    all_goals
      simp only [Relay.step, hphase, Option.some.injEq, Prod.mk.injEq] at h
      rw [← h.1, ← h.2]
      rfl
  | wrote count =>
    obtain ⟨left, delta, hphase⟩ := Relay.phase_of_step h
    simp only [Relay.payload, hphase] at hsmall ⊢
    simp only [Relay.step, hphase] at h
    split at h
    · cases h
    rename_i hcount
    rw [Bool.or_eq_true, not_or, decide_eq_true_eq, decide_eq_true_eq] at hcount
    split at h
    · rename_i hpart
      cases h
      rw [if_neg (Nat.ne_of_lt hpart)]
      rfl
    · have hlast : count = left := by omega
      cases h
      rw [if_pos hlast] at hsmall ⊢
      exact saturatingAdd_of_lt hsmall
  | reported =>
    have hphase : r.phase = .wrote := Relay.phase_of_step h
    simp only [Relay.step, hphase] at h
    split at h
    · cases h
      exact Nat.zero_add _
    · cases h
  | goesOn =>
    have hphase : r.phase = .wrote := Relay.phase_of_step h
    simp only [Relay.step, hphase, Option.some.injEq, Prod.mk.injEq] at h
    rw [← h.1, ← h.2]
    rfl
  | flushed =>
    obtain ⟨result, hphase⟩ := Relay.phase_of_step h
    simp only [Relay.step, hphase, Option.some.injEq, Prod.mk.injEq] at h
    rw [← h.1, ← h.2]
    exact Nat.zero_add _

theorem Conn.relayOwed_of_quiet {c : Conn} {direction : TrafficDirection}
    (h : c.relayLive direction = false) : c.relayOwed direction = 0 := by
  unfold Conn.relayOwed
  cases hr : c.relays direction with
  | none => rfl
  | some r =>
    have hdead : r.live = false := by
      rw [Conn.relayLive, hr] at h
      exact h
    exact if_neg (by rw [hdead]; exact Bool.false_ne_true)

/-! ## A connection task -/

/-- What a step of a connection task does to the counters. -/
structure ConnAccounts (p p' : OpenProxy) (c c' : Conn) : Prop where
  active : p'.activeConnections + c.counted.toNat = p.activeConnections + c'.counted.toNat
  running : c.running = true
  owned : c'.Owned
  loop : p'.loop = p.loop
  version : p'.version = p.version

/-- And to the bytes. -/
def ConnPays (p p' : OpenProxy) (c c' : Conn) (head : ℕ) : Prop :=
  ∀ direction, p'.bytes direction + c'.owed head direction =
    p.bytes direction + c.owed head direction

def ConnLosesNothing (c : Conn) (head : ℕ) : ConnEvent → Prop
  | .handshakeDone initial => initial = head
  | .handshakeFailed _ => head = 0
  | .joined direction => ∀ code : String, c.phase = .relaying →
    (c.relays direction).map Relay.phase = some (.done (.error code)) →
    ∀ r, c.relays direction.other = some r → r.live = true → r.pending = 0
  | _ => True

section ConnStep

variable {p p' : OpenProxy} {c c' : Conn} {head : ℕ}

theorem owed_congr {direction : TrafficDirection}
    (hrelay : c'.relayOwed direction = c.relayOwed direction)
    (hinitial : c'.initialOwed head direction = c.initialOwed head direction) :
    c'.owed head direction = c.owed head direction := by
  rw [Conn.owed, Conn.owed, hrelay, hinitial]

theorem connPays_of_phase {phase : ConnPhase} {p' : OpenProxy}
    (hbytes : p'.bytes = p.bytes)
    (hinitial : ∀ direction, Conn.initialOwed { c with phase := phase } head direction =
      c.initialOwed head direction) : ConnPays p p' c { c with phase := phase } head := by
  intro direction
  rw [hbytes]
  exact congrArg _ (owed_congr rfl (hinitial direction))

theorem connPays_join {direction : TrafficDirection} {index : ℕ}
    (hjoin : c.join direction = some c')
    (hloses : ConnLosesNothing c head (.joined direction)) :
    ConnPays p (p.setConn index c') c c' head := by
  intro d
  have hbytes : (p.setConn index c').bytes d = p.bytes d := by cases d <;> rfl
  rw [hbytes]
  unfold Conn.join at hjoin
  split at hjoin
  · rename_i hphase hdone
    cases hjoin
    refine congrArg _ (owed_congr rfl ?_)
    cases d <;> simp [Conn.initialOwed, hphase]
  · rename_i code hphase hdone
    cases hjoin
    refine congrArg _ (owed_congr ?_ ?_)
    · -- the direction that is aborted owes nothing
      rcases direction.eq_or_eq_other d with rfl | rfl
      · simp [Conn.relayOwed, Function.update_of_ne d.other_ne.symm]
      · simp only [Conn.relayOwed, Function.update_self]
        cases hr : c.relays direction.other with
        | none => rfl
        | some r =>
          have hpaid : r.owed = 0 := by
            unfold Relay.owed
            split
            · rename_i hlive
              exact hloses code hphase hdone r hr hlive
            · rfl
          have haborted : r.abort.owed = 0 :=
            if_neg (by rw [Relay.live_abort]; exact Bool.false_ne_true)
          exact haborted.trans hpaid.symm
    · cases d <;> simp [Conn.initialOwed, hphase]
  · rename_i awaited result hphase hdone
    split at hjoin
    · split at hjoin
      all_goals
        cases hjoin
        refine congrArg _ (owed_congr rfl ?_)
        cases d <;> simp [Conn.initialOwed, hphase]
    · cases hjoin
  · cases hjoin

/-- **A connection task and the counters.** -/
theorem connStep_accounts (head : ℕ) {index : ℕ} {event : ConnEvent}
    (hstep : p.connStep index c event = some p') (howned : c.Owned) (hversion : p.version = 0)
    (hactive : c.counted = true → 0 < p.activeConnections) :
    ∃ c', p'.conns = p.conns.set index c' ∧ ConnAccounts p p' c c' ∧
      (ConnLosesNothing c head event → (∀ d, p.bytes d + c.owed head d < 2 ^ 64) →
        ConnPays p p' c c' head) := by
  have hquiet : c.phase ≠ .relaying → (∀ direction, c.phase ≠ .awaiting direction) →
      ∀ phase, Conn.Owned { c with phase := phase } := fun hr ha phase =>
    Conn.owned_of_quiet (howned.quiet hr ha)
  cases event with
  | opened | reported =>
    rw [OpenProxy.connStep] at hstep
    split at hstep
    · rename_i hphase
      cases hstep
      refine ⟨_, rfl, ⟨?_, ?_, hquiet (by simp [hphase]) (by simp [hphase]) _, rfl, rfl⟩,
        fun _ _ => ?_⟩
      · simp [Conn.counted, hphase, OpenProxy.setConn]
      · simp [Conn.running, hphase]
      · refine connPays_of_phase rfl fun direction => ?_
        cases direction <;> simp [Conn.initialOwed, hphase]
    · cases hstep
  | handshakeDone initial =>
    rw [OpenProxy.connStep] at hstep
    split at hstep
    · rename_i hphase
      dsimp only at hstep
      split at hstep
      · cases hstep
        refine ⟨_, rfl, ⟨?_, ?_, hquiet (by simp [hphase]) (by simp [hphase]) _, rfl, rfl⟩,
          fun hloses _ => ?_⟩
        · simp [Conn.counted, hphase, OpenProxy.setConn]
        · simp [Conn.running, hphase]
        · refine connPays_of_phase rfl fun direction => ?_
          cases direction
          · simp only [Conn.initialOwed, hphase]
            exact hloses
          · rfl
      · rename_i hzero
        cases hstep
        refine ⟨_, rfl, ⟨?_, ?_, hquiet (by simp [hphase]) (by simp [hphase]) _, rfl, rfl⟩,
          fun hloses _ => ?_⟩
        · simp [Conn.counted, hphase, OpenProxy.setConn]
        · simp [Conn.running, hphase]
        · refine connPays_of_phase rfl fun direction => ?_
          cases direction
          · simp only [Conn.initialOwed, hphase]
            exact (Nat.eq_zero_of_not_pos (hloses ▸ hzero)).symm
          · rfl
    · cases hstep
  | handshakeFailed code =>
    rw [OpenProxy.connStep] at hstep
    split at hstep
    · rename_i hphase
      cases hstep
      refine ⟨_, rfl, ⟨?_, ?_, hquiet (by simp [hphase]) (by simp [hphase]) _, rfl, rfl⟩,
        fun hloses _ => ?_⟩
      · simp [Conn.counted, hphase, OpenProxy.setConn]
      · simp [Conn.running, hphase]
      · refine connPays_of_phase rfl fun direction => ?_
        cases direction
        · simp only [Conn.initialOwed, hphase]
          exact hloses.symm
        · rfl
    · cases hstep
  | accounted =>
    rw [OpenProxy.connStep] at hstep
    split at hstep
    · rename_i initial hphase
      cases hstep
      refine ⟨{ c with phase := .starting }, by simp [OpenProxy.setConn],
        ⟨?_, ?_, hquiet (by simp [hphase]) (by simp [hphase]) _, rfl, rfl⟩, fun _ hsmall => ?_⟩
      · simp [Conn.counted, hphase, OpenProxy.setConn, OpenProxy.addTraffic]
      · simp [Conn.running, hphase]
      · intro direction
        have howed : c.initialOwed head .out = initial := by simp [Conn.initialOwed, hphase]
        have hout := hsmall .out
        rw [Conn.owed, howed] at hout
        show (p.addTraffic .out initial).bytes direction + _ = _
        rw [bytes_addTraffic (by omega)]
        cases direction
        · rw [if_pos rfl, Conn.owed, Conn.owed, howed]
          show _ + initial + (c.relayOwed .out + 0) = _
          omega
        · rfl
    · cases hstep
  | relaysSpawned =>
    rw [OpenProxy.connStep] at hstep
    split at hstep
    · rename_i hphase
      cases hstep
      refine ⟨_, rfl, ⟨?_, ?_, fun _ _ => .inl rfl, rfl, rfl⟩, fun _ _ direction => ?_⟩
      · simp [Conn.counted, hphase, OpenProxy.setConn, Conn.spawnRelays]
      · simp [Conn.running, hphase]
      · have hnone := Conn.relayOwed_of_quiet
          (howned.quiet (by simp [hphase]) (by simp [hphase]) direction)
        have hfresh : c.spawnRelays.relayOwed direction = 0 := rfl
        have hinitial : c.initialOwed head direction = 0 := by
          cases direction <;> simp [Conn.initialOwed, hphase]
        have hafter : c.spawnRelays.initialOwed head direction = 0 := by cases direction <;> rfl
        rw [Conn.owed, Conn.owed, hnone, hfresh, hinitial, hafter]
        cases direction <;> rfl
    · cases hstep
  | joined direction =>
    obtain ⟨c', hjoin, rfl⟩ := Option.map_eq_some_iff.mp hstep
    obtain ⟨howned', hrunning, -⟩ := howned.join hjoin
    refine ⟨c', rfl, ⟨?_, hrunning, howned', rfl, rfl⟩,
      fun hloses _ => connPays_join hjoin hloses⟩
    have hboth : c.counted = true ∧ c'.counted = true := by
      unfold Conn.join at hjoin
      split at hjoin
      · rename_i hphase _
        cases hjoin
        simp [Conn.counted, hphase]
      · rename_i hphase _
        cases hjoin
        simp [Conn.counted, hphase]
      · rename_i hphase _
        split at hjoin
        · split at hjoin <;> cases hjoin <;> simp [Conn.counted, hphase]
        · cases hjoin
      · cases hjoin
    rw [hboth.1, hboth.2]
    rfl
  | stopSeen =>
    simp [OpenProxy.connStep, hversion] at hstep
  | closed =>
    rw [OpenProxy.connStep] at hstep
    split at hstep
    · rename_i hphase
      cases hstep
      have hpos := hactive (by simp [Conn.counted, hphase])
      refine ⟨_, rfl, ⟨?_, ?_, hquiet (by simp [hphase]) (by simp [hphase]) _, rfl, rfl⟩,
        fun _ _ => ?_⟩
      · simp [Conn.counted, hphase, OpenProxy.setConn]
        omega
      · simp [Conn.running, hphase]
      · refine connPays_of_phase rfl fun direction => ?_
        cases direction <;> simp [Conn.initialOwed, hphase]
    · cases hstep

end ConnStep

/-! ## The connections -/

/-- What is kept as long as the proxy stays open. -/
structure MeterKept (m : Meter) : Prop where
  loop : m.proxy.loop = .accepting
  version : m.proxy.version = 0
  owned : ∀ c ∈ m.proxy.conns, c.Owned
  active : m.proxy.activeConnections = m.proxy.conns.countP Conn.counted
  permits : m.proxy.permitsHeld ≤ maxActiveConnections
  fresh : ∀ i, m.proxy.conns.length ≤ i → m.head i = 0

def Meter.owedAt (m : Meter) (direction : TrafficDirection) (i : ℕ) : ℕ :=
  (m.proxy.conns[i]?).elim 0 fun c => c.owed (m.head i) direction

def Meter.owed (m : Meter) (direction : TrafficDirection) : ℕ :=
  ∑ i ∈ Finset.range m.proxy.conns.length, m.owedAt direction i

/-- The counters and what is owed to them. -/
structure MeterPaid (m : Meter) : Prop where
  paid : ∀ direction, m.proxy.bytes direction + m.owed direction = m.wrote direction
  small : ∀ direction, m.wrote direction < 2 ^ 64

theorem sum_range_change {f g : ℕ → ℕ} {n k : ℕ} (hk : k < n) (hne : ∀ i, i ≠ k → g i = f i) :
    ∑ i ∈ Finset.range n, g i + f k = ∑ i ∈ Finset.range n, f i + g k := by
  have hmem := Finset.mem_range.mpr hk
  have hf := Finset.add_sum_erase (Finset.range n) f hmem
  have hg := Finset.add_sum_erase (Finset.range n) g hmem
  have hrest : ∑ i ∈ (Finset.range n).erase k, g i = ∑ i ∈ (Finset.range n).erase k, f i :=
    Finset.sum_congr rfl fun i hi => hne i (Finset.mem_erase.mp hi).1
  omega

section Steps

variable {m m' : Meter} {k : ℕ} {c c' : Conn}

theorem owed_change (hc : m.proxy.conns[k]? = some c)
    (hconns : m'.proxy.conns = m.proxy.conns.set k c') (hhead : ∀ i, i ≠ k → m'.head i = m.head i)
    (direction : TrafficDirection) :
    m'.owed direction + c.owed (m.head k) direction =
      m.owed direction + c'.owed (m'.head k) direction := by
  obtain ⟨hlt, -⟩ := List.getElem?_eq_some_iff.mp hc
  have hold : m.owedAt direction k = c.owed (m.head k) direction := by
    rw [Meter.owedAt, hc]
    rfl
  have hnew : m'.owedAt direction k = c'.owed (m'.head k) direction := by
    rw [Meter.owedAt, hconns, List.getElem?_set_self hlt]
    rfl
  have hlength : m'.proxy.conns.length = m.proxy.conns.length := by rw [hconns, List.length_set]
  rw [← hold, ← hnew, Meter.owed, Meter.owed, hlength]
  refine sum_range_change hlt fun i hi => ?_
  rw [Meter.owedAt, Meter.owedAt, hconns, List.getElem?_set_ne (Ne.symm hi), hhead i hi]

theorem owed_le (hc : m.proxy.conns[k]? = some c) (direction : TrafficDirection) :
    c.owed (m.head k) direction ≤ m.owed direction := by
  obtain ⟨hlt, -⟩ := List.getElem?_eq_some_iff.mp hc
  have hat : m.owedAt direction k = c.owed (m.head k) direction := by
    rw [Meter.owedAt, hc]
    rfl
  rw [← hat]
  exact Finset.single_le_sum (f := m.owedAt direction) (fun _ _ => Nat.zero_le _)
    (Finset.mem_range.mpr hlt)

theorem MeterKept.setConn (h : MeterKept m) (hc : m.proxy.conns[k]? = some c)
    (hconns : m'.proxy.conns = m.proxy.conns.set k c')
    (haccounts : ConnAccounts m.proxy m'.proxy c c')
    (hhead : ∀ i, m.proxy.conns.length ≤ i → m'.head i = m.head i) : MeterKept m' where
  loop := haccounts.loop.trans h.loop
  version := haccounts.version.trans h.version
  owned := by
    rw [hconns]
    intro d hd
    rcases List.mem_or_eq_of_mem_set hd with hold | rfl
    · exact h.owned d hold
    · exact haccounts.owned
  active := by
    have hcount := countP_set_add hc Conn.counted c'
    have hactive := haccounts.active
    have hbefore := h.active
    rw [hconns]
    cases hold : c.counted <;> cases hnew : c'.counted <;>
      simp [hold, hnew] at hcount hactive ⊢ <;> omega
  permits := by
    have hcount := countP_set_add hc Conn.running c'
    have hpermits := h.permits
    rw [haccounts.running, if_pos rfl] at hcount
    unfold OpenProxy.permitsHeld at hpermits ⊢
    rw [hconns]
    cases hnew : c'.running <;> simp [hnew] at hcount <;> omega
  fresh := by
    rw [hconns, List.length_set]
    intro i hi
    rw [hhead i hi, h.fresh i hi]

theorem relayStep_accounts {p p' : OpenProxy} {index : ℕ} {direction : TrafficDirection}
    {event : RelayEvent} (hstep : p.step (.relay index direction event) = some p')
    (howned : ∀ c ∈ p.conns, c.Owned) :
    ∃ c c', p.conns[index]? = some c ∧ p'.conns = p.conns.set index c' ∧ ConnAccounts p p' c c' ∧
      ∀ head, (∀ d, p.bytes d + c.owed head d +
          p.payload (.relay index direction event) d < 2 ^ 64) →
        ∀ d, p'.bytes d + c'.owed head d =
          p.bytes d + c.owed head d + p.payload (.relay index direction event) d := by
  rw [OpenProxy.step] at hstep
  split at hstep
  · cases hstep
  rename_i c hc
  split at hstep
  · cases hstep
  rename_i r traffic hbind
  cases hstep
  obtain ⟨before, hbefore, hr⟩ := Option.bind_eq_some_iff.mp hbind
  have hown := howned c (List.mem_of_getElem? hc)
  have hlive : c.relayLive direction = true := by
    simp [Conn.relayLive, hbefore, Relay.live_of_step hr]
  refine ⟨c, { c with relays := Function.update c.relays direction (some r) }, hc, ?_, ?_, ?_⟩
  · simp [OpenProxy.setConn]
  · refine ⟨?_, Conn.running_of_relayLive hown hlive, ?_, ?_, ?_⟩
    · cases direction <;> rfl
    · intro d hd
      by_cases heq : d = direction
      · subst heq
        exact hown d hlive
      · refine hown d ?_
        simpa [Conn.relayLive, Function.update_of_ne heq] using hd
    · cases direction <;> rfl
    · cases direction <;> rfl
  · intro head hsmall d
    have hpayload : p.payload (.relay index direction event) direction = before.payload event := by
      simp [OpenProxy.payload, hc, hbefore]
    have hrelay : c.relayOwed direction = before.owed := by simp [Conn.relayOwed, hbefore]
    have hdirection := hsmall direction
    rw [hpayload, Conn.owed, hrelay] at hdirection
    have hpays := Relay.owed_step hr (by omega)
    show (p.addTraffic direction traffic).bytes d + _ = _
    rw [bytes_addTraffic (by omega)]
    rcases direction.eq_or_eq_other d with rfl | rfl
    · have hafter : Conn.relayOwed { c with relays := Function.update c.relays d (some r) } d =
          r.owed := by simp [Conn.relayOwed]
      rw [if_pos rfl, hpayload, Conn.owed, Conn.owed, hrelay, hafter]
      show _ + traffic + (r.owed + c.initialOwed head d) = _
      omega
    · have hother : p.payload (.relay index direction event) direction.other = 0 := by
        simp [OpenProxy.payload, direction.other_ne.symm]
      rw [if_neg direction.other_ne.symm, hother, Nat.add_zero, Nat.add_zero]
      refine congrArg _ (owed_congr ?_ rfl)
      simp [Conn.relayOwed, Function.update_of_ne direction.other_ne]

theorem MeterPaid.setConn (h : MeterPaid m) (hc : m.proxy.conns[k]? = some c)
    (hconns : m'.proxy.conns = m.proxy.conns.set k c') (hhead : ∀ i, i ≠ k → m'.head i = m.head i)
    (hpays : ∀ direction, m'.proxy.bytes direction + c'.owed (m'.head k) direction +
      m.wrote direction = m.proxy.bytes direction + c.owed (m.head k) direction +
        m'.wrote direction)
    (hsmall : ∀ direction, m'.wrote direction < 2 ^ 64) : MeterPaid m' where
  paid direction := by
    have hchange := owed_change hc hconns hhead direction
    have hbefore := h.paid direction
    have hstep := hpays direction
    omega
  small := hsmall

theorem bytes_owed_lt (h : MeterPaid m) (hc : m.proxy.conns[k]? = some c)
    (direction : TrafficDirection) :
    m.proxy.bytes direction + c.owed (m.head k) direction ≤ m.wrote direction := by
  have hle := owed_le hc direction
  have hpaid := h.paid direction
  omega

end Steps

section Accept

variable {m m' : Meter}

theorem keeps_append {c : Conn} {P : Prop} (h : MeterKept m) (hphase : c.phase = .opening)
    (hrelays : c.relays = fun _ => none) (hpermits : m.proxy.permitsHeld < maxActiveConnections)
    (hproxy : m'.proxy = { m.proxy with conns := m.proxy.conns ++ [c] }) (hhead : m'.head = m.head)
    (hwrote : m'.wrote = m.wrote) : MeterKept m' ∧ (P → MeterPaid m → MeterPaid m') := by
  have hquiet : ∀ direction, c.relayLive direction = false := by
    intro direction
    rw [Conn.relayLive, hrelays]
    rfl
  have hlength : m'.proxy.conns.length = m.proxy.conns.length + 1 := by rw [hproxy]; simp
  refine ⟨⟨?_, ?_, ?_, ?_, ?_, ?_⟩, fun _ hpaid => ⟨fun direction => ?_, ?_⟩⟩
  · rw [hproxy]
    exact h.loop
  · rw [hproxy]
    exact h.version
  · rw [hproxy]
    intro d hd
    rcases List.mem_append.mp hd with hold | hnew
    · exact h.owned d hold
    · rw [List.mem_singleton.mp hnew]
      exact Conn.owned_of_quiet hquiet
  · rw [hproxy]
    simp [h.active, Conn.counted, hphase]
  · have hcount : m'.proxy.permitsHeld = m.proxy.permitsHeld + 1 := by
      rw [hproxy]
      simp [OpenProxy.permitsHeld, Conn.running, hphase]
    omega
  · intro i hi
    rw [hhead]
    exact h.fresh i (by omega)
  · have hold : ∀ i ∈ Finset.range m.proxy.conns.length,
        m'.owedAt direction i = m.owedAt direction i := by
      intro i hi
      rw [Meter.owedAt, Meter.owedAt, hproxy, hhead]
      simp only [List.getElem?_append_left (Finset.mem_range.mp hi)]
    have hnew : m'.owedAt direction m.proxy.conns.length = 0 := by
      have howed : c.owed 0 direction = 0 := by
        rw [Conn.owed, Conn.relayOwed_of_quiet (hquiet direction)]
        cases direction <;> simp [Conn.initialOwed, hphase]
      rw [Meter.owedAt, hproxy, hhead, h.fresh _ (Nat.le_refl _)]
      simp [howed]
    have hsum : m'.owed direction = m.owed direction := by
      rw [Meter.owed, hlength, Finset.sum_range_succ, hnew, Finset.sum_congr rfl hold]
      rfl
    have hbytes : m'.proxy.bytes direction = m.proxy.bytes direction := by
      rw [hproxy]
      cases direction <;> rfl
    rw [hsum, hbytes, hwrote]
    exact hpaid.paid direction
  · rw [hwrote]
    exact hpaid.small

theorem keeps_reap {P : Prop} (h : MeterKept m)
    (hproxy : m'.proxy = { m.proxy with
      conns := m.proxy.conns.map fun c => { c with reaped := c.reaped || !c.running } })
    (hhead : m'.head = m.head) (hwrote : m'.wrote = m.wrote) :
    MeterKept m' ∧ (P → MeterPaid m → MeterPaid m') := by
  have hlength : m'.proxy.conns.length = m.proxy.conns.length := by rw [hproxy]; simp
  refine ⟨⟨?_, ?_, ?_, ?_, ?_, ?_⟩, fun _ hpaid => ⟨fun direction => ?_, ?_⟩⟩
  · rw [hproxy]
    exact h.loop
  · rw [hproxy]
    exact h.version
  · rw [hproxy]
    intro d hd
    obtain ⟨c, hc, rfl⟩ := List.mem_map.mp hd
    exact h.owned c hc
  · rw [hproxy]
    simp only [List.countP_map]
    exact h.active
  · rw [OpenProxy.permitsHeld, hproxy]
    simp only [List.countP_map]
    exact h.permits
  · intro i hi
    rw [hhead]
    exact h.fresh i (hlength ▸ hi)
  · have hsum : m'.owed direction = m.owed direction := by
      rw [Meter.owed, Meter.owed, hlength]
      refine Finset.sum_congr rfl fun i _ => ?_
      rw [Meter.owedAt, Meter.owedAt, hproxy, hhead, List.getElem?_map]
      cases m.proxy.conns[i]? with
      | none => rfl
      | some c => cases direction <;> rfl
    have hbytes : m'.proxy.bytes direction = m.proxy.bytes direction := by
      rw [hproxy]
      cases direction <;> rfl
    rw [hsum, hbytes, hwrote]
    exact hpaid.paid direction
  · rw [hwrote]
    exact hpaid.small

theorem of_next_proxy {event : ProxyEvent} (hstep : m.next (.proxy event) = some m') :
    m.allows event = true ∧ ∃ proxy, m.proxy.step event = some proxy ∧
      m' = { m with
        proxy := proxy
        wrote := fun direction => m.wrote direction + m.proxy.payload event direction } := by
  rw [Meter.next] at hstep
  split at hstep
  · rename_i hallows
    obtain ⟨proxy, hproxy, rfl⟩ := Option.map_eq_some_iff.mp hstep
    exact ⟨hallows, proxy, hproxy, rfl⟩
  · cases hstep

theorem connLosesNothing {index : ℕ} {c : Conn} {event : ConnEvent}
    (hc : m.proxy.conns[index]? = some c) (hallows : m.allows (.conn index event) = true)
    (h : LosesNothing m (.proxy (.conn index event))) :
    ConnLosesNothing c (m.head index) event := by
  cases event with
  | handshakeDone initial => exact eq_of_beq hallows
  | handshakeFailed code => exact h
  | joined direction => exact fun code => h c code hc
  | _ => trivial

/-- **The step lemma.** -/
theorem MeterKept.next {event : MeterEvent} (h : MeterKept m) (hopen : StaysOpen m event)
    (hstep : m.next event = some m') :
    MeterKept m' ∧ (LosesNothing m event → MeterPaid m → MeterPaid m') := by
  cases event with
  | proxy event =>
    obtain ⟨hallows, proxy, hproxy, rfl⟩ := of_next_proxy hstep
    cases event with
    | close => exact hopen.elim
    | acceptFailed => exact hopen.elim
    | stopRequested => simp [OpenProxy.step, h.version] at hproxy
    | statusStopping => simp [OpenProxy.step, h.loop] at hproxy
    | graceOver => simp [OpenProxy.step, h.loop] at hproxy
    | statusStopped => simp [OpenProxy.step, h.loop] at hproxy
    | accepted =>
      rw [OpenProxy.step, if_pos h.loop] at hproxy
      split at hproxy
      · rename_i hpermits
        cases hproxy
        exact keeps_append h rfl rfl hpermits rfl rfl rfl
      · cases hproxy
        refine ⟨⟨h.loop, h.version, h.owned, h.active, h.permits, h.fresh⟩,
          fun _ hpaid => ⟨fun direction => ?_, hpaid.small⟩⟩
        have hbefore := hpaid.paid direction
        cases direction <;> exact hbefore
    | reap =>
      rw [OpenProxy.step, if_pos (.inl h.loop)] at hproxy
      cases hproxy
      exact keeps_reap h rfl rfl rfl
    | conn index event =>
      rw [OpenProxy.step] at hproxy
      split at hproxy
      · cases hproxy
      rename_i c hc
      have hmem : c ∈ m.proxy.conns := List.mem_of_getElem? hc
      obtain ⟨c', hconns, haccounts, hpays⟩ := connStep_accounts (m.head index) hproxy
        (h.owned c hmem) h.version fun hcounted => by
          rw [h.active]
          exact List.countP_pos_iff.mpr ⟨c, hmem, hcounted⟩
      refine ⟨h.setConn hc hconns haccounts fun _ _ => rfl, fun hloses hpaid => ?_⟩
      refine hpaid.setConn hc hconns (fun _ _ => rfl) (fun direction => ?_) hpaid.small
      have hpay := hpays (connLosesNothing hc hallows hloses)
        (fun d => Nat.lt_of_le_of_lt (bytes_owed_lt hpaid hc d) (hpaid.small d)) direction
      exact congrArg (· + m.wrote direction) hpay
    | relay index moved event =>
      obtain ⟨c, c', hc, hconns, haccounts, hpays⟩ := relayStep_accounts hproxy h.owned
      refine ⟨h.setConn hc hconns haccounts fun _ _ => rfl, fun hloses hpaid => ?_⟩
      refine hpaid.setConn hc hconns (fun _ _ => rfl) (fun direction => ?_) hloses
      have hpay := hpays (m.head index) (fun d => ?_) direction
      · dsimp only
        omega
      · have hle := bytes_owed_lt hpaid hc d
        have hlt : m.wrote d + m.proxy.payload (.relay index moved event) d < 2 ^ 64 := hloses d
        omega
  | handshakeWrote index count =>
    obtain ⟨c, hc, hstep⟩ := Option.bind_eq_some_iff.mp hstep
    obtain ⟨hlt, hget⟩ := List.getElem?_eq_some_iff.mp hc
    split at hstep
    · rename_i hphase
      cases hstep
      refine ⟨⟨h.loop, h.version, h.owned, h.active, h.permits, fun i hi => ?_⟩,
        fun hloses hpaid => ?_⟩
      · have hne : i ≠ index := Nat.ne_of_gt (Nat.lt_of_lt_of_le hlt hi)
        exact (Function.update_of_ne hne _ _).trans (h.fresh i hi)
      · have hsame : m.proxy.conns = m.proxy.conns.set index c := by
          rw [← hget, List.set_getElem_self]
        refine hpaid.setConn hc hsame (fun i hi => Function.update_of_ne hi _ _)
          (fun direction => ?_) fun direction => ?_
        · cases direction with
          | out =>
            simp only [Function.update_self, Conn.owed, Conn.initialOwed, hphase]
            omega
          | into => rfl
        · cases direction with
          | out =>
            show Function.update m.wrote .out (m.wrote .out + count) .out < 2 ^ 64
            rw [Function.update_self]
            exact hloses
          | into => exact hpaid.small .into
    · cases hstep

end Accept

namespace MeterKept

variable {m : Meter}

protected theorem start : MeterKept .start :=
  ⟨rfl, rfl, fun _ hc => absurd hc List.not_mem_nil, rfl, Nat.zero_le _, fun _ _ => rfl⟩

theorem running_of_counted {c : Conn} (h : c.counted = true) : c.running = true := by
  unfold Conn.counted at h
  unfold Conn.running
  cases hphase : c.phase <;> simp [hphase] at h ⊢

theorem counted (h : MeterKept m) : Counted m.proxy where
  active := h.active
  limit := by
    have hle : m.proxy.conns.countP Conn.counted ≤ m.proxy.permitsHeld :=
      List.countP_mono_left fun c _ => running_of_counted
    have hactive := h.active
    have hpermits := h.permits
    omega
  idle hidle := by
    have hheld : m.proxy.permitsHeld = 0 :=
      List.countP_eq_zero.mpr fun c hc => by rw [hidle c hc]; exact Bool.false_ne_true
    have hcount : m.proxy.conns.countP Conn.counted = 0 := by
      refine List.countP_eq_zero.mpr fun c hc hcounted => ?_
      have hrunning := hidle c hc
      rw [running_of_counted hcounted] at hrunning
      cases hrunning
    exact ⟨h.active.trans hcount, by rw [hheld]; rfl⟩

theorem accounted (h : MeterKept m) (hpaid : MeterPaid m) : Accounted m := by
  intro hidle
  have howed : ∀ direction, m.owed direction = 0 := by
    intro direction
    refine Finset.sum_eq_zero fun i _ => ?_
    rw [Meter.owedAt]
    cases hc : m.proxy.conns[i]? with
    | none => rfl
    | some c =>
      have hmem := List.mem_of_getElem? hc
      have hdone := hidle c hmem
      have hquiet : c.relayLive direction = false := by
        rw [← Bool.not_eq_true]
        intro hlive
        rw [Conn.running_of_relayLive (h.owned c hmem) hlive] at hdone
        cases hdone
      have hinitial : c.initialOwed (m.head i) direction = 0 := by
        unfold Conn.running at hdone
        cases direction
        · unfold Conn.initialOwed
          cases hphase : c.phase <;> simp [hphase] at hdone ⊢
        · rfl
      show c.owed (m.head i) direction = 0
      rw [Conn.owed, Conn.relayOwed_of_quiet hquiet, hinitial]
  have hout := hpaid.paid .out
  have hinto := hpaid.paid .into
  rw [howed] at hout hinto
  exact ⟨hout, hinto⟩

end MeterKept

/-- **The counters of a proxy** that is not closed: its connections are counted exactly in every
run, and its bytes in every run that loses nothing. -/
theorem accounting_exact (m : Meter) :
    ((meter.restrict StaysOpen).Reachable m → Counted m.proxy) ∧
      ((meter.restrict fun m event => StaysOpen m event ∧ LosesNothing m event).Reachable m →
        Accounted m) := by
  refine ⟨fun h => ?_, fun h => ?_⟩
  · have hkept : MeterKept m :=
      h.induct (fun _ hinit => by cases hinit; exact .start)
        fun _ _ _ _ hkept hstep => (hkept.next hstep.1 hstep.2).1
    exact hkept.counted
  · have hboth : MeterKept m ∧ MeterPaid m := by
      refine h.induct (I := fun m => MeterKept m ∧ MeterPaid m) (fun m hinit => ?_)
        fun _ _ _ _ hboth hstep => ?_
      · cases hinit
        exact ⟨.start, fun direction => by cases direction <;> rfl,
          fun _ => show 0 < 2 ^ 64 by decide⟩
      · obtain ⟨hkept, hpays⟩ := hboth.1.next hstep.1.1 hstep.2
        exact ⟨hkept, hpays hstep.1.2 hboth.2⟩
    exact hboth.1.accounted hboth.2

/-! ## Sample runs -/

def requestSent : List MeterEvent :=
  [.proxy .accepted, .proxy (.conn 0 .opened), .handshakeWrote 0 7,
    .proxy (.conn 0 (.handshakeDone 7)), .proxy (.conn 0 .accounted)]

theorem staysOpen_requestSent : ∀ event ∈ requestSent, ∀ m, StaysOpen m event := by
  intro event hevent m
  simp only [requestSent, List.mem_cons, List.not_mem_nil, or_false] at hevent
  rcases hevent with rfl | rfl | rfl | rfl | rfl <;> trivial

theorem losesNothing_small {m : Meter} {event : ProxyEvent}
    (hwrote : ∀ direction, m.wrote direction ≤ 7) (hpayload : m.proxy.payload event = fun _ => 0)
    (direction : TrafficDirection) :
    m.wrote direction + m.proxy.payload event direction < 2 ^ 64 := by
  have hle := hwrote direction
  rw [hpayload]
  show m.wrote direction + 0 < 2 ^ 64
  omega

theorem accounting_exact_requestSent :
    (∃ m : Meter, Machine.exec Meter.next .start requestSent = some m ∧ Counted m.proxy) ∧
      ∃ m : Meter, Accounted m ∧ m.proxy.bytesOut = 7 := by
  constructor
  · have hexec : Machine.exec Meter.next .start requestSent =
        some ((Machine.exec Meter.next .start requestSent).get rfl) := rfl
    exact ⟨_, hexec, (accounting_exact _).1
      (Machine.reachable_restrict_exec staysOpen_requestSent hexec)⟩
  · have hstart : (meter.restrict fun m event => StaysOpen m event ∧
        LosesNothing m event).Reachable .start := .init rfl
    have hopened := (hstart.step ⟨show StaysOpen _ (.proxy .accepted) ∧
        LosesNothing _ (.proxy .accepted) from
          ⟨trivial, losesNothing_small (fun _ => Nat.zero_le _) rfl⟩, rfl⟩).step
      ⟨show StaysOpen _ (.proxy (.conn 0 .opened)) ∧ LosesNothing _ (.proxy (.conn 0 .opened)) from
        ⟨trivial, losesNothing_small (fun _ => Nat.zero_le _) rfl⟩, rfl⟩
    have hsent := hopened.step ⟨show StaysOpen _ (.handshakeWrote 0 7) ∧
      LosesNothing _ (.handshakeWrote 0 7) from ⟨trivial, show 0 + 7 < 2 ^ 64 by decide⟩, rfl⟩
    have hwrote : ∀ direction, Function.update (fun _ : TrafficDirection => 0) .out (0 + 7)
        direction ≤ 7 := by
      intro direction
      cases direction <;> decide
    have hdone := (hsent.step ⟨show StaysOpen _ (.proxy (.conn 0 (.handshakeDone 7))) ∧
        LosesNothing _ (.proxy (.conn 0 (.handshakeDone 7))) from
          ⟨trivial, losesNothing_small hwrote rfl⟩, rfl⟩).step
      ⟨show StaysOpen _ (.proxy (.conn 0 .accounted)) ∧
        LosesNothing _ (.proxy (.conn 0 .accounted)) from
          ⟨trivial, losesNothing_small hwrote rfl⟩, rfl⟩
    exact ⟨_, (accounting_exact _).2 hdone, rfl⟩

def failedUpload : List MeterEvent :=
  [.proxy .accepted, .proxy (.conn 0 .opened), .proxy (.conn 0 (.handshakeDone 0)),
    .proxy (.conn 0 .relaysSpawned), .proxy (.relay 0 .into (.read 5)),
    .proxy (.relay 0 .into (.wrote 5)), .proxy (.relay 0 .into .goesOn),
    .proxy (.relay 0 .out (.failed false)), .proxy (.relay 0 .out .flushed),
    .proxy (.conn 0 (.joined .out)), .proxy (.conn 0 .reported), .proxy (.conn 0 .closed)]

/-- The five bytes were written to the client and are not counted. -/
theorem failedUpload_unaccounted : ¬∀ m : Meter, (meter.restrict StaysOpen).Reachable m →
    Counted m.proxy ∧ Accounted m := by
  intro h
  have hopen : ∀ event ∈ failedUpload, ∀ m, StaysOpen m event := by
    intro event hevent m
    simp only [failedUpload, List.mem_cons, List.not_mem_nil, or_false] at hevent
    rcases hevent with rfl | rfl | rfl | rfl | rfl | rfl | rfl | rfl | rfl | rfl | rfl | rfl <;>
      trivial
  have hrun : ∃ m, Machine.exec Meter.next .start failedUpload = some m ∧
      (m.proxy.conns.all fun c => !c.running) = true ∧ m.proxy.bytesIn = 0 ∧
      m.wrote .into = 5 := ⟨_, rfl, rfl, rfl, rfl⟩
  obtain ⟨m, hexec, hdone, hbytes, hwrote⟩ := hrun
  have hidle : m.proxy.Idle := by
    intro c hc
    have hended := List.all_eq_true.mp hdone c hc
    rwa [Bool.not_eq_true'] at hended
  have haccounted := (h m (Machine.reachable_restrict_exec hopen hexec)).2 hidle
  rw [hbytes, hwrote] at haccounted
  exact absurd haccounted.2 (by decide)

end FluxTerm.Proxy
