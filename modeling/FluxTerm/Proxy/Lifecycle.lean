import FluxTerm.Lib.Machine
import Mathlib.Algebra.Order.Ring.Nat

/-!
# FluxTerm — the tasks of a proxy

`open_proxy` of `crates/engine/src/proxy.rs` and the tasks it spawns, as a machine: the accept
loop, one task a connection, and the two relay tasks that `relay_with_timeouts` spawns for it. A
step is what a task does between two `await`s; the tasks interleave freely, and a deadline may
pass at any step.
-/

namespace FluxTerm.Proxy

open FluxTerm.Lib

/-! ## Constants -/

def maxActiveConnections : ℕ := 256

/-- The relay buffer, `16 * 1024` bytes. -/
def relayBufferSize : ℕ := 16 * 1024

def proxyAcceptFailedCode : String := "proxy_accept_failed"
def proxyConnectionLimitExceededCode : String := "proxy_connection_limit_exceeded"
def proxyIoReadTimeoutCode : String := "proxy_io_read_timeout"
def proxyIoWriteTimeoutCode : String := "proxy_io_write_timeout"
def proxyShutdownTimeoutCode : String := "proxy_shutdown_timeout"
def proxyTransferFailedCode : String := "proxy_transfer_failed"

def saturatingAdd (a b : ℕ) : ℕ := min (a + b) (2 ^ 64 - 1)

/-! ## Relay tasks -/

/-- `TrafficDirection`: `Out` goes from the client to the upstream, `In` back. -/
inductive TrafficDirection where
  | out
  | into
deriving DecidableEq

def TrafficDirection.other : TrafficDirection → TrafficDirection
  | .out => .into
  | .into => .out

inductive RelayPhase where
  | reading
  /-- `write_all` of a chunk of `delta` bytes, of which `left` are not written yet. -/
  | writing (left delta : ℕ)
  | wrote
  /-- `flush_pending_traffic`, and then the result. -/
  | flushing (result : Except String ℕ)
  | done (result : Except String ℕ)

/-- The state of `relay_one_way_with_timeout`. -/
structure Relay where
  total : ℕ := 0
  pending : ℕ := 0
  phase : RelayPhase := .reading

/-- What a relay task does next. -/
inductive RelayEvent where
  /-- `read` returns; no bytes at the end of the stream. -/
  | read (count : ℕ)
  | failed (timedOut : Bool)
  /-- `write_all` gets bytes out. -/
  | wrote (count : ℕ)
  | reported
  | goesOn
  | flushed

namespace Relay

def live (r : Relay) : Bool :=
  match r.phase with
  | .done _ => false
  | .reading | .writing .. | .wrote | .flushing _ => true

def abort (r : Relay) : Relay :=
  if r.live then { r with phase := .done (.error proxyTransferFailedCode) } else r

/-- One step, with the bytes it passes to `add_traffic`. -/
def step (r : Relay) : RelayEvent → Option (Relay × ℕ)
  | .read count =>
    match r.phase with
    | .reading =>
      if count = 0 then some ({ r with phase := .flushing (.ok r.total) }, 0)
      else if count ≤ relayBufferSize then some ({ r with phase := .writing count count }, 0)
      else none
    | _ => none
  | .failed timedOut =>
    match r.phase with
    | .reading =>
      let code := if timedOut then proxyIoReadTimeoutCode else proxyTransferFailedCode
      some ({ r with phase := .flushing (.error code) }, 0)
    | .writing _ _ =>
      let code := if timedOut then proxyIoWriteTimeoutCode else proxyTransferFailedCode
      some ({ r with phase := .flushing (.error code) }, 0)
    | _ => none
  | .wrote count =>
    match r.phase with
    | .writing left delta =>
      if count = 0 || left < count then none
      else if count < left then some ({ r with phase := .writing (left - count) delta }, 0)
      else
        some ({ total := saturatingAdd r.total delta, pending := saturatingAdd r.pending delta,
                phase := .wrote }, 0)
    | _ => none
  | .reported =>
    match r.phase with
    | .wrote =>
      if 0 < r.pending then some ({ r with pending := 0, phase := .reading }, r.pending) else none
    | _ => none
  | .goesOn =>
    match r.phase with
    | .wrote => some ({ r with phase := .reading }, 0)
    | _ => none
  | .flushed =>
    match r.phase with
    | .flushing result => some ({ r with phase := .done result }, r.pending)
    | _ => none

theorem phase_of_step {r : Relay} {event : RelayEvent} {next : Relay × ℕ}
    (h : r.step event = some next) :
    match event with
    | .read _ => r.phase = .reading
    | .failed _ => r.phase = .reading ∨ ∃ left delta, r.phase = .writing left delta
    | .wrote _ => ∃ left delta, r.phase = .writing left delta
    | .reported | .goesOn => r.phase = .wrote
    | .flushed => ∃ result, r.phase = .flushing result := by
  cases event <;> cases hphase : r.phase <;> simp [step, hphase] at h ⊢

theorem live_of_step {r r' : Relay} {event : RelayEvent} {traffic : ℕ}
    (h : r.step event = some (r', traffic)) : r.live = true := by
  unfold Relay.live
  cases hphase : r.phase with
  | done result => cases event <;> simp [Relay.step, hphase] at h
  | reading | writing left delta | wrote | flushing result => rfl

theorem live_abort (r : Relay) : r.abort.live = false := by
  unfold Relay.abort
  split
  · rfl
  · simp_all

end Relay

/-! ## Connection tasks -/

/-- Where a connection task waits. -/
inductive ConnPhase where
  /-- Before `on_conn_open`. -/
  | opening
  /-- The handshake inside `handle_client`. -/
  | handshaking
  /-- `add_traffic` of the initial bytes of an HTTP request. -/
  | accounting (initial : ℕ)
  /-- Before `relay_with_timeouts`. -/
  | starting
  /-- `relay_with_timeouts` waits for the first direction to end. -/
  | relaying
  | awaiting (direction : TrafficDirection)
  /-- The error goes to `last_error`. -/
  | reporting (code : String)
  /-- Before `on_conn_close`. -/
  | closing
  | finished

structure Conn where
  /-- The version of the stop channel at `subscribe`. -/
  subscribed : ℕ
  phase : ConnPhase := .opening
  relays : TrafficDirection → Option Relay := fun _ => none
  reaped : Bool := false

/-- What a connection task does next. -/
inductive ConnEvent where
  | opened
  | handshakeDone (initial : ℕ)
  | handshakeFailed (code : String)
  | accounted
  | relaysSpawned
  /-- The `JoinHandle` of a direction is ready. -/
  | joined (direction : TrafficDirection)
  /-- `stop_rx_for_conn.changed()` wins the select, and the future of `handle_client` is dropped. -/
  | stopSeen
  | reported
  | closed

namespace Conn

def running (c : Conn) : Bool :=
  match c.phase with
  | .finished => false
  | .opening | .handshaking | .accounting _ | .starting | .relaying | .awaiting _ |
    .reporting _ | .closing => true

/-- The future of `handle_client` exists. -/
def handling (c : Conn) : Bool :=
  match c.phase with
  | .handshaking | .accounting _ | .starting | .relaying | .awaiting _ => true
  | .opening | .reporting _ | .closing | .finished => false

def relayLive (c : Conn) (direction : TrafficDirection) : Bool :=
  (c.relays direction).any Relay.live

/-- `relay_with_timeouts` begins: both directions are spawned. -/
def spawnRelays (c : Conn) : Conn :=
  { c with phase := .relaying, relays := fun _ => some {} }

/-- `relay_with_timeouts` after one direction has ended. An error of the first one aborts the
other, and a result of the second one is that of the connection. -/
def join (c : Conn) (direction : TrafficDirection) : Option Conn :=
  match c.phase, (c.relays direction).map Relay.phase with
  | .relaying, some (.done (.ok _)) => some { c with phase := .awaiting direction.other }
  | .relaying, some (.done (.error code)) =>
    some
      { c with
        phase := .reporting code
        relays := Function.update c.relays direction.other
          ((c.relays direction.other).map Relay.abort) }
  | .awaiting awaited, some (.done result) =>
    if awaited = direction then
      match result with
      | .ok _ => some { c with phase := .closing }
      | .error code => some { c with phase := .reporting code }
    else none
  | _, _ => none

def abort (c : Conn) : Conn := { c with phase := .finished }

end Conn

/-! ## The proxy -/

inductive ProxyStatus where
  | starting
  | running
  | stopping
  | stopped
  | failed
deriving DecidableEq

/-- Where the accept loop waits. -/
inductive LoopPhase where
  | accepting
  | leaving
  | grace
  | aborted
  | stopped
deriving DecidableEq

/-- A proxy that listens: its `ProxyRuntime`, its stop channel and its tasks. -/
structure OpenProxy where
  status : ProxyStatus
  bytesOut : ℕ
  bytesIn : ℕ
  activeConnections : ℕ
  lastError : Option String
  /-- How often `close` was called; the channel holds `true` from the first time on. -/
  version : ℕ
  loop : LoopPhase
  conns : List Conn

/-- What happens next. -/
inductive ProxyEvent where
  | close
  | stopRequested
  | accepted
  | acceptFailed
  | statusStopping
  /-- `reap_finished_tasks`. -/
  | reap
  | graceOver
  | statusStopped
  | conn (index : ℕ) (event : ConnEvent)
  | relay (index : ℕ) (direction : TrafficDirection) (event : RelayEvent)

namespace OpenProxy

variable (p : OpenProxy)

/-- `add_traffic` for one direction. -/
def addTraffic : TrafficDirection → ℕ → OpenProxy
  | .out, count => { p with bytesOut := saturatingAdd p.bytesOut count }
  | .into, count => { p with bytesIn := saturatingAdd p.bytesIn count }

def permitsHeld : ℕ := p.conns.countP Conn.running

def setConn (index : ℕ) (c : Conn) : OpenProxy := { p with conns := p.conns.set index c }

/-- A step of a connection task. -/
def connStep (index : ℕ) (c : Conn) : ConnEvent → Option OpenProxy
  | .opened =>
    match c.phase with
    | .opening =>
      some ({ p with activeConnections := p.activeConnections + 1 }.setConn index
        { c with phase := .handshaking })
    | _ => none
  | .handshakeDone initial =>
    match c.phase with
    | .handshaking =>
      -- `clear_last_error_if_any`
      let p := { p with lastError := none }
      if 0 < initial then some (p.setConn index { c with phase := .accounting initial })
      else some (p.setConn index { c with phase := .starting })
    | _ => none
  | .handshakeFailed code =>
    match c.phase with
    | .handshaking => some (p.setConn index { c with phase := .reporting code })
    | _ => none
  | .accounted =>
    match c.phase with
    | .accounting initial =>
      some ((p.addTraffic .out initial).setConn index { c with phase := .starting })
    | _ => none
  | .relaysSpawned =>
    match c.phase with
    | .starting => some (p.setConn index c.spawnRelays)
    | _ => none
  | .joined direction => (c.join direction).map (p.setConn index)
  | .stopSeen =>
    if c.handling && decide (c.subscribed < p.version) then
      some (p.setConn index { c with phase := .reporting proxyShutdownTimeoutCode })
    else none
  | .reported =>
    match c.phase with
    | .reporting code =>
      some ({ p with lastError := some code }.setConn index { c with phase := .closing })
    | _ => none
  | .closed =>
    match c.phase with
    | .closing =>
      some ({ p with activeConnections := p.activeConnections - 1 }.setConn index
        { c with phase := .finished })
    | _ => none

/-- One event. -/
def step : ProxyEvent → Option OpenProxy
  | .close => some { p with version := p.version + 1 }
  | .stopRequested =>
    if p.loop = .accepting ∧ 0 < p.version then some { p with loop := .leaving } else none
  | .accepted =>
    if p.loop = .accepting then
      if p.permitsHeld < maxActiveConnections then
        some { p with conns := p.conns ++ [{ subscribed := p.version }] }
      else some { p with lastError := some proxyConnectionLimitExceededCode }
    else none
  | .acceptFailed =>
    if p.loop = .accepting then
      some { p with lastError := some proxyAcceptFailedCode, loop := .leaving }
    else none
  | .statusStopping =>
    if p.loop = .leaving then some { p with status := .stopping, loop := .grace } else none
  | .reap =>
    if p.loop = .accepting ∨ p.loop = .grace then
      some { p with conns := p.conns.map fun c => { c with reaped := c.reaped || !c.running } }
    else none
  | .graceOver =>
    if p.loop = .grace then
      some
        { p with
          loop := .aborted
          conns := p.conns.map fun c => if c.reaped then c else { c.abort with reaped := true } }
    else none
  | .statusStopped =>
    if p.loop = .aborted then
      some { p with status := .stopped, activeConnections := 0, loop := .stopped }
    else none
  | .conn index event =>
    match p.conns[index]? with
    | none => none
    | some c => p.connStep index c event
  | .relay index direction event =>
    match p.conns[index]? with
    | none => none
    | some c =>
      match (c.relays direction).bind (Relay.step · event) with
      | none => none
      | some (r, traffic) =>
        some ((p.addTraffic direction traffic).setConn index
          { c with relays := Function.update c.relays direction (some r) })

end OpenProxy

/-- The proxy once its listener is bound. -/
def listening : OpenProxy where
  status := .running
  bytesOut := 0
  bytesIn := 0
  activeConnections := 0
  lastError := none
  version := 0
  loop := .accepting
  conns := []

def openProxy : Machine OpenProxy ProxyEvent := .ofStep listening OpenProxy.step

end FluxTerm.Proxy
