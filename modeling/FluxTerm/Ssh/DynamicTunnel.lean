import FluxTerm.Engine.Error
import FluxTerm.Lib.IpAddr
import FluxTerm.Lib.Script

/-!
# FluxTerm — a connection of a dynamic tunnel

`socks5_connect_handshake` of `crates/engine/src/session.rs` and the task that
`open_local_or_dynamic_tunnel` runs for each connection: the handshake, then the forwarding channel
of the SSH session. What the task asks is `channel_open_direct_tcpip`. The tunnel's counters and
the relay behind an open channel are left out.
-/

namespace FluxTerm.Ssh

open FluxTerm.Engine FluxTerm.Lib

def sshTunnelSocksHandshakeFailedCode : String := "ssh_tunnel_socks_handshake_failed"
def sshTunnelOpenFailedCode : String := "ssh_tunnel_open_failed"

abbrev TunnelTask := Script (Text × UInt16) (Except String Unit) EngineError

/-- `read_exact` with its `map_err`. -/
abbrev tunnelRead (count : ℕ) (message : String) : TunnelTask Bytes :=
  .readExact count (.withDetail sshTunnelSocksHandshakeFailedCode message "early eof")

def tunnelRefuse {α : Type} (answer : Bytes) (message : String) : TunnelTask α :=
  .write answer (.fail (.new sshTunnelSocksHandshakeFailedCode message))

/-- The host of a request, by its address type. -/
def tunnelHost (atyp : UInt8) : TunnelTask Text :=
  if atyp = 0x01 then do
    let ipv4 ← tunnelRead 4 "Failed to read SOCKS address"
    return Ipv4Addr.toText ⟨ipv4.getD 0 0, ipv4.getD 1 0, ipv4.getD 2 0, ipv4.getD 3 0⟩
  else if atyp = 0x03 then do
    let len ← tunnelRead 1 "Failed to read SOCKS domain"
    let domain ← tunnelRead (len.headD 0).toNat "Failed to read SOCKS domain"
    return lossy domain
  else if atyp = 0x04 then do
    let ipv6 ← tunnelRead 16 "Failed to read SOCKS IPv6 address"
    return ipv6Text (segmentsOf ipv6)
  else tunnelRefuse [0x05, 0x08, 0x00, 0x01, 0, 0, 0, 0, 0, 0] "Unsupported address type"

/-- The part of `socks5_connect_handshake` for the request. -/
def tunnelRequest : TunnelTask (Text × UInt16) := do
  let requestHead ← tunnelRead 4 "Failed to read SOCKS request"
  if requestHead.getD 1 0 ≠ 0x01 then
    tunnelRefuse [0x05, 0x07, 0x00, 0x01, 0, 0, 0, 0, 0, 0] "Only CONNECT command is supported"
  else
    let host ← tunnelHost (requestHead.getD 3 0)
    let portBuf ← tunnelRead 2 "Failed to read SOCKS port"
    .send [0x05, 0x00, 0x00, 0x01, 0, 0, 0, 0, 0, 0]
    return (host, ofBeBytes (portBuf.getD 0 0) (portBuf.getD 1 0))

def socks5ConnectHandshake : TunnelTask (Text × UInt16) := do
  let greeting ← tunnelRead 2 "SOCKS handshake failed"
  if greeting.getD 0 0 ≠ 0x05 then
    .fail (.new sshTunnelSocksHandshakeFailedCode "Only SOCKS5 is supported")
  else
    let _ ← tunnelRead (greeting.getD 1 0).toNat "SOCKS handshake failed"
    .send [0x05, 0x00]
    tunnelRequest

def openTunnelChannel (target : Text × UInt16) : TunnelTask Unit :=
  .ask target fun
    | .ok () => pure ()
    | .error _ => .fail (.new sshTunnelOpenFailedCode "Failed to create SSH forwarding channel")

def tunnelConnection : TunnelTask Unit := socks5ConnectHandshake >>= openTunnelChannel

end FluxTerm.Ssh
