import FluxTerm.Engine.Error
import FluxTerm.Lib.IpAddr
import FluxTerm.Lib.Script

/-!
# FluxTerm — the SOCKS5 client of the SSH transport

`socks5_connect`, `socks5_auth`, `read_socks5_bound_addr` and `resolve_proxy_target` of
`crates/engine/src/ssh_transport.rs`, as scripts on the byte stream of the proxy. The local DNS is
the parameter `lookupHost`.
-/

namespace FluxTerm.Ssh

open FluxTerm.Engine FluxTerm.Lib

def sshProxyAuthFailedCode : String := "ssh_proxy_auth_failed"
def sshProxyDnsFailedCode : String := "ssh_proxy_dns_failed"
def sshProxySocks5FailedCode : String := "ssh_proxy_socks5_failed"

/-- `HostProfile`: where the SSH server is. -/
structure HostProfile where
  host : Text
  port : UInt16
deriving DecidableEq

/-- `SshProxyConfig`: what the SOCKS5 client uses of it. -/
structure SshProxyConfig where
  username : Option Text
  passwordRef : Option Text
  useProxyDns : Option Bool
deriving DecidableEq

inductive ProxyTarget where
  | domain (host : Text)
  | ip (addr : IpAddr)
deriving DecidableEq

def resolveProxyTarget (lookupHost : Text → UInt16 → Except String (List IpAddr))
    (profile : HostProfile) (proxy : SshProxyConfig) : Except EngineError ProxyTarget :=
  if proxy.useProxyDns.getD true then .ok (.domain profile.host)
  else match parseIpAddr profile.host with
    | some ip => .ok (.ip ip)
    | none =>
      match lookupHost profile.host profile.port with
      | .error err =>
        .error (.withDetail sshProxyDnsFailedCode "Local DNS failed to resolve target host" err)
      | .ok [] =>
        .error (.new sshProxyDnsFailedCode "Local DNS did not return a usable target address")
      | .ok (addr :: _) => .ok (.ip addr)

section
variable {Q A : Type}

/-- `read_exact` with `socks_io_error`. -/
abbrev readExact (count : ℕ) : Script Q A EngineError Bytes :=
  .readExact count
    (.withDetail sshProxySocks5FailedCode "SOCKS5 proxy handshake failed" "early eof")

def socks5Auth (proxy : SshProxyConfig) : Script Q A EngineError Unit :=
  let username := utf8 (proxy.username.getD [])
  let password := utf8 (proxy.passwordRef.getD [])
  if username.length > 255 ∨ password.length > 255 then
    .fail (.new sshProxyAuthFailedCode "SOCKS5 proxy credentials are too long")
  else do
    .send (0x01 :: UInt8.ofNat username.length :: (username
      ++ UInt8.ofNat password.length :: password))
    let response ← readExact 2
    if response ≠ [0x01, 0x00] then
      .fail (.new sshProxyAuthFailedCode "SOCKS5 proxy authentication failed")
    else pure ()

def readSocks5BoundAddr (atyp : UInt8) : Script Q A EngineError Unit :=
  if atyp = 0x01 then do
    let _ ← readExact 6
  else if atyp = 0x03 then do
    let len ← readExact 1
    let _ ← readExact ((len.headD 0).toNat + 2)
  else if atyp = 0x04 then do
    let _ ← readExact 18
  else .fail (.new sshProxySocks5FailedCode "Invalid SOCKS5 address type")

def SshProxyConfig.hasAuth (proxy : SshProxyConfig) : Bool := proxy.username.any fun s => !s.isEmpty

/-- The greeting of `socks5_connect`. -/
def socks5Methods (proxy : SshProxyConfig) : Bytes :=
  if proxy.hasAuth then [0x05, 0x02, 0x00, 0x02] else [0x05, 0x01, 0x00]

def ProxyTarget.encode : ProxyTarget → Except EngineError Bytes
  | .domain host =>
    if (utf8 host).length > 255 then
      .error (.new sshProxySocks5FailedCode "SOCKS5 target host name is too long")
    else .ok (0x03 :: UInt8.ofNat (utf8 host).length :: utf8 host)
  | .ip (.v4 addr) => .ok (0x01 :: addr.octets)
  | .ip (.v6 addr) => .ok (0x04 :: addr.octets)

/-- The part of `socks5_connect` that reads the reply. -/
def readSocks5Reply : Script Q A EngineError Unit := do
  let head ← readExact 4
  if head.getD 0 0 ≠ 0x05 then
    .fail (.new sshProxySocks5FailedCode "Invalid SOCKS5 proxy response")
  else if head.getD 1 0 ≠ 0x00 then
    .fail (.withDetail sshProxySocks5FailedCode "SOCKS5 proxy failed to connect to target"
      ("reply=" ++ toString (head.getD 1 0).toNat))
  else readSocks5BoundAddr (head.getD 3 0)

/-- The part of `socks5_connect` for the request. -/
def requestSocks5 (lookupHost : Text → UInt16 → Except String (List IpAddr))
    (profile : HostProfile) (proxy : SshProxyConfig) : Script Q A EngineError Unit :=
  match resolveProxyTarget lookupHost profile proxy with
  | .error err => .fail err
  | .ok target =>
    match target.encode with
    | .error err => .fail err
    | .ok address => .write ([0x05, 0x01, 0x00] ++ address ++ toBeBytes profile.port) readSocks5Reply

def socks5Connect (lookupHost : Text → UInt16 → Except String (List IpAddr))
    (profile : HostProfile) (proxy : SshProxyConfig) : Script Q A EngineError Unit := do
  .send (socks5Methods proxy)
  let selected ← readExact 2
  if selected.getD 0 0 ≠ 0x05 then
    .fail (.new sshProxySocks5FailedCode "Invalid SOCKS5 proxy response")
  else if selected.getD 1 0 = 0xff then
    .fail (.new sshProxyAuthFailedCode "SOCKS5 proxy does not accept the authentication method")
  else
    if selected.getD 1 0 = 0x02 then socks5Auth proxy
    requestSocks5 lookupHost profile proxy

end

end FluxTerm.Ssh
