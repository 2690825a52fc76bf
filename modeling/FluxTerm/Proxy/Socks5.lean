import FluxTerm.Lib.IpAddr
import FluxTerm.Lib.Script
import FluxTerm.Proxy.HttpClient

/-!
# FluxTerm — the SOCKS5 server of the proxy

`handle_socks5_handshake` and `validate_socks5_username_password` of `crates/engine/src/proxy.rs`,
as scripts on the byte stream of the client. What the server asks is the connection to a target,
the text `host:port`.

The stream is reliable: a write goes through, and a read ends when its bytes are there or the
client has dropped the connection. Time limits are left out.
-/

namespace FluxTerm.Proxy

open FluxTerm.Engine FluxTerm.Lib

def proxyAuthRequiredCode : String := "proxy_auth_required"
def proxySocks5HandshakeFailedCode : String := "proxy_socks5_handshake_failed"
def proxySocks5RequestFailedCode : String := "proxy_socks5_request_failed"

abbrev Server := Script Text (Timed Unit) EngineError

/-- What `read_exact` reports at the end of the stream. -/
def earlyEof : String := "early eof"

/-- `read_exact_with_timeout` with the `map_err` that follows it everywhere. -/
abbrev readExact (count : ℕ) (code message : String) : Server Bytes :=
  .readExact count (.withDetail code message (EngineError.withDetail code message earlyEof).display)

def refuse {α : Type} (answer : Bytes) (code message : String) : Server α :=
  .write answer (.fail (.new code message))

/-- `String::from_utf8` with its `map_err`. -/
def readText (bytes : Bytes) (code message : String) : Server Text :=
  match decodeUtf8 bytes with
  | some s => pure s
  | none => .fail (.withDetail code message (utf8Error 0 0 none bytes))

def validateSocks5UsernamePassword (expected : ProxyAuth) : Server Unit := do
  let ver ← readExact 1 proxyAuthFailedCode "SOCKS5 authentication failed"
  if ver.headD 0 ≠ 0x01 then
    refuse [0x01, 0x01] proxyAuthFailedCode "Invalid SOCKS5 authentication version"
  else
    let ulen ← readExact 1 proxyAuthFailedCode "SOCKS5 authentication failed"
    let user ← readExact (ulen.headD 0).toNat proxyAuthFailedCode "SOCKS5 authentication failed"
    let plen ← readExact 1 proxyAuthFailedCode "SOCKS5 authentication failed"
    let pass ← readExact (plen.headD 0).toNat proxyAuthFailedCode "SOCKS5 authentication failed"
    let username ← readText user proxyAuthFailedCode "Invalid SOCKS5 authentication username"
    let password ← readText pass proxyAuthFailedCode "Invalid SOCKS5 authentication password"
    if username = expected.username ∧ password = expected.password then
      .send [0x01, 0x00]
    else refuse [0x01, 0x01] proxyAuthFailedCode "Invalid SOCKS5 username or password"

/-- The part of `handle_socks5_handshake` that settles the method, once the offers are read. -/
def selectMethod (auth : Option ProxyAuth) (methods : Bytes) : Server Unit :=
  match auth with
  | some auth =>
    if 0x02 ∉ methods then
      refuse [0x05, 0xff] proxyAuthRequiredCode
        "The SOCKS5 client does not support username/password authentication"
    else .write [0x05, 0x02] (validateSocks5UsernamePassword auth)
  | none =>
    if 0x00 ∉ methods then
      refuse [0x05, 0xff] proxySocks5HandshakeFailedCode
        "The SOCKS5 client does not support unauthenticated mode"
    else .send [0x05, 0x00]

/-- The target host of a request, by its address type. -/
def readTargetHost (atyp : UInt8) : Server Text :=
  if atyp = 0x01 then do
    let ipv4 ← readExact 4 proxySocks5RequestFailedCode "Failed to read the target address"
    return Ipv4Addr.toText ⟨ipv4.getD 0 0, ipv4.getD 1 0, ipv4.getD 2 0, ipv4.getD 3 0⟩
  else if atyp = 0x03 then do
    let len ← readExact 1 proxySocks5RequestFailedCode "Failed to read the target domain"
    let domain ← readExact (len.headD 0).toNat proxySocks5RequestFailedCode
      "Failed to read the target domain"
    readText domain proxySocks5RequestFailedCode "The target domain is not valid UTF-8"
  else if atyp = 0x04 then do
    let ipv6 ← readExact 16 proxySocks5RequestFailedCode "Failed to read the target address"
    return ipv6Text (segmentsOf ipv6)
  else refuse [0x05, 0x08, 0x00, 0x01, 0, 0, 0, 0, 0, 0] proxySocks5RequestFailedCode
    "Unsupported target address type"

def connectTarget (host : Text) (port : UInt16) : Text := host ++ ':' :: Nat.toDigits 10 port.toNat

/-- `Socks5HandshakeResult`: where the upstream connection goes. -/
structure Socks5HandshakeResult where
  upstream : Text
deriving DecidableEq

/-- What `handle_socks5_handshake` does with the outcome of connecting. -/
def replySocks5 (target : Text) (outcome : Timed Unit) : Server Socks5HandshakeResult :=
  match mapErr proxyUpstreamConnectFailedCode "Failed to connect to the upstream server"
      (connectWithTimeout outcome) with
  | .error err => .fail err
  | .ok () => .write [0x05, 0x00, 0x00, 0x01, 0, 0, 0, 0, 0, 0] (pure ⟨target⟩)

/-- The part of `handle_socks5_handshake` that connects the upstream. -/
def connectSocks5 (target : Text) : Server Socks5HandshakeResult := .ask target (replySocks5 target)

/-- The part of `handle_socks5_handshake` for the request. -/
def handleSocks5Request : Server Socks5HandshakeResult := do
  let reqHead ← readExact 4 proxySocks5RequestFailedCode "Failed to read the SOCKS5 request"
  if reqHead.getD 0 0 ≠ 0x05 then
    .fail (.new proxySocks5RequestFailedCode "Invalid SOCKS5 request version")
  else if reqHead.getD 1 0 ≠ 0x01 then
    refuse [0x05, 0x07, 0x00, 0x01, 0, 0, 0, 0, 0, 0] proxySocks5RequestFailedCode
      "Only the CONNECT command is supported"
  else
    let targetHost ← readTargetHost (reqHead.getD 3 0)
    let portBuf ← readExact 2 proxySocks5RequestFailedCode "Failed to read the target port"
    connectSocks5 (connectTarget targetHost (ofBeBytes (portBuf.getD 0 0) (portBuf.getD 1 0)))

def handleSocks5Handshake (auth : Option ProxyAuth) : Server Socks5HandshakeResult := do
  let greeting ← readExact 2 proxySocks5HandshakeFailedCode "SOCKS5 handshake failed"
  if greeting.getD 0 0 ≠ 0x05 then
    .fail (.new proxySocks5HandshakeFailedCode "Only SOCKS5 proxies are supported")
  else
    let methods ← readExact (greeting.getD 1 0).toNat proxySocks5HandshakeFailedCode
      "SOCKS5 handshake failed"
    selectMethod auth methods
    handleSocks5Request

theorem replySocks5_cases (target : Text) (outcome : Timed Unit) :
    (outcome = .done () ∧ replySocks5 target outcome =
      .write [0x05, 0x00, 0x00, 0x01, 0, 0, 0, 0, 0, 0] (pure ⟨target⟩)) ∨
    (outcome ≠ .done () ∧ ∃ err, replySocks5 target outcome = .fail err) := by
  cases outcome with
  | done result => exact .inl ⟨rfl, rfl⟩
  | failed err => exact .inr ⟨by simp, _, rfl⟩
  | timedOut => exact .inr ⟨by simp, _, rfl⟩

end FluxTerm.Proxy
