import FluxTerm.Proxy.Socks5
import FluxTerm.Ssh.DynamicTunnel

/-!
# FluxTerm — the messages of SOCKS5

What a SOCKS5 client sends, as data, and how the two servers of the repository take it apart: the
proxy's (`handleSocks5Handshake`) and the dynamic tunnel's (`socks5ConnectHandshake`).
-/

namespace FluxTerm.Proxy

open FluxTerm.Engine FluxTerm.Lib FluxTerm.Ssh

/-! ## Messages -/

def greeting (methods : Bytes) : Bytes := [0x05, UInt8.ofNat methods.length] ++ methods

def authentication (username password : Bytes) : Bytes :=
  [0x01] ++ ([UInt8.ofNat username.length] ++ (username ++
    ([UInt8.ofNat password.length] ++ password)))

/-- The address of a request; `other` is one of a type that is not assigned. -/
inductive Address where
  | v4 (addr : Ipv4Addr)
  | domain (name : Bytes)
  | v6 (addr : Ipv6Addr)
  | other (atyp : UInt8) (body : Bytes)
deriving DecidableEq

namespace Address

def atyp : Address → UInt8
  | v4 _ => 0x01
  | domain _ => 0x03
  | v6 _ => 0x04
  | other atyp _ => atyp

def body : Address → Bytes
  | v4 addr => addr.octets
  | domain name => [UInt8.ofNat name.length] ++ name
  | v6 addr => addr.octets
  | other _ body => body

def Fits : Address → Prop
  | v4 _ => True
  | domain name => name.length ≤ 255
  | v6 _ => True
  | other atyp _ => atyp ≠ 0x01 ∧ atyp ≠ 0x03 ∧ atyp ≠ 0x04

def Assigned : Address → Prop
  | other _ _ => False
  | _ => True

def host (read : Bytes → Option Text) : Address → Option Text
  | v4 addr => some addr.toText
  | domain name => read name
  | v6 addr => some (ipv6Text addr.segments)
  | other _ _ => none

end Address

structure Socks5Request where
  cmd : UInt8
  reserved : UInt8
  address : Address
  port : UInt16
deriving DecidableEq

def Socks5Request.encode (request : Socks5Request) : Bytes :=
  [0x05, request.cmd, request.reserved, request.address.atyp] ++
    (request.address.body ++ toBeBytes request.port)

theorem toNat_lengthByte {bytes : Bytes} (h : bytes.length ≤ 255) :
    (UInt8.ofNat bytes.length).toNat = bytes.length := by
  rw [UInt8.toNat_ofNat']
  omega

theorem length_octets (addr : Ipv6Addr) : 16 = addr.octets.length := by
  rw [Ipv6Addr.octets, length_octetsOf, addr.length_eq]

/-! ## The proxy -/

section
variable {α : Type}

theorem readText_utf8 (s : Text) (code message : String) :
    readText (utf8 s) code message = pure s := by
  unfold readText
  rw [decodeUtf8_utf8]

theorem handshake_consumes (auth : Option ProxyAuth) {methods : Bytes} (h : methods.length ≤ 255)
    (k : Socks5HandshakeResult → Server α) :
    (handleSocks5Handshake auth >>= k).Consumes (greeting methods)
      (selectMethod auth methods >>= fun _ => handleSocks5Request >>= k) := by
  unfold handleSocks5Handshake greeting
  simp only [bind_assoc]
  refine Script.readExact_consumes _ (by rfl) ?_
  rw [if_neg (by simp)]
  simp only [bind_assoc]
  exact Script.readExact_consumes_all _ (toNat_lengthByte h) rfl

/-- The end of `validate_socks5_username_password`: both fields are read as texts and compared. -/
def checkCredentials (expected : ProxyAuth) (username password : Bytes) : Server Unit := do
  let username ← readText username proxyAuthFailedCode "Invalid SOCKS5 authentication username"
  let password ← readText password proxyAuthFailedCode "Invalid SOCKS5 authentication password"
  if username = expected.username ∧ password = expected.password then
    .send [0x01, 0x00]
  else refuse [0x01, 0x01] proxyAuthFailedCode "Invalid SOCKS5 username or password"

theorem validate_consumes (expected : ProxyAuth) {username password : Bytes}
    (husername : username.length ≤ 255) (hpassword : password.length ≤ 255)
    (k : Unit → Server α) :
    (validateSocks5UsernamePassword expected >>= k).Consumes (authentication username password)
      (checkCredentials expected username password >>= k) := by
  unfold validateSocks5UsernamePassword authentication checkCredentials
  simp only [bind_assoc]
  refine Script.readExact_consumes _ (by rfl) ?_
  rw [if_neg (by simp)]
  simp only [bind_assoc]
  refine Script.readExact_consumes _ (by rfl) ?_
  refine Script.readExact_consumes _ (toNat_lengthByte husername) ?_
  refine Script.readExact_consumes _ (by rfl) ?_
  exact Script.readExact_consumes_all _ (toNat_lengthByte hpassword) rfl

def targetHost : Address → Server Text
  | .v4 addr => pure addr.toText
  | .domain name =>
    readText name proxySocks5RequestFailedCode "The target domain is not valid UTF-8"
  | .v6 addr => pure (ipv6Text addr.segments)
  | .other _ _ => refuse [0x05, 0x08, 0x00, 0x01, 0, 0, 0, 0, 0, 0] proxySocks5RequestFailedCode
    "Unsupported target address type"

theorem readTargetHost_consumes {address : Address} (hassigned : address.Assigned)
    (hfits : address.Fits) (k : Text → Server α) :
    (readTargetHost address.atyp >>= k).Consumes address.body (targetHost address >>= k) := by
  cases address with
  | v4 addr =>
    unfold readTargetHost
    rw [if_pos (by rfl), bind_assoc]
    exact Script.readExact_consumes_all addr.octets rfl rfl
  | domain name =>
    unfold readTargetHost
    rw [if_neg (by simp [Address.atyp]), if_pos (by rfl)]
    simp only [bind_assoc]
    refine Script.readExact_consumes _ (by rfl) ?_
    exact Script.readExact_consumes_all _ (toNat_lengthByte hfits) rfl
  | v6 addr =>
    unfold readTargetHost
    rw [if_neg (by simp [Address.atyp]), if_neg (by simp [Address.atyp]), if_pos (by rfl),
      bind_assoc]
    refine Script.readExact_consumes_all addr.octets (length_octets addr) ?_
    show k (ipv6Text (segmentsOf (octetsOf addr.segments))) = _
    rw [segmentsOf_octetsOf]
    rfl
  | other atyp body => exact hassigned.elim

def readPort (host : Text) : Server Socks5HandshakeResult := do
  let portBuf ← readExact 2 proxySocks5RequestFailedCode "Failed to read the target port"
  connectSocks5 (connectTarget host (ofBeBytes (portBuf.getD 0 0) (portBuf.getD 1 0)))

theorem readPort_consumes (host : Text) (port : UInt16) (k : Socks5HandshakeResult → Server α) :
    (readPort host >>= k).Consumes (toBeBytes port)
      (connectSocks5 (connectTarget host port) >>= k) := by
  unfold readPort
  rw [bind_assoc]
  refine Script.readExact_consumes_all _ rfl ?_
  show connectSocks5 (connectTarget _ (ofBeBytes (highByte port) (lowByte port))) >>= k = _
  rw [ofBeBytes_highByte_lowByte]

theorem connectRequest_consumes {address : Address} (hassigned : address.Assigned)
    (hfits : address.Fits) (reserved : UInt8) (k : Socks5HandshakeResult → Server α) :
    (handleSocks5Request >>= k).Consumes ([0x05, 0x01, reserved, address.atyp] ++ address.body)
      (targetHost address >>= fun host => readPort host >>= k) := by
  unfold handleSocks5Request
  simp only [bind_assoc]
  refine Script.readExact_consumes _ (by rfl) ?_
  rw [if_neg (by simp), if_neg (by simp)]
  simp only [bind_assoc]
  have hread := readTargetHost_consumes hassigned hfits fun host => readPort host >>= k
  simp only [readPort, bind_assoc] at hread ⊢
  exact hread

end

/-! ## The dynamic tunnel -/

section
variable {α : Type}

theorem tunnelHandshake_consumes {methods : Bytes} (h : methods.length ≤ 255)
    (k : Text × UInt16 → TunnelTask α) :
    (socks5ConnectHandshake >>= k).Consumes (greeting methods)
      (.write [0x05, 0x00] (tunnelRequest >>= k)) := by
  unfold socks5ConnectHandshake greeting
  simp only [bind_assoc]
  refine Script.readExact_consumes _ (by rfl) ?_
  rw [if_neg (by simp)]
  simp only [bind_assoc]
  exact Script.readExact_consumes_all _ (toNat_lengthByte h) rfl

theorem tunnelHost_consumes {address : Address} {host : Text}
    (hhost : address.host (fun name => some (lossy name)) = some host) (hfits : address.Fits)
    (k : Text → TunnelTask α) :
    (tunnelHost address.atyp >>= k).Consumes address.body (k host) := by
  cases address with
  | v4 addr =>
    cases hhost
    unfold tunnelHost
    rw [if_pos (by rfl), bind_assoc]
    exact Script.readExact_consumes_all addr.octets rfl rfl
  | domain name =>
    cases hhost
    unfold tunnelHost
    rw [if_neg (by simp [Address.atyp]), if_pos (by rfl)]
    simp only [bind_assoc]
    refine Script.readExact_consumes _ (by rfl) ?_
    exact Script.readExact_consumes_all _ (toNat_lengthByte hfits) rfl
  | v6 addr =>
    cases hhost
    unfold tunnelHost
    rw [if_neg (by simp [Address.atyp]), if_neg (by simp [Address.atyp]), if_pos (by rfl),
      bind_assoc]
    refine Script.readExact_consumes_all addr.octets (length_octets addr) ?_
    show k (ipv6Text (segmentsOf (octetsOf addr.segments))) = _
    rw [segmentsOf_octetsOf]
  | other atyp body => cases hhost

theorem tunnelRequest_consumes {address : Address} {host : Text}
    (hhost : address.host (fun name => some (lossy name)) = some host) (hfits : address.Fits)
    (reserved : UInt8) (port : UInt16) (k : Text × UInt16 → TunnelTask α) :
    (tunnelRequest >>= k).Consumes
      (Socks5Request.encode ⟨0x01, reserved, address, port⟩)
      (.write [0x05, 0x00, 0x00, 0x01, 0, 0, 0, 0, 0, 0] (k (host, port))) := by
  unfold tunnelRequest Socks5Request.encode
  simp only [bind_assoc]
  refine Script.readExact_consumes _ (by rfl) ?_
  rw [if_neg (by simp)]
  simp only [bind_assoc]
  apply (tunnelHost_consumes hhost hfits _).trans
  refine Script.readExact_consumes_all _ rfl ?_
  show Script.write _ (k (_, ofBeBytes (highByte port) (lowByte port))) = _
  rw [ofBeBytes_highByte_lowByte]

end

end FluxTerm.Proxy
