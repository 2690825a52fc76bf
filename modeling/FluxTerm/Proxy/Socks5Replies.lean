import FluxTerm.Proxy.Socks5Wire

/-!
# FluxTerm — what SOCKS5 replies say

The two servers of the repository against a client that sends a complete greeting, its credentials
where it is asked for them, and a complete request.

* **`repliesTruthfully_iff`** — exactly when the proxy and the dynamic tunnel are truthful. The
  proxy says nothing where connecting fails or the name is no UTF-8; the tunnel selects `0x00`
  whatever was offered, and reports success before it opens the channel.
-/

namespace FluxTerm.Proxy

open FluxTerm.Engine FluxTerm.Lib FluxTerm.Ssh
open FluxTerm.Lib.Script (sentBytes granted)

/-! ## Clients and their servers -/

structure Socks5Client where
  methods : Bytes
  username : Bytes
  password : Bytes
  request : Socks5Request
deriving DecidableEq

/-- Everything fits its length byte. -/
structure Socks5Client.Valid (client : Socks5Client) : Prop where
  methods : client.methods.length ≤ 255
  username : client.username.length ≤ 255
  password : client.password.length ≤ 255
  address : client.request.address.Fits

def Socks5Client.toProxy (auth : Option ProxyAuth) (client : Socks5Client) (more : Bytes) : Bytes :=
  greeting client.methods ++
    ((if auth.isSome ∧ 0x02 ∈ client.methods then authentication client.username client.password
      else []) ++ (client.request.encode ++ more))

def Socks5Client.toTunnel (client : Socks5Client) (more : Bytes) : Bytes :=
  greeting client.methods ++ (client.request.encode ++ more)

def proxyDeeds (auth : Option ProxyAuth) (connect : Text → Timed Unit) (input : Bytes) :
    List (Script.Deed Text (Timed Unit)) :=
  ((handleSocks5Handshake auth).exec connect input).deeds

def tunnelDeeds (openChannel : Text × UInt16 → Except String Unit) (input : Bytes) :
    List (Script.Deed (Text × UInt16) (Except String Unit)) :=
  (tunnelConnection.exec openChannel input).deeds

def isDone : Timed Unit → Bool
  | .done () => true
  | _ => false

def isOpen : Except String Unit → Bool
  | .ok () => true
  | .error _ => false

/-! ## Truthful replies -/

def repliesOf (sent : Bytes) : Option Bytes :=
  if sent.take 2 = [0x05, 0x00] then some (sent.drop 2)
  else if sent.take 4 = [0x05, 0x02, 0x01, 0x00] then some (sent.drop 4)
  else none

/-- One reply, which reports success exactly if the connection is there. -/
def ReplySays (established : Bool) (replies : Bytes) : Prop :=
  ∃ code bound, replies = [0x05, code, 0x00, 0x01] ++ bound ∧ bound.length = 6 ∧
    (code = 0x00 ↔ established = true)

/-- Method `0x00` was offered if it was selected, and a request that is let through gets one
truthful reply. -/
def Truthful (methods sent : Bytes) (established : Bool) : Prop :=
  (sent.take 2 = [0x05, 0x00] → 0x00 ∈ methods) ∧
    match repliesOf sent with
    | some replies => ReplySays established replies
    | none => established = false

theorem replySays_refusal {code : UInt8} (hcode : code ≠ 0x00) (established : Bool) :
    ReplySays established [0x05, code, 0x00, 0x01, 0, 0, 0, 0, 0, 0] ↔ established = false := by
  constructor
  · rintro ⟨code', bound, hreply, -, htells⟩
    have hsame : code = code' := by
      have := congrArg (fun l => l.getD 1 0) hreply
      simpa using this
    rw [← hsame] at htells
    cases established with
    | false => rfl
    | true => exact absurd (htells.mpr rfl) hcode
  · rintro rfl
    exact ⟨code, [0, 0, 0, 0, 0, 0], rfl, rfl, by simp [hcode]⟩

theorem replySays_success (established : Bool) :
    ReplySays established [0x05, 0x00, 0x00, 0x01, 0, 0, 0, 0, 0, 0] ↔ established = true := by
  constructor
  · rintro ⟨code', bound, hreply, -, htells⟩
    have hsame : 0x00 = code' := by
      have := congrArg (fun l => l.getD 1 0) hreply
      simpa using this
    exact htells.mp hsame.symm
  · rintro rfl
    exact ⟨0x00, [0, 0, 0, 0, 0, 0], rfl, rfl, by simp⟩

theorem not_replySays_nil (established : Bool) : ¬ReplySays established [] := by
  rintro ⟨code, bound, hreply, -, -⟩
  cases hreply

/-! ## The proxy -/

/-- The negotiation lets the client through. -/
def Admits (auth : Option ProxyAuth) (client : Socks5Client) : Prop :=
  match auth with
  | none => 0x00 ∈ client.methods
  | some expected => 0x02 ∈ client.methods ∧
      decodeUtf8 client.username = some expected.username ∧
      decodeUtf8 client.password = some expected.password

/-- A request to connect names a host, and connecting there succeeds. -/
def ProxyConnects (connect : Text → Timed Unit) (request : Socks5Request) : Prop :=
  request.cmd = 0x01 → request.address.Assigned →
    ∃ host, request.address.host decodeUtf8 = some host ∧
      connect (connectTarget host request.port) = .done ()

section
variable {connect : Text → Timed Unit} {request : Socks5Request}

def requestDeeds (connect : Text → Timed Unit) (request : Socks5Request) (more : Bytes) :
    List (Script.Deed Text (Timed Unit)) :=
  (handleSocks5Request.exec connect (request.encode ++ more)).deeds

theorem encode_append (request : Socks5Request) (more : Bytes) :
    request.encode ++ more = [0x05, request.cmd, request.reserved, request.address.atyp] ++
      (request.address.body ++ (toBeBytes request.port ++ more)) := by
  unfold Socks5Request.encode
  simp only [List.append_assoc]

theorem requestDeeds_of_cmd (h : request.cmd ≠ 0x01) (more : Bytes) :
    requestDeeds connect request more = [.sent [0x05, 0x07, 0x00, 0x01, 0, 0, 0, 0, 0, 0]] := by
  have hread : handleSocks5Request.Consumes
      [0x05, request.cmd, request.reserved, request.address.atyp]
      (refuse [0x05, 0x07, 0x00, 0x01, 0, 0, 0, 0, 0, 0] proxySocks5RequestFailedCode
        "Only the CONNECT command is supported") := by
    apply Script.readExact_consumes_all _ (by rfl)
    rw [if_neg (by simp), if_pos (by exact h)]
  unfold requestDeeds
  rw [encode_append, hread.exec]
  rfl

theorem requestDeeds_of_atyp (hcmd : request.cmd = 0x01) (haddress : ¬request.address.Assigned)
    (hfits : request.address.Fits) (more : Bytes) :
    requestDeeds connect request more = [.sent [0x05, 0x08, 0x00, 0x01, 0, 0, 0, 0, 0, 0]] := by
  have hread : handleSocks5Request.Consumes
      [0x05, 0x01, request.reserved, request.address.atyp]
      (refuse [0x05, 0x08, 0x00, 0x01, 0, 0, 0, 0, 0, 0] proxySocks5RequestFailedCode
        "Unsupported target address type") := by
    apply Script.readExact_consumes_all _ (by rfl)
    rw [if_neg (by simp), if_neg (by simp)]
    show readTargetHost request.address.atyp >>= _ = _
    cases haddr : request.address with
    | v4 _ => rw [haddr] at haddress; exact absurd trivial haddress
    | domain _ => rw [haddr] at haddress; exact absurd trivial haddress
    | v6 _ => rw [haddr] at haddress; exact absurd trivial haddress
    | other atyp body =>
      rw [haddr] at hfits
      obtain ⟨h1, h3, h4⟩ := hfits
      unfold readTargetHost Address.atyp
      rw [if_neg h1, if_neg h3, if_neg h4]
      rfl
  unfold requestDeeds
  rw [encode_append, hcmd, hread.exec]
  rfl

theorem requestDeeds_assigned (hcmd : request.cmd = 0x01) (haddress : request.address.Assigned)
    (hfits : request.address.Fits) (more : Bytes) :
    requestDeeds connect request more =
      ((targetHost request.address >>= readPort).exec connect
        (toBeBytes request.port ++ more)).deeds := by
  have hread := connectRequest_consumes haddress hfits request.reserved pure
  simp only [bind_pure] at hread
  unfold requestDeeds
  rw [encode_append, hcmd, ← List.append_assoc, hread.exec]

theorem requestDeeds_of_not_utf8 (hcmd : request.cmd = 0x01)
    (haddress : request.address.Assigned) (hfits : request.address.Fits)
    (hhost : request.address.host decodeUtf8 = none) (more : Bytes) :
    requestDeeds connect request more = [] := by
  rw [requestDeeds_assigned hcmd haddress hfits]
  cases haddr : request.address with
  | v4 _ => rw [haddr] at hhost; cases hhost
  | v6 _ => rw [haddr] at hhost; cases hhost
  | other _ _ => rw [haddr] at haddress; exact haddress.elim
  | domain name =>
    rw [haddr] at hhost
    have hname : decodeUtf8 name = none := hhost
    show ((readText name _ _ >>= readPort).exec connect _).deeds = []
    unfold readText
    rw [hname]
    rfl

theorem requestDeeds_of_host (hcmd : request.cmd = 0x01) (hfits : request.address.Fits)
    {host : Text} (hhost : request.address.host decodeUtf8 = some host) (more : Bytes) :
    requestDeeds connect request more =
      .asked (connectTarget host request.port) (connect (connectTarget host request.port)) ::
        ((replySocks5 (connectTarget host request.port)
          (connect (connectTarget host request.port))).exec connect more).deeds := by
  have haddress : request.address.Assigned := by
    cases haddr : request.address with
    | other _ _ => rw [haddr] at hhost; cases hhost
    | _ => trivial
  have htarget : targetHost request.address = pure host := by
    cases haddr : request.address with
    | v4 _ => rw [haddr] at hhost; cases hhost; rfl
    | v6 _ => rw [haddr] at hhost; cases hhost; rfl
    | other _ _ => rw [haddr] at hhost; cases hhost
    | domain name =>
      rw [haddr] at hhost
      have hname : decodeUtf8 name = some host := hhost
      show readText name _ _ = _
      unfold readText
      rw [hname]
  have hport := readPort_consumes host request.port pure
  simp only [bind_pure] at hport
  rw [requestDeeds_assigned hcmd haddress hfits, htarget, pure_bind, hport.exec]
  rfl

theorem replySays_requestDeeds (connect : Text → Timed Unit) (hfits : request.address.Fits) (more : Bytes) :
    ReplySays (granted isDone (requestDeeds connect request more))
        (sentBytes (requestDeeds connect request more)) ↔
      ProxyConnects connect request := by
  by_cases hcmd : request.cmd = 0x01
  · by_cases haddress : request.address.Assigned
    · cases hhost : request.address.host decodeUtf8 with
      | none =>
        rw [requestDeeds_of_not_utf8 hcmd haddress hfits hhost]
        refine ⟨fun h => absurd h (not_replySays_nil _), fun h => ?_⟩
        obtain ⟨host, hsome, -⟩ := h hcmd haddress
        rw [hhost] at hsome
        cases hsome
      | some host =>
        have hiff : ProxyConnects connect request ↔
            connect (connectTarget host request.port) = .done () := by
          constructor
          · intro h
            obtain ⟨host', hsome, hdone⟩ := h hcmd haddress
            rw [hhost] at hsome
            cases hsome
            exact hdone
          · exact fun hdone _ _ => ⟨host, hhost, hdone⟩
        rw [requestDeeds_of_host hcmd hfits hhost, hiff]
        rcases replySocks5_cases (connectTarget host request.port)
          (connect (connectTarget host request.port)) with ⟨hdone, hreply⟩ | ⟨hnot, err, hreply⟩
        · rw [hreply, hdone]
          exact iff_of_true ((replySays_success true).mpr rfl) rfl
        · rw [hreply]
          exact iff_of_false (not_replySays_nil _) hnot
    · rw [requestDeeds_of_atyp hcmd haddress hfits]
      exact iff_of_true ((replySays_refusal (by decide) false).mpr rfl)
        fun _ h => absurd h haddress
  · rw [requestDeeds_of_cmd hcmd]
    exact iff_of_true ((replySays_refusal (by decide) false).mpr rfl) fun h => absurd h hcmd

end

section
variable {auth : Option ProxyAuth} {connect : Text → Timed Unit} {client : Socks5Client}

theorem proxyDeeds_none (hvalid : client.Valid) (more : Bytes) :
    proxyDeeds none connect (client.toProxy none more) =
      if 0x00 ∈ client.methods then
        .sent [0x05, 0x00] :: requestDeeds connect client.request more
      else [.sent [0x05, 0xff]] := by
  have hread := handshake_consumes none hvalid.methods pure
  simp only [bind_pure] at hread
  unfold proxyDeeds Socks5Client.toProxy
  rw [hread.exec]
  by_cases h : 0x00 ∈ client.methods
  · rw [if_pos h, selectMethod, if_neg (not_not.mpr h)]
    rfl
  · rw [if_neg h, selectMethod, if_pos h]
    rfl

theorem proxyDeeds_some (expected : ProxyAuth) (hvalid : client.Valid) (more : Bytes) :
    proxyDeeds (some expected) connect (client.toProxy (some expected) more) =
      if 0x02 ∈ client.methods then
        .sent [0x05, 0x02] ::
          ((checkCredentials expected client.username client.password >>= fun _ =>
            handleSocks5Request).exec connect (client.request.encode ++ more)).deeds
      else [.sent [0x05, 0xff]] := by
  have hread := handshake_consumes (some expected) hvalid.methods pure
  simp only [bind_pure] at hread
  unfold proxyDeeds Socks5Client.toProxy
  rw [hread.exec]
  by_cases h : 0x02 ∈ client.methods
  · have hauth := validate_consumes expected hvalid.username hvalid.password
      fun _ => handleSocks5Request
    rw [if_pos h, if_pos ⟨rfl, h⟩, selectMethod, if_neg (not_not.mpr h), Script.write_bind,
      Script.exec_write, hauth.exec]
  · rw [if_neg h, selectMethod, if_pos h]
    rfl

theorem checkCredentials_cases (expected : ProxyAuth) (username password : Bytes) :
    ((decodeUtf8 username = some expected.username ∧ decodeUtf8 password = some expected.password) ∧
      checkCredentials expected username password = .send [0x01, 0x00]) ∨
    (¬(decodeUtf8 username = some expected.username ∧
        decodeUtf8 password = some expected.password) ∧
      ((∃ err, checkCredentials expected username password = .fail err) ∨
        ∃ code message, checkCredentials expected username password =
          refuse [0x01, 0x01] code message)) := by
  unfold checkCredentials readText
  cases husername : decodeUtf8 username with
  | none => exact .inr ⟨by simp, .inl ⟨_, rfl⟩⟩
  | some s =>
    cases hpassword : decodeUtf8 password with
    | none => exact .inr ⟨by simp, .inl ⟨_, rfl⟩⟩
    | some t =>
      rw [pure_bind, pure_bind]
      by_cases h : s = expected.username ∧ t = expected.password
      · exact .inl ⟨⟨congrArg some h.1, congrArg some h.2⟩, if_pos h⟩
      · refine .inr ⟨?_, .inr ⟨_, _, if_neg h⟩⟩
        rintro ⟨hs, ht⟩
        exact h ⟨Option.some.inj hs, Option.some.inj ht⟩

theorem proxy_truthful_iff (hvalid : client.Valid) (more : Bytes) :
    Truthful client.methods (sentBytes (proxyDeeds auth connect (client.toProxy auth more)))
        (granted isDone (proxyDeeds auth connect (client.toProxy auth more))) ↔
      (Admits auth client → ProxyConnects connect client.request) := by
  have hrequest := replySays_requestDeeds connect hvalid.address more
  cases auth with
  | none =>
    rw [proxyDeeds_none hvalid]
    by_cases h : 0x00 ∈ client.methods
    · rw [if_pos h, Script.sentBytes_sent, Script.granted_sent]
      exact ⟨fun ht _ => hrequest.mp ht.2, fun hc => ⟨fun _ => h, hrequest.mpr (hc h)⟩⟩
    · rw [if_neg h]
      exact iff_of_true ⟨fun ht => absurd ht (by decide), rfl⟩ fun hadmits => absurd hadmits h
  | some expected =>
    rw [proxyDeeds_some expected hvalid]
    by_cases h : 0x02 ∈ client.methods
    · rw [if_pos h, Script.sentBytes_sent, Script.granted_sent]
      rcases checkCredentials_cases expected client.username client.password with
        ⟨hright, hcheck⟩ | ⟨hwrong, ⟨err, hcheck⟩ | ⟨code, message, hcheck⟩⟩
      · rw [hcheck]
        exact ⟨fun ht _ => hrequest.mp ht.2,
          fun hc => ⟨fun ht => absurd ht (by simp), hrequest.mpr (hc ⟨h, hright⟩)⟩⟩
      · rw [hcheck]
        exact iff_of_true ⟨fun ht => absurd ht (by simp), rfl⟩
          fun hadmits => absurd hadmits.2 hwrong
      · rw [hcheck]
        exact iff_of_true ⟨fun ht => absurd ht (by simp), rfl⟩
          fun hadmits => absurd hadmits.2 hwrong
    · rw [if_neg h]
      exact iff_of_true ⟨fun ht => absurd ht (by decide), rfl⟩ fun hadmits => absurd hadmits.1 h

end

/-! ## The dynamic tunnel -/

/-- For a request to connect, the channel opens. -/
def TunnelOpens (openChannel : Text × UInt16 → Except String Unit) (request : Socks5Request) :
    Prop :=
  request.cmd = 0x01 → ∀ host, request.address.host (fun name => some (lossy name)) = some host →
    openChannel (host, request.port) = .ok ()

section
variable {openChannel : Text × UInt16 → Except String Unit} {client : Socks5Client}

def channelDeeds (openChannel : Text × UInt16 → Except String Unit) (request : Socks5Request)
    (more : Bytes) : List (Script.Deed (Text × UInt16) (Except String Unit)) :=
  ((tunnelRequest >>= openTunnelChannel).exec openChannel (request.encode ++ more)).deeds

theorem tunnelDeeds_eq (hvalid : client.Valid) (more : Bytes) :
    tunnelDeeds openChannel (client.toTunnel more) =
      .sent [0x05, 0x00] :: channelDeeds openChannel client.request more := by
  have hread := tunnelHandshake_consumes hvalid.methods openTunnelChannel
  unfold tunnelDeeds tunnelConnection Socks5Client.toTunnel
  rw [hread.exec]
  rfl

theorem channelDeeds_of_cmd {request : Socks5Request} (h : request.cmd ≠ 0x01) (more : Bytes) :
    channelDeeds openChannel request more =
      [.sent [0x05, 0x07, 0x00, 0x01, 0, 0, 0, 0, 0, 0]] := by
  have hread : (tunnelRequest >>= openTunnelChannel).Consumes
      [0x05, request.cmd, request.reserved, request.address.atyp]
      (tunnelRefuse [0x05, 0x07, 0x00, 0x01, 0, 0, 0, 0, 0, 0]
        "Only CONNECT command is supported" >>= openTunnelChannel) := by
    unfold tunnelRequest
    rw [bind_assoc]
    apply Script.readExact_consumes_all _ (by rfl)
    rw [if_pos (by exact h)]
  unfold channelDeeds
  rw [encode_append, hread.exec]
  rfl

theorem channelDeeds_of_atyp {request : Socks5Request} (hcmd : request.cmd = 0x01)
    (hhost : request.address.host (fun name => some (lossy name)) = none)
    (hfits : request.address.Fits) (more : Bytes) :
    channelDeeds openChannel request more =
      [.sent [0x05, 0x08, 0x00, 0x01, 0, 0, 0, 0, 0, 0]] := by
  have hread : (tunnelRequest >>= openTunnelChannel).Consumes
      [0x05, 0x01, request.reserved, request.address.atyp]
      (tunnelRefuse [0x05, 0x08, 0x00, 0x01, 0, 0, 0, 0, 0, 0]
        "Unsupported address type" >>= openTunnelChannel) := by
    unfold tunnelRequest
    rw [bind_assoc]
    apply Script.readExact_consumes_all _ (by rfl)
    rw [if_neg (by simp)]
    show (tunnelHost request.address.atyp >>= _) >>= _ = _
    cases haddr : request.address with
    | v4 _ => rw [haddr] at hhost; cases hhost
    | domain _ => rw [haddr] at hhost; cases hhost
    | v6 _ => rw [haddr] at hhost; cases hhost
    | other atyp body =>
      rw [haddr] at hfits
      obtain ⟨h1, h3, h4⟩ := hfits
      unfold tunnelHost Address.atyp
      rw [if_neg h1, if_neg h3, if_neg h4]
      rfl
  unfold channelDeeds
  rw [encode_append, hcmd, hread.exec]
  rfl

theorem channelDeeds_of_host {request : Socks5Request} (hcmd : request.cmd = 0x01) {host : Text}
    (hhost : request.address.host (fun name => some (lossy name)) = some host)
    (hfits : request.address.Fits) (more : Bytes) :
    channelDeeds openChannel request more =
      [.sent [0x05, 0x00, 0x00, 0x01, 0, 0, 0, 0, 0, 0],
        .asked (host, request.port) (openChannel (host, request.port))] := by
  have hread := tunnelRequest_consumes hhost hfits request.reserved request.port openTunnelChannel
  have hrequest : (⟨0x01, request.reserved, request.address, request.port⟩ : Socks5Request) =
      request := by rw [← hcmd]
  rw [hrequest] at hread
  unfold channelDeeds
  rw [hread.exec, Script.exec_write]
  unfold openTunnelChannel
  rw [Script.exec_ask]
  cases openChannel (host, request.port) with
  | ok _ => rfl
  | error _ => rfl

theorem replySays_channelDeeds (openChannel : Text × UInt16 → Except String Unit)
    {request : Socks5Request} (hfits : request.address.Fits)
    (more : Bytes) :
    ReplySays (granted isOpen (channelDeeds openChannel request more))
        (sentBytes (channelDeeds openChannel request more)) ↔
      TunnelOpens openChannel request := by
  by_cases hcmd : request.cmd = 0x01
  · cases hhost : request.address.host (fun name => some (lossy name)) with
    | none =>
      rw [channelDeeds_of_atyp hcmd hhost hfits]
      refine iff_of_true ((replySays_refusal (by decide) false).mpr rfl) fun _ host hsome => ?_
      rw [hhost] at hsome
      cases hsome
    | some host =>
      rw [channelDeeds_of_host hcmd hhost hfits]
      have hiff : TunnelOpens openChannel request ↔ openChannel (host, request.port) = .ok () := by
        constructor
        · exact fun h => h hcmd host hhost
        · intro hopen _ host' hsome
          rw [hhost] at hsome
          cases hsome
          exact hopen
      rw [hiff]
      cases openChannel (host, request.port) with
      | ok _ => exact iff_of_true ((replySays_success true).mpr rfl) rfl
      | error _ =>
        exact iff_of_false (fun h => absurd ((replySays_success false).mp h) (by decide)) (by simp)
  · rw [channelDeeds_of_cmd hcmd]
    exact iff_of_true ((replySays_refusal (by decide) false).mpr rfl) fun h => absurd h hcmd

theorem tunnel_truthful_iff (hvalid : client.Valid) (more : Bytes) :
    Truthful client.methods (sentBytes (tunnelDeeds openChannel (client.toTunnel more)))
        (granted isOpen (tunnelDeeds openChannel (client.toTunnel more))) ↔
      0x00 ∈ client.methods ∧ TunnelOpens openChannel client.request := by
  have hrequest := replySays_channelDeeds openChannel hvalid.address more
  rw [tunnelDeeds_eq hvalid, Script.sentBytes_sent, Script.granted_sent, ← hrequest]
  exact ⟨fun ht => ⟨ht.1 rfl, ht.2⟩, fun h => ⟨fun _ => h.1, h.2⟩⟩

end

/-! ## Both servers -/

/-- The replies of both servers to a client tell the truth. -/
def RepliesTruthfully (auth : Option ProxyAuth) (connect : Text → Timed Unit)
    (openChannel : Text × UInt16 → Except String Unit) (client : Socks5Client) (more : Bytes) :
    Prop :=
  Truthful client.methods (sentBytes (proxyDeeds auth connect (client.toProxy auth more)))
      (granted isDone (proxyDeeds auth connect (client.toProxy auth more))) ∧
    Truthful client.methods (sentBytes (tunnelDeeds openChannel (client.toTunnel more)))
      (granted isOpen (tunnelDeeds openChannel (client.toTunnel more)))

/-- **When SOCKS5 replies tell the truth.** -/
theorem repliesTruthfully_iff (auth : Option ProxyAuth) (connect : Text → Timed Unit)
    (openChannel : Text × UInt16 → Except String Unit) {client : Socks5Client}
    (hvalid : client.Valid) (more : Bytes) :
    RepliesTruthfully auth connect openChannel client more ↔
      (Admits auth client → ProxyConnects connect client.request) ∧
        0x00 ∈ client.methods ∧ TunnelOpens openChannel client.request :=
  and_congr (proxy_truthful_iff hvalid more) (tunnel_truthful_iff hvalid more)

/-- A client without credentials that asks for `1.2.3.4:80`. -/
def exampleClient : Socks5Client :=
  ⟨[0x00], [], [], ⟨0x01, 0x00, .v4 ⟨1, 2, 3, 4⟩, 80⟩⟩

theorem exampleClient_valid : exampleClient.Valid :=
  ⟨by decide, by decide, by decide, trivial⟩

/-- The network is there. -/
theorem repliesTruthfully_iff_reachable :
    RepliesTruthfully none (fun _ => .done ()) (fun _ => .ok ()) exampleClient [] :=
  (repliesTruthfully_iff none (fun _ => .done ()) (fun _ => .ok ())
    exampleClient_valid []).mpr
    ⟨fun _ _ _ => ⟨_, rfl, rfl⟩, by decide, fun _ _ _ => rfl⟩

/-- Connecting fails, and the proxy does not reply; the channel is refused, and the tunnel has
reported success. -/
theorem unreachable_replies_lie :
    ¬RepliesTruthfully none (fun _ => .failed "refused") (fun _ => .error "refused")
      exampleClient [] := by
  rintro ⟨-, htunnel⟩
  exact absurd ((replySays_success false).mp htunnel.2) (by decide)

end FluxTerm.Proxy
