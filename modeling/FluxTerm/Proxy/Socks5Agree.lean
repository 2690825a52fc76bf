import FluxTerm.Proxy.Socks5Wire
import FluxTerm.Ssh.Socks5Client

/-!
# FluxTerm — the SOCKS5 client and server agree

The SSH transport's client at one end of a connection, the proxy's server at the other, each with
bytes of its own to send once its handshake is over.

* **`socks5_agrees`** — every run of the two is bounded; it asks for the client's target or for
  nothing; it asks exactly if the server requires no credentials or the client has them; and what
  an end sends behind the handshake is all unread when the handshake is over.

The proof follows the conversation message by message (`Lib.Talks`) to one final state. The turns
of the two ends commute, so that state is where every run ends.
-/

namespace FluxTerm.Proxy

open FluxTerm.Engine FluxTerm.Lib FluxTerm.Ssh

/-! ## The two ends -/

def credentials (proxy : SshProxyConfig) : Option ProxyAuth :=
  if proxy.hasAuth then some ⟨proxy.username.getD [], proxy.passwordRef.getD []⟩ else none

def Accepts (auth : Option ProxyAuth) (proxy : SshProxyConfig) : Prop :=
  auth = none ∨ credentials proxy = auth

def CredentialsFit (proxy : SshProxyConfig) : Prop :=
  (utf8 (proxy.username.getD [])).length ≤ 255 ∧ (utf8 (proxy.passwordRef.getD [])).length ≤ 255

def TargetFits : ProxyTarget → Prop
  | .domain host => (utf8 host).length ≤ 255
  | .ip _ => True

/-- `host` is the target: the name itself, or a text of the address. -/
def Names : ProxyTarget → Text → Prop
  | .domain host, text => text = host
  | .ip addr, text => parseIpAddr text = some addr

def hostText : ProxyTarget → Text
  | .domain host => host
  | .ip addr => addr.toText

theorem names_hostText (target : ProxyTarget) : Names target (hostText target) := by
  cases target with
  | domain host => rfl
  | ip addr => exact parseIpAddr_toText addr

section
variable (lookupHost : Text → UInt16 → Except String (List IpAddr)) (profile : HostProfile)
  (proxy : SshProxyConfig) (auth : Option ProxyAuth) (clientAfter serverAfter : Bytes)

/-- The client, which sends `clientAfter` behind its handshake. -/
def client : Server Unit := do
  socks5Connect lookupHost profile proxy
  .send clientAfter

/-- The server, which sends `serverAfter` behind its handshake. -/
def server : Server Socks5HandshakeResult := do
  let result ← handleSocks5Handshake auth
  .send serverAfter
  return result

def socks5Start : Duplex Text (Timed Unit) EngineError Unit Socks5HandshakeResult where
  left := { script := client lookupHost profile proxy clientAfter }
  right := { script := server auth serverAfter }

end

/-! ## What the server reads -/

def offered (proxy : SshProxyConfig) : Bytes := if proxy.hasAuth then [0x00, 0x02] else [0x00]

theorem length_offered (proxy : SshProxyConfig) : (offered proxy).length ≤ 255 := by
  unfold offered
  split <;> decide

theorem socks5Methods_eq (proxy : SshProxyConfig) :
    socks5Methods proxy = greeting (offered proxy) := by
  unfold socks5Methods offered
  split <;> rfl

def authMessage (proxy : SshProxyConfig) : Bytes :=
  authentication (utf8 (proxy.username.getD [])) (utf8 (proxy.passwordRef.getD []))

def authAnswer (expected : ProxyAuth) (proxy : SshProxyConfig) : Server Unit :=
  if proxy.username.getD [] = expected.username ∧ proxy.passwordRef.getD [] = expected.password then
    .send [0x01, 0x00]
  else refuse [0x01, 0x01] proxyAuthFailedCode "Invalid SOCKS5 username or password"

section
variable {α : Type}

theorem auth_consumes (expected : ProxyAuth) {proxy : SshProxyConfig} (hfit : CredentialsFit proxy)
    (k : Unit → Server α) :
    (validateSocks5UsernamePassword expected >>= k).Consumes (authMessage proxy)
      (authAnswer expected proxy >>= k) := by
  have hread := validate_consumes expected hfit.1 hfit.2 k
  unfold checkCredentials at hread
  rw [readText_utf8, readText_utf8] at hread
  exact hread

theorem request_consumes {target : ProxyTarget} (hfit : TargetFits target) (port : UInt16)
    (k : Socks5HandshakeResult → Server α) :
    ∃ address, target.encode = .ok address ∧
      (handleSocks5Request >>= k).Consumes ([0x05, 0x01, 0x00] ++ address ++ toBeBytes port)
        (connectSocks5 (connectTarget (hostText target) port) >>= k) := by
  obtain ⟨address, hassigned, hfits, hencode, hhost⟩ : ∃ address : Address, address.Assigned ∧
      address.Fits ∧ target.encode = .ok (address.atyp :: address.body) ∧
      targetHost address = pure (hostText target) := by
    cases target with
    | domain host =>
      exact ⟨.domain (utf8 host), trivial, hfit, if_neg (Nat.not_lt.mpr hfit), readText_utf8 _ _ _⟩
    | ip addr =>
      cases addr with
      | v4 addr => exact ⟨.v4 addr, trivial, trivial, rfl, rfl⟩
      | v6 addr => exact ⟨.v6 addr, trivial, trivial, rfl, rfl⟩
  refine ⟨_, hencode, ?_⟩
  have hread := connectRequest_consumes hassigned hfits 0x00 k
  rw [hhost] at hread
  have hmessage : [0x05, 0x01, 0x00] ++ (address.atyp :: address.body) ++ toBeBytes port =
      ([0x05, 0x01, 0x00, address.atyp] ++ address.body) ++ toBeBytes port := by simp
  rw [hmessage]
  exact hread.trans (readPort_consumes (hostText target) port k)

end

/-! ## What the client does -/

section
variable {lookupHost : Text → UInt16 → Except String (List IpAddr)} {profile : HostProfile}
  {proxy : SshProxyConfig} {auth : Option ProxyAuth} {clientAfter serverAfter : Bytes}

/-- What the client does once the server has told the method. -/
def afterMethod (lookupHost : Text → UInt16 → Except String (List IpAddr)) (profile : HostProfile)
    (proxy : SshProxyConfig) (clientAfter : Bytes) (selected : Bytes) : Server Unit := do
  (if selected.getD 0 0 ≠ 0x05 then
    .fail (.new sshProxySocks5FailedCode "Invalid SOCKS5 proxy response")
  else if selected.getD 1 0 = 0xff then
    .fail (.new sshProxyAuthFailedCode "SOCKS5 proxy does not accept the authentication method")
  else do
    if selected.getD 1 0 = 0x02 then socks5Auth proxy
    requestSocks5 lookupHost profile proxy)
  .send clientAfter

theorem client_eq : client lookupHost profile proxy clientAfter =
    .write (socks5Methods proxy)
      (Ssh.readExact 2 >>= afterMethod lookupHost profile proxy clientAfter) := by
  unfold client socks5Connect
  rw [bind_assoc, Script.send_bind, bind_assoc]
  rfl

def clientRequest (address : Bytes) (port : UInt16) (clientAfter : Bytes) : Server Unit :=
  .write ([0x05, 0x01, 0x00] ++ address ++ toBeBytes port) do
    readSocks5Reply
    .send clientAfter

theorem requestSocks5_eq {target : ProxyTarget} {address : Bytes}
    (hresolve : resolveProxyTarget lookupHost profile proxy = .ok target)
    (hencode : target.encode = .ok address) :
    (do requestSocks5 lookupHost profile proxy; .send clientAfter : Server Unit) =
      clientRequest address profile.port clientAfter := by
  unfold requestSocks5 clientRequest
  rw [hresolve]
  dsimp only
  rw [hencode]
  rfl

theorem afterMethod_none : afterMethod lookupHost profile proxy clientAfter [0x05, 0x00] =
    (do requestSocks5 lookupHost profile proxy; .send clientAfter) := by
  unfold afterMethod
  rw [if_neg (by simp), if_neg (by decide), if_neg (by decide)]

theorem afterMethod_auth (hfit : CredentialsFit proxy) :
    afterMethod lookupHost profile proxy clientAfter [0x05, 0x02] =
      .write (authMessage proxy) (Ssh.readExact 2 >>= fun response => do
        (if response ≠ [0x01, 0x00] then
          .fail (.new sshProxyAuthFailedCode "SOCKS5 proxy authentication failed")
        else pure ())
        requestSocks5 lookupHost profile proxy
        .send clientAfter) := by
  have hauth : (socks5Auth proxy : Server Unit) = .write (authMessage proxy) (Ssh.readExact 2 >>=
      fun response => if response ≠ [0x01, 0x00] then
          .fail (.new sshProxyAuthFailedCode "SOCKS5 proxy authentication failed")
        else pure ()) := by
    unfold socks5Auth
    rw [if_neg (by rw [not_or, Nat.not_lt, Nat.not_lt]; exact hfit)]
    rfl
  unfold afterMethod
  rw [if_neg (by simp), if_neg (by decide), if_pos (by decide), hauth, Script.write_bind,
    Script.write_bind]
  simp only [bind_assoc]

theorem reply_consumes (k : Unit → Server Unit) :
    ((readSocks5Reply : Server Unit) >>= k).Consumes [0x05, 0x00, 0x00, 0x01, 0, 0, 0, 0, 0, 0]
      (k ()) := by
  have hmessage : ([0x05, 0x00, 0x00, 0x01, 0, 0, 0, 0, 0, 0] : Bytes) =
      [0x05, 0x00, 0x00, 0x01] ++ [0, 0, 0, 0, 0, 0] := rfl
  unfold readSocks5Reply
  rw [hmessage, bind_assoc]
  apply Script.Consumes.trans
  · exact Script.readExact_consumes_all _ (by rfl) (by rfl)
  · rw [if_neg (by simp), if_neg (by simp)]
    unfold readSocks5BoundAddr
    rw [if_pos (by rfl), bind_assoc]
    exact Script.readExact_consumes_all _ (by rfl) (by rfl)

/-! ## The conversation -/

/-- Where a conversation ends: both ends have returned, the server has asked for `target` if it
accepts the client and for nothing else, and what an end sent behind its handshake waits at the
other end. -/
structure Settled (accepted : Prop) (target : Text) (clientAfter serverAfter : Bytes)
    (d : Duplex Text (Timed Unit) EngineError Unit Socks5HandshakeResult) : Prop where
  clientReturned : ∃ result, d.left.script = .ret result
  serverReturned : ∃ result, d.right.script = .ret result
  asked : accepted ∧ d.right.asked = [target] ∨ ¬accepted ∧ d.right.asked = []
  clientUnread : d.left.script = .ret (.ok ()) → d.right.inbox = clientAfter
  serverUnread : ∀ result, d.right.script = .ret (.ok result) → d.left.inbox = serverAfter

theorem Settled.refused {accepted : Prop} {target : Text} {err err' : EngineError}
    {inbox inbox' : Bytes} {asked asked' : List Text}
    (h : accepted ∧ asked' = [target] ∨ ¬accepted ∧ asked' = []) :
    Settled accepted target clientAfter serverAfter
      ⟨⟨.fail err, inbox, asked⟩, ⟨.fail err', inbox', asked'⟩⟩ where
  clientReturned := ⟨_, rfl⟩
  serverReturned := ⟨_, rfl⟩
  asked := h
  clientUnread hok := by cases hok
  serverUnread _ hok := by cases hok

def afterHandshake (serverAfter : Bytes) (result : Socks5HandshakeResult) :
    Server Socks5HandshakeResult := do
  .send serverAfter
  return result

theorem talks_request (connect : Text → Timed Unit) (clientAfter serverAfter : Bytes)
    {target : ProxyTarget} (hfit : TargetFits target) (port : UInt16) :
    ∃ address fin, target.encode = .ok address ∧
      Talks connect
        ⟨⟨clientRequest address port clientAfter, [], []⟩,
          ⟨handleSocks5Request >>= afterHandshake serverAfter, [], []⟩⟩ fin ∧
      Settled True (connectTarget (hostText target) port) clientAfter serverAfter fin := by
  obtain ⟨address, hencode, hrequest⟩ :=
    request_consumes hfit port (afterHandshake serverAfter)
  generalize connectTarget (hostText target) port = query at hrequest ⊢
  have hasked : Talks connect
      ⟨⟨clientRequest address port clientAfter, [], []⟩,
        ⟨handleSocks5Request >>= afterHandshake serverAfter, [], []⟩⟩
      ⟨⟨readSocks5Reply >>= fun _ => .send clientAfter, [], []⟩,
        ⟨replySocks5 query (connect query) >>= afterHandshake serverAfter, [], [query]⟩⟩ :=
    (Talks.say_left hrequest).trans (Talks.ask_right _)
  rcases replySocks5_cases query (connect query) with ⟨-, hreply⟩ | ⟨-, err, hreply⟩
  · rw [hreply] at hasked
    have hheard := hasked.trans (Talks.say_right (reply_consumes fun _ => .send clientAfter))
    have hend := hheard.trans (.of_step .left rfl (.of_step .right rfl (.refl _)))
    refine ⟨address, _, hencode, hend, ⟨_, rfl⟩, ⟨_, rfl⟩, .inl ⟨trivial, rfl⟩, fun _ => rfl, ?_⟩
    intro result _
    rfl
  · -- the server drops the connection, and the client waits for the reply
    rw [hreply] at hasked
    exact ⟨address, _, hencode, hasked.trans (Talks.hangUp_left (by decide)),
      Settled.refused (.inl ⟨trivial, rfl⟩)⟩

theorem mem_offered (proxy : SshProxyConfig) :
    0x00 ∈ offered proxy ∧ (0x02 ∈ offered proxy ↔ proxy.hasAuth = true) := by
  unfold offered
  cases proxy.hasAuth <;> decide

theorem accepts_some (expected : ProxyAuth) (proxy : SshProxyConfig) :
    Accepts (some expected) proxy ↔ proxy.hasAuth = true ∧
      proxy.username.getD [] = expected.username ∧ proxy.passwordRef.getD [] = expected.password := by
  obtain ⟨username, password⟩ := expected
  unfold Accepts credentials
  cases proxy.hasAuth <;> simp

theorem talks_end (connect : Text → Timed Unit) (auth : Option ProxyAuth)
    (clientAfter serverAfter : Bytes) {target : ProxyTarget}
    (hresolve : resolveProxyTarget lookupHost profile proxy = .ok target)
    (htarget : TargetFits target) (hfit : CredentialsFit proxy) :
    ∃ fin, Talks connect (socks5Start lookupHost profile proxy auth clientAfter serverAfter) fin ∧
      Settled (Accepts auth proxy) (connectTarget (hostText target) profile.port) clientAfter
        serverAfter fin := by
  obtain ⟨address, fin, hencode, hrequest, hfin⟩ :=
    talks_request connect clientAfter serverAfter htarget profile.port
  have hgreeted : Talks connect (socks5Start lookupHost profile proxy auth clientAfter serverAfter)
      ⟨⟨Ssh.readExact 2 >>= afterMethod lookupHost profile proxy clientAfter, [], []⟩,
        ⟨selectMethod auth (offered proxy) >>= fun _ =>
          handleSocks5Request >>= afterHandshake serverAfter, [], []⟩⟩ := by
    unfold socks5Start
    rw [client_eq]
    rw [socks5Methods_eq]
    exact Talks.say_left (handshake_consumes auth (length_offered proxy) (afterHandshake serverAfter))
  obtain ⟨hoffered, hoffered'⟩ := mem_offered proxy
  cases auth with
  | none =>
    have haccepts : Accepts none proxy = True := eq_true (.inl rfl)
    have hselect : selectMethod none (offered proxy) = .send [0x05, 0x00] :=
      if_neg (not_not.mpr hoffered)
    rw [hselect] at hgreeted
    have htold := hgreeted.trans
      (Talks.say_right (Script.readExact_consumes_all _ (by rfl) afterMethod_none))
    rw [requestSocks5_eq hresolve hencode] at htold
    rw [haccepts]
    exact ⟨fin, htold.trans hrequest, hfin⟩
  | some expected =>
    by_cases hauth : proxy.hasAuth = true
    · have hselect : selectMethod (some expected) (offered proxy) =
          .write [0x05, 0x02] (validateSocks5UsernamePassword expected) :=
        if_neg (not_not.mpr (hoffered'.mpr hauth))
      rw [hselect] at hgreeted
      have htold := (hgreeted.trans (Talks.say_right
        (Script.readExact_consumes_all _ (by rfl) (afterMethod_auth hfit)))).trans
          (Talks.say_left (auth_consumes expected hfit _))
      by_cases hequal : proxy.username.getD [] = expected.username ∧
          proxy.passwordRef.getD [] = expected.password
      · have haccepts : Accepts (some expected) proxy = True :=
          eq_true ((accepts_some expected proxy).mpr ⟨hauth, hequal⟩)
        have hanswer : authAnswer expected proxy = .send [0x01, 0x00] := if_pos hequal
        rw [hanswer] at htold
        have hheard := htold.trans
          (Talks.say_right (Script.readExact_consumes_all _ (by rfl) (by rfl)))
        rw [if_neg (by simp), pure_bind, requestSocks5_eq hresolve hencode] at hheard
        rw [haccepts]
        exact ⟨fin, hheard.trans hrequest, hfin⟩
      · have hanswer : authAnswer expected proxy =
            refuse [0x01, 0x01] proxyAuthFailedCode "Invalid SOCKS5 username or password" :=
          if_neg hequal
        rw [hanswer] at htold
        have hheard := htold.trans
          (Talks.say_right (Script.readExact_consumes_all _ (by rfl) (by rfl)))
        rw [if_pos (by decide)] at hheard
        exact ⟨_, hheard, Settled.refused
          (.inr ⟨fun h => hequal ((accepts_some expected proxy).mp h).2, rfl⟩)⟩
    · have hselect : selectMethod (some expected) (offered proxy) =
          refuse [0x05, 0xff] proxyAuthRequiredCode
            "The SOCKS5 client does not support username/password authentication" :=
        if_pos fun h => hauth (hoffered'.mp h)
      rw [hselect] at hgreeted
      have htold := hgreeted.trans
        (Talks.say_right (Script.readExact_consumes_all _ (by rfl) (by rfl)))
      unfold afterMethod at htold
      rw [if_neg (by simp), if_pos (by simp)] at htold
      exact ⟨_, htold, Settled.refused
        (.inr ⟨fun h => hauth ((accepts_some expected proxy).mp h).1, rfl⟩)⟩

/-! ## Every run -/

/-- What holds in every state of a conversation. The server has asked for nothing, or it accepts
the client and has asked for the client's target. When the conversation is over, both ends have
returned, and the server has asked exactly if it accepts the client. What an end has sent behind
its handshake is all unread. -/
structure Agreement (connect : Text → Timed Unit) (accepted : Prop) (target : ProxyTarget)
    (port : UInt16) (clientAfter serverAfter : Bytes)
    (d : Duplex Text (Timed Unit) EngineError Unit Socks5HandshakeResult) : Prop where
  exactly : d.right.asked = [] ∨
    accepted ∧ ∃ host, Names target host ∧ d.right.asked = [connectTarget host port]
  returned : (conversation connect).Stuck d →
    (∃ result, d.left.script = .ret result) ∧ ∃ result, d.right.script = .ret result
  connects : (conversation connect).Stuck d → (d.right.asked ≠ [] ↔ accepted)
  clientUnread : d.left.script = .ret (.ok ()) → clientAfter <:+ d.right.inbox
  serverUnread : ∀ result, d.right.script = .ret (.ok result) → serverAfter <:+ d.left.inbox

theorem eq_nil_or_of_isPrefix_singleton {α : Type} {l : List α} {a : α} (h : l <+: [a]) :
    l = [] ∨ l = [a] := by
  cases l with
  | nil => exact .inl rfl
  | cons b l =>
    obtain ⟨rfl, hl⟩ := List.cons_prefix_cons.mp h
    exact .inr (by rw [List.prefix_nil.mp hl])

theorem Settled.agreement {connect : Text → Timed Unit} {accepted : Prop} {target : ProxyTarget}
    {port : UInt16} {d fin : Duplex Text (Timed Unit) EngineError Unit Socks5HandshakeResult}
    (hfin : Settled accepted (connectTarget (hostText target) port) clientAfter serverAfter fin)
    (h : Talks connect d fin) :
    Agreement connect accepted target port clientAfter serverAfter d := by
  have hasked := h.asked_right
  have hend : (conversation connect).Stuck d → d = fin := by
    obtain ⟨turns, hrun⟩ := h
    exact fun hstuck => hstuck.run_eq hrun
  refine ⟨?_, ?_, ?_, ?_, ?_⟩
  · rcases hfin.asked with ⟨haccepted, hone⟩ | ⟨-, hnone⟩
    · rw [hone] at hasked
      rcases eq_nil_or_of_isPrefix_singleton hasked with hd | hd
      · exact .inl hd
      · exact .inr ⟨haccepted, _, names_hostText target, hd⟩
    · rw [hnone] at hasked
      exact .inl (List.prefix_nil.mp hasked)
  · intro hstuck
    rw [hend hstuck]
    exact ⟨hfin.clientReturned, hfin.serverReturned⟩
  · intro hstuck
    rw [hend hstuck]
    rcases hfin.asked with ⟨haccepted, hone⟩ | ⟨hnot, hnone⟩
    · simp [hone, haccepted]
    · simp [hnone, hnot]
  · intro hret
    obtain ⟨hfinal, hinbox⟩ := h.inbox_right hret
    rwa [hfin.clientUnread hfinal] at hinbox
  · intro result hret
    obtain ⟨hfinal, hinbox⟩ := h.inbox_left hret
    rwa [hfin.serverUnread result hfinal] at hinbox

/-- Every run of the client and the server is bounded, and they agree in each of its states. -/
def Agrees (connect : Text → Timed Unit) (accepted : Prop) (target : ProxyTarget) (port : UInt16)
    (clientAfter serverAfter : Bytes)
    (start : Duplex Text (Timed Unit) EngineError Unit Socks5HandshakeResult) : Prop :=
  ∃ bound, ∀ turns d, (conversation connect).Run start turns d →
    turns.length ≤ bound ∧ Agreement connect accepted target port clientAfter serverAfter d

/-- **Client and server agree.** -/
theorem socks5_agrees (connect : Text → Timed Unit) (auth : Option ProxyAuth)
    (clientAfter serverAfter : Bytes) {target : ProxyTarget}
    (hresolve : resolveProxyTarget lookupHost profile proxy = .ok target)
    (htarget : TargetFits target) (hfit : CredentialsFit proxy) :
    Agrees connect (Accepts auth proxy) target profile.port clientAfter serverAfter
      (socks5Start lookupHost profile proxy auth clientAfter serverAfter) := by
  obtain ⟨fin, ⟨whole, hwhole⟩, hfin⟩ :=
    talks_end connect auth clientAfter serverAfter hresolve htarget hfit
  have hstuck : (conversation connect).Stuck fin := by
    obtain ⟨left, right⟩ := fin
    obtain ⟨result, hleft⟩ := hfin.clientReturned
    obtain ⟨result', hright⟩ := hfin.serverReturned
    obtain ⟨script, inbox, asked⟩ := left
    obtain ⟨script', inbox', asked'⟩ := right
    cases hleft
    cases hright
    exact stuck_of_ret
  refine ⟨whole.length, fun turns d hrun => ?_⟩
  obtain ⟨rest, hrest, hlen⟩ := conversation_diamond.descend hstuck hwhole hrun
  exact ⟨by omega, hfin.agreement ⟨rest, hrest⟩⟩

end

/-- A client with the server's credentials, on its way to a domain. -/
theorem socks5_agrees_credentials :
    Agrees (fun _ => .done ()) (Accepts (some ⟨"u".toList, "p".toList⟩)
        ⟨some "u".toList, some "p".toList, none⟩) (.domain "host".toList) 22 [1] [2]
      (socks5Start (fun _ _ => .ok []) ⟨"host".toList, 22⟩
        ⟨some "u".toList, some "p".toList, none⟩ (some ⟨"u".toList, "p".toList⟩) [1] [2]) :=
  socks5_agrees _ _ _ _ rfl (by unfold TargetFits; decide) (by unfold CredentialsFit; decide)

end FluxTerm.Proxy
