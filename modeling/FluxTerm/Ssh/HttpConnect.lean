import FluxTerm.Proxy.HttpRequest
import FluxTerm.Ssh.Socks5Client

/-!
# FluxTerm — tunnels through an HTTP proxy

`http_connect` of `crates/engine/src/ssh_transport.rs`: the request for a tunnel, and the answer of
the proxy, read byte by byte up to its blank line. The answer is what the proxy sends and how its
stream ends; writes go through.
-/

namespace FluxTerm.Ssh

open FluxTerm.Engine FluxTerm.Lib
open FluxTerm.Proxy (HostName isRegNameChar isUserinfoChar of_ascii)

def sshProxyHttpFailedCode : String := "ssh_proxy_http_failed"

/-! ## The request -/

def targetHost : ProxyTarget → Text
  | .domain host => host
  | .ip (.v4 addr) => (IpAddr.v4 addr).toText
  | .ip (.v6 addr) => '[' :: ((IpAddr.v6 addr).toText ++ [']'])

/-- `target`: the host and the port. -/
def connectTarget (target : ProxyTarget) (port : UInt16) : Text :=
  targetHost target ++ ':' :: Nat.toDigits 10 port.toNat

def authorizationLine (proxy : SshProxyConfig) : Text :=
  match proxy.username.filter fun value => !value.isEmpty with
  | some username =>
    let password := proxy.passwordRef.getD []
    "Proxy-Authorization: Basic ".toList ++ base64 (utf8 (username ++ ':' :: password))
      ++ "\r\n".toList
  | none => []

/-- `request`. -/
def connectRequest (proxy : SshProxyConfig) (target : Text) : Text :=
  "CONNECT ".toList ++ target ++ " HTTP/1.1\r\n".toList
    ++ ("Host: ".toList ++ target ++ "\r\n".toList ++ authorizationLine proxy ++ "\r\n".toList)

/-! ## The answer -/

structure ProxyAnswer where
  bytes : Bytes
  failure : Option String
deriving DecidableEq

/-- The limit of `response`. -/
def maxResponse : ℕ := 8192

/-- `b"\r\n\r\n"`. -/
def blankLine : Bytes := [asciiByte '\r', asciiByte '\n', asciiByte '\r', asciiByte '\n']

/-- The loop over the bytes of an answer, with those read so far: the response, and what is left
of the stream. -/
def readResponse (failure : Option String) (response : Bytes) :
    Bytes → Except EngineError (Bytes × Bytes)
  | [] =>
    if response.length < maxResponse then
      match failure with
      | some err => .error (.withDetail sshProxyHttpFailedCode "HTTP proxy handshake failed" err)
      | none => .ok (response, [])
    else .ok (response, [])
  | b :: stream =>
    if response.length < maxResponse then
      let response := response ++ [b]
      if blankLine.isSuffixOf response then .ok (response, stream)
      else readResponse failure response stream
    else .ok (response, b :: stream)

/-- `text.lines().next()`: the carriage return before a line feed is taken off. -/
def firstLine (text : Text) : Option Text :=
  if text = [] then none
  else if '\n' ∈ text then
    let line := text.takeWhile (· ≠ '\n')
    some (if line.getLast? = some '\r' then line.dropLast else line)
  else some text

/-- `status`. -/
def responseStatus (text : Text) : ℕ :=
  ((((firstLine text).bind fun line => (splitWhitespace line)[1]?).bind parseU16).getD 0)

/-- What `http_connect` wrote, and what is left of the answer when it returns. -/
structure HttpConnect where
  written : Bytes := []
  result : Except EngineError Bytes

def httpConnect (lookupHost : Text → UInt16 → Except String (List IpAddr)) (profile : HostProfile)
    (proxy : SshProxyConfig) (answer : ProxyAnswer) : HttpConnect :=
  match resolveProxyTarget lookupHost profile proxy with
  | .error err => { result := .error err }
  | .ok target =>
    { written := utf8 (connectRequest proxy (connectTarget target profile.port))
      result :=
        match readResponse answer.failure [] answer.bytes with
        | .error err => .error err
        | .ok (response, unread) =>
          let text := lossy response
          if responseStatus text = 200 then .ok unread
          else if responseStatus text = 407 then
            .error (.new sshProxyAuthFailedCode "HTTP proxy authentication failed")
          else .error (.withDetail sshProxyHttpFailedCode "HTTP proxy rejected the connection"
            (String.ofList ((firstLine text).getD []))) }

/-! ## What the request names -/

def IsTargetHost (host : Text) : Prop :=
  (∃ ip, parseIpAddr host = some ip) ∨ (HostName.regName host).Valid

def intendedTarget (lookupHost : Text → UInt16 → Except String (List IpAddr))
    (profile : HostProfile) (proxy : SshProxyConfig) : Except EngineError ProxyTarget :=
  match parseIpAddr profile.host with
  | some ip => .ok (.ip ip)
  | none => resolveProxyTarget lookupHost profile proxy

def Denotes : HostName → ProxyTarget → Prop
  | .regName name, .domain host => name = host
  | .regName name, .ip (.v4 addr) => parseIpAddr name = some (.v4 addr)
  | .ipLiteral address, .ip (.v6 addr) => parseIpAddr address = some (.v6 addr)
  | _, _ => False

/-- The bytes are a request for a tunnel whose target, read as `uri-host ":" port`, is this target
and port. -/
def NamesTarget (written : Bytes) (target : ProxyTarget) (port : UInt16) : Prop :=
  ∃ (host : HostName) (digits : Text) (rest : Bytes), host.Valid ∧ digits ≠ [] ∧
    (∀ c ∈ digits, c.isDigit = true) ∧
    written = utf8 ("CONNECT ".toList ++ (host.text ++ ':' :: digits) ++ " HTTP/1.1\r\n".toList)
      ++ rest ∧
    Denotes host target ∧ decimal digits = port.toNat

theorem digits_port (port : UInt16) : Nat.toDigits 10 port.toNat ≠ [] ∧
    (∀ c ∈ Nat.toDigits 10 port.toNat, c.isDigit = true) ∧
    decimal (Nat.toDigits 10 port.toNat) = port.toNat :=
  ⟨Nat.toDigits_ne_nil, fun _ => Nat.isDigit_of_mem_toDigits (by decide) (by decide),
    decimal_toDigits _⟩

theorem connectRequest_eq (proxy : SshProxyConfig) (target : Text) :
    ∃ rest, connectRequest proxy target =
      "CONNECT ".toList ++ target ++ " HTTP/1.1\r\n".toList ++ rest := by
  exact ⟨_, rfl⟩

theorem namesTarget_of_denotes {proxy : SshProxyConfig} {sent target : ProxyTarget}
    {host : HostName} (port : UInt16) (hvalid : host.Valid) (htext : targetHost sent = host.text)
    (hdenotes : Denotes host target) :
    NamesTarget (utf8 (connectRequest proxy (connectTarget sent port))) target port := by
  obtain ⟨hne, hdigits, hdecimal⟩ := digits_port port
  obtain ⟨rest, hrest⟩ := connectRequest_eq proxy (connectTarget sent port)
  refine ⟨host, Nat.toDigits 10 port.toNat, utf8 rest, hvalid, hne, hdigits, ?_, hdenotes, hdecimal⟩
  rw [hrest, connectTarget, htext, utf8_append _ rest]

theorem lt_of_isIpChar {c : Char} (h : isIpChar c = true) : c.toNat < 128 := by
  rw [isIpChar, Bool.or_eq_true, Bool.or_eq_true, beq_iff_eq, beq_iff_eq] at h
  rcases h with (h | rfl) | rfl
  · rw [isDigitIn, decide_eq_true_eq, digitValue] at h
    split at h
    · omega
    · split at h
      · omega
      · split at h
        · omega
        · omega
  · decide
  · decide

theorem valid_regName_of_v4 {s : Text} {addr : Ipv4Addr} (h : parseIpAddr s = some (.v4 addr)) :
    (HostName.regName s).Valid := by
  obtain ⟨hne, hchars⟩ := chars_of_parseIpAddr_v4 h
  refine ⟨hne, fun c hc => ?_⟩
  exact of_ascii (by decide) (lt_of_isIpChar (isIpChar_of_isIpv4Char (hchars c hc)))
    (hchars c hc)

theorem valid_ipLiteral_of_v6 {s : Text} {addr : Ipv6Addr} (h : parseIpAddr s = some (.v6 addr)) :
    (HostName.ipLiteral s).Valid := by
  obtain ⟨-, hchars⟩ := chars_of_parseIpAddr_v6 h
  intro c hc
  exact of_ascii (by decide) (lt_of_isIpChar (hchars c hc)) (hchars c hc)

section
variable {lookupHost : Text → UInt16 → Except String (List IpAddr)} {profile : HostProfile}
variable {proxy : SshProxyConfig} {target : ProxyTarget}

theorem namesTarget_ip (ip : IpAddr) (port : UInt16) :
    NamesTarget (utf8 (connectRequest proxy (connectTarget (.ip ip) port))) (.ip ip) port := by
  have hparse := parseIpAddr_toText ip
  cases ip with
  | v4 addr =>
    exact namesTarget_of_denotes port (valid_regName_of_v4 hparse) rfl hparse
  | v6 addr =>
    exact namesTarget_of_denotes port (valid_ipLiteral_of_v6 hparse) rfl hparse

theorem not_namesTarget_v6 {addr : Ipv6Addr} (hparse : parseIpAddr profile.host = some (.v6 addr))
    (port : UInt16) :
    ¬NamesTarget (utf8 (connectRequest proxy (connectTarget (.domain profile.host) port)))
      (.ip (.v6 addr)) port := by
  rintro ⟨host, digits, rest, -, -, -, hwritten, hdenotes, -⟩
  cases host with
  | regName name => exact hdenotes
  | ipLiteral address =>
    -- the target would begin with a bracket
    obtain ⟨hne, hchars⟩ := chars_of_parseIpAddr_v6 hparse
    obtain ⟨c, host', hhost⟩ := List.exists_cons_of_ne_nil hne
    have hc := hchars c (hhost ▸ List.mem_cons_self)
    have hopen : c ≠ '[' := by
      rintro rfl
      exact absurd hc (by decide)
    obtain ⟨rest', hrest⟩ := connectRequest_eq proxy (connectTarget (.domain profile.host) port)
    rw [hrest, connectTarget, targetHost, hhost, HostName.text, utf8_append, utf8_append,
      utf8_append, utf8_append ("CONNECT ".toList ++ _), utf8_append "CONNECT ".toList,
      List.append_assoc, List.append_assoc, List.append_assoc, List.append_assoc] at hwritten
    have hfirst := List.append_cancel_left hwritten
    rw [List.cons_append, utf8_cons, List.cons_append, utf8_cons,
      utf8EncodeChar_ascii (lt_of_isIpChar hc), utf8EncodeChar_ascii (by decide)] at hfirst
    exact hopen (asciiByte_injective (lt_of_isIpChar hc) (by decide) (List.cons.inj hfirst).1)

theorem resolveProxyTarget_ok_of_intended
    (h : intendedTarget lookupHost profile proxy = .ok target) :
    ∃ sent, resolveProxyTarget lookupHost profile proxy = .ok sent := by
  rw [intendedTarget] at h
  cases hparse : parseIpAddr profile.host with
  | none =>
    rw [hparse] at h
    exact ⟨target, h⟩
  | some ip =>
    rw [resolveProxyTarget, hparse]
    by_cases hdns : proxy.useProxyDns.getD true = true
    · rw [if_pos hdns]
      exact ⟨_, rfl⟩
    · rw [if_neg hdns]
      exact ⟨_, rfl⟩

/-- **The request.** It names the target, unless the target is an IPv6 address and names are
resolved by the proxy. -/
theorem namesTarget_iff (hhost : IsTargetHost profile.host) (answer : ProxyAnswer)
    (h : intendedTarget lookupHost profile proxy = .ok target) :
    NamesTarget (httpConnect lookupHost profile proxy answer).written target profile.port ↔
      (proxy.useProxyDns.getD true = true →
        ¬∃ addr, parseIpAddr profile.host = some (.v6 addr)) := by
  rw [intendedTarget] at h
  rw [httpConnect, resolveProxyTarget]
  by_cases hdns : proxy.useProxyDns.getD true = true
  · rw [if_pos hdns]
    dsimp only
    cases hparse : parseIpAddr profile.host with
    | none =>
      rw [hparse, resolveProxyTarget] at h
      dsimp only at h
      rw [if_pos hdns] at h
      cases h
      have hvalid : (HostName.regName profile.host).Valid := by
        rcases hhost with ⟨ip, hip⟩ | hvalid
        · rw [hparse] at hip
          cases hip
        · exact hvalid
      refine iff_of_true (namesTarget_of_denotes _ hvalid rfl rfl) fun _ => ?_
      rintro ⟨addr, haddr⟩
      cases haddr
    | some ip =>
      rw [hparse] at h
      cases h
      cases ip with
      | v4 addr =>
        refine iff_of_true (namesTarget_of_denotes _ (valid_regName_of_v4 hparse) rfl hparse)
          fun _ => ?_
        rintro ⟨addr', haddr⟩
        cases haddr
      | v6 addr =>
        exact iff_of_false (not_namesTarget_v6 hparse _) fun hno => hno hdns ⟨addr, rfl⟩
  · rw [if_neg hdns]
    refine iff_of_true ?_ fun hyes => absurd hyes hdns
    cases hparse : parseIpAddr profile.host with
    | some ip =>
      rw [hparse] at h
      cases h
      exact namesTarget_ip ip profile.port
    | none =>
      rw [hparse, resolveProxyTarget] at h
      dsimp only at h ⊢
      rw [if_neg hdns, hparse] at h
      dsimp only at h
      cases hlookup : lookupHost profile.host profile.port with
      | error err =>
        rw [hlookup] at h
        cases h
      | ok addrs =>
        rw [hlookup] at h
        cases addrs with
        | nil => cases h
        | cons addr addrs =>
          cases h
          exact namesTarget_ip addr profile.port

end

/-! ## Reading the answer -/

abbrev IsAnswerHead (bytes head : Bytes) : Prop := IsHead (asciiByte '\r') (asciiByte '\n') bytes head

section
variable {failure : Option String} {stream : Bytes}

theorem headEnd_response {response : Bytes}
    (hnone : headEnd (asciiByte '\r') (asciiByte '\n') response = none) (b : UInt8) :
    headEnd (asciiByte '\r') (asciiByte '\n') (response ++ [b]) =
      if blankLine.isSuffixOf (response ++ [b]) then some (response.length + 1) else none := by
  rw [headEnd_concat hnone, ← blankLine]
  by_cases hsuffix : blankLine <:+ response ++ [b]
  · rw [if_pos hsuffix, if_pos (List.isSuffixOf_iff_suffix.mpr hsuffix)]
  · rw [if_neg hsuffix, if_neg fun h => hsuffix (List.isSuffixOf_iff_suffix.mp h)]

theorem readResponse_of_head {n : ℕ} (hn : n ≤ maxResponse) :
    ∀ (stream response : Bytes),
      headEnd (asciiByte '\r') (asciiByte '\n') response = none →
      headEnd (asciiByte '\r') (asciiByte '\n') (response ++ stream) = some n →
      readResponse failure response stream =
        .ok ((response ++ stream).take n, (response ++ stream).drop n)
  | [], response, hnone, hend => by
    rw [List.append_nil, hnone] at hend
    cases hend
  | b :: stream, response, hnone, hend => by
    have hlt : response.length < n := by
      by_contra hle
      rw [headEnd_of_append hend (Nat.le_of_not_lt hle)] at hnone
      cases hnone
    have hconcat := headEnd_response hnone b
    have hcons : response ++ b :: stream = response ++ [b] ++ stream := by simp
    rw [readResponse, if_pos (Nat.lt_of_lt_of_le hlt hn)]
    dsimp only
    rw [hcons] at hend ⊢
    split at hconcat
    · rename_i hsuffix
      have hsame := headEnd_append stream hconcat
      rw [hend] at hsame
      cases hsame
      have hlen : (response ++ [b]).length = response.length + 1 := by simp
      rw [if_pos hsuffix, ← hlen, List.take_left, List.drop_left]
    · rename_i hsuffix
      rw [if_neg hsuffix]
      exact readResponse_of_head hn stream (response ++ [b]) hconcat hend

theorem readResponse_of_no_head : ∀ (stream response : Bytes),
    headEnd (asciiByte '\r') (asciiByte '\n') response = none → response.length ≤ maxResponse →
    (∀ n, headEnd (asciiByte '\r') (asciiByte '\n') (response ++ stream) = some n →
      maxResponse < n) →
    readResponse failure response stream =
      if (response ++ stream).length < maxResponse then
        match failure with
        | some err => .error (.withDetail sshProxyHttpFailedCode "HTTP proxy handshake failed" err)
        | none => .ok (response ++ stream, [])
      else .ok ((response ++ stream).take maxResponse, (response ++ stream).drop maxResponse)
  | [], response, _, hle, _ => by
    unfold readResponse
    rw [List.append_nil]
    split
    · rfl
    · have hlen : response.length = maxResponse := by omega
      rw [← hlen, List.take_length, List.drop_length]
  | b :: stream, response, hnone, hle, hno => by
    have hcons : response ++ b :: stream = response ++ [b] ++ stream := by simp
    rw [readResponse]
    by_cases hlt : response.length < maxResponse
    · have hconcat := headEnd_response hnone b
      rw [if_pos hlt]
      dsimp only
      rw [hcons] at hno ⊢
      split at hconcat
      · have hlimit := hno _ (headEnd_append stream hconcat)
        omega
      · rename_i hsuffix
        rw [if_neg hsuffix]
        refine readResponse_of_no_head stream (response ++ [b]) hconcat ?_ hno
        rw [List.length_append, List.length_singleton]
        omega
    · have hlen : response.length = maxResponse := by omega
      have hlong : ¬(response ++ b :: stream).length < maxResponse := by
        rw [List.length_append]
        omega
      rw [if_neg hlt, if_neg hlong, ← hlen, List.take_left, List.drop_left]

end

/-! ## Where SSH begins -/

def isHttpBlank (b : UInt8) : Bool := b == 0x20 || (0x09 ≤ b && b ≤ 0x0d)

def statusCode (head : Bytes) : Option Bytes :=
  (((head.takeWhile (· ≠ asciiByte '\n')).splitOnP isHttpBlank).filter (!·.isEmpty))[1]?

/-- What is left of the answer begins right after its head, and the head has the status 200. -/
def StartsAfterHead (answer : ProxyAnswer) (unread : Bytes) : Prop :=
  ∃ head, answer.bytes = head ++ unread ∧ IsAnswerHead answer.bytes head ∧
    statusCode head = some (utf8 "200".toList)

/-- The second word of the first line is a numeral for 200: `200`, `+200`, `0200`. -/
def Says200 (response : Bytes) : Prop :=
  ∃ line word, firstLine (lossy response) = some line ∧ (splitWhitespace line)[1]? = some word ∧
    parseU16 word = some 200

theorem responseStatus_eq_iff (response : Bytes) :
    responseStatus (lossy response) = 200 ↔ Says200 response := by
  rw [responseStatus]
  constructor
  · intro h
    cases hline : firstLine (lossy response) with
    | none =>
      rw [hline] at h
      cases h
    | some line =>
      rw [hline, Option.bind_some] at h
      cases hword : (splitWhitespace line)[1]? with
      | none =>
        rw [hword] at h
        cases h
      | some word =>
        rw [hword, Option.bind_some] at h
        cases hstatus : parseU16 word with
        | none =>
          rw [hstatus] at h
          cases h
        | some status =>
          rw [hstatus, Option.getD_some] at h
          exact ⟨line, word, hline, hword, h ▸ hstatus⟩
  · rintro ⟨line, word, hline, hword, hstatus⟩
    rw [hline, Option.bind_some, hword, Option.bind_some, hstatus]
    rfl

/-- No head ends within the limit, and the answer goes on to the limit or ends without an
error. -/
def ProxyAnswer.Unfinished (answer : ProxyAnswer) : Prop :=
  (∀ head, IsAnswerHead answer.bytes head → maxResponse < head.length) ∧
    (answer.failure = none ∨ maxResponse ≤ answer.bytes.length)

section
variable {lookupHost : Text → UInt16 → Except String (List IpAddr)} {profile : HostProfile}
variable {proxy : SshProxyConfig} {target : ProxyTarget} {answer : ProxyAnswer} {unread : Bytes}

theorem httpConnect_eq_ok_iff (h : resolveProxyTarget lookupHost profile proxy = .ok target) :
    (httpConnect lookupHost profile proxy answer).result = .ok unread ↔
      ∃ response, readResponse answer.failure [] answer.bytes = .ok (response, unread) ∧
        Says200 response := by
  rw [httpConnect, h]
  dsimp only
  cases hread : readResponse answer.failure [] answer.bytes with
  | error err =>
    constructor
    · intro h
      cases h
    · rintro ⟨response, hok, -⟩
      cases hok
  | ok outcome =>
    obtain ⟨response, left⟩ := outcome
    dsimp only
    by_cases hstatus : responseStatus (lossy response) = 200
    · rw [if_pos hstatus]
      constructor
      · intro h
        cases h
        exact ⟨response, rfl, (responseStatus_eq_iff response).mp hstatus⟩
      · rintro ⟨response', hok, -⟩
        cases hok
        rfl
    · rw [if_neg hstatus]
      constructor
      · intro h
        split at h
        · cases h
        · cases h
      · rintro ⟨response', hok, hsays⟩
        cases hok
        exact absurd ((responseStatus_eq_iff response).mpr hsays) hstatus

theorem readResponse_head {head : Bytes} (hhead : IsAnswerHead answer.bytes head)
    (hle : head.length ≤ maxResponse) :
    readResponse answer.failure [] answer.bytes =
      .ok (head, answer.bytes.drop head.length) := by
  rw [readResponse_of_head hle answer.bytes [] rfl (headEnd_eq_some_of_isHead hhead),
    List.nil_append, ← List.prefix_iff_eq_take.mp hhead.isPrefix]

theorem readResponse_no_head
    (hno : ∀ head, IsAnswerHead answer.bytes head → maxResponse < head.length) :
    readResponse answer.failure [] answer.bytes =
      if answer.bytes.length < maxResponse then
        match answer.failure with
        | some err => .error (.withDetail sshProxyHttpFailedCode "HTTP proxy handshake failed" err)
        | none => .ok (answer.bytes, [])
      else .ok (answer.bytes.take maxResponse, answer.bytes.drop maxResponse) := by
  refine readResponse_of_no_head answer.bytes [] rfl (Nat.zero_le _) fun n hn => ?_
  rw [List.nil_append] at hn
  obtain ⟨hle, hhead⟩ := headEnd_eq_some_iff.mp hn
  have hlimit := hno _ hhead
  rwa [List.length_take, Nat.min_eq_left hle] at hlimit

theorem readResponse_unfinished (h : answer.Unfinished) :
    readResponse answer.failure [] answer.bytes =
      .ok (answer.bytes.take maxResponse, answer.bytes.drop maxResponse) := by
  rw [readResponse_no_head h.1]
  split
  · rename_i hlt
    have hnone : answer.failure = none := h.2.resolve_right (Nat.not_le.mpr hlt)
    rw [hnone, List.take_of_length_le (Nat.le_of_lt hlt), List.drop_of_length_le (Nat.le_of_lt hlt)]
  · rfl

/-- **The answer.** SSH begins right after the head of a successful answer exactly if no unfinished
answer says 200, and no head says it in another way than as the status code. -/
theorem startsAfterHead_iff (h : resolveProxyTarget lookupHost profile proxy = .ok target)
    (answer : ProxyAnswer) :
    (∀ unread, (httpConnect lookupHost profile proxy answer).result = .ok unread →
        StartsAfterHead answer unread) ↔
      (answer.Unfinished → ¬Says200 (answer.bytes.take maxResponse)) ∧
        ∀ head, IsAnswerHead answer.bytes head → head.length ≤ maxResponse → Says200 head →
          statusCode head = some (utf8 "200".toList) := by
  constructor
  · intro hstarts
    constructor
    · intro hunfinished hsays
      obtain ⟨head, hsplit, hhead, -⟩ := hstarts _ ((httpConnect_eq_ok_iff h).mpr
        ⟨_, readResponse_unfinished hunfinished, hsays⟩)
      -- the head would be within the limit
      have hlimit := hunfinished.1 head hhead
      have hlen := congrArg List.length hsplit
      rw [List.length_append, List.length_drop] at hlen
      omega
    · intro head hhead hle hsays
      obtain ⟨head', hsplit, hhead', hstatus⟩ := hstarts _ ((httpConnect_eq_ok_iff h).mpr
        ⟨_, readResponse_head hhead hle, hsays⟩)
      have hend := headEnd_eq_some_of_isHead hhead
      rw [headEnd_eq_some_of_isHead hhead'] at hend
      have hsame : head' = head := by
        rw [List.prefix_iff_eq_take.mp hhead'.isPrefix, List.prefix_iff_eq_take.mp hhead.isPrefix,
          Option.some.inj hend]
      rwa [← hsame]
  · rintro ⟨hunfinished, hcode⟩ unread hok
    obtain ⟨response, hread, hsays⟩ := (httpConnect_eq_ok_iff h).mp hok
    by_cases hfound : ∃ head, IsAnswerHead answer.bytes head ∧ head.length ≤ maxResponse
    · obtain ⟨head, hhead, hle⟩ := hfound
      rw [readResponse_head hhead hle] at hread
      cases hread
      refine ⟨response, ?_, hhead, hcode response hhead hle hsays⟩
      rw [List.prefix_iff_eq_append.mp hhead.isPrefix]
    · have hno : ∀ head, IsAnswerHead answer.bytes head → maxResponse < head.length :=
        fun head hhead => Nat.lt_of_not_le fun hle => hfound ⟨head, hhead, hle⟩
      have hends : answer.failure = none ∨ maxResponse ≤ answer.bytes.length := by
        by_contra hfails
        rw [not_or, Nat.not_le] at hfails
        obtain ⟨err, herr⟩ := Option.ne_none_iff_exists'.mp hfails.1
        rw [readResponse_no_head hno, if_pos hfails.2, herr] at hread
        cases hread
      rw [readResponse_unfinished ⟨hno, hends⟩] at hread
      cases hread
      exact absurd hsays (hunfinished ⟨hno, hends⟩)

/-- **The tunnel.** The request names the host and the port, and SSH begins right after the head of
a successful answer: the one unless an IPv6 address goes to a proxy that resolves names, the other
unless an unfinished answer says 200, or a head says it in another way than as the status code. -/
theorem tunnel_exact_iff (lookupHost : Text → UInt16 → Except String (List IpAddr))
    (profile : HostProfile) (proxy : SshProxyConfig) (answer : ProxyAnswer)
    (hhost : IsTargetHost profile.host) (target : ProxyTarget)
    (h : intendedTarget lookupHost profile proxy = .ok target) :
    (NamesTarget (httpConnect lookupHost profile proxy answer).written target profile.port ∧
        ∀ unread, (httpConnect lookupHost profile proxy answer).result = .ok unread →
          StartsAfterHead answer unread) ↔
      (proxy.useProxyDns.getD true = true → ¬∃ addr, parseIpAddr profile.host = some (.v6 addr)) ∧
        (answer.Unfinished → ¬Says200 (answer.bytes.take maxResponse)) ∧
        ∀ head, IsAnswerHead answer.bytes head → head.length ≤ maxResponse → Says200 head →
          statusCode head = some (utf8 "200".toList) := by
  obtain ⟨sent, hsent⟩ := resolveProxyTarget_ok_of_intended h
  rw [namesTarget_iff hhost answer h, startsAfterHead_iff hsent answer]

end

/-! ## Two answers -/

def sampleProxy : SshProxyConfig := ⟨none, none, none⟩

def sampleProfile : HostProfile := ⟨"a.test".toList, 22⟩

def loopbackProfile : HostProfile := ⟨"::1".toList, 22⟩

def noNames : Text → UInt16 → Except String (List IpAddr) := fun _ _ => .ok []

def fullAnswer : ProxyAnswer := ⟨utf8 "HTTP/1.1 200 OK\r\n\r\nSSH-2.0".toList, none⟩

def shortAnswer : ProxyAnswer := ⟨utf8 "HTTP/1.1 200 OK\r\n".toList, none⟩

theorem tunnel_exact_iff_fullAnswer :
    NamesTarget (httpConnect noNames sampleProfile sampleProxy fullAnswer).written
        (.domain sampleProfile.host) 22 ∧
      ∀ unread, (httpConnect noNames sampleProfile sampleProxy fullAnswer).result = .ok unread →
        StartsAfterHead fullAnswer unread := by
  have hparse : parseIpAddr sampleProfile.host = none := by decide
  have hvalid : (HostName.regName sampleProfile.host).Valid :=
    ⟨by decide, forall_of_all (by decide)⟩
  have hend : headEnd (asciiByte '\r') (asciiByte '\n') fullAnswer.bytes = some 19 := by
    decide
  have hhead := (headEnd_eq_some_iff.mp hend).2
  have hintended : intendedTarget noNames sampleProfile sampleProxy =
      .ok (.domain sampleProfile.host) := by
    rw [intendedTarget, hparse]
    rfl
  refine (tunnel_exact_iff noNames sampleProfile sampleProxy fullAnswer (.inr hvalid) _
    hintended).mpr ⟨fun _ => ?_, fun hunfinished => ?_, fun head hhead' _ _ => ?_⟩
  · rintro ⟨addr, haddr⟩
    rw [hparse] at haddr
    cases haddr
  · refine absurd (hunfinished.1 _ hhead) ?_
    decide
  · have hsame := headEnd_eq_some_of_isHead hhead'
    rw [hend] at hsame
    rw [List.prefix_iff_eq_take.mp hhead'.isPrefix, ← Option.some.inj hsame]
    decide

/-- An address that is named without brackets, and a handshake that begins after half a head. -/
theorem loopback_not_exact :
    ¬NamesTarget (httpConnect noNames loopbackProfile sampleProxy shortAnswer).written
        (.ip (.v6 ⟨[0, 0, 0, 0, 0, 0, 0, 1], rfl⟩)) 22 ∧
      ¬∀ unread, (httpConnect noNames loopbackProfile sampleProxy shortAnswer).result = .ok unread →
        StartsAfterHead shortAnswer unread := by
  have hparse : parseIpAddr loopbackProfile.host =
      some (.v6 ⟨[0, 0, 0, 0, 0, 0, 0, 1], rfl⟩) := by decide
  constructor
  · exact not_namesTarget_v6 hparse 22
  · intro hstarts
    have hok : (httpConnect noNames loopbackProfile sampleProxy shortAnswer).result = .ok [] := by
      decide
    obtain ⟨head, -, hhead, -⟩ := hstarts [] hok
    have hend := headEnd_eq_some_of_isHead hhead
    have hnone : headEnd (asciiByte '\r') (asciiByte '\n') shortAnswer.bytes = none := by
      decide
    rw [hnone] at hend
    cases hend

end FluxTerm.Ssh
