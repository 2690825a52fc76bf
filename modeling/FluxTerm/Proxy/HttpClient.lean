import FluxTerm.Proxy.HttpHead
import FluxTerm.Proxy.Lifecycle

/-!
# FluxTerm — a proxied HTTP connection

`handle_http_client` of `crates/engine/src/proxy.rs`: the head is read and parsed, the credentials
are checked, the upstream is connected, the head goes there without its `Proxy-Authorization` and
`Proxy-Connection` headers, and the rest of the connection is relayed as it is.

The client is the list of what its reads return; past its end the stream has ended. What connecting
returns is the parameter `connect`. Writes go through: one that fails ends the connection with a
part of the bytes written.
-/

namespace FluxTerm.Proxy

open FluxTerm.Engine FluxTerm.Lib

def proxyHandshakeTimeoutCode : String := "proxy_handshake_timeout"
def proxyAuthFailedCode : String := "proxy_auth_failed"
def proxyUpstreamConnectFailedCode : String := "proxy_upstream_connect_failed"

/-! ## Reads and connections -/

inductive Timed (α : Type) where
  | done (result : α)
  | failed (err : String)
  | timedOut
deriving DecidableEq

def readWithTimeout (read : Timed Bytes) (code message : String) : Except EngineError Bytes :=
  match read with
  | .timedOut => .error (.new proxyIoReadTimeoutCode "Read operation timed out")
  | .failed err => .error (.withDetail code message err)
  | .done bytes => .ok bytes

/-- `connect_with_timeout`, with what `TcpStream::connect` comes to. -/
def connectWithTimeout (connect : Timed Unit) : Except EngineError Unit :=
  match connect with
  | .timedOut => .error (.new proxyHandshakeTimeoutCode "Upstream connection timed out")
  | .failed err =>
    .error (.withDetail proxyUpstreamConnectFailedCode "Failed to connect to the upstream server" err)
  | .done () => .ok ()

/-- `map_err` to a code and a message, with the error's text for details. -/
def mapErr {α : Type} (code message : String) : Except EngineError α → Except EngineError α
  | .error err => .error (.withDetail code message err.display)
  | .ok a => .ok a

/-! ## Reading the head -/

def maxHeader : ℕ := 64 * 1024

structure HttpHeaders where
  headers : Bytes
  rest : Bytes
  client : List (Timed Bytes)

/-- The loop of `read_http_headers`, with the bytes buffered so far. -/
def readHttpHeadersFrom (buf : Bytes) : List (Timed Bytes) → Except EngineError HttpHeaders
  | [] => .error (.new proxyHttpParseFailedCode "The HTTP request ended unexpectedly")
  | read :: client =>
    match mapErr proxyHttpParseFailedCode "Failed to read the HTTP request"
        (readWithTimeout read proxyHttpParseFailedCode "Failed to read the HTTP request") with
    | .error err => .error err
    | .ok chunk =>
      if chunk = [] then
        .error (.new proxyHttpParseFailedCode "The HTTP request ended unexpectedly")
      else
        let buf := buf ++ chunk
        match headEnd (asciiByte '\r') (asciiByte '\n') buf with
        | some headEnd => .ok ⟨buf.take headEnd, buf.drop headEnd, client⟩
        | none =>
          if buf.length > maxHeader then
            .error (.new proxyHttpParseFailedCode "The HTTP request headers are too large")
          else readHttpHeadersFrom buf client

def readHttpHeaders (client : List (Timed Bytes)) : Except EngineError HttpHeaders :=
  readHttpHeadersFrom [] client

/-! ## The handshake -/

structure Upstream where
  host : Text
  port : ℕ
  written : Bytes
deriving DecidableEq

structure HttpHandshakeResult where
  client : List (Timed Bytes)
  upstream : Upstream
  initialBytesOut : ℕ

structure Handshake where
  toClient : Bytes := []
  result : Except EngineError HttpHandshakeResult

def proxyAuthenticationRequired : Bytes :=
  utf8 ("HTTP/1.1 407 Proxy Authentication Required\r\n".toList
    ++ "Proxy-Authenticate: Basic realm=\"FluxTerm Proxy\"\r\n".toList
    ++ "Connection: close\r\nContent-Length: 0\r\n\r\n".toList)

/-- The answer to a `CONNECT` that went through. -/
def connectionEstablished : Bytes := utf8 "HTTP/1.1 200 Connection Established\r\n\r\n".toList

def isProxyHeaderName (lower : Text) : Bool :=
  lower = "proxy-authorization".toList || lower = "proxy-connection".toList

def forwardedHeader (header : Text × Text) : Text :=
  header.1 ++ ": ".toList ++ header.2 ++ "\r\n".toList

/-- The head that goes upstream. -/
def forwardedHead (parsed : ParsedHttpRequestHead) (target : HttpTarget) : Text :=
  let headers := parsed.headers.filter fun header => !isProxyHeaderName (asciiLower header.1)
  let hasHostHeader := headers.any fun header => asciiLower header.1 = "host".toList
  let host := if hasHostHeader then [] else
    "Host: ".toList ++ target.host
      ++ (if target.port = 80 then [] else ':' :: Nat.toDigits 10 target.port) ++ "\r\n".toList
  parsed.method ++ ' ' :: (target.path ++ ' ' :: (parsed.version ++ "\r\n".toList))
    ++ headers.flatMap forwardedHeader ++ host ++ "\r\n".toList

section
variable (auth : Option ProxyAuth) (connect : Text → ℕ → Timed Unit)

/-- The upstream of `target`, with the error of the handshake. -/
def connectUpstream (host : Text) (port : ℕ) : Except EngineError Unit :=
  mapErr proxyUpstreamConnectFailedCode "Failed to connect to the upstream server"
    (connectWithTimeout (connect host port))

/-- The part of `handle_http_handshake` for `CONNECT`. -/
def handleConnect (parsed : ParsedHttpRequestHead) (head : HttpHeaders) : Handshake :=
  match parseConnectTarget parsed.target with
  | .error err => { result := .error err }
  | .ok (host, port) =>
    match connectUpstream connect host port with
    | .error err => { result := .error err }
    | .ok () =>
      { toClient := connectionEstablished
        result := .ok ⟨head.client, ⟨host, port, head.rest⟩, head.rest.length⟩ }

/-- The part of `handle_http_handshake` for the other methods. -/
def handleForward (parsed : ParsedHttpRequestHead) (head : HttpHeaders) :
    Except EngineError HttpHandshakeResult :=
  match resolveHttpTarget parsed with
  | .error err => .error err
  | .ok target =>
    match connectUpstream connect target.host target.port with
    | .error err => .error err
    | .ok () =>
      let forwarded := utf8 (forwardedHead parsed target)
      .ok ⟨head.client, ⟨target.host, target.port, forwarded ++ head.rest⟩,
        forwarded.length + head.rest.length⟩

def handleHttpHandshake (client : List (Timed Bytes)) : Handshake :=
  match readHttpHeaders client with
  | .error err => { result := .error err }
  | .ok head =>
    match parseHttpRequestHead (lossy head.headers) with
    | .error err => { result := .error err }
    | .ok parsed =>
      if auth.all (checkHttpBasicAuth parsed.proxyAuthorization) then
        if eqIgnoreAsciiCase parsed.method "CONNECT".toList then handleConnect connect parsed head
        else { result := handleForward connect parsed head }
      else
        let targetHint := parsed.hostHeader.getD parsed.target
        { toClient := proxyAuthenticationRequired
          result := .error (.withDetail proxyAuthFailedCode "HTTP proxy authentication failed"
            ("target=" ++ String.ofList targetHint)) }

/-! ## The connection -/

def relayOut (written : Bytes) : List (Timed Bytes) → Bytes
  | [] => written
  | read :: client =>
    match read with
    | .failed _ | .timedOut => written
    | .done chunk => if chunk = [] then written else relayOut (written ++ chunk) client

/-- `handle_http_client`, in the direction of the upstream: the connection it opened, if it did,
with everything that was written there. -/
def handleHttpClient (client : List (Timed Bytes)) : Except EngineError Upstream :=
  match (handleHttpHandshake auth connect client).result with
  | .error err => .error err
  | .ok handshake =>
    let upstream := handshake.upstream
    .ok { upstream with written := relayOut upstream.written handshake.client }

end

/-! ## Reads that cut a stream -/

/-- Whatever the reads leave buffered before a head of `n` bytes is complete is within the limit. -/
def HeadInTime (n : ℕ) (buf : Bytes) (reads : List Bytes) : Prop :=
  ∀ k, (buf ++ (reads.take k).flatten).length < n →
    (buf ++ (reads.take k).flatten).length ≤ maxHeader

theorem headInTime_of_le {n : ℕ} (h : n ≤ maxHeader) (buf : Bytes) (reads : List Bytes) :
    HeadInTime n buf reads := by
  intro k hk
  omega

theorem headInTime_cons {n : ℕ} {buf chunk : Bytes} {reads : List Bytes} :
    HeadInTime n buf (chunk :: reads) ↔
      (buf.length < n → buf.length ≤ maxHeader) ∧ HeadInTime n (buf ++ chunk) reads := by
  constructor
  · intro h
    refine ⟨fun hbuf => ?_, fun k hk => ?_⟩
    · have h0 := h 0
      simp only [List.take_zero, List.flatten_nil, List.append_nil] at h0
      exact h0 hbuf
    · have hnext := h (k + 1)
      rw [List.take_succ_cons, List.flatten_cons, ← List.append_assoc] at hnext
      exact hnext hk
  · rintro ⟨hbuf, h⟩ k
    cases k with
    | zero =>
      simp only [List.take_zero, List.flatten_nil, List.append_nil]
      exact hbuf
    | succ k =>
      rw [List.take_succ_cons, List.flatten_cons, ← List.append_assoc]
      exact h k

section
variable {n : ℕ} {buf : Bytes} {reads : List Bytes}

theorem readHttpHeadersFrom_cons {chunk : Bytes} (hchunk : chunk ≠ [])
    (hend : headEnd (asciiByte '\r') (asciiByte '\n') (buf ++ (chunk :: reads).flatten) = some n) :
    readHttpHeadersFrom buf ((chunk :: reads).map .done) =
      if n ≤ (buf ++ chunk).length then
        .ok ⟨(buf ++ chunk).take n, (buf ++ chunk).drop n, reads.map .done⟩
      else if (buf ++ chunk).length > maxHeader then
        .error (.new proxyHttpParseFailedCode "The HTTP request headers are too large")
      else readHttpHeadersFrom (buf ++ chunk) (reads.map .done) := by
  rw [List.flatten_cons, ← List.append_assoc] at hend
  rw [List.map_cons, readHttpHeadersFrom, readWithTimeout, mapErr]
  dsimp only
  rw [if_neg hchunk]
  by_cases hn : n ≤ (buf ++ chunk).length
  · rw [headEnd_of_append hend hn, if_pos hn]
  · have hnone : headEnd (asciiByte '\r') (asciiByte '\n') (buf ++ chunk) = none := by
      cases hfound : headEnd (asciiByte '\r') (asciiByte '\n') (buf ++ chunk) with
      | none => rfl
      | some m =>
        have hsame := headEnd_append reads.flatten hfound
        rw [hend] at hsame
        cases hsame
        exact absurd (headEnd_le hfound) hn
    rw [hnone, if_neg hn]

theorem readHttpHeadersFrom_of_inTime (hne : ∀ chunk ∈ reads, chunk ≠ [])
    (hend : headEnd (asciiByte '\r') (asciiByte '\n') (buf ++ reads.flatten) = some n)
    (hbuf : buf.length < n) (htime : HeadInTime n buf reads) :
    ∃ chunks left, reads = chunks ++ left ∧ n ≤ (buf ++ chunks.flatten).length ∧
      readHttpHeadersFrom buf (reads.map .done) =
        .ok ⟨(buf ++ chunks.flatten).take n, (buf ++ chunks.flatten).drop n, left.map .done⟩ := by
  induction reads generalizing buf with
  | nil =>
    have hle := headEnd_le hend
    rw [List.flatten_nil, List.append_nil] at hle
    omega
  | cons chunk reads ih =>
    rw [readHttpHeadersFrom_cons (hne chunk List.mem_cons_self) hend]
    rw [headInTime_cons] at htime
    by_cases hn : n ≤ (buf ++ chunk).length
    · refine ⟨[chunk], reads, rfl, ?_, ?_⟩
      · simpa using hn
      · rw [if_pos hn]
        simp
    · have hmore : (buf ++ chunk).length < n := Nat.lt_of_not_le hn
      have hlimit : (buf ++ chunk).length ≤ maxHeader := by
        have h0 := htime.2 0
        simp only [List.take_zero, List.flatten_nil, List.append_nil] at h0
        exact h0 hmore
      rw [List.flatten_cons, ← List.append_assoc] at hend
      obtain ⟨chunks, left, rfl, hle, hread⟩ :=
        ih (fun c hc => hne c (List.mem_cons_of_mem _ hc)) hend hmore htime.2
      refine ⟨chunk :: chunks, left, rfl, ?_, ?_⟩
      · rw [List.flatten_cons, ← List.append_assoc]
        exact hle
      · rw [if_neg hn, if_neg (Nat.not_lt.mpr hlimit), hread, List.flatten_cons,
          ← List.append_assoc]

theorem readHttpHeadersFrom_of_not_inTime (hne : ∀ chunk ∈ reads, chunk ≠ [])
    (hend : headEnd (asciiByte '\r') (asciiByte '\n') (buf ++ reads.flatten) = some n)
    (hbuf : buf.length ≤ maxHeader) (htime : ¬HeadInTime n buf reads) :
    ∃ err, readHttpHeadersFrom buf (reads.map .done) = .error err := by
  induction reads generalizing buf with
  | nil =>
    exfalso
    apply htime
    intro k hk
    simpa using hbuf
  | cons chunk reads ih =>
    rw [readHttpHeadersFrom_cons (hne chunk List.mem_cons_self) hend]
    have hlater : ¬HeadInTime n (buf ++ chunk) reads :=
      fun h => htime (headInTime_cons.mpr ⟨fun _ => hbuf, h⟩)
    by_cases hn : n ≤ (buf ++ chunk).length
    · -- the head is complete: nothing is late
      exfalso
      apply hlater
      intro k hk
      rw [List.length_append] at hk
      omega
    · rw [if_neg hn]
      split
      · exact ⟨_, rfl⟩
      · rename_i hlimit
        rw [List.flatten_cons, ← List.append_assoc] at hend
        exact ih (fun c hc => hne c (List.mem_cons_of_mem _ hc)) hend (Nat.not_lt.mp hlimit) hlater

end

theorem relayOut_done {reads : List Bytes} (hne : ∀ chunk ∈ reads, chunk ≠ []) (written : Bytes) :
    relayOut written (reads.map .done) = written ++ reads.flatten := by
  induction reads generalizing written with
  | nil => exact (List.append_nil written).symm
  | cons chunk reads ih =>
    rw [List.map_cons, relayOut, if_neg (hne chunk List.mem_cons_self), ih fun c hc => hne c (List.mem_cons_of_mem _ hc),
      List.flatten_cons, List.append_assoc]

end FluxTerm.Proxy
