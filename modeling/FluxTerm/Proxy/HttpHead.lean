import FluxTerm.Engine.Error
import FluxTerm.Lib.Bytes
import FluxTerm.Lib.Framing

/-!
# FluxTerm — the head of a proxied HTTP request

What `crates/engine/src/proxy.rs` reads in the head of a request before it connects anywhere:
the request line and the headers, the credentials, and the upstream address.
-/

namespace FluxTerm.Proxy

open FluxTerm.Engine FluxTerm.Lib

def proxyHttpParseFailedCode : String := "proxy_http_parse_failed"

/-- A text under ASCII case folding is `other`: `eq_ignore_ascii_case`. -/
def eqIgnoreAsciiCase (s other : Text) : Bool := asciiLower s = asciiLower other

/-! ## Parsing a head -/

structure ParsedHttpRequestHead where
  method : Text
  target : Text
  version : Text
  headers : List (Text × Text)
  proxyAuthorization : Option Text
  hostHeader : Option Text
deriving DecidableEq

/-- One header of the loop in `parse_http_request_head`: the last of a name counts. -/
def ParsedHttpRequestHead.push (req : ParsedHttpRequestHead) (name value : Text) :
    ParsedHttpRequestHead :=
  { req with
    headers := req.headers ++ [(name, value)]
    proxyAuthorization :=
      if eqIgnoreAsciiCase name "Proxy-Authorization".toList then some value
      else req.proxyAuthorization
    hostHeader := if eqIgnoreAsciiCase name "Host".toList then some value else req.hostHeader }

/-- The loop over the lines of a head: an empty line ends it, a line without a colon is passed
over. -/
def parseHeaderLines : List Text → ParsedHttpRequestHead → ParsedHttpRequestHead
  | [], req => req
  | line :: lines, req =>
    if line = [] then req
    else
      match splitOnce ':' line with
      | none => parseHeaderLines lines req
      | some (name, value) => parseHeaderLines lines (req.push name (trimBy isWhitespace value))

def parseHttpRequestHead (raw : Text) : Except EngineError ParsedHttpRequestHead :=
  match splitLines '\r' '\n' raw with
  | [] => .error (.new proxyHttpParseFailedCode "Missing HTTP request line")
  | reqLine :: lines =>
    match splitWhitespace reqLine with
    | [] => .error (.new proxyHttpParseFailedCode "Missing HTTP request method")
    | [_] => .error (.new proxyHttpParseFailedCode "Missing HTTP request target")
    | [_, _] => .error (.new proxyHttpParseFailedCode "Missing HTTP version")
    | method :: target :: version :: _ =>
      .ok (parseHeaderLines lines ⟨method, target, version, [], none, none⟩)

/-! ## Credentials -/

structure ProxyAuth where
  username : Text
  password : Text
deriving DecidableEq

def checkHttpBasicAuth (authHeader : Option Text) (expected : ProxyAuth) : Bool :=
  match authHeader with
  | none => false
  | some raw =>
    match splitOnce ' ' raw with
    | none => false
    | some (scheme, value) =>
      eqIgnoreAsciiCase scheme "basic".toList &&
        trimBy isWhitespace value = base64 (utf8 (expected.username ++ ':' :: expected.password))

/-! ## Targets -/

def parseConnectTarget (target : Text) : Except EngineError (Text × ℕ) :=
  match rsplitOnce ':' target with
  | none => .error (.new proxyHttpParseFailedCode "Invalid CONNECT target format")
  | some (host, portRaw) =>
    match parseU16 portRaw with
    | none => .error (.new proxyHttpParseFailedCode "Invalid CONNECT target port")
    | some port =>
      if host = [] then .error (.new proxyHttpParseFailedCode "CONNECT target host is empty")
      else .ok (host, port)

/-- The port after a colon, with the error of `parse_host_port`. -/
def parsePort (portStr : Text) : Except EngineError ℕ :=
  match parseU16 portStr with
  | none => .error (.new proxyHttpParseFailedCode "Invalid port format")
  | some port => .ok port

def parseHostPort (input : Text) (defaultPort : ℕ) : Except EngineError (Text × ℕ) :=
  let authority := afterLast '@' input
  if authority.head? = some '[' then
    match splitOnce ']' authority with
    | none => .error (.new proxyHttpParseFailedCode "Invalid IPv6 address format")
    | some (inner, remain) =>
      let host := inner ++ [']']
      if remain.head? = some ':' then
        match parsePort remain.tail with
        | .error err => .error err
        | .ok port => .ok (host, port)
      else .ok (host, defaultPort)
  else
    match rsplitOnce ':' authority with
    | none => .ok (authority, defaultPort)
    | some (host, portStr) =>
      if host.contains ':' || portStr.isEmpty then .ok (authority, defaultPort)
      else
        match parsePort portStr with
        | .error err => .error err
        | .ok port => .ok (host, port)

structure HttpTarget where
  host : Text
  port : ℕ
  path : Text
deriving DecidableEq

/-- `"http://"`. -/
def httpScheme : Text := "http://".toList

def parseAbsoluteHttpTarget (target : Text) : Except EngineError HttpTarget :=
  if httpScheme.isPrefixOf target then
    let rest := target.drop httpScheme.length
    -- the authority ends at the first slash; without one the path is `/`
    let authority := rest.takeWhile (· ≠ '/')
    let path := if '/' ∈ rest then rest.dropWhile (· ≠ '/') else ['/']
    match parseHostPort authority 80 with
    | .error err => .error err
    | .ok (host, port) => .ok ⟨host, port, path⟩
  else .error (.new proxyHttpParseFailedCode "Only absolute HTTP URLs are supported")

def resolveHttpTarget (req : ParsedHttpRequestHead) : Except EngineError HttpTarget :=
  if httpScheme.isPrefixOf req.target then parseAbsoluteHttpTarget req.target
  else
    match req.hostHeader with
    | none => .error (.new proxyHttpParseFailedCode
        "Missing Host header; unable to determine the upstream address")
    | some hostValue =>
      match parseHostPort hostValue 80 with
      | .error err => .error err
      | .ok (host, port) => .ok ⟨host, port, req.target⟩

theorem eq_of_parseAbsoluteHttpTarget {target : Text} {t : HttpTarget}
    (h : parseAbsoluteHttpTarget target = .ok t) :
    let rest := target.drop httpScheme.length
    parseHostPort (rest.takeWhile (· ≠ '/')) 80 = .ok (t.host, t.port) ∧
      t.path = if '/' ∈ rest then rest.dropWhile (· ≠ '/') else ['/'] := by
  rw [parseAbsoluteHttpTarget] at h
  split at h
  · dsimp only at h
    cases hport : parseHostPort ((target.drop httpScheme.length).takeWhile (· ≠ '/')) 80 with
    | error err =>
      rw [hport] at h
      cases h
    | ok address =>
      rw [hport] at h
      cases h
      exact ⟨hport, rfl⟩
  · cases h

end FluxTerm.Proxy
