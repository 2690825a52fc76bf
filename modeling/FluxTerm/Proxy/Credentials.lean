import FluxTerm.Proxy.Forwarding
import FluxTerm.Proxy.HttpTarget

/-!
# FluxTerm — proxy credentials stay at the proxy

A client sends several requests on one connection. The proxy parses the head of the first one and
takes its headers for the proxy out of it; every byte behind that head is relayed as it is, to the
upstream of the first request.

* **`keepsCredentials_iff`** — when the proxy keeps the credentials.
-/

namespace FluxTerm.Proxy

open FluxTerm.Engine FluxTerm.Lib

/-! ## What an upstream may get -/

def lineName (line : Bytes) : Text :=
  asciiLower (lossy (line.takeWhile (· ≠ asciiByte ':')))

def IsProxyHeaderLine (line : Bytes) : Prop :=
  asciiByte ':' ∈ line ∧ lineName line ∈ proxyHeaders

/-- The bytes `piece` deliver the request `r` to the upstream: it is the one that `r` names, the
head has the method and the version of `r` and no header for the proxy, and the body follows. -/
def Delivered (up : Upstream) (r : HttpRequest) (piece : Bytes) : Prop :=
  r.destination = some ⟨asciiLower up.host, up.port⟩ ∧
    ∃ path lines, Framed (asciiByte '\r') (utf8 (r.requestLine path) :: lines) ∧
      (∀ line ∈ lines, ¬IsProxyHeaderLine line) ∧
      piece = joinHead (asciiByte '\r') (asciiByte '\n') (utf8 (r.requestLine path) :: lines)
        ++ r.body

/-- If there is an upstream, the bytes written there deliver the requests, one after the other. -/
def KeepsCredentials (requests : List HttpRequest) (outcome : Except EngineError Upstream) : Prop :=
  ∀ up, outcome = .ok up →
    ∃ pieces, pieces.flatten = up.written ∧ List.Forall₂ (Delivered up) requests pieces

theorem lineName_eq {name : Text} (hname : ∀ c ∈ name, isTokenChar c = true) (rest : Bytes) :
    lineName (utf8 name ++ asciiByte ':' :: rest) = asciiLower name := by
  have hcolon : asciiByte ':' ∉ utf8 name := fun h =>
    not_mem_of_all hname (by decide) (eq_of_mem_utf8 (by decide) h)
  have hpos : ∀ b ∈ utf8 name, decide (b ≠ asciiByte ':') = true :=
    fun b hb => decide_eq_true fun he => hcolon (he ▸ hb)
  have hcut : (utf8 name ++ asciiByte ':' :: rest).takeWhile (· ≠ asciiByte ':') = utf8 name := by
    rw [List.takeWhile_append_of_pos hpos]
    simp
  rw [lineName, hcut, lossy_utf8]

theorem isProxyHeaderLine_iff {name : Text} (hname : ∀ c ∈ name, isTokenChar c = true)
    (rest : Bytes) :
    IsProxyHeaderLine (utf8 name ++ asciiByte ':' :: rest) ↔ asciiLower name ∈ proxyHeaders := by
  rw [IsProxyHeaderLine, lineName_eq hname]
  exact and_iff_right (List.mem_append_right _ List.mem_cons_self)

theorem noProxyHeader_iff (r : HttpRequest) :
    r.NoProxyHeader ↔ ∀ line ∈ r.headers.map HeaderField.line, ¬IsProxyHeaderLine line := by
  constructor
  · intro h line hline hproxy
    obtain ⟨field, hfield, rfl⟩ := List.mem_map.mp hline
    rw [HeaderField.line, isProxyHeaderLine_iff field.name_token] at hproxy
    exact h _ hproxy field hfield rfl
  · intro h name hname field hfield hnamed
    apply h field.line (List.mem_map_of_mem hfield)
    rw [HeaderField.line, isProxyHeaderLine_iff field.name_token, hnamed]
    exact hname

/-! ## The forwarded head -/

theorem mem_of_parseHostPort {input host : Text} {d port : ℕ}
    (h : parseHostPort input d = .ok (host, port)) : ∀ c ∈ host, c ∈ input := by
  intro c hc
  apply mem_of_mem_afterLast (c := '@')
  rw [parseHostPort] at h
  dsimp only at h
  split at h
  · split at h
    · cases h
    · rename_i inner remain hsplit
      rw [(eq_of_splitOnce hsplit).1]
      have hhost : host = inner ++ [']'] := by
        split at h
        · split at h
          · cases h
          · cases h
            rfl
        · cases h
          rfl
      rw [hhost, List.mem_append, List.mem_singleton] at hc
      rcases hc with hc | rfl
      · exact List.mem_append_left _ hc
      · exact List.mem_append_right _ List.mem_cons_self
  · split at h
    · cases h
      exact hc
    · rename_i before after hsplit
      split at h
      · cases h
        exact hc
      · split at h
        · cases h
        · cases h
          rw [(eq_of_rsplitOnce hsplit).1]
          exact List.mem_append_left _ hc

theorem visible_of_resolveHttpTarget {r : HttpRequest} {t : HttpTarget}
    (h : resolveHttpTarget r.head = .ok t) :
    (∀ c ∈ t.path, isVisible c = true) ∧ ∀ c ∈ t.host, isVisible c = true := by
  have htarget := RequestTarget.text_visible r.target_valid
  rw [resolveHttpTarget, r.head_target, r.head_hostHeader] at h
  split at h
  · obtain ⟨hok, hpath⟩ := eq_of_parseAbsoluteHttpTarget h
    have hdrop : ∀ c ∈ r.target.text.drop httpScheme.length, isVisible c = true :=
      fun c hc => htarget c (List.mem_of_mem_drop hc)
    constructor
    · intro c hc
      rw [hpath] at hc
      split at hc
      · exact hdrop c ((List.dropWhile_suffix _).subset hc)
      · rw [List.mem_singleton.mp hc]
        decide
    · intro c hc
      exact hdrop c ((List.takeWhile_prefix _).subset (mem_of_parseHostPort hok c hc))
  · split at h
    · cases h
    · rename_i hostValue hhost
      split at h
      · cases h
      · rename_i host port hok
        cases h
        obtain ⟨a, -, rfl⟩ := Option.map_eq_some_iff.mp hhost
        exact ⟨htarget, fun c hc => a.text_visible c (mem_of_parseHostPort hok c hc)⟩

def forwardedFields (r : HttpRequest) : List HeaderField :=
  r.headers.filter fun h => !isProxyHeaderName (asciiLower h.name)

def forwardedLines (r : HttpRequest) (t : HttpTarget) : List Text :=
  (forwardedFields r).map (fun h => h.name ++ ':' :: ' ' :: h.text) ++
    if (forwardedFields r).any fun h => asciiLower h.name = "host".toList then []
    else ["Host".toList ++ ':' :: ' ' :: (t.host ++
      if t.port = 80 then [] else ':' :: Nat.toDigits 10 t.port)]

theorem forwardedHead_eq (r : HttpRequest) (t : HttpTarget) :
    forwardedHead r.head t =
      joinHead '\r' '\n' (r.requestLine t.path :: forwardedLines r t) := by
  have hlines : forwardedLines r t =
      (forwardedFields r).map HeaderField.forwardedLine ++ r.requestHead.addedHost t := by
    have hany : ((forwardedFields r).any fun h => asciiLower h.name = "host".toList) =
        decide (∃ h ∈ r.requestHead.headers, h.Named "host".toList) :=
      r.requestHead.any_host_forwardedFields
    rw [forwardedLines, RequestHead.addedHost]
    by_cases hhost : ∃ h ∈ r.requestHead.headers, h.Named "host".toList
    · rw [if_pos hhost, hany, if_pos (decide_eq_true hhost)]
      rfl
    · rw [if_neg hhost, hany, if_neg (by rwa [decide_eq_true_eq])]
      rfl
  rw [hlines]
  exact r.requestHead.forwardedHead_eq t

theorem forwardedLines_line {r : HttpRequest} {t : HttpTarget}
    (h : resolveHttpTarget r.head = .ok t) : ∀ line ∈ forwardedLines r t, line ≠ [] ∧ '\r' ∉ line := by
  intro line hline
  rw [forwardedLines, List.mem_append] at hline
  rcases hline with hline | hline
  · obtain ⟨field, -, rfl⟩ := List.mem_map.mp hline
    refine ⟨by simp, ?_⟩
    rw [List.mem_append, List.mem_cons, List.mem_cons]
    rintro (hc | hc | hc | hc)
    · exact not_mem_of_all field.name_token (by decide) hc
    · exact absurd hc (by decide)
    · exact absurd hc (by decide)
    · exact field.not_mem_text hc
  · split at hline
    · cases hline
    · rw [List.mem_singleton.mp hline]
      refine ⟨List.cons_ne_nil _ _, ?_⟩
      rw [List.mem_append, List.mem_cons, List.mem_cons, List.mem_append]
      rintro (hc | hc | hc | hc | hc)
      · exact absurd hc (by decide)
      · exact absurd hc (by decide)
      · exact absurd hc (by decide)
      · exact not_mem_of_all (visible_of_resolveHttpTarget h).2 (by decide) hc
      · split at hc
        · cases hc
        · rcases List.mem_cons.mp hc with hc | hc
          · exact absurd hc (by decide)
          · have hdigit := Nat.isDigit_of_mem_toDigits (by decide) (by decide) hc
            exact absurd hdigit (by decide)

theorem framed_forwarded {r : HttpRequest} {t : HttpTarget} (h : resolveHttpTarget r.head = .ok t) :
    Framed (asciiByte '\r') (utf8 (r.requestLine t.path) :: (forwardedLines r t).map utf8) where
  ne_nil := List.cons_ne_nil _ _
  line_ne_nil line hline := by
    rcases List.mem_cons.mp hline with rfl | hline
    · exact fun hnil => r.requestLine_ne_nil _ (utf8_eq_nil hnil)
    · obtain ⟨text, htext, rfl⟩ := List.mem_map.mp hline
      exact fun hnil => (forwardedLines_line h text htext).1 (utf8_eq_nil hnil)
  not_mem line hline hcr := by
    rcases List.mem_cons.mp hline with rfl | hline
    · exact r.not_mem_requestLine (visible_of_resolveHttpTarget h).1
        (eq_of_mem_utf8 (by decide) hcr)
    · obtain ⟨text, htext, rfl⟩ := List.mem_map.mp hline
      exact (forwardedLines_line h text htext).2 (eq_of_mem_utf8 (by decide) hcr)

theorem not_isProxyHeaderLine_forwarded (r : HttpRequest) (t : HttpTarget) :
    ∀ line ∈ (forwardedLines r t).map utf8, ¬IsProxyHeaderLine line := by
  intro line hline
  obtain ⟨text, htext, rfl⟩ := List.mem_map.mp hline
  have hutf8 (name rest : Text) : utf8 (name ++ ':' :: rest) = utf8 name ++ asciiByte ':' :: utf8 rest := by
    rw [utf8_append, utf8_cons, utf8EncodeChar_ascii (by decide), List.singleton_append]
  rw [forwardedLines, List.mem_append] at htext
  rcases htext with htext | htext
  · obtain ⟨field, hfield, rfl⟩ := List.mem_map.mp htext
    rw [hutf8, isProxyHeaderLine_iff field.name_token, ← isProxyHeaderName_iff]
    have hkept := (List.mem_filter.mp hfield).2
    simpa using hkept
  · split at htext
    · cases htext
    · rw [List.mem_singleton.mp htext, hutf8, isProxyHeaderLine_iff (forall_of_all (by decide))]
      decide

/-! ## The bytes of a connection -/

section
variable {auth : Option ProxyAuth} {connect : Text → ℕ → Timed Unit}
variable {first : HttpRequest} {later : List HttpRequest} {reads : List Bytes}

/-- **The bytes written upstream.** A client that sends requests, in whatever pieces, gets an
upstream if the head of the first request is in time, its credentials are right, its address is
found and can be connected to. The upstream gets that head, filtered, and then every byte that
follows. -/
theorem handleHttpClient_eq_ok_iff (hne : ∀ chunk ∈ reads, chunk ≠ [])
    (hstream : reads.flatten = first.encode ++ later.flatMap HttpRequest.encode) {up : Upstream} :
    handleHttpClient auth connect (reads.map .done) = .ok up ↔
      HeadInTime first.encodeHead.length [] reads ∧
        auth.all (checkHttpBasicAuth first.head.proxyAuthorization) = true ∧
        ∃ t, resolveHttpTarget first.head = .ok t ∧ connect t.host t.port = .done () ∧
          up = ⟨t.host, t.port, utf8 (forwardedHead first.head t) ++
            (first.body ++ later.flatMap HttpRequest.encode)⟩ := by
  have hcrlf : asciiByte '\r' ≠ asciiByte '\n' := by decide
  have hend : headEnd (asciiByte '\r') (asciiByte '\n') ([] ++ reads.flatten) =
      some first.encodeHead.length := by
    rw [List.nil_append, hstream, HttpRequest.encode, List.append_assoc]
    exact headEnd_joinHead hcrlf first.framed_headLines _
  by_cases htime : HeadInTime first.encodeHead.length [] reads
  · have hpos : 0 < first.encodeHead.length := by
      have hfour := four_le_headEnd hend
      omega
    obtain ⟨chunks, left, rfl, hle, hread⟩ :=
      readHttpHeadersFrom_of_inTime hne hend hpos htime
    rw [List.nil_append] at hread hle
    -- what was read is the head, and what was read behind it the beginning of what follows
    have hhead : chunks.flatten.take first.encodeHead.length = first.encodeHead := by
      rw [List.flatten_append, HttpRequest.encode, List.append_assoc] at hstream
      have htake := congrArg (List.take first.encodeHead.length) hstream
      rw [List.take_append_of_le_length hle, List.take_left] at htake
      exact htake
    have hrest : chunks.flatten.drop first.encodeHead.length ++ left.flatten =
        first.body ++ later.flatMap HttpRequest.encode := by
      rw [List.flatten_append, HttpRequest.encode, List.append_assoc] at hstream
      have hdrop := congrArg (List.drop first.encodeHead.length) hstream
      rw [List.drop_append_of_le_length hle, List.drop_left] at hdrop
      exact hdrop
    have hleft : ∀ chunk ∈ left, chunk ≠ [] := fun c hc => hne c (List.mem_append_right _ hc)
    have hconnect : eqIgnoreAsciiCase first.head.method "CONNECT".toList = false := by
      rw [first.head_method, eqIgnoreAsciiCase, decide_eq_false_iff_not]
      exact first.method_not_connect
    rw [handleHttpClient, handleHttpHandshake, readHttpHeaders, hread]
    dsimp only
    rw [hhead, first.parseHttpRequestHead_encodeHead]
    dsimp only
    rw [and_iff_right htime]
    by_cases hauth : auth.all (checkHttpBasicAuth first.head.proxyAuthorization) = true
    · rw [if_pos hauth, hconnect, if_neg Bool.false_ne_true, and_iff_right hauth]
      cases hforward : handleForward connect first.head
          ⟨first.encodeHead, chunks.flatten.drop first.encodeHead.length, left.map .done⟩ with
      | error err =>
        constructor
        · intro h; cases h
        · rintro ⟨t, hresolve, hdone, -⟩
          rw [handleForward_eq_ok_iff.mpr ⟨t, hresolve, hdone, rfl⟩] at hforward
          cases hforward
      | ok result =>
        obtain ⟨t, hresolve, hdone, rfl⟩ := handleForward_eq_ok_iff.mp hforward
        dsimp only
        rw [relayOut_done hleft, List.append_assoc, hrest]
        constructor
        · intro h
          cases h
          exact ⟨t, hresolve, hdone, rfl⟩
        · rintro ⟨t', hresolve', -, rfl⟩
          rw [hresolve] at hresolve'
          cases hresolve'
          rfl
    · rw [if_neg hauth]
      constructor
      · intro h; cases h
      · exact fun h => absurd h.1 hauth
  · obtain ⟨err, hread⟩ :=
      readHttpHeadersFrom_of_not_inTime hne hend (Nat.zero_le maxHeader) htime
    rw [handleHttpClient, handleHttpHandshake, readHttpHeaders, hread]
    constructor
    · intro h; cases h
    · exact fun h => absurd h.1 htime

/-! ## When the credentials stay -/

theorem Delivered.eq_of_append {up : Upstream} {r : HttpRequest} {piece xs ys : Bytes}
    {lines : List Bytes} (h : Delivered up r piece) (hframed : Framed (asciiByte '\r') lines)
    (heq : joinHead (asciiByte '\r') (asciiByte '\n') lines ++ (r.body ++ xs) = piece ++ ys) :
    (∀ line ∈ lines.tail, ¬IsProxyHeaderLine line) ∧ xs = ys := by
  obtain ⟨-, path, lines', hframed', hclean, rfl⟩ := h
  rw [List.append_assoc] at heq
  obtain ⟨rfl, hrest⟩ := joinHead_append_inj (by decide) hframed hframed' heq
  exact ⟨hclean, List.append_cancel_left hrest⟩

theorem delivered_encode {up : Upstream} {r : HttpRequest}
    (hdest : r.destination = some ⟨asciiLower up.host, up.port⟩) (hclean : r.NoProxyHeader) :
    Delivered up r r.encode :=
  ⟨hdest, r.target.text, r.headers.map HeaderField.line, r.framed_headLines,
    (noProxyHeader_iff r).mp hclean, rfl⟩

theorem delivered_later_iff {up : Upstream} (later : List HttpRequest) :
    (∃ pieces, pieces.flatten = later.flatMap HttpRequest.encode ∧
        List.Forall₂ (Delivered up) later pieces) ↔
      ∀ r ∈ later, r.destination = some ⟨asciiLower up.host, up.port⟩ ∧ r.NoProxyHeader := by
  induction later with
  | nil => exact ⟨fun _ r hr => absurd hr List.not_mem_nil, fun _ => ⟨[], rfl, .nil⟩⟩
  | cons r later ih =>
    rw [List.forall_mem_cons, ← ih]
    constructor
    · rintro ⟨pieces, hflat, hall⟩
      cases hall with
      | cons hpiece hall =>
        rename_i piece pieces
        rw [List.flatten_cons, List.flatMap_cons, HttpRequest.encode, List.append_assoc] at hflat
        obtain ⟨hclean, hrest⟩ := hpiece.eq_of_append r.framed_headLines hflat.symm
        exact ⟨⟨hpiece.1, (noProxyHeader_iff r).mpr hclean⟩, pieces, hrest.symm, hall⟩
    · rintro ⟨⟨hdest, hclean⟩, pieces, hflat, hall⟩
      refine ⟨r.encode :: pieces, ?_, .cons (delivered_encode hdest hclean) hall⟩
      rw [List.flatten_cons, hflat, List.flatMap_cons]

/-- The proxy takes the connection, and sends it to `t`: the head of the first request is in time,
the credentials are right, the address is found and can be connected to. -/
structure Accepted (auth : Option ProxyAuth) (connect : Text → ℕ → Timed Unit)
    (first : HttpRequest) (reads : List Bytes) (t : HttpTarget) : Prop where
  inTime : HeadInTime first.encodeHead.length [] reads
  authenticated : auth.all (checkHttpBasicAuth first.head.proxyAuthorization) = true
  resolved : resolveHttpTarget first.head = .ok t
  connected : connect t.host t.port = .done ()

/-- The first request is read as it is meant, and those that follow it on the connection are for
the same upstream and carry nothing for the proxy. -/
structure OneUpstream (first : HttpRequest) (later : List HttpRequest) : Prop where
  readAsNamed : first.ReadAsNamed
  noProxyHeader : ∀ r ∈ later, r.NoProxyHeader
  destination_eq : ∀ r ∈ later, r.destination = first.destination

theorem oneUpstream_of_keepsCredentials (hne : ∀ chunk ∈ reads, chunk ≠ [])
    (hstream : reads.flatten = first.encode ++ later.flatMap HttpRequest.encode)
    (hkeeps : KeepsCredentials (first :: later) (handleHttpClient auth connect (reads.map .done)))
    {t : HttpTarget} (h : Accepted auth connect first reads t) : OneUpstream first later := by
  obtain ⟨htime, hauth, hresolve, hdone⟩ := h
  obtain ⟨pieces, hflat, hall⟩ := hkeeps _
    ((handleHttpClient_eq_ok_iff hne hstream).mpr ⟨htime, hauth, t, hresolve, hdone, rfl⟩)
  cases hall with
  | cons hpiece hall =>
    rename_i piece pieces
    have hfirst : first.destination = some ⟨asciiLower t.host, t.port⟩ := hpiece.1
    dsimp only at hflat
    rw [List.flatten_cons, forwardedHead_eq, utf8_joinHead] at hflat
    obtain ⟨-, hrest⟩ := hpiece.eq_of_append (framed_forwarded hresolve) hflat.symm
    have hlater := (delivered_later_iff later).mp ⟨pieces, hrest.symm, hall⟩
    exact ⟨(first.destination_resolveHttpTarget hresolve).mp hfirst, fun r hr => (hlater r hr).2,
      fun r hr => (hlater r hr).1.trans hfirst.symm⟩

theorem keepsCredentials_of_oneUpstream (hne : ∀ chunk ∈ reads, chunk ≠ [])
    (hstream : reads.flatten = first.encode ++ later.flatMap HttpRequest.encode)
    (hone : ∀ t, Accepted auth connect first reads t → OneUpstream first later) :
    KeepsCredentials (first :: later) (handleHttpClient auth connect (reads.map .done)) := by
  intro up hok
  obtain ⟨htime, hauth, t, hresolve, hdone, hup⟩ :=
    (handleHttpClient_eq_ok_iff hne hstream).mp hok
  obtain ⟨hread, hclean, hsame⟩ := hone t ⟨htime, hauth, hresolve, hdone⟩
  have hfirst : first.destination = some ⟨asciiLower up.host, up.port⟩ := by
    rw [hup]
    exact (first.destination_resolveHttpTarget hresolve).mpr hread
  obtain ⟨pieces, hflat, hall⟩ := (delivered_later_iff later).mpr
    fun r hr => ⟨(hsame r hr).trans hfirst, hclean r hr⟩
  refine ⟨(utf8 (forwardedHead first.head t) ++ first.body) :: pieces, ?_, .cons ?_ hall⟩
  · rw [List.flatten_cons, hflat, hup, List.append_assoc]
  · refine ⟨hfirst, t.path, (forwardedLines first t).map utf8, framed_forwarded hresolve,
      not_isProxyHeaderLine_forwarded first t, ?_⟩
    rw [forwardedHead_eq, utf8_joinHead]
    rfl

/-- **Credentials at the proxy.** Whatever requests a client sends on a connection, and however
they are cut into reads: the upstream gets each of them without headers for the proxy, and is the
one each of them names, exactly when the proxy refuses the connection, or the first request is read
as it is meant and the later ones are for the same upstream and carry nothing for the proxy. -/
theorem keepsCredentials_iff (auth : Option ProxyAuth) (connect : Text → ℕ → Timed Unit)
    (first : HttpRequest) (later : List HttpRequest) (reads : List Bytes)
    (hne : ∀ chunk ∈ reads, chunk ≠ [])
    (hstream : reads.flatten = (first :: later).flatMap HttpRequest.encode) :
    KeepsCredentials (first :: later) (handleHttpClient auth connect (reads.map .done)) ↔
      ∀ t, Accepted auth connect first reads t → OneUpstream first later :=
  ⟨fun hkeeps _ => oneUpstream_of_keepsCredentials hne hstream hkeeps,
    keepsCredentials_of_oneUpstream hne hstream⟩

end

/-! ## Two requests on one connection -/

/-- `a.test`. -/
def exampleHost : Authority where
  userinfo := none
  host := .regName "a.test".toList
  port := none
  userinfo_chars := Authority.userinfo_chars_none
  host_valid := by
    constructor
    · decide
    · exact forall_of_all (by decide)
  port_digits := Authority.port_digits_none

/-- `Host: a.test`. -/
def hostField : HeaderField where
  name := "Host".toList
  value := utf8 " a.test".toList
  name_ne_nil := by decide
  name_token := forall_of_all (by decide)
  value_bytes := by decide +kernel

/-- `Proxy-Authorization: Basic dTpw`. -/
def credentialsField : HeaderField where
  name := "Proxy-Authorization".toList
  value := utf8 " Basic dTpw".toList
  name_ne_nil := by decide
  name_token := forall_of_all (by decide)
  value_bytes := by decide +kernel

/-- `GET http://a.test/`, with the headers that come after `Host`. -/
def exampleRequest (headers : List HeaderField)
    (hhost : ∀ h ∈ headers, ¬h.Named "host".toList) : HttpRequest where
  method := "GET".toList
  target := .absolute "http".toList exampleHost ['/']
  version := "HTTP/1.1".toList
  host := some exampleHost
  headers := hostField :: headers
  body := []
  method_ne_nil := get_ne_nil
  method_token := get_token
  method_not_connect := get_not_connect
  target_valid := by
    refine ⟨⟨by decide, fun c hc => .inl ?_⟩, by decide, forall_of_all (by decide)⟩
    exact forall_of_all (p := Char.isAlphanum) (by decide) c hc
  version_ne_nil := http11_ne_nil
  version_visible := http11_visible
  host_userinfo := by simp [exampleHost]
  host_text := by
    intro h hmem hnamed
    rcases List.mem_cons.mp hmem with rfl | hmem
    · decide
    · exact absurd hnamed (hhost h hmem)
  host_present := fun _ => ⟨hostField, List.mem_cons_self, by decide⟩

def plainRequest : HttpRequest := exampleRequest [] (by simp)

def requestWithCredentials : HttpRequest :=
  exampleRequest [credentialsField] (by
    intro h hmem
    rw [List.mem_singleton.mp hmem]
    decide)

/-- The credentials `u:p`. -/
def exampleAuth : ProxyAuth := ⟨['u'], ['p']⟩

def everyUpstream : Text → ℕ → Timed Unit := fun _ _ => .done ()

/-- The credentials of the first request stay at the proxy. -/
theorem keepsCredentials_iff_twoRequests :
    KeepsCredentials [requestWithCredentials, plainRequest]
      (handleHttpClient (some exampleAuth) everyUpstream
        ([requestWithCredentials.encode, plainRequest.encode].map .done)) := by
  have hne : ∀ chunk ∈ [requestWithCredentials.encode, plainRequest.encode], chunk ≠ [] := by
    decide
  refine (keepsCredentials_iff (some exampleAuth) everyUpstream requestWithCredentials
    [plainRequest] [requestWithCredentials.encode, plainRequest.encode] hne (by simp)).mpr ?_
  intro t _
  refine ⟨?_, ?_, ?_⟩
  · simp [HttpRequest.ReadAsNamed, HttpRequest.AuthorityReadAsNamed, requestWithCredentials,
      exampleRequest, exampleHost]
  · intro r hr
    rw [List.mem_singleton.mp hr]
    decide
  · intro r hr
    rw [List.mem_singleton.mp hr]
    rfl

/-- Those of the second request are sent to the upstream. -/
theorem second_credentials_leak :
    ¬KeepsCredentials [requestWithCredentials, requestWithCredentials]
      (handleHttpClient (some exampleAuth) everyUpstream
        ([requestWithCredentials.encode, requestWithCredentials.encode].map .done)) := by
  intro hkeeps
  have hne : ∀ chunk ∈ [requestWithCredentials.encode, requestWithCredentials.encode],
      chunk ≠ [] := by
    decide
  have haccepted : Accepted (some exampleAuth) everyUpstream requestWithCredentials
      [requestWithCredentials.encode, requestWithCredentials.encode] ⟨"a.test".toList, 80, ['/']⟩ :=
    ⟨headInTime_of_le (by decide) _ _, by decide, by decide, rfl⟩
  have hone := oneUpstream_of_keepsCredentials hne (by simp) hkeeps haccepted
  have hclean := hone.noProxyHeader _ List.mem_cons_self
  revert hclean
  decide

end FluxTerm.Proxy
