import FluxTerm.Proxy.HttpRequest
import FluxTerm.Proxy.Segmentation
import Mathlib.Data.List.Forall2

/-!
# FluxTerm — the first request of a connection

What `handle_http_handshake` writes to the upstream for the first request of a client. The head is
read as text and written again, so a header value arrives as it was sent only where its bytes are
those of the text they are read as.

* **`forwarded_iff`** — it has, exactly if every header value is UTF-8 and has no white space of
  other scripts at its ends.
-/

namespace FluxTerm.Proxy

open FluxTerm.Engine FluxTerm.Lib

/-! ## Header values -/

/-- `OWS`: a tab or a blank. -/
def isOws (b : UInt8) : Bool := b == 9 || b == 0x20

def trimOws (value : Bytes) : Bytes := (value.dropWhile isOws).rdropWhile isOws

theorem eq_of_isOws {b : UInt8} (h : isOws b = true) : b = asciiByte '\t' ∨ b = asciiByte ' ' := by
  rwa [isOws, Bool.or_eq_true, beq_iff_eq, beq_iff_eq] at h

theorem isWhitespace_of_isOws {c : Char} {b : UInt8} (hb : b ∈ String.utf8EncodeChar c)
    (h : isOws b = true) : isWhitespace c = true := by
  have hblank (d : Char) (hd : d.toNat < 128) (hws : isWhitespace d = true)
      (hbd : b = asciiByte d) : isWhitespace c = true := by
    have hmem : d ∈ [c] := eq_of_mem_utf8 hd (by simpa [utf8_cons, ← hbd] using hb)
    rwa [← List.mem_singleton.mp hmem]
  rcases eq_of_isOws h with hbd | hbd
  · exact hblank '\t' (by decide) (by decide) hbd
  · exact hblank ' ' (by decide) (by decide) hbd

theorem trimOws_utf8 {before after : Bytes} {s : Text} (hbefore : ∀ b ∈ before, isOws b = true)
    (hafter : ∀ b ∈ after, isOws b = true) (hhead : ∀ c ∈ s.head?, isWhitespace c = false)
    (hlast : ∀ c ∈ s.getLast?, isWhitespace c = false) :
    trimOws (before ++ utf8 s ++ after) = utf8 s := by
  have hnot : ∀ {c : Char} {b : UInt8}, isWhitespace c = false → b ∈ String.utf8EncodeChar c →
      isOws b = false := by
    intro c b hc hb
    by_contra hows
    rw [Bool.not_eq_false] at hows
    rw [isWhitespace_of_isOws hb hows] at hc
    cases hc
  refine trim_append hbefore hafter (fun b hb => ?_) fun b hb => ?_
  · cases s with
    | nil => cases hb
    | cons c s =>
      rw [utf8_cons, List.head?_append_of_ne_nil _ String.utf8EncodeChar_ne_nil] at hb
      exact hnot (hhead c rfl) (List.mem_of_mem_head? hb)
  · induction s using List.reverseRecOn with
    | nil => cases hb
    | append_singleton s c =>
      have hbytes : utf8 [c] = String.utf8EncodeChar c := by simp [utf8_cons]
      rw [utf8_append, hbytes, List.getLast?_append_of_ne_nil _ String.utf8EncodeChar_ne_nil] at hb
      exact hnot (hlast c (List.getLast?_concat)) (List.mem_of_mem_getLast? hb)

theorem exists_text_of_isOws {bytes : Bytes} (h : ∀ b ∈ bytes, isOws b = true) :
    ∃ s : Text, utf8 s = bytes ∧ ∀ c ∈ s, isWhitespace c = true := by
  induction bytes with
  | nil => exact ⟨[], rfl, by simp⟩
  | cons b bytes ih =>
    obtain ⟨s, hs, hws⟩ := ih fun a ha => h a (List.mem_cons_of_mem _ ha)
    have hcons (d : Char) (hd : d.toNat < 128) (hdws : isWhitespace d = true)
        (hb : b = asciiByte d) : ∃ s : Text, utf8 s = b :: bytes ∧ ∀ c ∈ s, isWhitespace c = true :=
      ⟨d :: s, by rw [utf8_cons, utf8EncodeChar_ascii hd, hs, hb]; rfl,
        List.forall_mem_cons.mpr ⟨hdws, hws⟩⟩
    rcases eq_of_isOws (h b List.mem_cons_self) with hb | hb
    · exact hcons '\t' (by decide) (by decide) hb
    · exact hcons ' ' (by decide) (by decide) hb

namespace HeaderField

variable (field : HeaderField)

def SameLine (line : Bytes) : Prop :=
  ∃ value, line = utf8 field.name ++ asciiByte ':' :: value ∧ trimOws value = trimOws field.value

/-- The value, without white space around it, is UTF-8, and its text neither begins nor ends with
white space of another kind. -/
def ReadExactly : Prop :=
  ∃ s : Text, utf8 s = trimOws field.value ∧ (∀ c ∈ s.head?, isWhitespace c = false) ∧
    ∀ c ∈ s.getLast?, isWhitespace c = false

def forwardedLine : Text := field.name ++ ':' :: ' ' :: field.text

theorem text_of_readExactly {s : Text} (hs : utf8 s = trimOws field.value)
    (hhead : ∀ c ∈ s.head?, isWhitespace c = false)
    (hlast : ∀ c ∈ s.getLast?, isWhitespace c = false) : field.text = s := by
  obtain ⟨before, after, hvalue, hbefore, hafter, -⟩ := exists_trim isOws field.value
  obtain ⟨left, rfl, hleft⟩ := exists_text_of_isOws hbefore
  obtain ⟨right, rfl, hright⟩ := exists_text_of_isOws hafter
  have hbytes : field.value = utf8 (left ++ s ++ right) := by
    rw [utf8_append, utf8_append, hs]
    exact hvalue
  rw [text, hbytes, lossy_utf8]
  exact trim_append hleft hright hhead hlast

theorem sameLine_forwardedLine_iff :
    field.SameLine (utf8 field.forwardedLine) ↔ field.ReadExactly := by
  have hline : utf8 field.forwardedLine =
      utf8 field.name ++ asciiByte ':' :: asciiByte ' ' :: utf8 field.text := by
    rw [forwardedLine, utf8_append, utf8_cons, utf8_cons, utf8EncodeChar_ascii (by decide),
      utf8EncodeChar_ascii (by decide)]
    rfl
  have hblank : ∀ b ∈ [asciiByte ' '], isOws b = true := by decide +kernel
  constructor
  · rintro ⟨value, heq, hvalue⟩
    rw [hline] at heq
    have hsame := (List.cons.inj (List.append_cancel_left heq)).2
    obtain ⟨-, -, -, -, -, hhead, hlast⟩ := exists_trim isWhitespace (lossy field.value)
    refine ⟨field.text, ?_, hhead, hlast⟩
    rw [← hvalue, ← hsame]
    have htrim := trimOws_utf8 hblank (List.forall_mem_nil _) hhead hlast
    rw [List.append_nil] at htrim
    exact htrim.symm
  · rintro ⟨s, hs, hhead, hlast⟩
    refine ⟨asciiByte ' ' :: utf8 field.text, hline, ?_⟩
    rw [field.text_of_readExactly hs hhead hlast, ← hs]
    have htrim := trimOws_utf8 hblank (List.forall_mem_nil _) hhead hlast
    rwa [List.append_nil] at htrim

theorem not_mem_of_sameLine {line : Bytes} (h : field.SameLine line) : asciiByte '\r' ∉ line := by
  obtain ⟨value, rfl, hvalue⟩ := h
  have hno : asciiByte '\r' ∉ field.value := fun hmem => by
    have hfield := field.value_bytes _ hmem
    revert hfield
    decide
  obtain ⟨before, after, hsplit, hbefore, hafter, -⟩ := exists_trim isOws value
  rw [List.mem_append, List.mem_cons]
  rintro (hc | hc | hc)
  · exact not_mem_of_all field.name_token (by decide) (eq_of_mem_utf8 (by decide) hc)
  · exact absurd hc (by decide)
  · rw [hsplit, List.mem_append, List.mem_append] at hc
    rcases hc with (hc | hc) | hc
    · exact absurd (hbefore _ hc) (by decide)
    · have hmem : asciiByte '\r' ∈ trimOws field.value := hvalue ▸ hc
      exact hno ((List.dropWhile_suffix _).subset ((List.rdropWhile_prefix _ _).subset hmem))
    · exact absurd (hafter _ hc) (by decide)

end HeaderField

/-! ## The forwarded head -/

theorem isProxyHeaderName_iff (lower : Text) :
    isProxyHeaderName lower = true ↔ lower ∈ proxyHeaders := by
  rw [isProxyHeaderName, Bool.or_eq_true, decide_eq_true_eq, decide_eq_true_eq, proxyHeaders,
    List.mem_cons, List.mem_singleton]

namespace RequestHead

variable (r : RequestHead)

def forwardedFields : List HeaderField :=
  r.headers.filter fun h => !isProxyHeaderName (asciiLower h.name)

/-- The `Host` header that is added where there is none. -/
def addedHost (t : HttpTarget) : List Text :=
  if ∃ h ∈ r.headers, h.Named "host".toList then []
  else ["Host".toList ++ ':' :: ' ' :: (t.host ++
    if t.port = 80 then [] else ':' :: Nat.toDigits 10 t.port)]

theorem any_host_forwardedFields :
    (r.forwardedFields.any fun h => asciiLower h.name = "host".toList) =
      decide (∃ h ∈ r.headers, h.Named "host".toList) := by
  rw [Bool.eq_iff_iff, List.any_eq_true, decide_eq_true_eq]
  constructor
  · rintro ⟨h, hmem, hname⟩
    exact ⟨h, (List.mem_filter.mp hmem).1, of_decide_eq_true hname⟩
  · rintro ⟨h, hmem, hname⟩
    have hkept : (!isProxyHeaderName (asciiLower h.name)) = true := by
      rw [show asciiLower h.name = "host".toList from hname]
      decide
    exact ⟨h, List.mem_filter.mpr ⟨hmem, hkept⟩, decide_eq_true hname⟩

/-- **The forwarded head**, line by line. -/
theorem forwardedHead_eq (t : HttpTarget) :
    forwardedHead r.head t = joinHead '\r' '\n' (r.requestLine t.path ::
      (r.forwardedFields.map HeaderField.forwardedLine ++ r.addedHost t)) := by
  have hfilter : (r.head.headers.filter fun header => !isProxyHeaderName (asciiLower header.1)) =
      r.forwardedFields.map fun h => (h.name, h.text) := by
    rw [r.head_headers, List.filter_map]
    rfl
  have hlines : (r.forwardedFields.map fun h => (h.name, h.text)).flatMap forwardedHeader =
      (r.forwardedFields.map HeaderField.forwardedLine).flatMap (· ++ ['\r', '\n']) := by
    rw [List.flatMap_map, List.flatMap_map]
    refine List.flatMap_congr fun h _ => ?_
    simp [forwardedHeader, HeaderField.forwardedLine]
  have hany : ((r.forwardedFields.map fun h => (h.name, h.text)).any
      fun header => asciiLower header.1 = "host".toList) =
      decide (∃ h ∈ r.headers, h.Named "host".toList) := by
    rw [List.any_map]
    exact r.any_host_forwardedFields
  have hhost : (if decide (∃ h ∈ r.headers, h.Named "host".toList) = true then []
      else "Host: ".toList ++ t.host
        ++ (if t.port = 80 then [] else ':' :: Nat.toDigits 10 t.port) ++ "\r\n".toList) =
      (r.addedHost t).flatMap (· ++ ['\r', '\n']) := by
    rw [addedHost]
    by_cases hhost : ∃ h ∈ r.headers, h.Named "host".toList
    · rw [if_pos hhost, if_pos (decide_eq_true hhost), List.flatMap_nil]
    · rw [if_neg hhost, if_neg (by rwa [decide_eq_true_eq]), List.flatMap_singleton]
      rfl
  rw [forwardedHead, hfilter, hlines, hany, hhost, joinHead, List.flatMap_cons,
    List.flatMap_append, r.head_method, r.head_version, requestLine]
  simp only [List.append_assoc, List.cons_append]
  rfl

end RequestHead

/-! ## The handshake -/

section
variable {auth : Option ProxyAuth} {connect : Text → ℕ → Timed Unit}

theorem connectUpstream_eq_ok_iff {host : Text} {port : ℕ} :
    connectUpstream connect host port = .ok () ↔ connect host port = .done () := by
  rw [connectUpstream]
  cases connect host port with
  | done u => exact ⟨fun _ => rfl, fun _ => rfl⟩
  | failed err =>
    constructor
    · intro h; cases h
    · intro h; cases h
  | timedOut =>
    constructor
    · intro h; cases h
    · intro h; cases h

theorem handleForward_eq_ok_iff {parsed : ParsedHttpRequestHead} {head : HttpHeaders}
    {result : HttpHandshakeResult} :
    handleForward connect parsed head = .ok result ↔
      ∃ t, resolveHttpTarget parsed = .ok t ∧ connect t.host t.port = .done () ∧
        result = ⟨head.client, ⟨t.host, t.port, utf8 (forwardedHead parsed t) ++ head.rest⟩,
          (utf8 (forwardedHead parsed t)).length + head.rest.length⟩ := by
  rw [handleForward]
  cases hresolve : resolveHttpTarget parsed with
  | error err =>
    constructor
    · intro h; cases h
    · rintro ⟨t, h, -⟩; cases h
  | ok t =>
    dsimp only
    cases hconnect : connectUpstream connect t.host t.port with
    | error err =>
      constructor
      · intro h; cases h
      · rintro ⟨t', h, hdone, -⟩
        cases h
        rw [connectUpstream_eq_ok_iff.mpr hdone] at hconnect
        cases hconnect
    | ok u =>
      constructor
      · intro h
        cases h
        exact ⟨t, rfl, connectUpstream_eq_ok_iff.mp hconnect, rfl⟩
      · rintro ⟨t', h, -, rfl⟩
        cases h
        rfl

variable {r : RequestHead} {body : Bytes} {c : Segmentation (r.encode ++ body)}
variable {res : HttpHandshakeResult}

theorem handleHttpHandshake_eq_ok
    (h : (handleHttpHandshake auth connect (c.reads.map .done)).result = .ok res) :
    ∃ (t : HttpTarget) (buffered : Bytes) (left : List Bytes),
      resolveHttpTarget r.head = .ok t ∧ body = buffered ++ left.flatten ∧
      res = ⟨left.map .done, ⟨t.host, t.port, utf8 (forwardedHead r.head t) ++ buffered⟩,
        (utf8 (forwardedHead r.head t)).length + buffered.length⟩ := by
  rw [handleHttpHandshake] at h
  cases hread : readHttpHeaders (c.reads.map .done) with
  | error err =>
    rw [hread] at h
    cases h
  | ok head =>
    rw [hread] at h
    dsimp only at h
    obtain ⟨hhead, k, hclient, hbytes⟩ := c.outcome_eq_ok hread
    have hend := headEnd_eq_some_of_isHead hhead
    have hmine : headEnd (asciiByte '\r') (asciiByte '\n') (r.encode ++ body) =
        some r.encode.length := headEnd_joinHead (by decide) r.framed_lines body
    have hlen : head.headers.length = r.encode.length := by
      rw [hend] at hmine
      exact Option.some.inj hmine
    have hheaders : head.headers = r.encode := by
      rw [List.prefix_iff_eq_take.mp hhead.isPrefix, hlen, List.take_left]
    have hbody : body = head.rest ++ (c.reads.drop k).flatten := by
      have hall := c.flatten_reads
      rw [← List.take_append_drop k c.reads, List.flatten_append, ← hbytes, hheaders,
        List.append_assoc] at hall
      exact (List.append_cancel_left hall).symm
    have hconnect : eqIgnoreAsciiCase r.head.method "CONNECT".toList = false := by
      rw [r.head_method, eqIgnoreAsciiCase, decide_eq_false_iff_not]
      exact r.method_not_connect
    rw [hheaders, r.parseHttpRequestHead_encode] at h
    dsimp only at h
    split at h
    · rw [hconnect, if_neg Bool.false_ne_true] at h
      obtain ⟨t, hresolve, -, rfl⟩ := handleForward_eq_ok_iff.mp h
      exact ⟨t, head.rest, c.reads.drop k, hresolve, hbody, by rw [hclient]⟩
    · cases h

namespace RequestHead

/-- The request has arrived at the upstream as it was sent: its head with the path of its target,
its headers but for those of the proxy, a `Host` header if it had none, and the part of its body
that is not left to read. All that was written is counted. -/
def Forwarded (r : RequestHead) (body : Bytes) (res : HttpHandshakeResult) : Prop :=
  ∃ (t : HttpTarget) (lines : List Bytes) (buffered : Bytes) (left : List Bytes),
    resolveHttpTarget r.head = .ok t ∧ List.Forall₂ HeaderField.SameLine r.forwardedFields lines ∧
      res.client = left.map .done ∧ body = buffered ++ left.flatten ∧
      res.upstream.written = joinHead (asciiByte '\r') (asciiByte '\n')
        (utf8 (r.requestLine t.path) :: (lines ++ (r.addedHost t).map utf8)) ++ buffered ∧
      res.initialBytesOut = res.upstream.written.length

theorem not_mem_of_sameLines {fields : List HeaderField} {lines : List Bytes}
    (h : List.Forall₂ HeaderField.SameLine fields lines) :
    ∀ line ∈ lines, asciiByte '\r' ∉ line := by
  induction h with
  | nil => exact List.forall_mem_nil _
  | cons hline _ ih => exact List.forall_mem_cons.mpr ⟨HeaderField.not_mem_of_sameLine _ hline, ih⟩

theorem not_mem_forwardedLines (r : RequestHead) :
    ∀ line ∈ (r.forwardedFields.map HeaderField.forwardedLine).map utf8,
      asciiByte '\r' ∉ line := by
  intro line hline hcr
  obtain ⟨text, htext, rfl⟩ := List.mem_map.mp hline
  obtain ⟨field, -, rfl⟩ := List.mem_map.mp htext
  have hmem := eq_of_mem_utf8 (by decide) hcr
  rw [HeaderField.forwardedLine, List.mem_append, List.mem_cons, List.mem_cons] at hmem
  rcases hmem with hc | hc | hc | hc
  · exact not_mem_of_all field.name_token (by decide) hc
  · exact absurd hc (by decide)
  · exact absurd hc (by decide)
  · exact field.not_mem_text hc

theorem sameLines_iff (r : RequestHead) :
    List.Forall₂ HeaderField.SameLine r.forwardedFields
        ((r.forwardedFields.map HeaderField.forwardedLine).map utf8) ↔
      ∀ field ∈ r.forwardedFields, field.ReadExactly := by
  rw [List.map_map, List.forall₂_map_right_iff, List.forall₂_same]
  exact forall₂_congr fun field _ => field.sameLine_forwardedLine_iff

end RequestHead

theorem readExactly_of_forwarded
    (h : (handleHttpHandshake auth connect (c.reads.map .done)).result = .ok res)
    (hforwarded : r.Forwarded body res) : ∀ field ∈ r.forwardedFields, field.ReadExactly := by
  obtain ⟨t, buffered, left, hresolve, hbody, rfl⟩ := handleHttpHandshake_eq_ok h
  obtain ⟨t', lines, buffered', left', hresolve', hlines, hclient, hbody', hwritten, -⟩ :=
    hforwarded
  -- the same target, and the same part of the body
  rw [hresolve] at hresolve'
  cases hresolve'
  have hleft : left = left' :=
    List.map_injective_iff.mpr (fun _ _ he => Timed.done.inj he) hclient
  have hbuffered : buffered = buffered' := by
    rw [hbody, hleft] at hbody'
    exact List.append_cancel_right hbody'
  dsimp only at hwritten
  rw [hbuffered, r.forwardedHead_eq, utf8_joinHead, List.map_cons, List.map_append] at hwritten
  have hsame : (r.forwardedFields.map HeaderField.forwardedLine).map utf8 = lines :=
    eq_of_joinHead_eq r.not_mem_forwardedLines (RequestHead.not_mem_of_sameLines hlines)
      (List.append_cancel_right
        (show joinHead _ _ ([utf8 (r.requestLine t.path)] ++ _) ++ _ = _ from hwritten))
  rw [← hsame] at hlines
  exact r.sameLines_iff.mp hlines

/-- **The first request.** Once the handshake has an upstream, the request has arrived there as it
was sent exactly if the values of its headers, but for those of the proxy, are read exactly. -/
theorem forwarded_iff (auth : Option ProxyAuth) (connect : Text → ℕ → Timed Unit)
    (r : RequestHead) (body : Bytes) (c : Segmentation (r.encode ++ body))
    (res : HttpHandshakeResult)
    (h : (handleHttpHandshake auth connect (c.reads.map .done)).result = .ok res) :
    r.Forwarded body res ↔ ∀ field ∈ r.forwardedFields, field.ReadExactly := by
  refine ⟨readExactly_of_forwarded h, fun hexact => ?_⟩
  obtain ⟨t, buffered, left, hresolve, hbody, rfl⟩ := handleHttpHandshake_eq_ok h
  refine ⟨t, (r.forwardedFields.map HeaderField.forwardedLine).map utf8, buffered, left, hresolve,
    r.sameLines_iff.mpr hexact, rfl, hbody, ?_, ?_⟩
  · dsimp only
    rw [r.forwardedHead_eq, utf8_joinHead, List.map_cons, List.map_append]
  · exact (List.length_append).symm

end

/-! ## A value that is no UTF-8 -/

/-- `X-Name` with a value of visible bytes. -/
def nameField (value : Bytes) (h : ∀ b ∈ value, isFieldByte b = true) : HeaderField where
  name := "X-Name".toList
  value := value
  name_ne_nil := by decide
  name_token := forall_of_all (by decide)
  value_bytes := h

/-- `GET http://a.test/` with the header `X-Name`. -/
def sampleHead (field : HeaderField) : RequestHead where
  method := "GET".toList
  target := "http://a.test/".toList
  version := "HTTP/1.1".toList
  headers := [field]
  method_ne_nil := get_ne_nil
  method_token := get_token
  method_not_connect := get_not_connect
  target_ne_nil := by decide
  target_visible := forall_of_all (by decide)
  version_ne_nil := http11_ne_nil
  version_visible := http11_visible

def anyUpstream : Text → ℕ → Timed Unit := fun _ _ => .done ()

/-- The name `Zoe`. -/
def plainHead : RequestHead := sampleHead (nameField (utf8 " Zoe".toList) (by decide +kernel))

/-- The name with a last letter of Latin-1, which is `obs-text`. -/
def latinHead : RequestHead :=
  sampleHead (nameField (utf8 " Zo".toList ++ [0xeb]) (by decide +kernel))

def plainRead : Segmentation (plainHead.encode ++ []) where
  reads := [plainHead.encode]
  reads_ne_nil := by decide +kernel
  reads_le := by decide +kernel
  flatten_reads := by simp

def latinRead : Segmentation (latinHead.encode ++ []) where
  reads := [latinHead.encode]
  reads_ne_nil := by decide +kernel
  reads_le := by decide +kernel
  flatten_reads := by simp

/-- A name in ASCII arrives. -/
theorem forwarded_iff_plainHead :
    ∃ res, (handleHttpHandshake none anyUpstream (plainRead.reads.map .done)).result = .ok res ∧
      plainHead.Forwarded [] res := by
  cases hres : (handleHttpHandshake none anyUpstream (plainRead.reads.map .done)).result with
  | error err =>
    have hok : (handleHttpHandshake none anyUpstream (plainRead.reads.map .done)).result.isOk =
        true := by decide
    rw [hres] at hok
    cases hok
  | ok res =>
    refine ⟨res, rfl, (forwarded_iff none anyUpstream plainHead [] plainRead res hres).mpr ?_⟩
    intro field hfield
    have heq : field = nameField (utf8 " Zoe".toList) (by decide +kernel) :=
      List.mem_singleton.mp (List.mem_filter.mp hfield).1
    rw [heq]
    exact ⟨"Zoe".toList, by decide, by simp [isWhitespace], by simp [isWhitespace]⟩

/-- A name in Latin-1 does not. -/
theorem latinHead_not_forwarded :
    ∃ res, (handleHttpHandshake none anyUpstream (latinRead.reads.map .done)).result = .ok res ∧
      ¬latinHead.Forwarded [] res := by
  cases hres : (handleHttpHandshake none anyUpstream (latinRead.reads.map .done)).result with
  | error err =>
    have hok : (handleHttpHandshake none anyUpstream (latinRead.reads.map .done)).result.isOk =
        true := by decide
    rw [hres] at hok
    cases hok
  | ok res =>
    refine ⟨res, rfl, fun hforwarded => ?_⟩
    obtain ⟨s, hs, -⟩ := readExactly_of_forwarded hres hforwarded _
      (List.mem_filter.mpr ⟨List.mem_cons_self, by decide⟩)
    -- a text is the reading of its bytes, and the bytes of this reading are others
    have hread := congrArg lossy hs
    rw [lossy_utf8] at hread
    rw [hread] at hs
    revert hs
    decide

end FluxTerm.Proxy
