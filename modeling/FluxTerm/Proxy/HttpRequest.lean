import FluxTerm.Proxy.HttpHead

/-!
# FluxTerm — HTTP requests as a client writes them

The requests a client of the proxy may send: their parts, the bytes they are written as, and the
host and port they name. A request is well formed by construction.
-/

namespace FluxTerm.Proxy

open FluxTerm.Engine FluxTerm.Lib

/-! ## Characters -/

/-- `tchar`. -/
def isTokenChar (c : Char) : Bool :=
  c.isAlphanum || "!#$%&*+-.^_|~".toList.contains c || c.toNat == 0x27 || c.toNat == 0x60

/-- `VCHAR`. -/
def isVisible (c : Char) : Bool := 0x21 ≤ c.toNat && c.toNat ≤ 0x7e

/-- `unreserved`, `sub-delims` or part of a percent-encoding. -/
def isRegNameChar (c : Char) : Bool :=
  c.isAlphanum || "-._~!$&()*+,;=%".toList.contains c || c.toNat == 0x27

def isUserinfoChar (c : Char) : Bool := isRegNameChar c || c == ':'

def isPathChar (c : Char) : Bool := isRegNameChar c || ":@/?".toList.contains c

/-- `field-vchar`, a blank or a tab; a byte from `0x80` on is `obs-text`. -/
def isFieldByte (b : UInt8) : Bool := b == 9 || (0x20 ≤ b && b != 0x7f)

/-! ## Targets -/

inductive HostName where
  | regName (name : Text)
  | ipLiteral (address : Text)
deriving DecidableEq

namespace HostName

def text : HostName → Text
  | regName name => name
  | ipLiteral address => '[' :: (address ++ [']'])

def Valid : HostName → Prop
  | regName name => name ≠ [] ∧ ∀ c ∈ name, isRegNameChar c = true
  | ipLiteral address => ∀ c ∈ address, isUserinfoChar c = true

end HostName

structure Destination where
  host : Text
  port : ℕ
deriving DecidableEq

/-- `[ userinfo "@" ] host [ ":" port ]`. -/
structure Authority where
  userinfo : Option Text
  host : HostName
  port : Option Text
  userinfo_chars : ∀ u ∈ userinfo, ∀ c ∈ u, isUserinfoChar c = true
  host_valid : host.Valid
  port_digits : ∀ p ∈ port, ∀ c ∈ p, c.isDigit = true

namespace Authority

theorem userinfo_chars_none : ∀ u ∈ (none : Option Text), ∀ c ∈ u, isUserinfoChar c = true := by
  simp

theorem port_digits_none : ∀ p ∈ (none : Option Text), ∀ c ∈ p, c.isDigit = true := by
  simp

def hostPort (a : Authority) : Text := a.host.text ++ a.port.elim [] (':' :: ·)

def text (a : Authority) : Text := a.userinfo.elim [] (· ++ ['@']) ++ a.hostPort

def destination (a : Authority) (defaultPort : Option ℕ) : Option Destination :=
  match a.port with
  | none | some [] => defaultPort.map fun port => ⟨asciiLower a.host.text, port⟩
  | some digits => some ⟨asciiLower a.host.text, decimal digits⟩

end Authority

/-- The targets of requests other than `CONNECT`. -/
inductive RequestTarget where
  | origin (path : Text)
  | asterisk
  /-- `scheme "://" authority rest`, where the rest is a path and a query. -/
  | absolute (scheme : Text) (authority : Authority) (rest : Text)

namespace RequestTarget

def text : RequestTarget → Text
  | origin path => path
  | asterisk => ['*']
  | absolute scheme authority rest => scheme ++ "://".toList ++ authority.text ++ rest

def Valid : RequestTarget → Prop
  | origin path => path.head? = some '/' ∧ ∀ c ∈ path, isPathChar c = true
  | asterisk => True
  | absolute scheme _ rest =>
    (scheme ≠ [] ∧ ∀ c ∈ scheme, c.isAlphanum = true ∨ c ∈ "+-.".toList) ∧
      (rest = [] ∨ rest.head? = some '/' ∨ rest.head? = some '?') ∧
      ∀ c ∈ rest, isPathChar c = true

end RequestTarget

def defaultPort (scheme : Text) : Option ℕ :=
  if asciiLower scheme = "http".toList then some 80
  else if asciiLower scheme = "https".toList then some 443
  else none

/-! ## Requests -/

structure HeaderField where
  name : Text
  value : Bytes
  name_ne_nil : name ≠ []
  name_token : ∀ c ∈ name, isTokenChar c = true
  value_bytes : ∀ b ∈ value, isFieldByte b = true

namespace HeaderField

def text (field : HeaderField) : Text := trimBy isWhitespace (lossy field.value)

def line (field : HeaderField) : Bytes := utf8 field.name ++ asciiByte ':' :: field.value

def Named (field : HeaderField) (name : Text) : Prop := asciiLower field.name = name

instance (field : HeaderField) (name : Text) : Decidable (field.Named name) :=
  inferInstanceAs (Decidable (_ = _))

end HeaderField

def proxyHeaders : List Text := ["proxy-authorization".toList, "proxy-connection".toList]

/-- The head of a request other than `CONNECT`: a method, a target and a version between single
blanks, and header lines. What the target and the headers mean does not matter. -/
structure RequestHead where
  method : Text
  target : Text
  version : Text
  headers : List HeaderField
  method_ne_nil : method ≠ []
  method_token : ∀ c ∈ method, isTokenChar c = true
  method_not_connect : asciiLower method ≠ "connect".toList
  target_ne_nil : target ≠ []
  target_visible : ∀ c ∈ target, isVisible c = true
  version_ne_nil : version ≠ []
  version_visible : ∀ c ∈ version, isVisible c = true

namespace RequestHead

/-- A request line with the method and the version of `r`. -/
def requestLine (r : RequestHead) (target : Text) : Text :=
  r.method ++ ' ' :: (target ++ ' ' :: r.version)

def lines (r : RequestHead) : List Bytes :=
  utf8 (r.requestLine r.target) :: r.headers.map HeaderField.line

def encode (r : RequestHead) : Bytes := joinHead (asciiByte '\r') (asciiByte '\n') r.lines

def head (r : RequestHead) : ParsedHttpRequestHead :=
  r.headers.foldl (fun req h => req.push h.name h.text)
    ⟨r.method, r.target, r.version, [], none, none⟩

end RequestHead

/-! ### `GET` and `HTTP/1.1` -/

theorem get_ne_nil : "GET".toList ≠ [] := by decide

theorem get_token : ∀ c ∈ "GET".toList, isTokenChar c = true := forall_of_all (by decide)

theorem get_not_connect : asciiLower "GET".toList ≠ "connect".toList := by decide

theorem http11_ne_nil : "HTTP/1.1".toList ≠ [] := by decide

theorem http11_visible : ∀ c ∈ "HTTP/1.1".toList, isVisible c = true := forall_of_all (by decide)

/-- A request other than `CONNECT`. All its `Host` headers say `host`. How its body is delimited
does not matter to the proxy. -/
structure HttpRequest where
  method : Text
  target : RequestTarget
  version : Text
  host : Option Authority
  headers : List HeaderField
  body : Bytes
  method_ne_nil : method ≠ []
  method_token : ∀ c ∈ method, isTokenChar c = true
  method_not_connect : asciiLower method ≠ "connect".toList
  target_valid : target.Valid
  version_ne_nil : version ≠ []
  version_visible : ∀ c ∈ version, isVisible c = true
  host_userinfo : ∀ a ∈ host, a.userinfo = none
  host_text : ∀ h ∈ headers, h.Named "host".toList → host.map Authority.text = some h.text
  host_present : host.isSome = true → ∃ h ∈ headers, h.Named "host".toList

namespace HttpRequest

/-- Where the request is to go: what an absolute target says, else the `Host` header. -/
def destination (r : HttpRequest) : Option Destination :=
  match r.target with
  | .absolute scheme authority _ => authority.destination (defaultPort scheme)
  | .origin _ | .asterisk => r.host.bind (·.destination (some 80))

def NoProxyHeader (r : HttpRequest) : Prop :=
  ∀ name ∈ proxyHeaders, ∀ h ∈ r.headers, ¬h.Named name

instance (r : HttpRequest) : Decidable r.NoProxyHeader :=
  inferInstanceAs (Decidable (∀ name ∈ proxyHeaders, _))

/-- A request line with the method and the version of `r`. -/
def requestLine (r : HttpRequest) (target : Text) : Text :=
  r.method ++ ' ' :: (target ++ ' ' :: r.version)

def headLines (r : HttpRequest) : List Bytes :=
  utf8 (r.requestLine r.target.text) :: r.headers.map HeaderField.line

def encodeHead (r : HttpRequest) : Bytes := joinHead (asciiByte '\r') (asciiByte '\n') r.headLines

def encode (r : HttpRequest) : Bytes := r.encodeHead ++ r.body

def head (r : HttpRequest) : ParsedHttpRequestHead :=
  r.headers.foldl (fun req h => req.push h.name h.text)
    ⟨r.method, r.target.text, r.version, [], none, none⟩

end HttpRequest

/-! ## Characters of the parts -/

theorem of_ascii {p q : Char → Bool}
    (h : ∀ n < 128, p (Char.ofNat n) = true → q (Char.ofNat n) = true) {c : Char}
    (hc : c.toNat < 128) (hp : p c = true) : q c = true := by
  have hq := h c.toNat hc
  rw [Char.ofNat_toNat] at hq
  exact hq hp

theorem lt_of_isAlphanum {c : Char} (h : c.isAlphanum = true) : c.toNat < 128 := by
  change ((decide (c.val ≥ 'A'.val ∧ c.val ≤ 'Z'.val) ||
    (decide (c.val ≥ 'a'.val) && decide (c.val ≤ 'z'.val))) ||
    (decide (c.val ≥ '0'.val) && decide (c.val ≤ '9'.val))) = true at h
  simp only [Bool.or_eq_true, Bool.and_eq_true, decide_eq_true_eq, UInt32.le_iff_toNat_le,
    ge_iff_le] at h
  have hc : c.toNat = c.val.toNat := rfl
  have hZ : 'Z'.val.toNat = 90 := rfl
  have hz : 'z'.val.toNat = 122 := rfl
  have h9 : '9'.val.toNat = 57 := rfl
  omega

theorem lt_of_isVisible {c : Char} (h : isVisible c = true) : c.toNat < 128 := by
  simp only [isVisible, Bool.and_eq_true, decide_eq_true_eq] at h
  omega

theorem lt_of_isPathChar {c : Char} (h : isPathChar c = true) : c.toNat < 128 := by
  simp only [isPathChar, isRegNameChar, Bool.or_eq_true, List.contains_iff_mem, beq_iff_eq] at h
  have hmarks : "-._~!$&()*+,;=%".toList.all (·.toNat < 128) = true := by decide
  have hpath : ":@/?".toList.all (·.toNat < 128) = true := by decide
  rcases h with ((h | h) | h) | h
  · exact lt_of_isAlphanum h
  · exact of_decide_eq_true (forall_of_all hmarks c h)
  · omega
  · exact of_decide_eq_true (forall_of_all hpath c h)

theorem lt_of_isTokenChar {c : Char} (h : isTokenChar c = true) : c.toNat < 128 := by
  simp only [isTokenChar, Bool.or_eq_true, List.contains_iff_mem, beq_iff_eq] at h
  have hmarks : "!#$%&*+-.^_|~".toList.all (·.toNat < 128) = true := by decide
  rcases h with ((h | h) | h) | h
  · exact lt_of_isAlphanum h
  · exact of_decide_eq_true (forall_of_all hmarks c h)
  · omega
  · omega

theorem isPathChar_of_isRegNameChar {c : Char} (h : isRegNameChar c = true) :
    isPathChar c = true := by
  simp [isPathChar, h]

theorem isPathChar_of_isUserinfoChar {c : Char} (h : isUserinfoChar c = true) :
    isPathChar c = true := by
  rcases Bool.or_eq_true _ _ ▸ h with h | h
  · exact isPathChar_of_isRegNameChar h
  · rw [beq_iff_eq.mp h]
    decide

theorem isVisible_of_isPathChar {c : Char} (h : isPathChar c = true) : isVisible c = true :=
  of_ascii (by decide) (lt_of_isPathChar h) h

theorem isVisible_of_isTokenChar {c : Char} (h : isTokenChar c = true) : isVisible c = true :=
  of_ascii (by decide) (lt_of_isTokenChar h) h

theorem isRegNameChar_of_isAlphanum {c : Char} (h : c.isAlphanum = true) :
    isRegNameChar c = true := by
  simp [isRegNameChar, h]

theorem not_isWhitespace_of_isVisible {c : Char} (h : isVisible c = true) :
    isWhitespace c = false := by
  have hnot : (!isWhitespace c) = true :=
    of_ascii (q := fun c => !isWhitespace c) (by decide) (lt_of_isVisible h) h
  simpa using hnot

theorem not_mem_of_all {p : Char → Bool} {s : Text} {c : Char} (hs : ∀ d ∈ s, p d = true)
    (hc : p c = false) : c ∉ s := by
  intro hmem
  rw [hs c hmem] at hc
  cases hc

namespace HostName

theorem text_visible {h : HostName} (hvalid : h.Valid) :
    ∀ c ∈ h.text, isVisible c = true := by
  intro c hc
  cases h with
  | regName name => exact isVisible_of_isPathChar (isPathChar_of_isRegNameChar (hvalid.2 c hc))
  | ipLiteral address =>
    rw [text, List.mem_cons, List.mem_append, List.mem_singleton] at hc
    rcases hc with rfl | hc | rfl
    · decide
    · exact isVisible_of_isPathChar (isPathChar_of_isUserinfoChar (hvalid c hc))
    · decide

end HostName

theorem isVisible_of_isDigit {c : Char} (h : c.isDigit = true) : isVisible c = true :=
  isVisible_of_isPathChar (isPathChar_of_isRegNameChar
    (isRegNameChar_of_isAlphanum (by simp [Char.isAlphanum, h])))

theorem Authority.text_visible (a : Authority) : ∀ c ∈ a.text, isVisible c = true := by
  intro c hc
  rw [Authority.text, hostPort, List.mem_append, List.mem_append] at hc
  rcases hc with hc | hc | hc
  · cases hu : a.userinfo with
    | none => simp [hu] at hc
    | some u =>
      rw [hu, Option.elim_some, List.mem_append, List.mem_singleton] at hc
      rcases hc with hc | rfl
      · exact isVisible_of_isPathChar (isPathChar_of_isUserinfoChar (a.userinfo_chars u hu c hc))
      · decide
  · exact HostName.text_visible a.host_valid c hc
  · cases hp : a.port with
    | none => simp [hp] at hc
    | some p =>
      rw [hp, Option.elim_some, List.mem_cons] at hc
      rcases hc with rfl | hc
      · decide
      · exact isVisible_of_isDigit (a.port_digits p hp c hc)

theorem RequestTarget.text_visible {t : RequestTarget} (h : t.Valid) :
    ∀ c ∈ t.text, isVisible c = true := by
  intro c hc
  cases t with
  | origin path => exact isVisible_of_isPathChar (h.2 c hc)
  | asterisk =>
    rw [List.mem_singleton.mp hc]
    decide
  | absolute scheme authority rest =>
    obtain ⟨⟨-, hscheme⟩, -, hrest⟩ := h
    rw [text, List.append_assoc, List.append_assoc, List.mem_append, List.mem_append,
      List.mem_append] at hc
    rcases hc with hc | hc | hc | hc
    · rcases hscheme c hc with halnum | hmem
      · exact isVisible_of_isPathChar
          (isPathChar_of_isRegNameChar (isRegNameChar_of_isAlphanum halnum))
      · have hmarks : "+-.".toList.all isVisible = true := by decide
        exact forall_of_all hmarks c hmem
    · have hmarks : "://".toList.all isVisible = true := by decide
      exact forall_of_all hmarks c hc
    · exact authority.text_visible c hc
    · exact isVisible_of_isPathChar (hrest c hc)

theorem RequestTarget.text_ne_nil {t : RequestTarget} (h : t.Valid) : t.text ≠ [] := by
  cases t with
  | origin path =>
    intro hnil
    rw [text] at hnil
    rw [hnil] at h
    cases h.1
  | asterisk => exact List.cons_ne_nil _ _
  | absolute scheme authority rest => simp [text, h.1.1]

/-! ## Lines of a head -/

theorem utf8_joinHead (lines : List Text) :
    utf8 (joinHead '\r' '\n' lines) =
      joinHead (asciiByte '\r') (asciiByte '\n') (lines.map utf8) := by
  induction lines with
  | nil => rfl
  | cons line lines ih =>
    rw [joinHead_cons, List.map_cons, joinHead_cons, utf8_append, utf8_cons, utf8_cons, ih]
    rfl

theorem lossy_joinHead (lines : List Bytes) :
    lossy (joinHead (asciiByte '\r') (asciiByte '\n') lines) =
      joinHead '\r' '\n' (lines.map lossy) := by
  have hend (line rest : Bytes) : lossy (line ++ asciiByte '\r' :: asciiByte '\n' :: rest) =
      lossy line ++ '\r' :: '\n' :: lossy rest := by
    rw [lossy_append_cons (by decide)]
    exact congrArg (lossy line ++ '\r' :: ·) (lossy_append_cons (c := '\n') (by decide) [] rest)
  induction lines with
  | nil => exact hend [] []
  | cons line lines ih => rw [joinHead_cons, List.map_cons, joinHead_cons, hend, ih]

namespace HeaderField

theorem lossy_line (field : HeaderField) : lossy field.line = field.name ++ ':' :: lossy field.value := by
  rw [line, lossy_utf8_append]
  exact congrArg (field.name ++ ·) (lossy_append_cons (c := ':') (by decide) [] field.value)

theorem not_mem_line (field : HeaderField) : asciiByte '\r' ∉ field.line := by
  rw [line, List.mem_append, List.mem_cons]
  rintro (h | h | h)
  · have hcr := eq_of_mem_utf8 (by decide) h
    exact not_mem_of_all field.name_token (by decide) hcr
  · exact absurd h (by decide)
  · have hfield := field.value_bytes _ h
    revert hfield
    decide

theorem line_ne_nil (field : HeaderField) : field.line ≠ [] := by
  simp [line]

theorem not_mem_text (field : HeaderField) : '\r' ∉ field.text := by
  intro h
  refine not_mem_lossy (by decide) (by decide) ?_ (mem_of_mem_trimBy h)
  intro hb
  have hfield := field.value_bytes _ hb
  revert hfield
  decide

end HeaderField

theorem parseHeaderLines_fields (fields : List HeaderField) :
    ∀ req : ParsedHttpRequestHead,
      parseHeaderLines (fields.map (lossy ·.line) ++ [[], []]) req =
        fields.foldl (fun req h => req.push h.name h.text) req := by
  induction fields with
  | nil => exact fun req => rfl
  | cons field fields ih =>
    intro req
    have hcolon : ':' ∉ field.name := not_mem_of_all field.name_token (by decide)
    have hne : field.name ++ ':' :: lossy field.value ≠ [] := by simp
    rw [List.map_cons, List.cons_append, field.lossy_line, parseHeaderLines, if_neg hne,
      splitOnce_append_cons hcolon]
    exact ih _

namespace RequestHead

variable (r : RequestHead)

theorem requestLine_chars {target : Text} (h : ∀ c ∈ target, isVisible c = true) :
    ∀ c ∈ r.requestLine target, c = ' ' ∨ isVisible c = true := by
  intro c hc
  rw [requestLine, List.mem_append, List.mem_cons, List.mem_append, List.mem_cons] at hc
  rcases hc with hc | hc | hc | hc | hc
  · exact .inr (isVisible_of_isTokenChar (r.method_token c hc))
  · exact .inl hc
  · exact .inr (h c hc)
  · exact .inl hc
  · exact .inr (r.version_visible c hc)

theorem not_mem_requestLine {target : Text} (h : ∀ c ∈ target, isVisible c = true) :
    '\r' ∉ r.requestLine target := by
  intro hc
  rcases r.requestLine_chars h _ hc with hc | hc
  · exact absurd hc (by decide)
  · exact absurd hc (by decide)

theorem requestLine_ne_nil (target : Text) : r.requestLine target ≠ [] := by
  simp [requestLine]

theorem splitWhitespace_requestLine :
    splitWhitespace (r.requestLine r.target) = [r.method, r.target, r.version] := by
  have hmethod : ∀ c ∈ r.method, isWhitespace c = false := fun c hc =>
    not_isWhitespace_of_isVisible (isVisible_of_isTokenChar (r.method_token c hc))
  have htarget : ∀ c ∈ r.target, isWhitespace c = false := fun c hc =>
    not_isWhitespace_of_isVisible (r.target_visible c hc)
  have hversion : ∀ c ∈ r.version, isWhitespace c = false := fun c hc =>
    not_isWhitespace_of_isVisible (r.version_visible c hc)
  rw [requestLine, splitWhitespace_append_cons r.method_ne_nil hmethod (by decide),
    splitWhitespace_append_cons r.target_ne_nil htarget (by decide),
    splitWhitespace_word r.version_ne_nil hversion]

theorem framed_lines : Framed (asciiByte '\r') r.lines where
  ne_nil := List.cons_ne_nil _ _
  line_ne_nil line h := by
    rcases List.mem_cons.mp h with rfl | h
    · exact fun hnil => r.requestLine_ne_nil _ (utf8_eq_nil hnil)
    · obtain ⟨field, -, rfl⟩ := List.mem_map.mp h
      exact field.line_ne_nil
  not_mem line h := by
    rcases List.mem_cons.mp h with rfl | h
    · intro hcr
      exact r.not_mem_requestLine r.target_visible
        (eq_of_mem_utf8 (by decide) hcr)
    · obtain ⟨field, -, rfl⟩ := List.mem_map.mp h
      exact field.not_mem_line

/-- **The head is read.** The parser reads in the bytes of a head what there is to read. -/
theorem parseHttpRequestHead_encode :
    parseHttpRequestHead (lossy r.encode) = .ok r.head := by
  have hlines : r.lines.map lossy =
      r.requestLine r.target :: r.headers.map (lossy ·.line) := by
    rw [lines, List.map_cons, lossy_utf8, List.map_map]
    rfl
  have hcr : ∀ line ∈ r.lines.map lossy, '\r' ∉ line := by
    intro line h
    obtain ⟨bytes, hbytes, rfl⟩ := List.mem_map.mp h
    exact not_mem_lossy (by decide) (by decide) (r.framed_lines.not_mem bytes hbytes)
  rw [encode, lossy_joinHead, parseHttpRequestHead, splitLines_joinHead hcr, hlines,
    List.cons_append]
  dsimp only
  rw [splitWhitespace_requestLine]
  dsimp only
  rw [parseHeaderLines_fields]
  rfl

/-! ### What is read -/

theorem headers_foldl_push (fields : List HeaderField) (req : ParsedHttpRequestHead) :
    (fields.foldl (fun req h => req.push h.name h.text) req).headers =
      req.headers ++ fields.map fun h => (h.name, h.text) := by
  induction fields generalizing req with
  | nil => exact (List.append_nil _).symm
  | cons field fields ih =>
    rw [List.foldl_cons, ih, List.map_cons, ParsedHttpRequestHead.push, List.append_assoc]
    rfl

theorem requestLine_foldl_push (fields : List HeaderField) (req : ParsedHttpRequestHead) :
    let req' := fields.foldl (fun req h => req.push h.name h.text) req
    req'.method = req.method ∧ req'.target = req.target ∧ req'.version = req.version := by
  induction fields generalizing req with
  | nil => exact ⟨rfl, rfl, rfl⟩
  | cons field fields ih => exact ih _

@[simp] theorem head_headers : r.head.headers = r.headers.map fun h => (h.name, h.text) :=
  headers_foldl_push r.headers _

@[simp] theorem head_method : r.head.method = r.method := (requestLine_foldl_push r.headers _).1

@[simp] theorem head_target : r.head.target = r.target :=
  (requestLine_foldl_push r.headers _).2.1

@[simp] theorem head_version : r.head.version = r.version :=
  (requestLine_foldl_push r.headers _).2.2

end RequestHead

/-! ## What is read in a request -/

namespace HttpRequest

variable (r : HttpRequest)

/-- The head, whatever its target and its headers mean. -/
def requestHead : RequestHead where
  method := r.method
  target := r.target.text
  version := r.version
  headers := r.headers
  method_ne_nil := r.method_ne_nil
  method_token := r.method_token
  method_not_connect := r.method_not_connect
  target_ne_nil := RequestTarget.text_ne_nil r.target_valid
  target_visible := RequestTarget.text_visible r.target_valid
  version_ne_nil := r.version_ne_nil
  version_visible := r.version_visible

theorem framed_headLines : Framed (asciiByte '\r') r.headLines := r.requestHead.framed_lines

theorem requestLine_ne_nil (target : Text) : r.requestLine target ≠ [] :=
  r.requestHead.requestLine_ne_nil target

theorem not_mem_requestLine {target : Text} (h : ∀ c ∈ target, isVisible c = true) :
    '\r' ∉ r.requestLine target := r.requestHead.not_mem_requestLine h

theorem parseHttpRequestHead_encodeHead :
    parseHttpRequestHead (lossy r.encodeHead) = .ok r.head :=
  r.requestHead.parseHttpRequestHead_encode

@[simp] theorem head_headers : r.head.headers = r.headers.map fun h => (h.name, h.text) :=
  r.requestHead.head_headers

@[simp] theorem head_method : r.head.method = r.method := r.requestHead.head_method

@[simp] theorem head_target : r.head.target = r.target.text := r.requestHead.head_target

theorem hostHeader_foldl_push {host : Option Text} (fields : List HeaderField)
    (h : ∀ f ∈ fields, f.Named "host".toList → host = some f.text) (req : ParsedHttpRequestHead) :
    (fields.foldl (fun req h => req.push h.name h.text) req).hostHeader =
      if ∃ f ∈ fields, f.Named "host".toList then host else req.hostHeader := by
  induction fields generalizing req with
  | nil => simp
  | cons field fields ih =>
    rw [List.foldl_cons, ih fun f hf => h f (List.mem_cons_of_mem _ hf)]
    have hlower : asciiLower "Host".toList = "host".toList := by decide
    by_cases hname : field.Named "host".toList
    · have hhost := h field List.mem_cons_self hname
      have hpush : (req.push field.name field.text).hostHeader = some field.text :=
        if_pos (by rw [eqIgnoreAsciiCase, hlower]; exact decide_eq_true hname)
      rw [hpush, ← hhost, ite_self, if_pos ⟨field, List.mem_cons_self, hname⟩]
    · have hpush : (req.push field.name field.text).hostHeader = req.hostHeader :=
        if_neg (by rw [eqIgnoreAsciiCase, hlower]; exact fun h => hname (of_decide_eq_true h))
      rw [hpush]
      simp only [List.exists_mem_cons_iff, or_iff_right hname]

@[simp] theorem head_hostHeader : r.head.hostHeader = r.host.map Authority.text := by
  rw [head, hostHeader_foldl_push r.headers r.host_text]
  cases hhost : r.host with
  | none => exact ite_self _
  | some a => rw [if_pos (r.host_present (by rw [hhost]; rfl))]

end HttpRequest

end FluxTerm.Proxy
