import FluxTerm.Proxy.HttpRequest

/-!
# FluxTerm — the upstream of a proxied request

Which address `resolve_http_target` finds for a well-formed request, beside the one the request
names.
-/

namespace FluxTerm.Proxy

open FluxTerm.Engine FluxTerm.Lib

/-! ## Authorities -/

theorem parseU16_digits {p : Text} {port : ℕ} (hdigits : ∀ c ∈ p, c.isDigit = true)
    (h : parseU16 p = some port) : port = decimal p := by
  have hplus : p.head? ≠ some '+' := by
    intro hp
    exact not_mem_of_all hdigits (by decide) (List.mem_of_mem_head? hp)
  rw [parseU16, if_neg hplus] at h
  split at h
  · cases h
  · split at h
    · exact (Option.some.inj h).symm
    · cases h

theorem parsePort_digits {p : Text} {port : ℕ} (hdigits : ∀ c ∈ p, c.isDigit = true)
    (h : parsePort p = .ok port) : p ≠ [] ∧ port = decimal p := by
  rw [parsePort] at h
  split at h
  · cases h
  · rename_i n hn
    cases h
    refine ⟨?_, parseU16_digits hdigits hn⟩
    rintro rfl
    cases hn

namespace HostName

variable {h : HostName}

theorem not_mem_regName {name : Text} (hvalid : (regName name).Valid) {c : Char}
    (hc : isRegNameChar c = false) : c ∉ name := not_mem_of_all hvalid.2 hc

theorem not_mem_text_of {c : Char} (hvalid : h.Valid) (hc : isUserinfoChar c = false)
    (hopen : c ≠ '[') (hclose : c ≠ ']') : c ∉ h.text := by
  intro hmem
  cases h with
  | regName name =>
    have hreg : isRegNameChar c = false := (Bool.or_eq_false_iff.mp hc).1
    exact not_mem_regName hvalid hreg hmem
  | ipLiteral address =>
    rw [text, List.mem_cons, List.mem_append, List.mem_singleton] at hmem
    rcases hmem with rfl | hmem | rfl
    · exact hopen rfl
    · exact not_mem_of_all hvalid hc hmem
    · exact hclose rfl

theorem getLast_lower_ne_colon (hvalid : h.Valid) : (asciiLower h.text).getLast? ≠ some ':' := by
  rw [asciiLower, List.getLast?_map]
  intro hlast
  obtain ⟨c, hc, hlower⟩ := Option.map_eq_some_iff.mp hlast
  cases h with
  | regName name =>
    have hreg := hvalid.2 c (List.mem_of_getLast? hc)
    have hne : (c.toLower != ':') = true :=
      of_ascii (q := fun c => c.toLower != ':') (by decide +kernel)
        (lt_of_isPathChar (isPathChar_of_isRegNameChar hreg)) hreg
    exact absurd hlower (by simpa using hne)
  | ipLiteral address =>
    have hclose : c = ']' := by
      rw [text, ← List.cons_append, List.getLast?_concat] at hc
      exact (Option.some.inj hc).symm
    rw [hclose] at hlower
    exact absurd hlower (by decide)

end HostName

namespace Authority

variable (a : Authority)

theorem port_not_mem {c : Char} (hc : c.isDigit = false) : ∀ p ∈ a.port, c ∉ p :=
  fun p hp => not_mem_of_all (a.port_digits p hp) hc

theorem not_mem_hostPort_at : '@' ∉ a.hostPort := by
  rw [hostPort, List.mem_append]
  rintro (h | h)
  · exact HostName.not_mem_text_of a.host_valid (by decide) (by decide) (by decide) h
  · cases hp : a.port with
    | none => simp [hp] at h
    | some p =>
      rw [hp, Option.elim_some, List.mem_cons] at h
      rcases h with h | h
      · exact absurd h (by decide)
      · exact a.port_not_mem (by decide) p hp h

theorem afterLast_text : afterLast '@' a.text = a.hostPort := by
  rw [text]
  cases a.userinfo with
  | none => exact afterLast_of_not_mem a.not_mem_hostPort_at
  | some u =>
    rw [Option.elim_some, List.append_assoc, List.singleton_append]
    exact afterLast_append_cons u a.not_mem_hostPort_at

theorem not_mem_slash : '/' ∉ a.text := by
  rw [text, List.mem_append, hostPort, List.mem_append]
  rintro (h | h | h)
  · cases hu : a.userinfo with
    | none => simp [hu] at h
    | some u =>
      rw [hu, Option.elim_some, List.mem_append, List.mem_singleton] at h
      rcases h with h | h
      · exact not_mem_of_all (a.userinfo_chars u hu) (by decide) h
      · exact absurd h (by decide)
  · exact HostName.not_mem_text_of a.host_valid (by decide) (by decide) (by decide) h
  · cases hp : a.port with
    | none => simp [hp] at h
    | some p =>
      rw [hp, Option.elim_some, List.mem_cons] at h
      rcases h with h | h
      · exact absurd h (by decide)
      · exact a.port_not_mem (by decide) p hp h

theorem host_of_destination {defaultPort : Option ℕ} {dest : Destination}
    (h : a.destination defaultPort = some dest) : dest.host = asciiLower a.host.text := by
  rw [destination] at h
  split at h
  · obtain ⟨port, -, rfl⟩ := Option.map_eq_some_iff.mp h
    rfl
  · obtain ⟨port, -, rfl⟩ := Option.map_eq_some_iff.mp h
    rfl
  · cases h
    rfl

theorem destination_of_port {p : Text} (hp : a.port = some p) (hne : p ≠ [])
    (defaultPort : Option ℕ) :
    a.destination defaultPort = some ⟨asciiLower a.host.text, decimal p⟩ := by
  cases p with
  | nil => exact absurd rfl hne
  | cons c p => simp [destination, hp]

theorem destination_of_no_port (hp : a.port = none) (port : ℕ) :
    a.destination (some port) = some ⟨asciiLower a.host.text, port⟩ := by
  simp [destination, hp]

/-- What `parse_host_port` returns for the authority: the host and port that are meant, or, where
the port is empty, a host that ends with its colon. -/
inductive ReadAs (a : Authority) (defaultPort : ℕ) (host : Text) (port : ℕ) : Prop where
  | meant (hport : a.port ≠ some [])
      (hdest : a.destination (some defaultPort) = some ⟨asciiLower host, port⟩)
  | emptyPort (hport : a.port = some []) (hhost : host.getLast? = some ':')

theorem parseHostPort_regName {name : Text} (hhost : a.host = .regName name) {d port : ℕ}
    {host : Text} (h : parseHostPort a.text d = .ok (host, port)) : a.ReadAs d host port := by
  have hvalid := a.host_valid
  rw [hhost] at hvalid
  have hcolon : ':' ∉ name := HostName.not_mem_regName hvalid (by decide)
  have hopen : a.hostPort.head? ≠ some '[' := by
    cases hname : name with
    | nil => exact absurd hname hvalid.1
    | cons c name' =>
      rw [hostPort, hhost, HostName.text, hname, List.cons_append, List.head?_cons]
      intro hc
      refine HostName.not_mem_regName hvalid (c := '[') (by decide) ?_
      rw [hname, Option.some.inj hc]
      exact List.mem_cons_self
  rw [parseHostPort, afterLast_text] at h
  dsimp only at h
  rw [if_neg hopen] at h
  cases hp : a.port with
  | none =>
    have htext : a.hostPort = name := by simp [hostPort, hhost, HostName.text, hp]
    rw [htext, rsplitOnce_of_not_mem hcolon] at h
    cases h
    exact .meant (by simp [hp]) (by rw [a.destination_of_no_port hp, hhost]; rfl)
  | some p =>
    have htext : a.hostPort = name ++ ':' :: p := by simp [hostPort, hhost, HostName.text, hp]
    rw [htext, rsplitOnce_append_cons name (a.port_not_mem (by decide) p hp)] at h
    dsimp only at h
    split at h
    · rename_i hempty
      have hnil : p = [] := by simpa [hcolon] using hempty
      cases h
      refine .emptyPort (by rw [hp, hnil]) ?_
      rw [hnil]
      exact List.getLast?_concat
    · split at h
      · cases h
      · rename_i n hn
        cases h
        obtain ⟨hne, rfl⟩ := parsePort_digits (a.port_digits p hp) hn
        exact .meant (by simp [hp, hne]) (by rw [a.destination_of_port hp hne, hhost]; rfl)

theorem parseHostPort_ipLiteral {address : Text} (hhost : a.host = .ipLiteral address)
    {d port : ℕ} {host : Text} (h : parseHostPort a.text d = .ok (host, port)) :
    a.ReadAs d host port := by
  have hvalid := a.host_valid
  rw [hhost] at hvalid
  have hclose : ']' ∉ '[' :: address := by
    rw [List.mem_cons]
    rintro (hc | hc)
    · exact absurd hc (by decide)
    · exact not_mem_of_all hvalid (by decide) hc
  have htext : a.hostPort = ('[' :: address) ++ ']' :: a.port.elim [] (':' :: ·) := by
    simp [hostPort, hhost, HostName.text]
  rw [parseHostPort, afterLast_text, htext] at h
  dsimp only at h
  rw [List.cons_append, List.head?_cons, if_pos rfl, ← List.cons_append,
    splitOnce_append_cons hclose] at h
  dsimp only at h
  have hhosttext : asciiLower a.host.text = asciiLower ('[' :: address ++ [']']) := by
    rw [hhost]
    rfl
  cases hp : a.port with
  | none =>
    rw [hp] at h
    cases h
    exact .meant (by simp [hp]) (by rw [a.destination_of_no_port hp, hhosttext])
  | some p =>
    rw [hp, Option.elim_some, List.head?_cons, if_pos rfl, List.tail_cons] at h
    split at h
    · cases h
    · rename_i n hn
      cases h
      obtain ⟨hne, rfl⟩ := parsePort_digits (a.port_digits p hp) hn
      exact .meant (by simp [hp, hne]) (by rw [a.destination_of_port hp hne, hhosttext])

/-- **Reading an authority.** The port and the host are those that are meant, unless the port is
empty. -/
theorem parseHostPort_text {d port : ℕ} {host : Text}
    (h : parseHostPort a.text d = .ok (host, port)) : a.ReadAs d host port := by
  cases hhost : a.host with
  | regName name => exact a.parseHostPort_regName hhost h
  | ipLiteral address => exact a.parseHostPort_ipLiteral hhost h

theorem ReadAs.destination_iff {a : Authority} {d port : ℕ} {host : Text}
    (h : a.ReadAs d host port) (b : Authority) (defaultPort : Option ℕ) :
    b.destination defaultPort = some ⟨asciiLower host, port⟩ ↔
      a.port ≠ some [] ∧ a.destination (some d) = b.destination defaultPort := by
  cases h with
  | meant hport hdest =>
    rw [hdest]
    exact ⟨fun hb => ⟨hport, hb.symm⟩, fun hb => hb.2.symm⟩
  | emptyPort hport hhost =>
    constructor
    · intro hb
      have heq := b.host_of_destination hb
      have hlast := HostName.getLast_lower_ne_colon b.host_valid
      refine absurd ?_ hlast
      have hcolon : (asciiLower host).getLast? = some ':' := by
        rw [asciiLower, List.getLast?_map, hhost]
        rfl
      rw [← heq]
      exact hcolon
    · exact fun hb => absurd hport hb.1

end Authority

/-! ## Targets -/

theorem httpScheme_prefix_iff {scheme : Text} (hscheme : ':' ∉ scheme) (rest : Text) :
    httpScheme.isPrefixOf (scheme ++ "://".toList ++ rest) = true ↔ scheme = "http".toList := by
  rw [List.isPrefixOf_iff_prefix]
  constructor
  · rintro ⟨tail, htail⟩
    have hhttp : splitOnce ':' (httpScheme ++ tail) = some ("http".toList, "//".toList ++ tail) :=
      splitOnce_append_cons (c := ':') (a := "http".toList) (by decide) ("//".toList ++ tail)
    have hmine : splitOnce ':' (scheme ++ "://".toList ++ rest) =
        some (scheme, "//".toList ++ rest) := by
      rw [List.append_assoc]
      exact splitOnce_append_cons hscheme ("//".toList ++ rest)
    rw [← htail, hhttp] at hmine
    exact (congrArg Prod.fst (Option.some.inj hmine)).symm
  · rintro rfl
    exact List.prefix_append httpScheme rest

theorem colon_not_mem_scheme {scheme : Text} {authority : Authority} {rest : Text}
    (h : (RequestTarget.absolute scheme authority rest).Valid) : ':' ∉ scheme := by
  intro hc
  rcases h.1.2 ':' hc with halnum | hmem
  · exact absurd halnum (by decide)
  · exact absurd hmem (by decide)

theorem takeWhile_slash (a : Authority) (rest : Text) :
    (a.text ++ rest).takeWhile (· ≠ '/') = a.text ++ rest.takeWhile (· ≠ '/') := by
  rw [List.takeWhile_append_of_pos]
  intro c hc
  exact decide_eq_true fun he => a.not_mem_slash (he ▸ hc)

namespace HttpRequest

variable (r : HttpRequest)

/-- The first slash of an absolute target ends its authority, or what is before the slash happens
to be read as the same address. -/
def AuthorityReadAsNamed (a : Authority) (rest : Text) : Prop :=
  if rest.head? = some '?' then
    -- the path is empty, and the query is taken for a part of the authority
    ∃ host port, parseHostPort (a.text ++ rest.takeWhile (· ≠ '/')) 80 = .ok (host, port) ∧
      a.destination (some 80) = some ⟨asciiLower host, port⟩
  else a.port ≠ some []

/-- The target and the `Host` header are read as they are meant. -/
def ReadAsNamed : Prop :=
  match r.target with
  | .absolute scheme a rest =>
    if scheme = "http".toList then AuthorityReadAsNamed a rest
    else
      -- another spelling or another scheme: the `Host` header is read instead
      ∃ b ∈ r.host, b.port ≠ some [] ∧ b.destination (some 80) = r.destination
  | .origin _ | .asterisk => ∃ a ∈ r.host, a.port ≠ some []

theorem destination_absolute {a : Authority} {rest : Text}
    (hrest : rest = [] ∨ rest.head? = some '/' ∨ rest.head? = some '?') {t : HttpTarget}
    (h : parseAbsoluteHttpTarget (httpScheme ++ (a.text ++ rest)) = .ok t) :
    a.destination (some 80) = some ⟨asciiLower t.host, t.port⟩ ↔ AuthorityReadAsNamed a rest := by
  obtain ⟨hok, -⟩ := eq_of_parseAbsoluteHttpTarget h
  rw [List.drop_left, takeWhile_slash] at hok
  by_cases hquery : rest.head? = some '?'
  · rw [AuthorityReadAsNamed, if_pos hquery]
    constructor
    · exact fun hdest => ⟨t.host, t.port, hok, hdest⟩
    · rintro ⟨host', port', hok', hdest⟩
      rw [hok] at hok'
      cases hok'
      exact hdest
  · rw [AuthorityReadAsNamed, if_neg hquery]
    have hcut : rest.takeWhile (· ≠ '/') = [] := by
      rcases hrest with rfl | hslash | hquery'
      · rfl
      · cases rest with
        | nil => rfl
        | cons c rest =>
          rw [List.head?_cons, Option.some.injEq] at hslash
          simp [hslash]
      · exact absurd hquery' hquery
    rw [hcut, List.append_nil] at hok
    rw [(a.parseHostPort_text hok).destination_iff a (some 80)]
    exact and_iff_left rfl

theorem destination_hostHeader {a b : Authority} {d : Option ℕ} {t : HttpTarget}
    (hstart : httpScheme.isPrefixOf r.target.text = false) (hhost : r.host = some a)
    (h : resolveHttpTarget r.head = .ok t) :
    b.destination d = some ⟨asciiLower t.host, t.port⟩ ↔
      a.port ≠ some [] ∧ a.destination (some 80) = b.destination d := by
  rw [resolveHttpTarget, head_target, hstart, if_neg Bool.false_ne_true, head_hostHeader, hhost,
    Option.map_some] at h
  dsimp only at h
  split at h
  · cases h
  · rename_i host port hok
    cases h
    exact (a.parseHostPort_text hok).destination_iff b d

theorem host_isSome_of_resolve {t : HttpTarget}
    (hstart : httpScheme.isPrefixOf r.target.text = false)
    (h : resolveHttpTarget r.head = .ok t) : ∃ a, r.host = some a := by
  cases hhost : r.host with
  | some a => exact ⟨a, rfl⟩
  | none =>
    rw [resolveHttpTarget, head_target, hstart, if_neg Bool.false_ne_true, head_hostHeader,
      hhost] at h
    cases h

theorem destination_relative {t : HttpTarget}
    (hstart : httpScheme.isPrefixOf r.target.text = false)
    (hdest : r.destination = r.host.bind (·.destination (some 80)))
    (h : resolveHttpTarget r.head = .ok t) :
    r.destination = some ⟨asciiLower t.host, t.port⟩ ↔ ∃ a ∈ r.host, a.port ≠ some [] := by
  obtain ⟨a, hhost⟩ := r.host_isSome_of_resolve hstart h
  rw [hdest, hhost, Option.bind_some, r.destination_hostHeader hstart hhost h]
  simp

/-- **The address.** Of the requests for which an address is found, those that are read as they
are meant get the one they name. -/
theorem destination_resolveHttpTarget {t : HttpTarget} (h : resolveHttpTarget r.head = .ok t) :
    r.destination = some ⟨asciiLower t.host, t.port⟩ ↔ r.ReadAsNamed := by
  have hvalid := r.target_valid
  cases htarget : r.target with
  | origin path =>
    rw [htarget] at hvalid
    have hstart : httpScheme.isPrefixOf r.target.text = false := by
      rw [htarget, RequestTarget.text]
      cases hpath : path with
      | nil => rfl
      | cons c path' =>
        rw [hpath] at hvalid
        rw [Option.some.inj hvalid.1]
        rfl
    rw [ReadAsNamed, htarget]
    exact r.destination_relative hstart (by rw [destination, htarget]) h
  | asterisk =>
    have hstart : httpScheme.isPrefixOf r.target.text = false := by
      rw [htarget]
      rfl
    rw [ReadAsNamed, htarget]
    exact r.destination_relative hstart (by rw [destination, htarget]) h
  | absolute scheme a rest =>
    rw [htarget] at hvalid
    have hcolon := colon_not_mem_scheme hvalid
    have htext : r.target.text = scheme ++ "://".toList ++ (a.text ++ rest) := by
      rw [htarget, RequestTarget.text, List.append_assoc]
    have hdest : r.destination = a.destination (defaultPort scheme) := by
      rw [destination, htarget]
    rw [ReadAsNamed, htarget]
    dsimp only
    split
    · rename_i hscheme
      have hstart := (httpScheme_prefix_iff hcolon (a.text ++ rest)).mpr hscheme
      rw [resolveHttpTarget, head_target, htext, if_pos hstart, hscheme] at h
      rw [hdest, hscheme]
      exact destination_absolute hvalid.2.1 h
    · rename_i hscheme
      have hstart : httpScheme.isPrefixOf r.target.text = false := by
        rw [htext, Bool.eq_false_iff]
        exact fun hp => hscheme ((httpScheme_prefix_iff hcolon _).mp hp)
      obtain ⟨b, hhost⟩ := r.host_isSome_of_resolve hstart h
      rw [hdest, r.destination_hostHeader hstart hhost h, hhost]
      simp

end HttpRequest

end FluxTerm.Proxy
