import FluxTerm.Proxy.HttpTarget

/-!
# FluxTerm — absolute targets

Which targets in absolute form `parse_absolute_http_target` takes apart as URLs are taken apart:
the authority ends at the first slash, query or fragment, and an empty port is the default one.
The code cuts at the first slash only.

* **`AbsoluteForm.resolved_iff`** — a target is resolved as its URL if nothing but a path follows
  the authority and its port has digits that fit 16 bits; where a query or a fragment follows
  directly, only if it happens to repeat what it is mistaken for.
-/

namespace FluxTerm.Proxy

open FluxTerm.Engine FluxTerm.Lib

/-! ## Reading a host and a port -/

theorem isDigit_of_parseU16 {s : Text} {n : ℕ} (h : parseU16 s = some n) :
    s ≠ [] ∧ ∀ c ∈ s, c = '+' ∨ c.isDigit = true := by
  have hread : ∀ digits : Text, (if digits.isEmpty || !digits.all Char.isDigit then none
      else if decimal digits < 2 ^ 16 then some (decimal digits) else none) = some n →
      digits ≠ [] ∧ ∀ c ∈ digits, c.isDigit = true := by
    intro digits hdigits
    split at hdigits
    · cases hdigits
    · rename_i hno
      rw [Bool.not_eq_true, Bool.or_eq_false_iff, Bool.not_eq_false'] at hno
      exact ⟨fun hnil => by simp [hnil] at hno, forall_of_all hno.2⟩
  cases s with
  | nil => cases h
  | cons c s =>
    refine ⟨List.cons_ne_nil _ _, fun d hd => ?_⟩
    by_cases hplus : (c :: s).head? = some '+'
    · rw [parseU16, if_pos hplus, List.tail_cons] at h
      rcases List.mem_cons.mp hd with rfl | hd
      · exact .inl (Option.some.inj hplus)
      · exact .inr ((hread s h).2 d hd)
    · rw [parseU16, if_neg hplus] at h
      exact .inr ((hread (c :: s) h).2 d hd)

theorem parseU16_eq_some_iff {p : Text} (hdigits : ∀ c ∈ p, c.isDigit = true) :
    parseU16 p = some (decimal p) ↔ p ≠ [] ∧ decimal p < 2 ^ 16 := by
  have hplus : p.head? ≠ some '+' := fun hp =>
    not_mem_of_all hdigits (by decide) (List.mem_of_mem_head? hp)
  have hall : p.all Char.isDigit = true := List.all_eq_true.mpr hdigits
  rw [parseU16, if_neg hplus, hall, Bool.not_true, Bool.or_false]
  cases p with
  | nil => simp
  | cons c p => simp

theorem parsePort_eq_ok_iff {p : Text} {port : ℕ} :
    parsePort p = .ok port ↔ parseU16 p = some port := by
  rw [parsePort]
  cases parseU16 p <;> simp

namespace HostName

def IsLiteral : HostName → Prop
  | regName _ => False
  | ipLiteral _ => True

/-- What may follow the host for `port` to be read: a colon and the port, nothing if the port is
the default one. After a bracket anything without a colon is passed over. -/
def ReadsPort (h : HostName) (d : ℕ) (tail : Text) (port : ℕ) : Prop :=
  if tail.head? = some ':' then parseU16 tail.tail = some port
  else port = d ∧ (tail = [] ∨ h.IsLiteral)

theorem head_regName_ne {name : Text} (hvalid : (regName name).Valid) (tail : Text) :
    (name ++ tail).head? ≠ some '[' := by
  cases name with
  | nil => exact absurd rfl hvalid.1
  | cons c name =>
    rw [List.cons_append, List.head?_cons]
    intro hc
    refine not_mem_regName hvalid (c := '[') (by decide) ?_
    rw [Option.some.inj hc]
    exact List.mem_cons_self

end HostName

section
variable {d port : ℕ}

theorem parseHostPort_of_no_bracket {input : Text}
    (hopen : (afterLast '@' input).head? ≠ some '[') :
    parseHostPort input d =
      match rsplitOnce ':' (afterLast '@' input) with
      | none => .ok (afterLast '@' input, d)
      | some (host, portStr) =>
        if host.contains ':' || portStr.isEmpty then .ok (afterLast '@' input, d)
        else
          match parsePort portStr with
          | .error err => .error err
          | .ok port => .ok (host, port) := by
  rw [parseHostPort]
  dsimp only
  exact if_neg hopen

theorem prefix_of_no_bracket {input host : Text} (hopen : (afterLast '@' input).head? ≠ some '[')
    (h : parseHostPort input d = .ok (host, port)) :
    (afterLast '@' input = host ∧ port = d) ∨
      ∃ p, afterLast '@' input = host ++ ':' :: p ∧ parseU16 p = some port := by
  rw [parseHostPort_of_no_bracket hopen] at h
  cases hsplit : rsplitOnce ':' (afterLast '@' input) with
  | none =>
    rw [hsplit] at h
    cases h
    exact .inl ⟨rfl, rfl⟩
  | some parts =>
    obtain ⟨before, p⟩ := parts
    rw [hsplit] at h
    dsimp only at h
    split at h
    · cases h
      exact .inl ⟨rfl, rfl⟩
    · cases hport : parsePort p with
      | error err =>
        rw [hport] at h
        cases h
      | ok n =>
        rw [hport] at h
        cases h
        exact .inr ⟨p, (eq_of_rsplitOnce hsplit).1, parsePort_eq_ok_iff.mp hport⟩

theorem literal_of_bracket {input host : Text} (hopen : (afterLast '@' input).head? = some '[')
    (h : parseHostPort input d = .ok (host, port)) :
    ∃ inner tail, host = inner ++ [']'] ∧ afterLast '@' input = host ++ tail ∧
      if tail.head? = some ':' then parseU16 tail.tail = some port else port = d := by
  rw [parseHostPort] at h
  dsimp only at h
  rw [if_pos hopen] at h
  cases hsplit : splitOnce ']' (afterLast '@' input) with
  | none =>
    rw [hsplit] at h
    cases h
  | some parts =>
    obtain ⟨inner, tail⟩ := parts
    rw [hsplit] at h
    dsimp only at h
    have htext : afterLast '@' input = inner ++ [']'] ++ tail := by
      rw [(eq_of_splitOnce hsplit).1, List.append_assoc, List.singleton_append]
    split at h
    · rename_i hcolon
      cases hport : parsePort tail.tail with
      | error err =>
        rw [hport] at h
        cases h
      | ok n =>
        rw [hport] at h
        cases h
        exact ⟨inner, tail, rfl, htext, by rw [if_pos hcolon, ← parsePort_eq_ok_iff, hport]⟩
    · rename_i hcolon
      cases h
      exact ⟨inner, tail, rfl, htext, by rw [if_neg hcolon]⟩

end

/-- **Reading a host.** A host comes out of the texts that begin with it, after the last `@`, and
go on with nothing or with a port. -/
theorem parseHostPort_iff {h : HostName} (hvalid : h.Valid) {input : Text} {d port : ℕ} :
    parseHostPort input d = .ok (h.text, port) ↔
      ∃ tail, afterLast '@' input = h.text ++ tail ∧ h.ReadsPort d tail port := by
  cases h with
  | regName name =>
    have hcolon : ':' ∉ name := HostName.not_mem_regName hvalid (by decide)
    constructor
    · intro hok
      by_cases hopen : (afterLast '@' input).head? = some '['
      · -- a literal ends with a bracket
        obtain ⟨inner, -, hhost, -⟩ := literal_of_bracket hopen hok
        have hclose : ']' ∈ name := by
          have hmem : ']' ∈ inner ++ [']'] := List.mem_append_right _ List.mem_cons_self
          rwa [← hhost] at hmem
        exact absurd hclose (HostName.not_mem_regName hvalid (by decide))
      · rcases prefix_of_no_bracket hopen hok with ⟨htext, hport⟩ | ⟨p, htext, hport⟩
        · exact ⟨[], by rw [htext, List.append_nil], by simp [HostName.ReadsPort, hport]⟩
        · exact ⟨':' :: p, htext, by simpa [HostName.ReadsPort] using hport⟩
    · rintro ⟨tail, htext, hreads⟩
      have hopen : (afterLast '@' input).head? ≠ some '[' := by
        rw [htext]
        exact HostName.head_regName_ne hvalid tail
      rw [parseHostPort_of_no_bracket hopen, htext, HostName.text]
      rw [HostName.ReadsPort] at hreads
      split at hreads
      · rename_i hhead
        obtain ⟨p, rfl⟩ : ∃ p, tail = ':' :: p := by
          cases tail with
          | nil => cases hhead
          | cons c p => exact ⟨p, by rw [Option.some.inj hhead]⟩
        rw [List.tail_cons] at hreads
        obtain ⟨hne, hchars⟩ := isDigit_of_parseU16 hreads
        have hp : ':' ∉ p := fun hmem => by
          rcases hchars ':' hmem with he | he <;> exact absurd he (by decide)
        have hno : (name.contains ':' || p.isEmpty) = false := by simp [hcolon, hne]
        rw [rsplitOnce_append_cons name hp]
        dsimp only
        rw [hno, if_neg Bool.false_ne_true, parsePort_eq_ok_iff.mpr hreads]
      · obtain ⟨rfl, rfl | hliteral⟩ := hreads
        · rw [List.append_nil, rsplitOnce_of_not_mem hcolon]
        · exact absurd hliteral id
  | ipLiteral address =>
    have hclose : ']' ∉ '[' :: address := by
      rw [List.mem_cons]
      rintro (hc | hc)
      · exact absurd hc (by decide)
      · exact not_mem_of_all hvalid (by decide) hc
    constructor
    · intro hok
      by_cases hopen : (afterLast '@' input).head? = some '['
      · obtain ⟨inner, tail, -, htext, hport⟩ := literal_of_bracket hopen hok
        refine ⟨tail, htext, ?_⟩
        rw [HostName.ReadsPort]
        split
        · rename_i hhead
          rwa [if_pos hhead] at hport
        · rename_i hhead
          rw [if_neg hhead] at hport
          exact ⟨hport, .inr trivial⟩
      · -- the text would begin with the bracket of the host
        rcases prefix_of_no_bracket hopen hok with ⟨htext, -⟩ | ⟨p, htext, -⟩
        · exact absurd (by rw [htext]; rfl) hopen
        · exact absurd (by rw [htext]; rfl) hopen
    · rintro ⟨tail, htext, hreads⟩
      have hshape : afterLast '@' input = ('[' :: address) ++ ']' :: tail := by
        simp [htext, HostName.text]
      rw [parseHostPort]
      dsimp only
      rw [hshape, List.cons_append, List.head?_cons, if_pos rfl, ← List.cons_append,
        splitOnce_append_cons hclose]
      dsimp only
      rw [HostName.ReadsPort] at hreads
      split at hreads
      · rename_i hhead
        rw [if_pos hhead, parsePort_eq_ok_iff.mpr hreads]
        rfl
      · rename_i hhead
        rw [if_neg hhead, hreads.1]
        rfl

namespace Authority

variable (a : Authority)

def portNumber : ℕ :=
  match a.port with
  | none | some [] => 80
  | some digits => decimal digits

def PortReadable : Prop := ∀ p ∈ a.port, p ≠ [] ∧ decimal p < 2 ^ 16

theorem portNumber_of_digits {p : Text} (hp : a.port = some p) (hne : p ≠ []) :
    a.portNumber = decimal p := by
  cases p with
  | nil => exact absurd rfl hne
  | cons c p => simp [portNumber, hp]

theorem readsPort_tail_iff (more : Text) (hmore : ∀ c ∈ more.head?, c = '?' ∨ c = '#') :
    a.host.ReadsPort 80 (a.port.elim [] (':' :: ·) ++ more) a.portNumber ↔
      if more = [] then a.PortReadable else a.host.IsLiteral ∧ a.port = none := by
  cases hp : a.port with
  | none =>
    have hhead : more.head? ≠ some ':' := fun he => by
      rcases hmore ':' he with hc | hc <;> exact absurd hc (by decide)
    rw [Option.elim_none, List.nil_append, HostName.ReadsPort, if_neg hhead]
    have hnumber : a.portNumber = 80 := by simp [portNumber, hp]
    by_cases hnil : more = []
    · simp [hnil, hnumber, PortReadable, hp]
    · simp [hnil, hnumber]
  | some p =>
    rw [Option.elim_some, List.cons_append, HostName.ReadsPort, List.head?_cons, if_pos rfl,
      List.tail_cons]
    by_cases hnil : more = []
    · rw [if_pos hnil, hnil, List.append_nil]
      have hreadable : a.PortReadable ↔ p ≠ [] ∧ decimal p < 2 ^ 16 := by simp [PortReadable, hp]
      rw [hreadable]
      by_cases hne : p = []
      · rw [hne]
        simp [parseU16]
      · rw [a.portNumber_of_digits hp hne]
        exact parseU16_eq_some_iff (a.port_digits p hp)
    · rw [if_neg hnil]
      -- the query or the fragment stands where the port has to be all digits
      constructor
      · intro hread
        obtain ⟨c, more', rfl⟩ := List.exists_cons_of_ne_nil hnil
        have hchar := (isDigit_of_parseU16 hread).2 c (by simp)
        rcases hmore c rfl with rfl | rfl <;>
          rcases hchar with hc | hc <;> exact absurd hc (by decide)
      · rintro ⟨-, hnone⟩
        cases hnone

end Authority

/-! ## Absolute targets -/

def pathAndQuery (rest : Text) : Text :=
  let part := rest.takeWhile (· ≠ '#')
  if part.head? = some '/' then part else '/' :: part

/-- `"http://" authority rest`: a path, a query or a fragment follows the authority, or nothing. -/
structure AbsoluteForm where
  authority : Authority
  rest : Text
  rest_start : ∀ c ∈ rest.head?, c = '/' ∨ c = '?' ∨ c = '#'

namespace AbsoluteForm

def text (u : AbsoluteForm) : Text := httpScheme ++ (u.authority.text ++ u.rest)

/-- The target is that of the URL: its host, its port, its path and its query. -/
def Resolved (u : AbsoluteForm) (t : HttpTarget) : Prop :=
  t.host = u.authority.host.text ∧ t.port = u.authority.portNumber ∧
    pathAndQuery t.path = pathAndQuery u.rest

variable (u : AbsoluteForm)

def cut : Text := u.rest.takeWhile (· ≠ '/')

/-- A query or a fragment that is taken for a part of the authority changes nothing: from its
first slash on it repeats the path and the query, and the host and the port are read again after
its last `@`, or the host is a literal without a port, after which anything may follow. -/
def Repeats : Prop :=
  pathAndQuery (u.rest.dropWhile (· ≠ '/')) = pathAndQuery u.rest ∧
    if '@' ∈ u.cut then
      ∃ tail, afterLast '@' u.cut = u.authority.host.text ++ tail ∧
        u.authority.host.ReadsPort 80 tail u.authority.portNumber
    else u.authority.host.IsLiteral ∧ u.authority.port = none

def CutRight : Prop :=
  if u.cut = [] then u.authority.PortReadable else u.Repeats

variable {u}

theorem head_cut : ∀ c ∈ u.cut.head?, c = '?' ∨ c = '#' := by
  intro c hc
  rw [cut] at hc
  cases hrest : u.rest with
  | nil =>
    rw [hrest] at hc
    cases hc
  | cons first rest =>
    rw [hrest, List.takeWhile_cons] at hc
    split at hc
    · rename_i hfirst
      cases hc
      have hstart := u.rest_start c (by rw [hrest]; rfl)
      exact hstart.resolve_left (of_decide_eq_true hfirst)
    · cases hc

theorem dropWhile_of_cut_eq_nil (h : u.cut = []) : u.rest.dropWhile (· ≠ '/') = u.rest := by
  have happend := List.takeWhile_append_dropWhile (p := (· ≠ '/')) (l := u.rest)
  rw [cut] at h
  rwa [h, List.nil_append] at happend

theorem pathAndQuery_path (rest : Text) :
    pathAndQuery (if '/' ∈ rest then rest.dropWhile (· ≠ '/') else ['/']) =
      pathAndQuery (rest.dropWhile (· ≠ '/')) := by
  split
  · rfl
  · rename_i hslash
    have hnil : rest.dropWhile (· ≠ '/') = [] := by
      rw [List.dropWhile_eq_nil_iff]
      exact fun c hc => decide_eq_true fun he => hslash (he ▸ hc)
    rw [hnil]
    rfl

theorem parseAbsoluteHttpTarget_text (u : AbsoluteForm) :
    parseAbsoluteHttpTarget u.text =
      match parseHostPort (u.authority.text ++ u.cut) 80 with
      | .error err => .error err
      | .ok (host, port) =>
        .ok ⟨host, port, if '/' ∈ u.authority.text ++ u.rest
          then (u.authority.text ++ u.rest).dropWhile (· ≠ '/') else ['/']⟩ := by
  rw [parseAbsoluteHttpTarget, text, if_pos (List.isPrefixOf_iff_prefix.mpr ⟨_, rfl⟩)]
  dsimp only
  rw [List.drop_left, takeWhile_slash]
  rfl

theorem path_text (u : AbsoluteForm) :
    (if '/' ∈ u.authority.text ++ u.rest
      then (u.authority.text ++ u.rest).dropWhile (· ≠ '/') else ['/']) =
      if '/' ∈ u.rest then u.rest.dropWhile (· ≠ '/') else ['/'] := by
  have hno := u.authority.not_mem_slash
  have hdrop : (u.authority.text ++ u.rest).dropWhile (· ≠ '/') = u.rest.dropWhile (· ≠ '/') :=
    List.dropWhile_append_of_pos fun c hc => decide_eq_true fun he => hno (he ▸ hc)
  rw [hdrop]
  simp [hno]

theorem resolved_iff_read :
    (∃ t, parseAbsoluteHttpTarget u.text = .ok t ∧ u.Resolved t) ↔
      parseHostPort (u.authority.text ++ u.cut) 80 =
          .ok (u.authority.host.text, u.authority.portNumber) ∧
        pathAndQuery (u.rest.dropWhile (· ≠ '/')) = pathAndQuery u.rest := by
  rw [parseAbsoluteHttpTarget_text, path_text]
  cases hread : parseHostPort (u.authority.text ++ u.cut) 80 with
  | error err => simp
  | ok address =>
    obtain ⟨host, port⟩ := address
    constructor
    · rintro ⟨t, ht, hhost, hport, hpath⟩
      cases ht
      exact ⟨by rw [← hhost, ← hport], (pathAndQuery_path u.rest).symm.trans hpath⟩
    · rintro ⟨haddress, hpath⟩
      cases haddress
      exact ⟨_, rfl, rfl, rfl, (pathAndQuery_path u.rest).trans hpath⟩

theorem afterLast_cut (h : '@' ∉ u.cut) :
    afterLast '@' (u.authority.text ++ u.cut) =
      u.authority.host.text ++ (u.authority.port.elim [] (':' :: ·) ++ u.cut) := by
  have hno : '@' ∉ u.authority.hostPort ++ u.cut := by
    rw [List.mem_append, not_or]
    exact ⟨u.authority.not_mem_hostPort_at, h⟩
  have hpart : afterLast '@' (u.authority.text ++ u.cut) = u.authority.hostPort ++ u.cut := by
    rw [Authority.text]
    cases u.authority.userinfo with
    | none => exact afterLast_of_not_mem hno
    | some info =>
      rw [Option.elim_some, List.append_assoc, List.append_assoc, List.singleton_append]
      exact afterLast_append_cons info hno
  rw [hpart, Authority.hostPort, List.append_assoc]

theorem afterLast_cut_of_mem (h : '@' ∈ u.cut) :
    afterLast '@' (u.authority.text ++ u.cut) = afterLast '@' u.cut := by
  obtain ⟨after, before, hsplit, hafter⟩ :=
    List.eq_append_cons_of_mem (List.mem_reverse.mpr h)
  rw [List.reverse_eq_iff, List.reverse_append, List.reverse_cons, List.append_assoc,
    List.singleton_append] at hsplit
  have hafter : '@' ∉ after.reverse := fun hmem => hafter (List.mem_reverse.mp hmem)
  rw [hsplit, ← List.append_assoc, afterLast_append_cons _ hafter, afterLast_append_cons _ hafter]

theorem read_iff :
    parseHostPort (u.authority.text ++ u.cut) 80 =
        .ok (u.authority.host.text, u.authority.portNumber) ↔
      if '@' ∈ u.cut then
        ∃ tail, afterLast '@' u.cut = u.authority.host.text ++ tail ∧
          u.authority.host.ReadsPort 80 tail u.authority.portNumber
      else if u.cut = [] then u.authority.PortReadable
      else u.authority.host.IsLiteral ∧ u.authority.port = none := by
  rw [parseHostPort_iff u.authority.host_valid]
  by_cases hat : '@' ∈ u.cut
  · rw [if_pos hat, afterLast_cut_of_mem hat]
  · rw [if_neg hat, afterLast_cut hat, ← u.authority.readsPort_tail_iff u.cut head_cut]
    constructor
    · rintro ⟨tail, htail, hreads⟩
      rwa [List.append_cancel_left htail]
    · exact fun hreads => ⟨_, rfl, hreads⟩

/-- **Absolute targets.** A target is resolved to the host, the port, the path and the query of
its URL exactly if it is cut where its authority ends and has a port that can be read. -/
theorem resolved_iff (u : AbsoluteForm) :
    (∃ t, parseAbsoluteHttpTarget u.text = .ok t ∧ u.Resolved t) ↔ u.CutRight := by
  rw [resolved_iff_read, read_iff, CutRight]
  by_cases hcut : u.cut = []
  · have hat : '@' ∉ u.cut := by simp [hcut]
    rw [if_neg hat, if_pos hcut, if_pos hcut, dropWhile_of_cut_eq_nil hcut]
    exact and_iff_left rfl
  · rw [if_neg hcut, if_neg hcut, Repeats]
    exact and_comm

/-- An address in a query: `http://files.test?by=me@mail.test`. -/
def sampleQuery : AbsoluteForm where
  authority :=
    { userinfo := none
      host := .regName "files.test".toList
      port := none
      userinfo_chars := Authority.userinfo_chars_none
      host_valid := ⟨by decide, forall_of_all (by decide)⟩
      port_digits := Authority.port_digits_none }
  rest := "?by=me@mail.test".toList
  rest_start := by simp

/-- The request goes to the host in the query. -/
theorem sampleQuery_not_resolved :
    parseAbsoluteHttpTarget sampleQuery.text =
        .ok ⟨"mail.test".toList, 80, "/".toList⟩ ∧
      ¬∃ t, parseAbsoluteHttpTarget sampleQuery.text = .ok t ∧ sampleQuery.Resolved t := by
  have hread : parseAbsoluteHttpTarget sampleQuery.text =
      .ok ⟨"mail.test".toList, 80, "/".toList⟩ := by decide
  refine ⟨hread, ?_⟩
  rintro ⟨t, ht, hhost, -⟩
  rw [hread] at ht
  cases ht
  exact absurd hhost (by decide)

end AbsoluteForm

end FluxTerm.Proxy
