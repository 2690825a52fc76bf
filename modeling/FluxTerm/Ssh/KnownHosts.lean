import FluxTerm.Engine.Error
import FluxTerm.Lib.IpAddr
import FluxTerm.Lib.LineStore

/-!
# FluxTerm — known hosts

`src-tauri/src/ssh_host_keys.rs`: the application's own `known_hosts` file, with one line for each
host, port and key algorithm.

* **`TrustIsExact`** — what trusting a key does to the answers of the file;
  **`trustIsExact_of_trust`** — it does.

A parameter stands for `parse_public_key_base64` and the fingerprint of what it reads. The file is
the bytes of a path, or nothing. Opening it for reading does not fail; making its directory and
writing it may.
-/

namespace FluxTerm.Ssh

open FluxTerm.Engine FluxTerm.Lib

def knownHostsReadFailedCode : String := "known_hosts_read_failed"

def knownHostsWriteFailedCode : String := "known_hosts_write_failed"

inductive HostKeyMatchStatus where
  | trusted
  | unknown
  | mismatch
deriving DecidableEq

structure HostKeyMatch where
  status : HostKeyMatchStatus
  previousFingerprintSha256 : Option String
deriving DecidableEq

def hostPattern (host : Text) (port : ℕ) : Text :=
  if port = 22 then host else ['['] ++ host ++ [']', ':'] ++ (toString port).toList

/-- `parse_known_hosts_line`: host, algorithm and key. -/
def parseKnownHostsLine (line : Text) : Option (Text × Text × Text) :=
  let trimmed := trimBy isWhitespace line
  if trimmed = [] ∨ trimmed.head? = some '#' then none
  else
    match splitWhitespace trimmed with
    | host :: algorithm :: key :: _ => some (host, algorithm, key)
    | _ => none

/-- `path.exists` and `read_to_string`. -/
def readKnownHosts : Option ByteArray → Except EngineError Text
  | none => .ok []
  | some bytes =>
    match fromUtf8 bytes with
    | some content => .ok content
    | none => .error (.withDetail knownHostsReadFailedCode "Failed to read the known_hosts file"
        "stream did not contain valid UTF-8")

structure KnownHostsIo where
  /-- `create_dir_all` of the parent. -/
  createDir : Except String Unit
  write : Except String Unit

/-- The lines that `trust_host_key_path` keeps. -/
def preservedLines (pattern algorithm : Text) : List Text → List Text
  | [] => []
  | line :: lines =>
    match parseKnownHostsLine line with
    | none => line :: preservedLines pattern algorithm lines
    | some (lineHost, lineAlgorithm, _) =>
      if lineHost = pattern ∧ lineAlgorithm = algorithm then preservedLines pattern algorithm lines
      else line :: preservedLines pattern algorithm lines

def recordLine (pattern algorithm key : Text) : Text :=
  pattern ++ ' ' :: (algorithm ++ ' ' :: key)

/-- `trust_host_key_path`: the new content of the file. -/
def trustHostKeyPath (io : KnownHostsIo) (file : Option ByteArray) (host : Text) (port : ℕ)
    (algorithm key : Text) : Except EngineError ByteArray :=
  match io.createDir with
  | .error detail => .error (.withDetail knownHostsWriteFailedCode
      "Failed to create the known_hosts directory" detail)
  | .ok () =>
    match readKnownHosts file with
    | .error err => .error err
    | .ok content =>
      let pattern := hostPattern host port
      let preserved := preservedLines pattern algorithm (textLines content)
      let lines := preserved ++ [recordLine pattern algorithm key]
      match io.write with
      | .error detail => .error (.withDetail knownHostsWriteFailedCode
          "Failed to write the known_hosts file" detail)
      | .ok () => .ok (utf8Bytes (joinLines lines))

/-- The loop of `match_host_key_path`. -/
def matchLines (fingerprint : Text → Except String String) (pattern algorithm key : Text) :
    List Text → Except EngineError HostKeyMatch
  | [] => .ok ⟨.unknown, none⟩
  | line :: lines =>
    match parseKnownHostsLine line with
    | none => matchLines fingerprint pattern algorithm key lines
    | some (lineHost, lineAlgorithm, lineKey) =>
      if lineHost ≠ pattern ∨ lineAlgorithm ≠ algorithm then
        matchLines fingerprint pattern algorithm key lines
      else if lineKey = key then .ok ⟨.trusted, none⟩
      else
        match fingerprint lineKey with
        | .error detail => .error (.withDetail "known_hosts_parse_failed"
            "Invalid known_hosts file format" detail)
        | .ok previous => .ok ⟨.mismatch, some previous⟩

def matchHostKeyPath (fingerprint : Text → Except String String) (file : Option ByteArray)
    (host : Text) (port : ℕ) (algorithm key : Text) : Except EngineError HostKeyMatch :=
  match readKnownHosts file with
  | .error err => .error err
  | .ok content =>
    matchLines fingerprint (hostPattern host port) algorithm key (textLines content)

/-! ## The lines as records -/

def parseRecord (line : Text) : Option ((Text × Text) × Text) :=
  (parseKnownHostsLine line).map fun (host, algorithm, key) => ((host, algorithm), key)

/-- What a recorded key says of a key. -/
def judge (fingerprint : Text → Except String String) (key : Text) :
    Option Text → Except EngineError HostKeyMatch
  | none => .ok ⟨.unknown, none⟩
  | some lineKey =>
    if lineKey = key then .ok ⟨.trusted, none⟩
    else
      match fingerprint lineKey with
      | .error detail => .error (.withDetail "known_hosts_parse_failed"
          "Invalid known_hosts file format" detail)
      | .ok previous => .ok ⟨.mismatch, some previous⟩

theorem preservedLines_eq (pattern algorithm : Text) (lines : List Text) :
    preservedLines pattern algorithm lines = without parseRecord (pattern, algorithm) lines := by
  induction lines with
  | nil => rfl
  | cons line lines ih =>
    unfold without at ih ⊢
    rw [preservedLines, List.filter_cons, hasKey, parseRecord]
    cases parseKnownHostsLine line with
    | none => exact congrArg _ ih
    | some record =>
      obtain ⟨host, algorithm', key⟩ := record
      by_cases hkey : host = pattern ∧ algorithm' = algorithm
      · obtain ⟨rfl, rfl⟩ := hkey
        simpa using ih
      · have hne : (host, algorithm') ≠ (pattern, algorithm) := by
          intro heq
          exact hkey (Prod.mk.inj heq)
        simpa [hkey, hne] using ih

theorem matchLines_eq (fingerprint : Text → Except String String) (pattern algorithm key : Text)
    (lines : List Text) :
    matchLines fingerprint pattern algorithm key lines =
      judge fingerprint key (lookup parseRecord (pattern, algorithm) lines) := by
  induction lines with
  | nil => rfl
  | cons line lines ih =>
    rw [matchLines, lookup, parseRecord]
    cases parseKnownHostsLine line with
    | none => exact ih
    | some record =>
      obtain ⟨host, algorithm', lineKey⟩ := record
      by_cases hkey : host = pattern ∧ algorithm' = algorithm
      · obtain ⟨rfl, rfl⟩ := hkey
        simp [judge]
      · have hne : (host, algorithm') ≠ (pattern, algorithm) := fun heq => hkey (Prod.mk.inj heq)
        have hor : host ≠ pattern ∨ algorithm' ≠ algorithm := by
          by_cases hhost : host = pattern
          · exact .inr fun halgorithm => hkey ⟨hhost, halgorithm⟩
          · exact .inl hhost
        rw [Option.map_some]
        dsimp only
        rw [if_pos hor, if_neg hne]
        exact ih

/-! ## One line -/

/-- A field of a line. -/
structure IsField (s : Text) : Prop where
  ne_nil : s ≠ []
  unspaced : ∀ c ∈ s, isWhitespace c = false

theorem parseKnownHostsLine_trimCr (line : Text) :
    parseKnownHostsLine (trimCr line) = parseKnownHostsLine line := by
  have htrim : trimBy isWhitespace (trimCr line) = trimBy isWhitespace line := by
    unfold trimCr
    split
    · rename_i hlast
      have hline : line.dropLast ++ ['\r'] = line := List.dropLast_append_getLast? _ hlast
      conv_rhs => rw [← hline]
      exact (trimBy_append_of_meets rfl).symm
    · rfl
  unfold parseKnownHostsLine
  rw [htrim]

theorem parseRecord_trimCr (line : Text) : parseRecord (trimCr line) = parseRecord line := by
  unfold parseRecord
  rw [parseKnownHostsLine_trimCr]

/-- **A line that is written is read back.** -/
theorem parseRecord_recordLine {pattern algorithm key : Text} (hpattern : IsField pattern)
    (hhash : pattern.head? ≠ some '#') (halgorithm : IsField algorithm) (hkey : IsField key) :
    parseRecord (recordLine pattern algorithm key) = some ((pattern, algorithm), key) := by
  have htrim : trimBy isWhitespace (recordLine pattern algorithm key) =
      recordLine pattern algorithm key := by
    obtain ⟨c, pattern, rfl⟩ := List.exists_cons_of_ne_nil hpattern.ne_nil
    have hlast : (recordLine (c :: pattern) algorithm key).getLast? =
        some (key.getLast hkey.ne_nil) := by
      have hsplit : recordLine (c :: pattern) algorithm key =
          (c :: pattern ++ ' ' :: algorithm ++ [' ']) ++ key := by simp [recordLine]
      rw [hsplit, List.getLast?_append_of_ne_nil _ hkey.ne_nil,
        List.getLast?_eq_some_getLast hkey.ne_nil]
    exact trimBy_eq_self_of_ends rfl (hpattern.unspaced c List.mem_cons_self) hlast
      (hkey.unspaced _ (List.getLast_mem hkey.ne_nil))
  have hwords : splitWhitespace (recordLine pattern algorithm key) = [pattern, algorithm, key] := by
    unfold recordLine
    rw [splitWhitespace_append_cons hpattern.ne_nil hpattern.unspaced rfl,
      splitWhitespace_append_cons halgorithm.ne_nil halgorithm.unspaced rfl,
      splitWhitespace_word hkey.ne_nil hkey.unspaced]
  have hstarts : ¬(recordLine pattern algorithm key = [] ∨
      (recordLine pattern algorithm key).head? = some '#') := by
    obtain ⟨c, pattern, rfl⟩ := List.exists_cons_of_ne_nil hpattern.ne_nil
    rintro (hnil | hhead)
    · cases hnil
    · exact hhash hhead
  unfold parseRecord parseKnownHostsLine
  rw [htrim]
  dsimp only
  rw [if_neg hstarts, hwords]
  rfl

/-! ## Hosts and ports -/

/-- `host` is written as the other host with brackets and its port. -/
def Bracketed (host : Text) (port : ℕ) (other : Text) (otherPort : ℕ) : Prop :=
  port = 22 ∧ otherPort ≠ 22 ∧ host = ['['] ++ other ++ [']', ':'] ++ (toString otherPort).toList

theorem isWhitespace_of_isDigit {c : Char} (h : c.isDigit = true) : isWhitespace c = false := by
  have hrange : 48 ≤ c.toNat ∧ c.toNat ≤ 57 := by
    simpa [Char.isDigit, UInt32.le_iff_toNat_le] using h
  unfold isWhitespace
  simp only [Bool.or_eq_false_iff, Bool.and_eq_false_iff, beq_eq_false_iff_ne,
    decide_eq_false_iff_not]
  omega

theorem colon_not_mem_toString (port : ℕ) : ':' ∉ (toString port).toList := by
  intro hmem
  have hdigit := isDigit_of_mem_toString hmem
  cases hdigit

/-- **Hosts that are written alike.** Two hosts with their ports have one pattern only when they are
the same, or one is itself written with brackets and a port. -/
theorem hostPattern_eq_iff {host host' : Text} {port port' : ℕ} :
    hostPattern host port = hostPattern host' port' ↔
      (host = host' ∧ port = port') ∨ Bracketed host port host' port' ∨
        Bracketed host' port' host port := by
  have hapart : ∀ a b a' b' : Text, ':' ∉ b → ':' ∉ b' → a ++ ':' :: b = a' ++ ':' :: b' →
      a = a' ∧ b = b' := by
    intro a b a' b' hb hb' heq
    have hsplit := rsplitOnce_append_cons a hb
    rw [heq, rsplitOnce_append_cons a' hb'] at hsplit
    have hparts := Prod.mk.inj (Option.some.inj hsplit)
    exact ⟨hparts.1.symm, hparts.2.symm⟩
  unfold hostPattern Bracketed
  by_cases hport : port = 22
  · rw [if_pos hport]
    by_cases hport' : port' = 22
    · rw [if_pos hport']
      constructor
      · exact fun heq => .inl ⟨heq, hport.trans hport'.symm⟩
      · rintro (⟨heq, -⟩ | ⟨-, hne, -⟩ | ⟨-, hne, -⟩)
        · exact heq
        · exact absurd hport' hne
        · exact absurd hport hne
    · rw [if_neg hport']
      constructor
      · exact fun heq => .inr (.inl ⟨hport, hport', heq⟩)
      · rintro (⟨-, heq⟩ | ⟨-, -, heq⟩ | ⟨heq, -⟩)
        · exact absurd (heq.symm.trans hport) hport'
        · exact heq
        · exact absurd heq hport'
  · rw [if_neg hport]
    by_cases hport' : port' = 22
    · rw [if_pos hport']
      constructor
      · exact fun heq => .inr (.inr ⟨hport', hport, heq.symm⟩)
      · rintro (⟨-, heq⟩ | ⟨heq, -⟩ | ⟨-, -, heq⟩)
        · exact absurd (heq.trans hport') hport
        · exact absurd heq hport
        · exact heq.symm
    · rw [if_neg hport']
      constructor
      · intro heq
        left
        have heq : (['['] ++ host ++ [']']) ++ ':' :: (toString port).toList =
            (['['] ++ host' ++ [']']) ++ ':' :: (toString port').toList := by simpa using heq
        obtain ⟨hhosts, hports⟩ := hapart _ _ _ _ (colon_not_mem_toString port)
          (colon_not_mem_toString port') heq
        exact ⟨by simpa using hhosts, toString_toList_inj hports⟩
      · rintro (⟨rfl, rfl⟩ | ⟨hport, -⟩ | ⟨hport', -⟩)
        · rfl
        · contradiction
        · contradiction

/-! ## Trusting a key -/

def otherLines (content : Text) : List Text :=
  (textLines content).filter fun line => (parseKnownHostsLine line).isNone

/-- What trusting a key does to a file: the key is trusted and every other key of its host, port and
algorithm is a mismatch; hosts, ports and algorithms `apart` from these get the answers they got
before; what is no record stays, in its order and up to a carriage return at the end of a line. -/
structure TrustIsExact (fingerprint : Text → Except String String)
    (apart : Text → ℕ → Text → Prop) (before after : Option ByteArray) (host : Text) (port : ℕ)
    (algorithm key : Text) : Prop where
  trusted : matchHostKeyPath fingerprint after host port algorithm key = .ok ⟨.trusted, none⟩
  mismatch : ∀ other, other ≠ key → ∃ previous,
    matchHostKeyPath fingerprint after host port algorithm other = .ok ⟨.mismatch, some previous⟩
  framed : ∀ host' port' algorithm' key', apart host' port' algorithm' →
    matchHostKeyPath fingerprint after host' port' algorithm' key' =
      matchHostKeyPath fingerprint before host' port' algorithm' key'
  survives : ∀ content, readKnownHosts before = .ok content → ∃ content',
    readKnownHosts after = .ok content' ∧ otherLines content' = (otherLines content).map trimCr

def IsOther (host : Text) (port : ℕ) (algorithm host' : Text) (port' : ℕ) (algorithm' : Text) :
    Prop := (host', port', algorithm') ≠ (host, port, algorithm)

/-- Another host, port or algorithm, whose host is not the first one written with brackets and its
port, nor the other way round. -/
def IsApart (host : Text) (port : ℕ) (algorithm host' : Text) (port' : ℕ) (algorithm' : Text) :
    Prop :=
  IsOther host port algorithm host' port' algorithm' ∧ ¬Bracketed host port host' port' ∧
    ¬Bracketed host' port' host port

variable {fingerprint : Text → Except String String}

theorem IsApart.pattern_ne {host host' algorithm algorithm' : Text} {port port' : ℕ}
    (h : IsApart host port algorithm host' port' algorithm') :
    (hostPattern host' port', algorithm') ≠ (hostPattern host port, algorithm) := by
  intro heq
  obtain ⟨hpattern, halgorithm⟩ := Prod.mk.inj heq
  rcases hostPattern_eq_iff.mp hpattern with ⟨hhost, hport⟩ | hbracketed | hbracketed
  · exact h.1 (by rw [hhost, hport, halgorithm])
  · exact h.2.2 hbracketed
  · exact h.2.1 hbracketed

theorem trust_eq_ok {io : KnownHostsIo} {file : Option ByteArray} {host algorithm key : Text}
    {port : ℕ} {bytes : ByteArray}
    (h : trustHostKeyPath io file host port algorithm key = .ok bytes) :
    ∃ content, readKnownHosts file = .ok content ∧
      bytes = utf8Bytes (joinLines (without parseRecord (hostPattern host port, algorithm)
        (textLines content) ++ [recordLine (hostPattern host port) algorithm key])) := by
  unfold trustHostKeyPath at h
  split at h
  · cases h
  · split at h
    · cases h
    · rename_i content hread
      dsimp only at h
      split at h
      · cases h
      · cases h
        exact ⟨content, hread, by rw [preservedLines_eq]⟩

theorem readKnownHosts_utf8Bytes (content : Text) :
    readKnownHosts (some (utf8Bytes content)) = .ok content := by
  unfold readKnownHosts
  dsimp only
  rw [fromUtf8_utf8Bytes]

theorem newline_not_mem_recordLine {pattern algorithm key : Text} (hpattern : IsField pattern)
    (halgorithm : IsField algorithm) (hkey : IsField key) :
    '\n' ∉ recordLine pattern algorithm key := by
  have hfield : ∀ {s : Text}, IsField s → '\n' ∉ s := by
    intro s hs hmem
    have hspace := hs.unspaced '\n' hmem
    cases hspace
  have hspace : '\n' ≠ ' ' := by decide
  unfold recordLine
  simp only [List.mem_append, List.mem_cons, not_or]
  exact ⟨hfield hpattern, hspace, hfield halgorithm, hspace, hfield hkey⟩

theorem match_joinLines {lines : List Text} (hne : lines ≠ []) (h : ∀ line ∈ lines, '\n' ∉ line)
    (host : Text) (port : ℕ) (algorithm key : Text) :
    matchHostKeyPath fingerprint (some (utf8Bytes (joinLines lines))) host port algorithm key =
      judge fingerprint key (lookup parseRecord (hostPattern host port, algorithm) lines) := by
  unfold matchHostKeyPath
  rw [readKnownHosts_utf8Bytes]
  show matchLines fingerprint (hostPattern host port) algorithm key _ = _
  rw [textLines_joinLines hne h, matchLines_eq, lookup_map parseRecord_trimCr]

theorem isField_hostPattern {host : Text} (h : IsField host) (port : ℕ) :
    IsField (hostPattern host port) := by
  unfold hostPattern
  split
  · exact h
  · refine ⟨by simp, fun c hc => ?_⟩
    rcases List.mem_append.mp hc with hc | hc
    · rcases List.mem_append.mp hc with hc | hc
      · rcases List.mem_cons.mp hc with rfl | hc
        · rfl
        · exact h.unspaced c hc
      · simp only [List.mem_cons, List.not_mem_nil, or_false] at hc
        rcases hc with rfl | rfl
        · rfl
        · rfl
    · exact isWhitespace_of_isDigit (isDigit_of_mem_toString hc)

/-- **Trusting a key is exact**, for fields that are not empty and a key whose fingerprint can be
taken, as far as the other host is not the first one written with brackets and its port. -/
theorem trustIsExact_of_trust (fingerprint : Text → Except String String) (io : KnownHostsIo)
    (before : Option ByteArray) (host : Text) (port : ℕ) (algorithm key : Text) (bytes : ByteArray)
    (hhost : IsField host) (hhash : host.head? ≠ some '#') (halgorithm : IsField algorithm)
    (hkey : IsField key) (hfingerprint : ∃ previous, fingerprint key = .ok previous)
    (h : trustHostKeyPath io before host port algorithm key = .ok bytes) :
    TrustIsExact fingerprint (IsApart host port algorithm) before (some bytes) host port algorithm
      key := by
  obtain ⟨content, hread, rfl⟩ := trust_eq_ok h
  have hpattern : IsField (hostPattern host port) := isField_hostPattern hhost port
  have hstart : (hostPattern host port).head? ≠ some '#' := by
    unfold hostPattern
    split
    · exact hhash
    · exact fun hhead => by cases hhead
  have hrecord := parseRecord_recordLine hpattern hstart halgorithm hkey
  have hne : without parseRecord (hostPattern host port, algorithm) (textLines content) ++
      [recordLine (hostPattern host port) algorithm key] ≠ [] := by simp
  have hlines : ∀ line ∈ without parseRecord (hostPattern host port, algorithm)
      (textLines content) ++ [recordLine (hostPattern host port) algorithm key], '\n' ∉ line := by
    intro line hline
    rcases List.mem_append.mp hline with hline | hline
    · exact not_mem_of_mem_textLines (List.mem_filter.mp hline).1
    · rw [List.mem_singleton.mp hline]
      exact newline_not_mem_recordLine hpattern halgorithm hkey
  have hself : lookup parseRecord (hostPattern host port, algorithm)
      [recordLine (hostPattern host port) algorithm key] = some key := by
    rw [lookup, hrecord]
    exact if_pos rfl
  refine ⟨?_, ?_, ?_, ?_⟩
  · -- the new record is the only one of its key
    rw [match_joinLines hne hlines, lookup_without_self, hself]
    exact if_pos rfl
  · intro other hother
    obtain ⟨previous, hprevious⟩ := hfingerprint
    refine ⟨previous, ?_⟩
    rw [match_joinLines hne hlines, lookup_without_self, hself]
    unfold judge
    dsimp only
    rw [if_neg (Ne.symm hother), hprevious]
  · intro host' port' algorithm' key' hapart
    have hkeys := hapart.pattern_ne
    have hnot : hasKey parseRecord (hostPattern host' port', algorithm')
        (recordLine (hostPattern host port) algorithm key) = false := by
      rw [hasKey, hrecord]
      exact decide_eq_false (Ne.symm hkeys)
    rw [match_joinLines hne hlines, lookup_without_of_ne hkeys, lookup_append_of_not hnot]
    unfold matchHostKeyPath
    rw [hread]
    exact (matchLines_eq ..).symm
  · intro content' hread'
    rw [hread] at hread'
    cases hread'
    refine ⟨_, readKnownHosts_utf8Bytes _, ?_⟩
    have hkept : (without parseRecord (hostPattern host port, algorithm)
        (textLines content)).filter (fun line => (parseRecord line).isNone) =
        (textLines content).filter fun line => (parseRecord line).isNone := filter_without _
    simp only [parseRecord, Option.isNone_map] at hkept
    have hnot : (parseKnownHostsLine (recordLine (hostPattern host port) algorithm key)).isNone =
        false := by
      unfold parseRecord at hrecord
      obtain ⟨record, hparse, -⟩ := Option.map_eq_some_iff.mp hrecord
      rw [hparse]
      rfl
    unfold otherLines
    rw [textLines_joinLines hne hlines, List.filter_map]
    simp only [Function.comp_def, parseKnownHostsLine_trimCr]
    rw [List.filter_append, List.filter_cons_of_neg (by rw [hnot]; exact Bool.false_ne_true),
      List.filter_nil, List.append_nil]
    exact congrArg (List.map trimCr) hkept

/-! ## Samples -/

def sampleIo : KnownHostsIo := ⟨.ok (), .ok ()⟩

def sampleFingerprint (key : Text) : Except String String := .ok (String.ofList key)

/-- A key of a host that is known with another key. -/
theorem sampleTrust_exact : ∃ bytes,
    TrustIsExact sampleFingerprint (IsApart ['a'] 22 ['k']) (some (utf8Bytes "# c\na k x\n".toList))
      (some bytes) ['a'] 22 ['k'] ['y'] := by
  have hfield : ∀ c : Char, isWhitespace c = false → IsField [c] := by
    intro c hc
    refine ⟨by simp, fun d hd => ?_⟩
    rw [List.mem_singleton.mp hd]
    exact hc
  have htrust : ∃ bytes, trustHostKeyPath sampleIo (some (utf8Bytes "# c\na k x\n".toList)) ['a'] 22
      ['k'] ['y'] = .ok bytes := by
    unfold trustHostKeyPath
    rw [readKnownHosts_utf8Bytes]
    exact ⟨_, rfl⟩
  obtain ⟨bytes, htrust⟩ := htrust
  exact ⟨bytes, trustIsExact_of_trust sampleFingerprint sampleIo _ ['a'] 22 ['k'] ['y'] bytes
    (hfield 'a' rfl) (by decide) (hfield 'k' rfl) (hfield 'y' rfl) ⟨_, rfl⟩ htrust⟩

/-- Three keys that are trusted in an empty file: of a host with a port, which another host is
written as; without a host; and one that has no fingerprint. -/
theorem sampleTrust_inexact :
    (∃ bytes, trustHostKeyPath sampleIo none ['a'] 2222 ['k'] ['x'] = .ok bytes ∧
      ¬TrustIsExact sampleFingerprint (IsOther ['a'] 2222 ['k']) none (some bytes) ['a'] 2222 ['k']
        ['x']) ∧
    (∃ bytes, trustHostKeyPath sampleIo none [] 22 ['k'] ['x'] = .ok bytes ∧
      ¬TrustIsExact sampleFingerprint (IsOther [] 22 ['k']) none (some bytes) [] 22 ['k'] ['x']) ∧
    ∃ bytes, trustHostKeyPath sampleIo none ['a'] 22 ['k'] ['x'] = .ok bytes ∧
      ¬TrustIsExact (fun _ => .error "") (IsOther ['a'] 22 ['k']) none (some bytes) ['a'] 22 ['k']
        ['x'] := by
  -- the file then has one line
  have hmatch : ∀ {host bytes} {port : ℕ} {fingerprint : Text → Except String String},
      '\n' ∉ recordLine (hostPattern host port) ['k'] ['x'] →
      trustHostKeyPath sampleIo none host port ['k'] ['x'] = .ok bytes →
      ∀ (host' : Text) (port' : ℕ) (key' : Text),
      matchHostKeyPath fingerprint (some bytes) host' port' ['k'] key' =
        judge fingerprint key' (lookup parseRecord (hostPattern host' port', ['k'])
          [recordLine (hostPattern host port) ['k'] ['x']]) := by
    intro host bytes port fingerprint hline h host' port' key'
    obtain ⟨content, hread, rfl⟩ := trust_eq_ok h
    cases hread
    refine match_joinLines (List.cons_ne_nil _ _) (fun line hmem => ?_) host' port' ['k'] key'
    rw [List.mem_singleton.mp hmem]
    exact hline
  refine ⟨⟨_, rfl, fun hexact => ?_⟩, ⟨_, rfl, fun hexact => ?_⟩, ⟨_, rfl, fun hexact => ?_⟩⟩
  · have hother : IsOther ['a'] 2222 ['k'] "[a]:2222".toList 22 ['k'] := by
      intro heq
      exact absurd (congrArg Prod.fst heq) (by decide)
    have hframed := hexact.framed "[a]:2222".toList 22 ['k'] ['x'] hother
    rw [hmatch (by decide) rfl] at hframed
    revert hframed
    decide
  · have htrusted := hexact.trusted
    rw [hmatch (by decide) rfl] at htrusted
    revert htrusted
    decide
  · obtain ⟨previous, hmismatch⟩ := hexact.mismatch ['y'] (by decide)
    rw [hmatch (by decide) rfl] at hmismatch
    cases hmismatch

end FluxTerm.Ssh
