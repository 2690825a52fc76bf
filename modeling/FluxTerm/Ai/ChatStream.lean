import FluxTerm.Lib.Blocks
import FluxTerm.Lib.Bytes
import FluxTerm.Lib.LineStore

/-!
# FluxTerm — streaming answers

`stream_chat_completion_inner`, `parse_stream_event` and `extract_stream_delta_content` of
`crates/openai/src/client.rs`, for a response whose status is a success. `serde_json` is a
parameter.

* **`streamsAlike_iff`** — when the cutting does not matter.

Each chunk is decoded by itself, and its line ends are replaced by themselves. An event with a
`[DONE]` line ends nothing: it is passed over.
-/

namespace FluxTerm.Ai.ChatStream

open FluxTerm.Lib

/-! ## Values -/

/-- `serde_json::Value`. A number is kept as it is written. -/
inductive Value where
  | null
  | bool (value : Bool)
  | number (literal : Text)
  | string (value : Text)
  | array (items : List Value)
  | object (entries : List (Text × Value))

namespace Value

/-- `Value::get`, with a key. -/
def get (key : String) : Value → Option Value
  | .object entries => entries.lookup key.toList
  | _ => none

def asArray : Value → Option (List Value)
  | .array items => some items
  | _ => none

def asStr : Value → Option Text
  | .string value => some value
  | _ => none

end Value

/-- The parts of `serde_json` that are used: `from_str`, and `Display`. -/
structure SerdeJson where
  fromStr : Text → Except Text Value
  display : Value → Text

/-- The variants of `OpenAiError` that a response can lead to. -/
inductive OpenAiError where
  | request (message : Text)
  | timeout (message : Text)
  | responseInvalid (message : Text)
deriving DecidableEq

variable (serde : SerdeJson)

/-! ## Events -/

def extractStreamDeltaContent (json : Value) : Except OpenAiError (Option Text) :=
  match ((json.get "choices").bind Value.asArray).bind List.head? with
  | none => .ok none
  | some choice =>
    match choice.get "delta" with
    | none => .ok none
    | some delta =>
      match delta.get "content" with
      | some (.string text) => .ok (some text)
      | some (.array items) =>
        let content := (items.filterMap fun item => (item.get "text").bind Value.asStr).flatten
        .ok (if content.isEmpty then none else some content)
      | some .null => .ok none
      | none => .ok none
      | some other => .error (.responseInvalid
          ("OpenAI streaming response content type is unsupported: ".toList ++
            serde.display other))

def readDelta (payload : Text) : Except OpenAiError (Option Text) :=
  match serde.fromStr payload with
  | .error err => .error (.responseInvalid
      ("Failed to parse the streaming response event: ".toList ++ err))
  | .ok json => extractStreamDeltaContent serde json

/-- `trim_start_matches`, at most `n` times. -/
def trimStartMatches (pat : Text) : ℕ → Text → Text
  | 0, s => s
  | n + 1, s => if pat <+: s then trimStartMatches pat n (s.drop pat.length) else s

def dataMark : Text := "data:".toList

def doneMark : Text := "[DONE]".toList

def payloadOf (line : Text) : Text :=
  trimBy isWhitespace (trimStartMatches dataMark line.length line)

def eventLines (event : Text) : List Text :=
  ((textLines event).map (trimBy isWhitespace)).filter (!·.isEmpty)

/-- The loop of `parse_stream_event`. -/
def readLines (content : Text) : List Text → Except OpenAiError (Option Text)
  | [] => .ok (if content.isEmpty then none else some content)
  | line :: lines =>
    if ¬dataMark <+: line then readLines content lines
    else if payloadOf line = doneMark then .ok none
    else
      match readDelta serde (payloadOf line) with
      | .error err => .error err
      | .ok delta => readLines (content ++ delta.getD []) lines

def parseStreamEvent (event : Text) : Except OpenAiError (Option Text) :=
  readLines serde [] (eventLines event)

/-! ## The response -/

inductive StreamCompletion where
  | succeeded
  | cancelled
deriving DecidableEq

/-- What `response.chunk()` gives, with what `is_cancelled` says then. -/
inductive Arrival where
  | chunk (bytes : Bytes) (isCancelled : Bool)
  | broken (err : OpenAiError)

/-- The pieces given to `on_chunk`, and how the call ends. -/
abbrev Streamed := List Text × Except OpenAiError StreamCompletion

def readEvents : List Text → List Text × Option OpenAiError
  | [] => ([], none)
  | event :: events =>
    match parseStreamEvent serde event with
    | .error err => ([], some err)
    | .ok piece => (piece.toList ++ (readEvents events).1, (readEvents events).2)

def finish (buffer : Text) : Streamed :=
  if (trimBy isWhitespace buffer).isEmpty then ([], .ok .succeeded)
  else
    match parseStreamEvent serde (trimBy isWhitespace buffer) with
    | .error err => ([], .error err)
    | .ok piece => (piece.toList, .ok .succeeded)

/-- The loop of `stream_chat_completion_inner`, from a buffer on. -/
def receive : Text → List Arrival → Streamed
  | buffer, [] => finish serde buffer
  | _, .broken err :: _ => ([], .error err)
  | buffer, .chunk bytes isCancelled :: arrivals =>
    if isCancelled then ([], .ok .cancelled)
    else
      -- the inner loop takes the first event off the buffer until there is none
      let cut := blocks '\n' (buffer ++ replaceCrLf (lossy bytes))
      match readEvents serde cut.1 with
      | (pieces, some err) => (pieces, .error err)
      | (pieces, none) =>
        let later := receive cut.2 arrivals
        (pieces ++ later.1, later.2)

/-- `stream_chat_completion_inner`, when all chunks arrive and nobody cancels. -/
def stream (chunks : List Bytes) : Streamed := receive serde [] (chunks.map (.chunk · false))

def chunkText (chunks : List Bytes) : Text :=
  (chunks.map fun bytes => replaceCrLf (lossy bytes)).flatten

/-! ## Payloads -/

def payloads (event : Text) : List Text :=
  ((eventLines event).filter fun line => decide (dataMark <+: line)).map payloadOf

def dataGroups (text : Text) : List (List Text) :=
  let cut := blocks '\n' text
  ((cut.1 ++ [trimBy isWhitespace cut.2]).map payloads).filter (!·.isEmpty)

/-- The loop of `parse_stream_event`, on payloads. -/
def readPayloads (content : Text) : List Text → Except OpenAiError (Option Text)
  | [] => .ok (if content.isEmpty then none else some content)
  | payload :: rest =>
    if payload = doneMark then .ok none
    else
      match readDelta serde payload with
      | .error err => .error err
      | .ok delta => readPayloads (content ++ delta.getD []) rest

def readGroups : List (List Text) → Streamed
  | [] => ([], .ok .succeeded)
  | group :: groups =>
    match readPayloads serde [] group with
    | .error err => ([], .error err)
    | .ok piece => (piece.toList ++ (readGroups groups).1, (readGroups groups).2)

theorem readLines_eq (content : Text) (lines : List Text) : readLines serde content lines =
    readPayloads serde content
      ((lines.filter fun line => decide (dataMark <+: line)).map payloadOf) := by
  induction lines generalizing content with
  | nil => rfl
  | cons line lines ih =>
    by_cases hdata : dataMark <+: line
    · rw [readLines, if_neg (not_not.mpr hdata), List.filter_cons_of_pos (by simpa using hdata),
        List.map_cons, readPayloads]
      split
      · rfl
      · split
        · rfl
        · exact ih _
    · rw [readLines, if_pos hdata, ih, List.filter_cons_of_neg (by simpa using hdata)]

theorem parseStreamEvent_eq (event : Text) :
    parseStreamEvent serde event = readPayloads serde [] (payloads event) := readLines_eq serde [] _

theorem readGroups_filter (groups : List (List Text)) :
    readGroups serde (groups.filter (!·.isEmpty)) = readGroups serde groups := by
  induction groups with
  | nil => rfl
  | cons group groups ih =>
    cases group with
    | nil =>
      rw [List.filter_cons_of_neg (by simp), ih, readGroups]
      rfl
    | cons payload rest =>
      rw [List.filter_cons_of_pos (by simp), readGroups, readGroups, ih]

theorem finish_eq (rest : Text) :
    finish serde rest = readGroups serde [payloads (trimBy isWhitespace rest)] := by
  unfold finish
  split
  · rename_i hempty
    rw [List.isEmpty_iff.mp hempty]
    rfl
  · rw [readGroups, ← parseStreamEvent_eq]
    cases parseStreamEvent serde (trimBy isWhitespace rest) with
    | error err => rfl
    | ok piece =>
      dsimp only
      rw [readGroups, List.append_nil]

theorem readEvents_append (events more : List Text) : readEvents serde (events ++ more) =
    match readEvents serde events with
    | (pieces, some err) => (pieces, some err)
    | (pieces, none) => (pieces ++ (readEvents serde more).1, (readEvents serde more).2) := by
  induction events with
  | nil => rfl
  | cons event events ih =>
    rw [List.cons_append, readEvents, readEvents, ih]
    cases parseStreamEvent serde event with
    | error err => rfl
    | ok piece =>
      obtain ⟨pieces, fault⟩ := readEvents serde events
      cases fault with
      | none => simp
      | some err => rfl

theorem readGroups_dataGroups (text : Text) : readGroups serde (dataGroups text) =
    match readEvents serde (blocks '\n' text).1 with
    | (pieces, some err) => (pieces, .error err)
    | (pieces, none) => (pieces ++ (finish serde (blocks '\n' text).2).1,
        (finish serde (blocks '\n' text).2).2) := by
  rw [dataGroups, readGroups_filter]
  generalize (blocks '\n' text).1 = events
  generalize (blocks '\n' text).2 = rest
  induction events with
  | nil =>
    rw [finish_eq]
    rfl
  | cons event events ih =>
    rw [List.cons_append, List.map_cons, readGroups, ← parseStreamEvent_eq, ih, readEvents]
    cases parseStreamEvent serde event with
    | error err => rfl
    | ok piece =>
      obtain ⟨pieces, fault⟩ := readEvents serde events
      cases fault with
      | none => simp
      | some err => rfl

/-- **The run depends on the payloads only.** The invariant is that the buffer holds no complete
event between two chunks. -/
theorem receive_chunks (chunks : List Bytes) {buffer : Text}
    (hbuffer : (blocks '\n' buffer).1 = []) :
    receive serde buffer (chunks.map (.chunk · false)) =
      readGroups serde (dataGroups (buffer ++ chunkText chunks)) := by
  induction chunks generalizing buffer with
  | nil =>
    have hnone : chunkText [] = [] := rfl
    rw [readGroups_dataGroups, hnone, List.append_nil, hbuffer, rest_eq_of_none hbuffer]
    rfl
  | cons bytes chunks ih =>
    have htext : buffer ++ chunkText (bytes :: chunks) =
        (buffer ++ replaceCrLf (lossy bytes)) ++ chunkText chunks := by
      rw [chunkText, List.map_cons, List.flatten_cons, List.append_assoc]
      rfl
    rw [List.map_cons, receive, if_neg (by simp), htext, readGroups_dataGroups,
      blocks_append (buffer ++ replaceCrLf (lossy bytes)), readEvents_append]
    dsimp only
    rw [ih (blocks_rest _), readGroups_dataGroups]
    obtain ⟨pieces, fault⟩ := readEvents serde (blocks '\n' (buffer ++ replaceCrLf (lossy bytes))).1
    cases fault with
    | some err => rfl
    | none =>
      dsimp only
      obtain ⟨more, fault⟩ := readEvents serde (blocks '\n'
        ((blocks '\n' (buffer ++ replaceCrLf (lossy bytes))).2 ++ chunkText chunks)).1
      cases fault with
      | some err => rfl
      | none => simp

theorem stream_eq (chunks : List Bytes) :
    stream serde chunks = readGroups serde (dataGroups (chunkText chunks)) :=
  receive_chunks serde chunks rfl

/-! ## The answer -/

def deltaOf (payload : Text) : Text :=
  match readDelta serde payload with
  | .ok (some text) => text
  | _ => []

def contents (group : List Text) : Text := group.flatMap (deltaOf serde)

/-- The event is before the first `[DONE]`, as far as it goes: it has no such line, and all its
payloads can be read. -/
def isOpen (group : List Text) : Bool :=
  !group.contains doneMark && group.all fun payload => (readDelta serde payload).isOk

/-- The text of the events before the first `[DONE]` event, or before the first that cannot be
read. -/
def answer (groups : List (List Text)) : Text :=
  (groups.takeWhile (isOpen serde)).flatMap (contents serde)

/-- What an event gives: nothing if it has a `[DONE]` line. -/
def given (group : List Text) : Text :=
  if doneMark ∈ group then [] else contents serde group

/-- The event can be read, at least up to a `[DONE]` line. -/
def isRead (group : List Text) : Bool := (readPayloads serde [] group).isOk

/-- Behind the events of the answer no event gives text, up to the first that cannot be read. -/
def Quiet (groups : List (List Text)) : Prop :=
  ∀ group ∈ (groups.dropWhile (isOpen serde)).takeWhile (isRead serde),
    doneMark ∉ group → contents serde group = []

instance (groups : List (List Text)) : Decidable (Quiet serde groups) :=
  inferInstanceAs (Decidable (∀ group ∈ _, _))

theorem isOpen_iff {group : List Text} : isOpen serde group = true ↔
    doneMark ∉ group ∧ ∀ payload ∈ group, (readDelta serde payload).isOk = true := by
  simp [isOpen]

theorem readPayloads_ok {content : Text} {group : List Text} {piece : Option Text}
    (h : readPayloads serde content group = .ok piece) :
    piece.getD [] = if doneMark ∈ group then [] else content ++ contents serde group := by
  induction group generalizing content with
  | nil =>
    have hpiece : piece = if content.isEmpty then none else some content :=
      (Except.ok.inj h).symm
    rw [hpiece, if_neg List.not_mem_nil]
    cases content <;> simp [contents]
  | cons payload rest ih =>
    rw [readPayloads] at h
    split at h
    · rename_i hdone
      rw [if_pos (hdone ▸ List.mem_cons_self), ← Except.ok.inj h]
      rfl
    · rename_i hdone
      cases hdelta : readDelta serde payload with
      | error err =>
        rw [hdelta] at h
        cases h
      | ok delta =>
        rw [hdelta] at h
        have hcontents :
            contents serde (payload :: rest) = delta.getD [] ++ contents serde rest := by
          rw [contents, List.flatMap_cons, deltaOf, hdelta]
          cases delta <;> rfl
        have hmem : doneMark ∈ payload :: rest ↔ doneMark ∈ rest := by
          rw [List.mem_cons, or_iff_right (Ne.symm hdone)]
        rw [ih h, hcontents, List.append_assoc]
        simp only [hmem]

theorem getD_of_readPayloads {group : List Text} {piece : Option Text}
    (h : readPayloads serde [] group = .ok piece) : piece.getD [] = given serde group :=
  readPayloads_ok serde h

theorem isRead_of_isOpen {group : List Text} (h : isOpen serde group = true) :
    isRead serde group = true := by
  obtain ⟨hdone, hall⟩ := (isOpen_iff serde).mp h
  have hread : ∀ content, (readPayloads serde content group).isOk = true := by
    clear h
    induction group with
    | nil => intro content; rfl
    | cons payload rest ih =>
      intro content
      rw [List.mem_cons, not_or] at hdone
      obtain ⟨hpayload, hrest⟩ := List.forall_mem_cons.mp hall
      rw [readPayloads, if_neg (Ne.symm hdone.1)]
      cases hdelta : readDelta serde payload with
      | error err =>
        rw [hdelta] at hpayload
        cases hpayload
      | ok delta => exact ih hdone.2 hrest _
  exact hread []

/-- **What is given to `on_chunk`**, put together. -/
theorem flatten_readGroups (groups : List (List Text)) : (readGroups serde groups).1.flatten =
    (groups.takeWhile (isRead serde)).flatMap (given serde) := by
  induction groups with
  | nil => rfl
  | cons group groups ih =>
    rw [readGroups]
    cases hread : readPayloads serde [] group with
    | error err =>
      rw [List.takeWhile_cons_of_neg (by simp [isRead, hread, Except.isOk, Except.toBool])]
      rfl
    | ok piece =>
      have hpiece : piece.toList.flatten = piece.getD [] := by cases piece <;> simp
      rw [List.takeWhile_cons_of_pos (by simp [isRead, hread, Except.isOk, Except.toBool]),
        List.flatten_append, ih, List.flatMap_cons, hpiece, getD_of_readPayloads serde hread]

/-- **The text of a run** is the answer, and what comes behind it. -/
theorem flatten_eq_answer_append (groups : List (List Text)) :
    (readGroups serde groups).1.flatten = answer serde groups ++
      ((groups.dropWhile (isOpen serde)).takeWhile (isRead serde)).flatMap (given serde) := by
  rw [flatten_readGroups, answer]
  induction groups with
  | nil => rfl
  | cons group groups ih =>
    cases hopen : isOpen serde group with
    | true =>
      have hdone := ((isOpen_iff serde).mp hopen).1
      rw [List.takeWhile_cons_of_pos (isRead_of_isOpen serde hopen),
        List.takeWhile_cons_of_pos hopen, List.dropWhile_cons_of_pos hopen, List.flatMap_cons,
        List.flatMap_cons, ih, given, if_neg hdone, List.append_assoc]
    | false =>
      have hnone : (group :: groups).takeWhile (isOpen serde) = [] :=
        List.takeWhile_cons_of_neg (by simp [hopen])
      rw [hnone, List.dropWhile_cons_of_neg (by simp [hopen])]
      rfl

theorem flatten_eq_answer_iff (groups : List (List Text)) :
    (readGroups serde groups).1.flatten = answer serde groups ↔ Quiet serde groups := by
  rw [flatten_eq_answer_append, List.append_right_eq_self, List.flatMap_eq_nil_iff, Quiet]
  refine forall₂_congr fun group _ => ?_
  by_cases hdone : doneMark ∈ group <;> simp [given, hdone]

/-! ## Cuttings -/

structure Cutting (body : Bytes) where
  chunks : List Bytes
  flatten_eq : chunks.flatten = body
  chunk_ne_nil : [] ∉ chunks

def bodyGroups (body : Bytes) : List (List Text) := dataGroups (replaceCrLf (lossy body))

namespace Cutting

variable {body : Bytes} (cutting : Cutting body)

def Intact : Prop := dataGroups (chunkText cutting.chunks) = bodyGroups body

instance : Decidable cutting.Intact := inferInstanceAs (Decidable (_ = _))

end Cutting

/-- Two cuttings of a body end alike and give the same text, which is the answer of the body. -/
structure StreamsAlike {body : Bytes} (first second : Cutting body) : Prop where
  outcome : (stream serde first.chunks).2 = (stream serde second.chunks).2
  text : (stream serde first.chunks).1.flatten = (stream serde second.chunks).1.flatten
  answer : (stream serde first.chunks).1.flatten = ChatStream.answer serde (bodyGroups body)

/-- **When the cutting does not matter.** -/
theorem streamsAlike_iff {body : Bytes} {first second : Cutting body} (hfirst : first.Intact)
    (hsecond : second.Intact) :
    StreamsAlike serde first second ↔ Quiet serde (bodyGroups body) := by
  have hread : stream serde first.chunks = readGroups serde (bodyGroups body) := by
    rw [stream_eq, hfirst]
  have hread' : stream serde second.chunks = readGroups serde (bodyGroups body) := by
    rw [stream_eq, hsecond]
  rw [← flatten_eq_answer_iff]
  constructor
  · intro h
    rw [← hread]
    exact h.answer
  · intro h
    rw [← hread] at h
    exact ⟨by rw [hread, hread'], by rw [hread, hread'], h⟩

/-! ## One character in two chunks -/

def sampleOpening : Text := "\x7b\"choices\":[\x7b\"delta\":\x7b\"content\":\"".toList

def sampleClosing : Text := "\"\x7d\x7d]\x7d".toList

/-- `serde_json` for events with a content and nothing else. -/
def sampleSerde : SerdeJson where
  fromStr payload :=
    if sampleOpening <+: payload ∧ sampleClosing <:+ payload then
      let content := (payload.drop sampleOpening.length).take
        (payload.length - sampleOpening.length - sampleClosing.length)
      let delta := Value.object [("content".toList, .string content)]
      .ok (.object [("choices".toList, .array [.object [("delta".toList, delta)]])])
    else .error "expected value at line 1 column 1".toList
  display _ := "null".toList

def sampleEvent (content : Bytes) : Bytes :=
  utf8 "data: ".toList ++ utf8 sampleOpening ++ content ++ utf8 sampleClosing ++ [10, 10]

def sampleBody : Bytes := sampleEvent [0xc3, 0xa9] ++ utf8 "data: [DONE]\n\n".toList

def sampleWhole : Cutting sampleBody where
  chunks := [sampleBody]
  flatten_eq := List.append_nil _
  chunk_ne_nil := by decide

/-- The body cut after some bytes. -/
def sampleCut (n : ℕ) (hpos : 0 < n) (hlt : n < sampleBody.length) : Cutting sampleBody where
  chunks := [sampleBody.take n, sampleBody.drop n]
  flatten_eq := by simp
  chunk_ne_nil := by
    rw [List.mem_cons, List.mem_singleton, not_or]
    refine ⟨fun h => ?_, fun h => ?_⟩
    · have hlen := congrArg List.length h
      rw [List.length_nil, List.length_take] at hlen
      omega
    · have hlen := congrArg List.length h
      rw [List.length_nil, List.length_drop] at hlen
      omega

/-- A cut in front of the character. -/
theorem streamsAlike_sample :
    StreamsAlike sampleSerde sampleWhole (sampleCut 39 (by decide) (by decide +kernel)) :=
  (streamsAlike_iff sampleSerde (by decide +kernel) (by decide +kernel)).mpr (by decide +kernel)

/-- A cut inside the character: it is read as two others. -/
theorem cut_character_differs : ¬∀ (body : Bytes) (first second : Cutting body),
    StreamsAlike sampleSerde first second := by
  intro h
  have htext := (h sampleBody sampleWhole (sampleCut 40 (by decide) (by decide +kernel))).text
  revert htext
  decide +kernel

end FluxTerm.Ai.ChatStream
