import FluxTerm.Logging.Record
import Mathlib.Data.List.Sort

/-!
# FluxTerm — the log sanitiser of the webview

`buildLogRecord` of `shared/logging`, on objects whose entries come in the order of a script's
objects.
-/

namespace FluxTerm.Logging.Webview

open Lib

variable {ν : Type}

abbrev Value (ν : Type) := LogValue JsString ν

abbrev Record (ν : Type) := LogRecord JsString ν

def maxLogRecordBytes : ℕ := 4 * 1024

def maxLogStringBytes : ℕ := 512

def maxLogErrorDetailBytes : ℕ := 1024

def maxDepth : ℕ := 6

def maxArrayItems : ℕ := 32

def maxObjectFields : ℕ := 64

def arrayIndex (key : Text) : Option ℕ :=
  if key ≠ [] ∧ key.all Char.isDigit ∧ (key = ['0'] ∨ key.head? ≠ some '0')
      ∧ decimal key < 2 ^ 32 - 1 then
    some (decimal key)
  else none

/-- `Object.entries`: array indices first, in ascending order, then the other keys as they came. -/
def entries (fields : List (Text × LogValue Text ν)) : List (Text × LogValue Text ν) :=
  ((fields.filter fun entry => (arrayIndex entry.1).isSome).insertionSort fun a b =>
      (arrayIndex a.1).getD 0 ≤ (arrayIndex b.1).getD 0)
    ++ fields.filter fun entry => !(arrayIndex entry.1).isSome

/-! ## Texts -/

/-- `Math.ceil((start + end) / 2)` is tried until `start` and `end` meet. -/
def searchSlice (fits : ℕ → Bool) (start stop : ℕ) : ℕ :=
  if start < stop then
    if fits ((start + stop + 1) / 2) then searchSlice fits ((start + stop + 1) / 2) stop
    else searchSlice fits start ((start + stop + 1) / 2 - 1)
  else start
termination_by stop - start

def truncateUtf8 (value : JsString) (maxBytes : ℕ) : JsString :=
  if byteLength value ≤ maxBytes then value
  else value.take (searchSlice (fun middle => byteLength (value.take middle) ≤ maxBytes) 0
    value.length)

def isEventChar (ch : Char) : Bool := ch.isLower || ch.isDigit

mutual

/-- `EVENT_PATTERN.test` at the start of a segment. -/
def eventPattern : Text → Bool
  | [] => false
  | ch :: rest => isEventChar ch && eventSegment rest

def eventSegment : Text → Bool
  | [] => true
  | ch :: rest => if ch = '.' then eventPattern rest else isEventChar ch && eventSegment rest

end

/-- `acronyms[segment] ?? segment`. The table is an object, so `constructor` finds the function
`Object`, which is joined to the message as `objectText`. -/
def acronym (objectText segment : Text) : Text :=
  if segment = "ai".toList then "AI".toList
  else if segment = "api".toList then "API".toList
  else if segment = "sftp".toList then "SFTP".toList
  else if segment = "ssh".toList then "SSH".toList
  else if segment = "tls".toList then "TLS".toList
  else if segment = "ui".toList then "UI".toList
  else if segment = "constructor".toList then objectText
  else segment

def messageFromEvent (objectText event : Text) : Text :=
  List.intercalate [' '] ((event.splitOn '.').map (acronym objectText))

/-- `value.split(/\s+/u)`. -/
def splitRuns : Text → List Text
  | [] => [[]]
  | ch :: rest =>
    if !isJsWhitespace ch then (splitRuns rest).modifyHead (ch :: ·)
    else if rest.head?.any isJsWhitespace then splitRuns rest
    else [] :: splitRuns rest

/-- A letter for `[a-z]` with the flags `iu`: two characters outside ASCII fold to one. -/
def isFoldedLetter (ch : Char) : Bool := ch.isAlpha || ch.toNat == 0x17f || ch.toNat == 0x212a

/-- The three tests of `redactAbsolutePaths`. -/
def looksLikeAbsolutePath (part : Text) : Bool :=
  (part.head?.any isFoldedLetter && part[1]? = some ':' &&
      (part[2]? = some '\\' || part[2]? = some '/'))
    || "\\\\".toList.isPrefixOf part
    || ("/home/".toList.isPrefixOf part || "/Users/".toList.isPrefixOf part)

def redactPart (part : Text) : Text :=
  if looksLikeAbsolutePath part then "[REDACTED_PATH]".toList else part

def redactAbsolutePaths (value : Text) : Text :=
  List.intercalate [' '] ((splitRuns value).map redactPart)

/-! ## Keys -/

def isCoreField (key : Text) : Bool :=
  decide (key ∈ ["event".toList, "message".toList, "component".toList, "operationId".toList,
    "truncated".toList])

/-- A character that `/[^a-z0-9]/giu` does not match. -/
def isKeyChar (ch : Char) : Bool := isFoldedLetter ch || ch.isDigit

def normalizedKey (key : Text) : Text :=
  (key.filter isKeyChar).map fun ch => if ch.toNat = 0x212a then 'k' else ch.toLower

def sensitiveKeys : List Text :=
  ["password".toList, "passphrase".toList, "privatekey".toList, "apikey".toList,
    "token".toList, "cookie".toList, "authorization".toList, "secret".toList, "path".toList,
    "localpath".toList, "remotepath".toList, "filename".toList, "filepath".toList,
    "terminaloutput".toList, "recentterminaloutput".toList, "terminalinput".toList,
    "command".toList, "clipboard".toList, "clipboardtext".toList, "messages".toList,
    "prompt".toList, "selectiontext".toList, "response".toList, "content".toList]

def isSensitiveKey (key : Text) : Bool := decide (normalizedKey key ∈ sensitiveKeys)

def protoKey : Text := "__proto__".toList

/-! ## Values -/

/-- `sanitizeValue`. The first argument is the depth that is left: `MAX_DEPTH - depth`. The numbers
of a JSON object are finite, and it does not hold an object twice. -/
def sanitizeValue : ℕ → LogValue Text ν → Text → Option (Value ν)
  | 0, _, _ => none
  | left + 1, value, key =>
    if isSensitiveKey key then none
    else match value with
      | .null => some .null
      | .bool value => some (.bool value)
      | .number value => some (.number value)
      | .string value => some (.string (truncateUtf8 (jsText value) maxLogStringBytes))
      | .array values =>
        some (.array ((values.take maxArrayItems).filterMap fun value =>
          sanitizeValue left value key))
      | .object values =>
        some (.object (((entries values).take maxObjectFields).filterMap fun entry =>
          if isCoreField entry.1 || isSensitiveKey entry.1 || entry.1 = protoKey then none
          else (sanitizeValue left entry.2 entry.1).map (entry.1, ·)))

/-- What `sanitizeError` takes for an object. -/
def isObject : LogValue Text ν → Bool
  | .array _ => true
  | .object _ => true
  | _ => false

def orElseText (value : Option (LogValue Text ν)) (fallback : Text) : Text :=
  ((value.bind LogValue.asString?).filter fun text => !(trimBy isJsWhitespace text).isEmpty).getD
    fallback

def rawDetail (value : LogValue Text ν) (canonicalMessage : Text) : Option Text :=
  let providedMessage := orElseText (value.property "message".toList) "Operation failed".toList
  (((value.property "detail".toList).bind LogValue.asString?).or
      ((value.property "details".toList).bind LogValue.asString?)).or
    (if providedMessage ≠ canonicalMessage then some providedMessage else none)

def sanitizeError (value : LogValue Text ν) (canonicalMessage : Text) :
    Option (LogError JsString) :=
  if isObject value then
    some {
      code := truncateUtf8
        (jsText (orElseText (value.property "code".toList) "unknown_error".toList))
        maxLogStringBytes
      message := truncateUtf8 (jsText canonicalMessage) maxLogStringBytes
      detail := ((rawDetail value canonicalMessage).filter (!·.isEmpty)).map fun rawDetail =>
        truncateUtf8 (jsText (redactAbsolutePaths rawDetail)) maxLogErrorDetailBytes }
  else none

/-! ## Records -/

def skipsKey (key : Text) : Bool := isCoreField key || isSensitiveKey key

def insertField (canonicalMessage : Text) (record : Record ν) (entry : Text × LogValue Text ν) :
    Record ν :=
  LogRecord.insertField skipsKey (sanitizeError · canonicalMessage)
    (fun key value => (sanitizeValue maxDepth value key).filter fun _ => key ≠ protoKey)
    record entry

/-- The record with what every record has. -/
def header (objectText event : Text) (operationId : Option Text) : Record ν where
  event := jsText event
  message := jsText (messageFromEvent objectText event)
  component := jsText "webview".toList
  operationId := ((operationId.map (trimBy isJsWhitespace)).filter (!·.isEmpty)).map fun value =>
    truncateUtf8 (jsText value) maxLogStringBytes
  error := none
  truncated := false
  fields := []

def fullRecord (objectText event : Text) (fields : List (Text × LogValue Text ν))
    (operationId : Option Text) : Record ν :=
  { ((entries fields).take maxObjectFields).foldl
      (insertField (messageFromEvent objectText event)) (header objectText event operationId) with
    truncated := decide (maxObjectFields < (entries fields).length) }

def invalidRecord : Record ν where
  event := jsText "logging.record.invalid".toList
  message := jsText "Structured log record is invalid".toList
  component := jsText "webview".toList
  operationId := none
  error := some ⟨jsText "logging_invalid_event".toList,
    jsText "Structured log record was rejected".toList, none⟩
  truncated := false
  fields := []

/-- `JSON.stringify`, in bytes of UTF-8. -/
def printed (N : NumberTexts ν) : Printed JsString ν where
  key key := quotedLength codePointBytes (key.map Char.toNat)
  string value := quotedLength codePointBytes (codePoints value)
  number value := (N.script value).length

def codePointUnits (n : ℕ) : ℕ := if n < 0x10000 then 1 else 2

/-- `JSON.stringify(…).length`. -/
def printedUnits (N : NumberTexts ν) : Printed JsString ν where
  key key := quotedLength codePointUnits (key.map Char.toNat)
  string value := quotedLength codePointUnits (codePoints value)
  number value := (N.script value).length

def encodedBytes (N : NumberTexts ν) (record : Record ν) : ℕ :=
  encodedLength (printed N) record.toValue

def fits (N : NumberTexts ν) (record : Record ν) : Bool :=
  decide (encodedBytes N record ≤ maxLogRecordBytes)

def withoutDetail (record : Record ν) : Record ν :=
  { record with
    truncated := true
    error := record.error.map fun error =>
      { error with detail := error.detail.filter List.isEmpty } }

def optionalKeys (N : NumberTexts ν) (record : Record ν) : List Text :=
  (record.fields.insertionSort fun left right =>
    encodedLength (printedUnits N) right.2 ≤ encodedLength (printedUnits N) left.2).map Prod.fst

def enforceRecordLimit (N : NumberTexts ν) (record : Record ν) : Record ν :=
  if fits N record then record
  else if fits N (withoutDetail record) then withoutDetail record
  else (withoutDetail record).dropUntil (fits N) (optionalKeys N (withoutDetail record))

def buildLogRecord (N : NumberTexts ν) (objectText event : Text)
    (fields : List (Text × LogValue Text ν)) (operationId : Option Text) : Record ν :=
  if eventPattern event then
    enforceRecordLimit N (fullRecord objectText event fields operationId)
  else invalidRecord

end FluxTerm.Logging.Webview
