import FluxTerm.Logging.Record
import Mathlib.Data.List.Sort
import Mathlib.Data.List.Lex
import Mathlib.Data.Char

/-!
# FluxTerm — the log sanitiser of the backend

`build_record` of the logging crate, on JSON values whose maps iterate in the order of their keys.
-/

namespace FluxTerm.Logging.Backend

open Lib

variable {ν : Type}

abbrev Value (ν : Type) := LogValue Text ν

abbrev Record (ν : Type) := LogRecord Text ν

def maxRecordBytes : ℕ := 4 * 1024

def maxStringBytes : ℕ := 512

def maxErrorDetailBytes : ℕ := 1024

def maxDepth : ℕ := 6

def maxArrayItems : ℕ := 32

def maxObjectFields : ℕ := 64

/-- The entries of a map, which is a `BTreeMap`. Bytes of UTF-8 compare as characters do. -/
def entries (fields : List (Text × Value ν)) : List (Text × Value ν) :=
  fields.insertionSort fun a b => a.1 ≤ b.1

/-! ## Texts -/

def truncateUtf8 (value : Text) (maxBytes : ℕ) : Text :=
  if utf8Len value ≤ maxBytes then value else sliceTo value (floorCharBoundary value maxBytes)

def isValidEventName (value : Text) : Bool :=
  if value.isEmpty || value.head? = some '.' || value.getLast? = some '.' then false
  else (value.splitOn '.').all fun segment =>
    !segment.isEmpty && segment.all fun ch => ch.isLower || ch.isDigit

/-- The segments of an event that are written in capitals. -/
def acronym (segment : Text) : Text :=
  if segment = "ai".toList then "AI".toList
  else if segment = "api".toList then "API".toList
  else if segment = "sftp".toList then "SFTP".toList
  else if segment = "ssh".toList then "SSH".toList
  else if segment = "tls".toList then "TLS".toList
  else if segment = "ui".toList then "UI".toList
  else segment

def messageFromEvent (event : Text) : Text :=
  List.intercalate [' '] ((event.splitOn '.').map acronym)

/-- The three tests of `redact_absolute_paths`, on the bytes of a part. -/
def looksLikeAbsolutePath (part : Text) : Bool :=
  let bytes := part.flatMap String.utf8EncodeChar
  (decide (3 < bytes.length) && bytes[1]? = some 0x3a &&
      (bytes[2]? = some 0x5c || bytes[2]? = some 0x2f))
    || "\\\\".toList.isPrefixOf part
    || ("/home/".toList.isPrefixOf part || "/Users/".toList.isPrefixOf part)

def redactPart (part : Text) : Text :=
  if looksLikeAbsolutePath part then "[REDACTED_PATH]".toList else part

def redactAbsolutePaths (value : Text) : Text :=
  List.intercalate [' '] ((splitWhitespace value).map redactPart)

/-! ## Keys -/

def isCoreReservedKey (key : Text) : Bool :=
  decide (key ∈ ["event".toList, "message".toList, "component".toList, "operationId".toList,
    "truncated".toList])

def normalizedKey (key : Text) : Text := (key.filter Char.isAlphanum).map Char.toLower

def sensitiveKeys : List Text :=
  ["password".toList, "passwordref".toList, "passphrase".toList, "privatekey".toList,
    "privatekeypassphraseref".toList, "apikey".toList, "token".toList, "cookie".toList,
    "authorization".toList, "secret".toList, "ciphertext".toList, "user".toList,
    "username".toList, "domain".toList, "path".toList, "localpath".toList, "remotepath".toList,
    "filename".toList, "filepath".toList, "terminaloutput".toList,
    "recentterminaloutput".toList, "terminalinput".toList, "command".toList,
    "clipboard".toList, "clipboardtext".toList, "messages".toList, "prompt".toList,
    "selectiontext".toList, "response".toList, "content".toList]

def isSensitiveKey (key : Text) : Bool := decide (normalizedKey key ∈ sensitiveKeys)

/-! ## Values -/

/-- `sanitize_value`. The first argument is the depth that is left: `MAX_DEPTH - depth`. -/
def sanitizeValue : ℕ → Value ν → Text → Option (Value ν)
  | 0, _, _ => none
  | left + 1, value, key =>
    if isSensitiveKey key then none
    else match value with
      | .string value => some (.string (truncateUtf8 value maxStringBytes))
      | .array values =>
        some (.array ((values.take maxArrayItems).filterMap fun value =>
          sanitizeValue left value key))
      | .object values =>
        -- the keys of a map are distinct: an insertion adds an entry
        some (.object (((entries values).take maxObjectFields).filterMap fun entry =>
          if isSensitiveKey entry.1 || isCoreReservedKey entry.1 then none
          else (sanitizeValue left entry.2 entry.1).map (entry.1, ·)))
      | value => some value

def providedMessage (error : List (Text × Value ν)) : Text :=
  ((error.lookup "message".toList).bind LogValue.asString?).getD "Operation failed".toList

def rawDetail (error : List (Text × Value ν)) (canonicalMessage : Text) : Option Text :=
  (((error.lookup "detail".toList).or (error.lookup "details".toList)).bind LogValue.asString?).or
    (if providedMessage error ≠ canonicalMessage then some (providedMessage error) else none)

def sanitizeError (value : Value ν) (canonicalMessage : Text) : Option (LogError Text) :=
  match value with
  | .object error => some {
      code := truncateUtf8
        (((error.lookup "code".toList).bind LogValue.asString?).getD "unknown_error".toList)
        maxStringBytes
      message := truncateUtf8 canonicalMessage maxStringBytes
      detail := (rawDetail error canonicalMessage).map fun detail =>
        truncateUtf8 (redactAbsolutePaths detail) maxErrorDetailBytes }
  | _ => none

/-! ## Records -/

def skipsKey (key : Text) : Bool := isCoreReservedKey key || isSensitiveKey key

def insertField (canonicalMessage : Text) (payload : Record ν) (entry : Text × Value ν) :
    Record ν :=
  LogRecord.insertField skipsKey (sanitizeError · canonicalMessage)
    (fun key value => sanitizeValue maxDepth value key) payload entry

/-- The record with what every record has. -/
def header (event component : Text) (operationId : Option Text) : Record ν where
  event := event
  message := messageFromEvent event
  component := truncateUtf8 (trimBy isWhitespace component) maxStringBytes
  operationId := ((operationId.map (trimBy isWhitespace)).filter (!·.isEmpty)).map fun value =>
    truncateUtf8 value maxStringBytes
  error := none
  truncated := false
  fields := []

def payload (event component : Text) (operationId : Option Text) (fields : Value ν) : Record ν :=
  match fields with
  | .object fields =>
    { ((entries fields).take maxObjectFields).foldl (insertField (messageFromEvent event))
        (header event component operationId) with
      truncated := decide (maxObjectFields < (entries fields).length) }
  | _ => header event component operationId

def invalidRecord (component code : Text) : Record ν where
  event := "logging.record.invalid".toList
  message := "Structured log record is invalid".toList
  component := truncateUtf8 component maxStringBytes
  operationId := none
  error := some ⟨code, "Structured log record was rejected".toList, none⟩
  truncated := false
  fields := []

/-- What `serde_json` writes. -/
def printed (N : NumberTexts ν) : Printed Text ν where
  key key := quotedLength codePointBytes (key.map Char.toNat)
  string value := quotedLength codePointBytes (value.map Char.toNat)
  number value := (N.serde value).length

def encodedLen (N : NumberTexts ν) (payload : Record ν) : ℕ :=
  encodedLength (printed N) payload.toValue

def fits (N : NumberTexts ν) (payload : Record ν) : Bool :=
  decide (encodedLen N payload ≤ maxRecordBytes)

def withoutDetail (payload : Record ν) : Record ν :=
  { payload with
    truncated := true
    error := payload.error.map fun error => { error with detail := none } }

def removable (N : NumberTexts ν) (payload : Record ν) : List Text :=
  (payload.fields.insertionSort fun a b =>
    encodedLength (printed N) b.2 ≤ encodedLength (printed N) a.2).map Prod.fst

def enforceRecordLimit (N : NumberTexts ν) (payload : Record ν) : Record ν :=
  if fits N payload then payload
  else if fits N (withoutDetail payload) then withoutDetail payload
  else (withoutDetail payload).dropUntil (fits N) (removable N (withoutDetail payload))

def buildRecord (N : NumberTexts ν) (event component : Text) (operationId : Option Text)
    (fields : Value ν) : Record ν :=
  if isValidEventName event then
    enforceRecordLimit N (payload event component operationId fields)
  else invalidRecord component "logging_invalid_event".toList

end FluxTerm.Logging.Backend
