import FluxTerm.Logging.Clean

/-!
# FluxTerm — the two log sanitisers

`build_record` of the backend with the component `webview`, and `buildLogRecord` of the webview, on
the same event, operation id and fields.

* **`agrees_of_alike`** — where the steps are alike, the records agree.
* **`not_agrees_of_passwordRef`** — the webview writes a reference to a password, which the backend
  drops.
-/

namespace FluxTerm.Logging

open Lib

variable {ν : Type}

/-! ## Errors -/

/-- The fields of an error that the two work on alike. -/
structure ErrorFieldsAlike (canonicalMessage : Text) (error : List (Text × LogValue Text ν)) :
    Prop where
  code : ∀ code, (error.lookup "code".toList).bind LogValue.asString? = some code →
    trimBy isJsWhitespace code ≠ [] ∧ ¬CutsPair code Backend.maxStringBytes
  details : ∀ detail, error.lookup "detail".toList = some detail → detail.asString? = none →
    (error.lookup "details".toList).bind LogValue.asString? = none
  message : ((error.lookup "detail".toList).or (error.lookup "details".toList)).bind
      LogValue.asString? = none →
    ∀ message, (error.lookup "message".toList).bind LogValue.asString? = some message →
      trimBy isJsWhitespace message ≠ []
  detail : ∀ detail, Backend.rawDetail error canonicalMessage = some detail → DetailAlike detail

def ErrorAlike (canonicalMessage : Text) : LogValue Text ν → Prop
  | .array _ => False
  | .object error => ErrorFieldsAlike canonicalMessage error
  | _ => True

theorem orElseText_eq (value : Option (LogValue Text ν)) (fallback : Text)
    (h : ∀ text, value.bind LogValue.asString? = some text → trimBy isJsWhitespace text ≠ []) :
    Webview.orElseText value fallback = (value.bind LogValue.asString?).getD fallback := by
  unfold Webview.orElseText
  cases htext : value.bind LogValue.asString? with
  | none => rfl
  | some text =>
    rw [Option.filter_some, if_pos]
    rw [Bool.not_eq_true', List.isEmpty_eq_false_iff]
    exact h text htext

variable {canonicalMessage : Text} {error : List (Text × LogValue Text ν)}

theorem ErrorFieldsAlike.rawDetail_eq (h : ErrorFieldsAlike canonicalMessage error) :
    Webview.rawDetail (.object error) canonicalMessage
      = Backend.rawDetail error canonicalMessage := by
  have hgiven : ((error.lookup "detail".toList).bind LogValue.asString?).or
      ((error.lookup "details".toList).bind LogValue.asString?)
      = ((error.lookup "detail".toList).or (error.lookup "details".toList)).bind
        LogValue.asString? := by
    cases hdetail : error.lookup "detail".toList with
    | none => rfl
    | some detail =>
      cases hstring : detail.asString? with
      | none =>
        rw [h.details detail hdetail hstring, Option.bind_some, hstring, Option.some_or,
          Option.bind_some, hstring]
        rfl
      | some text =>
        rw [Option.bind_some, hstring, Option.some_or, Option.some_or, Option.bind_some, hstring]
  unfold Webview.rawDetail Backend.rawDetail
  dsimp only [LogValue.property]
  rw [hgiven]
  cases hnone : ((error.lookup "detail".toList).or (error.lookup "details".toList)).bind
    LogValue.asString? with
  | some detail => rfl
  | none =>
    rw [orElseText_eq _ _ (h.message hnone)]
    rfl

/-- **The two make the same of an error.** -/
theorem sanitizeError_eq {value : LogValue Text ν} (h : ErrorAlike canonicalMessage value)
    (hmessage : ¬CutsPair canonicalMessage Backend.maxStringBytes) :
    Webview.sanitizeError value canonicalMessage
      = (Backend.sanitizeError value canonicalMessage).map (LogError.map jsText) := by
  cases value with
  | array items => exact h.elim
  | object error =>
    have h : ErrorFieldsAlike canonicalMessage error := h
    have hcode := orElseText_eq (error.lookup "code".toList) "unknown_error".toList
      fun code hcode => (h.code code hcode).1
    have hcodeUncut : ¬CutsPair (((error.lookup "code".toList).bind LogValue.asString?).getD
        "unknown_error".toList) Backend.maxStringBytes := by
      cases hgiven : (error.lookup "code".toList).bind LogValue.asString? with
      | none => exact not_cutsPair_of_le (by decide)
      | some code => exact (h.code code hgiven).2
    unfold Webview.sanitizeError Backend.sanitizeError
    rw [if_pos (c := Webview.isObject (LogValue.object error) = true) rfl, h.rawDetail_eq]
    dsimp only [LogValue.property]
    rw [hcode]
    refine congrArg some ?_
    unfold LogError.map
    dsimp only
    congr 1
    · exact truncateUtf8_jsText hcodeUncut
    · exact truncateUtf8_jsText hmessage
    · cases hdetail : Backend.rawDetail error canonicalMessage with
      | none => rfl
      | some detail =>
        have halike := h.detail detail hdetail
        rw [Option.filter_some, if_pos (by
          rw [Bool.not_eq_true', List.isEmpty_eq_false_iff]; exact halike.notEmpty),
          Option.map_some, Option.map_some, Option.map_some, halike.redactAbsolutePaths_eq]
        exact congrArg some (truncateUtf8_jsText halike.uncut)
  | _ => rfl

theorem detail_ne_nil {value : LogValue Text ν} (h : ErrorAlike canonicalMessage value)
    {kept : LogError Text} (hkept : Backend.sanitizeError value canonicalMessage = some kept) :
    ∀ detail ∈ kept.detail, detail ≠ [] := by
  cases value with
  | object error =>
    have h : ErrorFieldsAlike canonicalMessage error := h
    cases hkept
    intro detail hdetail
    obtain ⟨given, hgiven, rfl⟩ := Option.map_eq_some_iff.mp hdetail
    exact truncateUtf8_ne_nil (h.detail given hgiven).redact_ne_nil (by decide)
  | _ => cases hkept

/-! ## What is wanted -/

/-- The two records have the same keys at every depth, the same error and the same mark, and the
webview writes nothing that the backend would drop. -/
structure Agrees (backend : Backend.Record ν) (webview : Webview.Record ν) : Prop where
  keys : SameKeys backend.toValue webview.toValue
  error : webview.error = backend.error.map (LogError.map jsText)
  truncated : webview.truncated = backend.truncated
  noLeak : Clean webview.toValue

/-- Both write what they keep in the same length, and take fields out in the same order. -/
structure SizedAlike (N : NumberTexts ν) (objectText event : Text) (operationId : Option Text)
    (fields : LogFields ν) : Prop where
  uncut : ∀ id ∈ operationId, ¬CutsPair (trimBy isWhitespace id) Backend.maxStringBytes
  values : ∀ entry ∈ readEntries fields.entries, Backend.skipsKey entry.1 = false →
    entry.1 ≠ "error".toList → PrintsAlike N Backend.maxDepth entry.2
  order :
    Backend.fits N (Backend.withoutDetail
        (Backend.payload event "webview".toList operationId (.object fields.entries))) = true ∨
      Webview.optionalKeys N (Webview.withoutDetail
          (Webview.fullRecord objectText event fields.entries operationId))
        = Backend.removable N (Backend.withoutDetail
          (Backend.payload event "webview".toList operationId (.object fields.entries)))

/-- No step of the two sanitisers treats the event, the operation id or a field differently. -/
structure Alike (N : NumberTexts ν) (objectText event : Text) (operationId : Option Text)
    (fields : LogFields ν) : Prop where
  segments : "constructor".toList ∉ event.splitOn '.'
  trimmed : ∀ id ∈ operationId, trimBy isJsWhitespace id = trimBy isWhitespace id
  first : SameFirst fields.entries
  keys : ∀ entry ∈ readEntries fields.entries, KeyAlike entry.1
  values : ∀ entry ∈ readEntries fields.entries, Backend.skipsKey entry.1 = false →
    entry.1 ≠ "error".toList → ReadAlike Backend.maxDepth entry.2
  error : ∀ value, ("error".toList, value) ∈ readEntries fields.entries →
    ErrorAlike (Backend.messageFromEvent event) value
  size :
    (Backend.fits N (Backend.payload event "webview".toList operationId (.object fields.entries))
        = true ∧
      Webview.fits N (Webview.fullRecord objectText event fields.entries operationId) = true) ∨
    SizedAlike N objectText event operationId fields

/-! ## The records while they are built -/

/-- What holds of the two records, whatever lengths they have. -/
structure Matches (R : Backend.Record ν) (T : Webview.Record ν) : Prop where
  operationId : T.operationId.isSome = R.operationId.isSome
  error : T.error = R.error.map (LogError.map jsText)
  detail : ∀ error ∈ R.error, ∀ detail ∈ error.detail, detail ≠ []
  truncated : T.truncated = R.truncated
  fields : SameFields R.fields T.fields
  clean : CleanFields R.fields

/-- The two records say the same in the same length. -/
structure Written (N : NumberTexts ν) (R : Backend.Record ν) (T : Webview.Record ν) : Prop extends
    Matches R T where
  event : T.event = jsText R.event
  message : T.message = jsText R.message
  component : T.component = jsText R.component
  operationIdText : T.operationId = R.operationId.map jsText
  sizes : (sizes (Backend.printed N) R.fields).Perm (sizes (Webview.printed N) T.fields)

section Records

variable {N : NumberTexts ν} {R : Backend.Record ν} {T : Webview.Record ν}

theorem sameKeys_error (error : LogError Text) :
    SameKeys (error.toValue : LogValue Text ν)
      ((error.map jsText).toValue : LogValue JsString ν) := by
  refine SameKeys.object (.cons _ (.leaf rfl rfl) (.cons _ (.leaf rfl rfl) ?_))
  obtain ⟨code, message, detail⟩ := error
  cases detail with
  | none => exact .nil
  | some detail => exact .cons _ (.leaf rfl rfl) .nil

namespace Matches

theorem sameKeys (h : Matches R T) : SameKeys R.toValue T.toValue := by
  refine SameKeys.object ((((SameFields.append ?_ ?_).append ?_).append ?_).append h.fields)
  · exact .cons _ (.leaf rfl rfl) (.cons _ (.leaf rfl rfl) (.cons _ (.leaf rfl rfl) .nil))
  · have hid := h.operationId
    cases hR : R.operationId with
    | none =>
      rw [hR, Option.isSome_none, Option.isSome_eq_false_iff, Option.isNone_iff_eq_none] at hid
      rw [hid]
      exact .nil
    | some id =>
      rw [hR] at hid
      obtain ⟨id', hid'⟩ := Option.isSome_iff_exists.mp hid
      rw [hid']
      exact .cons _ (.leaf rfl rfl) .nil
  · rw [h.error]
    cases R.error with
    | none => exact .nil
    | some error => exact .cons _ (sameKeys_error error) .nil
  · rw [h.truncated]
    split
    · exact .cons _ (.leaf rfl rfl) .nil
    · exact .nil

theorem agrees (h : Matches R T) : Agrees R T := by
  refine ⟨h.sameKeys, h.error, h.truncated, fun path key hsome => ?_⟩
  rw [← h.sameKeys] at hsome
  exact clean_toValue h.clean path key hsome

theorem withoutDetail (h : Matches R T) :
    Matches (Backend.withoutDetail R) (Webview.withoutDetail T) where
  operationId := h.operationId
  error := by
    show T.error.map _ = (R.error.map _).map _
    rw [h.error]
    cases herror : R.error with
    | none => rfl
    | some error =>
      obtain ⟨code, message, detail⟩ := error
      cases detail with
      | none => rfl
      | some detail =>
        have hne := jsText_ne_nil (h.detail _ herror detail rfl)
        rw [Option.map_some, Option.map_some, Option.map_some, Option.map_some]
        unfold LogError.map
        dsimp only
        rw [Option.map_some, Option.filter_some,
          if_neg fun hempty => hne (List.isEmpty_iff.mp hempty)]
        rfl
  detail := by
    intro error herror detail hdetail
    obtain ⟨_, -, rfl⟩ := Option.map_eq_some_iff.mp herror
    cases hdetail
  truncated := rfl
  fields := h.fields
  clean := h.clean

theorem remove (h : Matches R T) (key : Text) : Matches (R.remove key) (T.remove key) where
  operationId := h.operationId
  error := h.error
  detail := h.detail
  truncated := h.truncated
  fields := by
    intro other
    show Option.Rel SameKeys ((R.fields.filter _).lookup other) ((T.fields.filter _).lookup other)
    rw [lookup_filter_ne, lookup_filter_ne]
    split
    · exact .none
    · exact h.fields other
  clean := fun field hfield => h.clean field (List.mem_of_mem_filter hfield)

end Matches

theorem sameLength_error (N : NumberTexts ν) (error : LogError Text) :
    encodedLength (Backend.printed N) error.toValue
      = encodedLength (Webview.printed N) (error.map jsText).toValue := by
  obtain ⟨code, message, detail⟩ := error
  cases detail with
  | none =>
    simp only [LogError.map, LogError.toValue, Option.map_none, encodedLength, fieldsLength,
      Option.toList_none, string_printed]
    rfl
  | some detail =>
    simp only [LogError.map, LogError.toValue, Option.map_some, encodedLength, fieldsLength,
      Option.toList_some, string_printed]
    rfl

namespace Written

theorem withoutDetail (h : Written N R T) :
    Written N (Backend.withoutDetail R) (Webview.withoutDetail T) where
  toMatches := h.toMatches.withoutDetail
  event := h.event
  message := h.message
  component := h.component
  operationIdText := h.operationIdText
  sizes := h.sizes

theorem remove (h : Written N R T) (key : Text) : Written N (R.remove key) (T.remove key) where
  toMatches := h.toMatches.remove key
  event := h.event
  message := h.message
  component := h.component
  operationIdText := h.operationIdText
  sizes := by
    have hsizes := h.sizes.filter (·.1 ≠ key)
    rw [FluxTerm.Logging.sizes, FluxTerm.Logging.sizes, List.filter_map, List.filter_map] at hsizes
    exact hsizes

theorem encodedLen_eq (h : Written N R T) : Webview.encodedBytes N T = Backend.encodedLen N R := by
  unfold Webview.encodedBytes Backend.encodedLen LogRecord.toValue
  rw [encodedLength_object, encodedLength_object]
  refine (sizesLength_perm _ ?_).symm
  unfold FluxTerm.Logging.sizes
  repeat rw [List.map_append]
  refine List.Perm.append (List.Perm.of_eq ?_) h.sizes
  rw [h.event, h.message, h.component, h.operationIdText, h.error, h.truncated]
  congr 1
  · congr 1
    · congr 1
      · simp only [List.map_cons, List.map_nil, encodedLength, string_printed]
      · cases R.operationId with
        | none => rfl
        | some id =>
          simp only [Option.map_some, Option.toList_some, List.map_cons, List.map_nil,
            encodedLength, string_printed]
    · cases R.error with
      | none => rfl
      | some error =>
        simp only [Option.map_some, Option.toList_some, List.map_cons, List.map_nil,
          sameLength_error N error]
  · split <;> rfl

theorem fits_eq (h : Written N R T) : Webview.fits N T = Backend.fits N R := by
  unfold Webview.fits Backend.fits
  rw [h.encodedLen_eq]
  rfl

theorem dropUntil (h : Written N R T) (keys : List Text) :
    Matches (R.dropUntil (Backend.fits N) keys) (T.dropUntil (Webview.fits N) keys) := by
  induction keys generalizing R T with
  | nil => exact h.toMatches
  | cons key keys ih =>
    unfold LogRecord.dropUntil
    rw [(h.remove key).fits_eq]
    split
    · exact (h.remove key).toMatches
    · exact ih (h.remove key)

end Written

end Records

/-! ## The two records before their size is looked at -/

section Built

variable {event : Text} {operationId : Option Text}

def Backend.keepField (entry : Text × LogValue Text ν) : Option (LogValue Text ν) :=
  LogRecord.keepField Backend.skipsKey
    (fun key value => Backend.sanitizeValue Backend.maxDepth value key) entry

def Webview.keepField (entry : Text × LogValue Text ν) : Option (Webview.Value ν) :=
  LogRecord.keepField Webview.skipsKey
    (fun key value => (Webview.sanitizeValue Webview.maxDepth value key).filter
      fun _ => key ≠ Webview.protoKey) entry

theorem Backend.payload_eq {fields : List (Text × LogValue Text ν)}
    (h : (fields.map Prod.fst).Nodup) (event component : Text) (operationId : Option Text) :
    Backend.payload event component operationId (.object fields) =
      { (Backend.header event component operationId : Backend.Record ν) with
        error := ((readEntries fields).lookup "error".toList).bind
          (Backend.sanitizeError · (Backend.messageFromEvent event))
        truncated := decide (Backend.maxObjectFields < fields.length)
        fields := (readEntries fields).filterMap fun entry =>
          (Backend.keepField entry).map (entry.1, ·) } := by
  have hloop : (readEntries fields).foldl (Backend.insertField (Backend.messageFromEvent event))
      (Backend.header event component operationId) = _ :=
    @LogRecord.foldl_insertField _ _ Backend.skipsKey
      (Backend.sanitizeError · (Backend.messageFromEvent event))
      (fun key value => Backend.sanitizeValue Backend.maxDepth value key) rfl _
      (nodup_readEntries h) _
  have hnone : (Backend.header event component operationId : Backend.Record ν).error = none := rfl
  rw [hnone, Option.or_none] at hloop
  unfold Backend.payload
  dsimp only
  rw [(Backend.entries_perm fields).length_eq]
  exact congrArg (fun record : Backend.Record ν =>
    { record with truncated := decide (Backend.maxObjectFields < fields.length) }) hloop

theorem Webview.fullRecord_eq {fields : List (Text × LogValue Text ν)}
    (h : (((Webview.entries fields).take Webview.maxObjectFields).map Prod.fst).Nodup)
    (objectText event : Text) (operationId : Option Text) :
    Webview.fullRecord objectText event fields operationId =
      { (Webview.header objectText event operationId : Webview.Record ν) with
        error := (((Webview.entries fields).take Webview.maxObjectFields).lookup
          "error".toList).bind
          (Webview.sanitizeError · (Webview.messageFromEvent objectText event))
        truncated := decide (Webview.maxObjectFields < fields.length)
        fields := ((Webview.entries fields).take Webview.maxObjectFields).filterMap fun entry =>
          (Webview.keepField entry).map (entry.1, ·) } := by
  have hloop : ((Webview.entries fields).take Webview.maxObjectFields).foldl
      (Webview.insertField (Webview.messageFromEvent objectText event))
      (Webview.header objectText event operationId) = _ :=
    @LogRecord.foldl_insertField _ _ Webview.skipsKey
      (Webview.sanitizeError · (Webview.messageFromEvent objectText event))
      (fun key value => (Webview.sanitizeValue Webview.maxDepth value key).filter
        fun _ => key ≠ Webview.protoKey) rfl _ h _
  have hnone : (Webview.header objectText event operationId : Webview.Record ν).error = none := rfl
  rw [hnone, Option.or_none] at hloop
  unfold Webview.fullRecord
  rw [(Webview.entries_perm fields).length_eq]
  exact congrArg (fun record : Webview.Record ν =>
    { record with truncated := decide (Webview.maxObjectFields < fields.length) }) hloop

theorem keepField_rel {S : LogValue Text ν → Webview.Value ν → Prop}
    {entry : Text × LogValue Text ν} (hkey : KeyAlike entry.1)
    (h : Backend.skipsKey entry.1 = false → entry.1 ≠ "error".toList →
      Option.Rel S (Backend.sanitizeValue Backend.maxDepth entry.2 entry.1)
        (Webview.sanitizeValue Webview.maxDepth entry.2 entry.1)) :
    Option.Rel S (Backend.keepField entry) (Webview.keepField entry) := by
  unfold Backend.keepField Webview.keepField LogRecord.keepField
  have hcoreField : Webview.isCoreField entry.1 = Backend.isCoreReservedKey entry.1 := rfl
  rcases hkey with hcore | ⟨hsame, hproto⟩
  · have hskips : Backend.skipsKey entry.1 = true := by
      rw [Backend.skipsKey, hcore, Bool.true_or]
    have hskips' : Webview.skipsKey entry.1 = true := by
      rw [Webview.skipsKey, hcoreField, hcore, Bool.true_or]
    rw [if_pos (.inl hskips), if_pos (.inl hskips')]
    exact .none
  · have hskips : Webview.skipsKey entry.1 = Backend.skipsKey entry.1 := by
      rw [Webview.skipsKey, Backend.skipsKey, hcoreField, hsame]
    rw [hskips]
    split
    · exact .none
    · rename_i hkept
      rw [not_or, Bool.not_eq_true] at hkept
      have hall : (Webview.sanitizeValue Webview.maxDepth entry.2 entry.1).filter
          (fun _ => decide (entry.1 ≠ Webview.protoKey))
          = Webview.sanitizeValue Webview.maxDepth entry.2 entry.1 := by
        rw [decide_eq_true hproto]
        cases Webview.sanitizeValue Webview.maxDepth entry.2 entry.1 <;> rfl
      dsimp only
      rw [hall]
      exact h hkept.1 hkept.2

variable {N : NumberTexts ν} {objectText : Text} {fields : LogFields ν}

theorem matches_built (hvalid : Backend.isValidEventName event = true)
    (h : Alike N objectText event operationId fields) :
    Matches (Backend.payload event "webview".toList operationId (.object fields.entries))
      (Webview.fullRecord objectText event fields.entries operationId) := by
  obtain ⟨hnodup, hvalues⟩ := distinct_object fields.distinct
  have hread := nodup_readEntries hnodup
  have hread' := (h.first.map Prod.fst).nodup_iff.mp hread
  have hmessage := messageFromEvent_eq objectText h.segments
  have herror : ∀ value, (readEntries fields.entries).lookup "error".toList = some value →
      ErrorAlike (Backend.messageFromEvent event) value := fun value hvalue =>
    h.error value ((lookup_eq_some_iff_mem hread).mp hvalue)
  have huncut := not_cutsPair_of_basic (messageFromEvent_basic hvalid) Backend.maxStringBytes
  rw [Backend.payload_eq hnodup, Webview.fullRecord_eq hread']
  constructor
  · show Option.isSome (Option.map _ _) = Option.isSome (Option.map _ _)
    rw [Option.isSome_map, Option.isSome_map, Option.map_congr h.trimmed]
  · show Option.bind _ _ = (Option.bind _ _).map _
    rw [← lookup_perm h.first hread, hmessage]
    cases hvalue : (readEntries fields.entries).lookup "error".toList with
    | none => rfl
    | some value => exact sanitizeError_eq (herror value hvalue) huncut
  · intro error hsome
    obtain ⟨value, hvalue, hkept⟩ := Option.bind_eq_some_iff.mp hsome
    exact detail_ne_nil (herror value hvalue) hkept
  · rfl
  · refine lookup_rel hnodup h.first fun entry hentry => ?_
    refine keepField_rel (h.keys entry hentry) fun hskips hne => ?_
    exact sameKeys_sanitizeValue (hvalues entry (mem_of_mem_readEntries hentry))
      ((h.keys entry hentry).sensitive hskips) (h.values entry hentry hskips hne)
  · intro field hfield
    obtain ⟨entry, -, hentry⟩ := List.mem_filterMap.mp hfield
    obtain ⟨value, hvalue, rfl⟩ := Option.map_eq_some_iff.mp hentry
    unfold Backend.keepField LogRecord.keepField at hvalue
    split at hvalue
    · cases hvalue
    · rename_i hkept
      rw [not_or, Backend.skipsKey, Bool.or_eq_true, not_or] at hkept
      exact ⟨Bool.eq_false_iff.mpr hkept.1.2, clean_sanitizeValue hvalue⟩

theorem written_built (hvalid : Backend.isValidEventName event = true)
    (h : Alike N objectText event operationId fields)
    (hsized : SizedAlike N objectText event operationId fields) :
    Written N (Backend.payload event "webview".toList operationId (.object fields.entries))
      (Webview.fullRecord objectText event fields.entries operationId) := by
  refine ⟨matches_built hvalid h, ?_, ?_, ?_, ?_, ?_⟩
  all_goals
    have hnodup := (distinct_object fields.distinct).1
    rw [Backend.payload_eq hnodup,
      Webview.fullRecord_eq ((h.first.map Prod.fst).nodup_iff.mp (nodup_readEntries hnodup))]
  · rfl
  · exact congrArg jsText (messageFromEvent_eq objectText h.segments)
  · rfl
  · show Option.map _ _ = Option.map _ (Option.map _ _)
    rw [Option.map_congr h.trimmed, Option.map_map]
    refine Option.map_congr fun value hvalue => ?_
    obtain ⟨id, hid, rfl⟩ := Option.map_eq_some_iff.mp (Option.filter_eq_some_iff.mp hvalue).1
    exact truncateUtf8_jsText (hsized.uncut id hid)
  · refine sizes_perm h.first fun entry hentry => ?_
    refine map_encodedLength_of_rel (keepField_rel (h.keys entry hentry) fun hskips hne => ?_)
    exact sameLength_sanitizeValue ((h.keys entry hentry).sensitive hskips)
      (h.values entry hentry hskips hne) (hsized.values entry hentry hskips hne)

theorem matches_invalid :
    Matches (Backend.invalidRecord "webview".toList "logging_invalid_event".toList :
      Backend.Record ν) Webview.invalidRecord where
  operationId := rfl
  error := rfl
  detail := by
    rintro error ⟨⟩ detail hdetail
    cases hdetail
  truncated := rfl
  fields := .nil
  clean := .nil

/-- **The two records agree**, if the event is not valid or no step of the two sanitisers treats its
input differently. -/
theorem agrees_of_alike (N : NumberTexts ν) (objectText event : Text) (operationId : Option Text)
    (fields : LogFields ν)
    (h : Backend.isValidEventName event = true → Alike N objectText event operationId fields) :
    Agrees (Backend.buildRecord N event "webview".toList operationId (.object fields.entries))
      (Webview.buildLogRecord N objectText event fields.entries operationId) := by
  unfold Backend.buildRecord Webview.buildLogRecord
  rw [eventPattern_eq]
  by_cases hvalid : Backend.isValidEventName event = true
  · rw [if_pos hvalid, if_pos hvalid]
    have halike := h hvalid
    rcases halike.size with ⟨hfits, hfits'⟩ | hsized
    · unfold Backend.enforceRecordLimit Webview.enforceRecordLimit
      rw [if_pos hfits, if_pos hfits']
      exact (matches_built hvalid halike).agrees
    · have hwritten := written_built hvalid halike hsized
      unfold Backend.enforceRecordLimit Webview.enforceRecordLimit
      rw [hwritten.fits_eq, hwritten.withoutDetail.fits_eq]
      split
      · exact hwritten.toMatches.agrees
      split
      · exact hwritten.withoutDetail.toMatches.agrees
      · rename_i hlong
        rcases hsized.order with hfits | horder
        · exact absurd hfits hlong
        · rw [horder]
          exact (hwritten.withoutDetail.dropUntil _).agrees
  · rw [if_neg hvalid, if_neg hvalid]
    exact matches_invalid.agrees

end Built

/-! ## A failed connection -/

theorem sameFirst_of_length_le {fields : List (Text × LogValue Text ν)}
    (h : fields.length ≤ Backend.maxObjectFields) : SameFirst fields := by
  unfold SameFirst readEntries
  rw [List.take_of_length_le ((Backend.entries_perm fields).length_eq.trans_le h),
    List.take_of_length_le (i := Webview.maxObjectFields)
      ((Webview.entries_perm fields).length_eq.trans_le h)]
  exact (Backend.entries_perm fields).trans (Webview.entries_perm fields).symm

def failedFields : LogFields ℕ where
  entries := [("host".toList, .string "10.0.0.8".toList),
    ("error".toList, .object [("code".toList, .string "ssh_failed".toList),
      ("detail".toList, .string "no /home/me/key".toList)])]
  distinct := by decide

def decimalTexts : NumberTexts ℕ where
  serde n := (toString n).toList
  script n := (toString n).toList

theorem failed_detailAlike : DetailAlike "no /home/me/key".toList where
  notEmpty := by decide
  head := by
    rintro c ⟨⟩
    rfl
  last := by
    rintro c ⟨⟩
    rfl
  spaces := by
    have hall : "no /home/me/key".toList.all (fun c => isJsWhitespace c == isWhitespace c) = true :=
      rfl
    exact fun c hc => beq_iff_eq.mp (forall_of_all hall c hc)
  paths := by decide
  uncut := not_cutsPair_of_le (by decide)

theorem agrees_of_alike_failedFields :
    Agrees (Backend.buildRecord decimalTexts "ssh.connect.failed".toList "webview".toList
        (some "op".toList) (.object failedFields.entries))
      (Webview.buildLogRecord decimalTexts [] "ssh.connect.failed".toList failedFields.entries
        (some "op".toList)) := by
  refine agrees_of_alike decimalTexts [] "ssh.connect.failed".toList (some "op".toList) failedFields
    fun _ => ?_
  refine ⟨by decide, by decide, sameFirst_of_length_le (by decide), ?_, ?_, ?_, .inl ?_⟩
  · intro entry hentry
    rcases List.mem_cons.mp (mem_of_mem_readEntries hentry) with rfl | hentry
    · exact .inr (by decide)
    · rw [List.mem_singleton.mp hentry]
      exact .inr (by decide)
  · intro entry hentry _ hne
    rcases List.mem_cons.mp (mem_of_mem_readEntries hentry) with rfl | hentry
    · exact trivial
    · rw [List.mem_singleton.mp hentry] at hne
      exact absurd rfl hne
  · intro value hvalue
    rcases List.mem_cons.mp (mem_of_mem_readEntries hvalue) with hvalue | hvalue
    · have hkey : "error".toList = "host".toList := congrArg Prod.fst hvalue
      exact absurd hkey (by decide)
    · obtain rfl := congrArg Prod.snd (List.mem_singleton.mp hvalue)
      refine ⟨?_, ?_, nofun, ?_⟩
      · rintro code ⟨⟩
        exact ⟨by decide, not_cutsPair_of_le (by decide)⟩
      · rintro detail ⟨⟩
        exact nofun
      · rintro detail ⟨⟩
        exact failed_detailAlike
  · exact ⟨by decide +kernel, by decide +kernel⟩

/-! ## A reference to a password -/

def passwordRefFields : LogFields ℕ where
  entries := [("passwordRef".toList, .string "enc:v1:token".toList)]
  distinct := by decide

/-- **The webview writes what the backend drops.** -/
theorem not_agrees_of_passwordRef :
    ¬∀ (N : NumberTexts ℕ) (objectText event : Text) (operationId : Option Text)
      (fields : LogFields ℕ),
      Agrees (Backend.buildRecord N event "webview".toList operationId (.object fields.entries))
        (Webview.buildLogRecord N objectText event fields.entries operationId) := by
  intro h
  have hleak := (h decimalTexts [] "ssh.connect".toList none passwordRefFields).noLeak []
    "passwordRef".toList (by decide +kernel)
  exact absurd hleak (by decide)

end FluxTerm.Logging
