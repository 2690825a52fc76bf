import FluxTerm.Logging.Agree

/-!
# FluxTerm — the size of a log record

`enforce_record_limit` takes fields out of a record until it fits. The event, the message, the
component, the operation id and the error stay, however long they are as JSON text.

* **`Sound`** — what is expected of a record; **`buildRecord_sound_iff`** — when it is met.
-/

namespace FluxTerm.Logging

open Lib

variable {σ ν : Type}

namespace LogRecord

/-- **The loop that takes fields out** ends with a record that fits, or without the fields. -/
theorem dropUntil_cases (fits : LogRecord σ ν → Bool) (keys : List Text)
    (record : LogRecord σ ν) : ∃ kept, kept.Sublist record.fields ∧
      record.dropUntil fits keys = { record with fields := kept } ∧
      (fits { record with fields := kept } = true ∨
        kept = record.fields.filter (·.1 ∉ keys)) := by
  induction keys generalizing record with
  | nil => exact ⟨record.fields, List.Sublist.refl _, rfl, .inr (by simp)⟩
  | cons key keys ih =>
    unfold dropUntil
    split
    · rename_i hfits
      exact ⟨_, List.filter_sublist, rfl, .inl hfits⟩
    · obtain ⟨kept, hkept, hdrop, hend⟩ := ih (record.remove key)
      refine ⟨kept, hkept.trans List.filter_sublist, hdrop, hend.imp id fun hall => ?_⟩
      rw [hall, remove, List.filter_filter]
      refine List.filter_congr fun field _ => ?_
      rw [← Bool.decide_and, decide_eq_decide, List.mem_cons, not_or, and_comm]

end LogRecord

namespace Backend

theorem encodedLength_object_append_le (P : Printed σ ν) (fields more : List (Text × LogValue σ ν)) :
    encodedLength P (.object fields) ≤ encodedLength P (.object (fields ++ more)) := by
  rw [encodedLength, encodedLength, fieldsLength_eq, fieldsLength_eq, sizes, sizes,
    List.map_append, List.map_append, List.sum_append_nat, List.length_append]
  omega

theorem encodedLen_without_fields_le (N : NumberTexts ν) (record : Record ν) :
    encodedLen N { record with fields := [] } ≤ encodedLen N record := by
  unfold encodedLen LogRecord.toValue
  dsimp only
  rw [List.append_nil]
  exact encodedLength_object_append_le _ _ _

theorem event_length_le (N : NumberTexts ν) (record : Record ν) :
    quotedLength codePointBytes (record.event.map Char.toNat) ≤ encodedLen N record := by
  unfold encodedLen LogRecord.toValue
  simp only [List.cons_append, encodedLength, fieldsLength, printed]
  omega

def bare (payload : Record ν) : Record ν := { withoutDetail payload with fields := [] }

theorem mem_removable {N : NumberTexts ν} {payload : Record ν} {field : Text × Value ν}
    (h : field ∈ payload.fields) : field.1 ∈ removable N payload :=
  List.mem_map_of_mem ((List.perm_insertionSort _ _).mem_iff.mpr h)

theorem enforceRecordLimit_cases (N : NumberTexts ν) (payload : Record ν) :
    (fits N payload = true ∧ enforceRecordLimit N payload = payload) ∨
      fits N payload = false ∧ ∃ kept, kept.Sublist payload.fields ∧
        enforceRecordLimit N payload = { withoutDetail payload with fields := kept } ∧
        (fits N { withoutDetail payload with fields := kept } = true ∨ kept = []) := by
  unfold enforceRecordLimit
  split
  · rename_i hfits
    exact .inl ⟨hfits, rfl⟩
  · rename_i hfits
    refine .inr ⟨Bool.eq_false_iff.mpr hfits, ?_⟩
    split
    · rename_i hwithout
      exact ⟨payload.fields, List.Sublist.refl _, rfl, .inl hwithout⟩
    · obtain ⟨kept, hkept, hdrop, hend⟩ := LogRecord.dropUntil_cases (fits N)
        (removable N (withoutDetail payload)) (withoutDetail payload)
      refine ⟨kept, hkept, hdrop, hend.imp id fun hall => ?_⟩
      rw [hall, List.filter_eq_nil_iff]
      intro field hfield
      simpa using mem_removable hfield

/-- **A record fits in the end** if it did, or if what is never taken out fits. -/
theorem fits_enforceRecordLimit_iff (N : NumberTexts ν) (payload : Record ν) :
    fits N (enforceRecordLimit N payload) = true ↔
      fits N payload = true ∨ fits N (bare payload) = true := by
  rcases enforceRecordLimit_cases N payload with ⟨hfits, heq⟩ | ⟨hfits, kept, -, heq, hend⟩
  · rw [heq, hfits]
    simp
  · rw [heq, hfits]
    simp only [Bool.false_eq_true, false_or]
    constructor
    · intro hkept
      have hle : encodedLen N (bare payload) ≤
          encodedLen N { withoutDetail payload with fields := kept } :=
        encodedLen_without_fields_le N { withoutDetail payload with fields := kept }
      exact decide_eq_true (hle.trans (of_decide_eq_true hkept))
    · intro hbare
      rcases hend with hkept | rfl
      · exact hkept
      · exact hbare

theorem enforceRecordLimit_head (N : NumberTexts ν) (payload : Record ν) :
    (enforceRecordLimit N payload).event = payload.event ∧
      (enforceRecordLimit N payload).component = payload.component ∧
      (enforceRecordLimit N payload).fields.Sublist payload.fields := by
  rcases enforceRecordLimit_cases N payload with ⟨-, heq⟩ | ⟨-, kept, hkept, heq, -⟩
  · rw [heq]
    exact ⟨rfl, rfl, List.Sublist.refl _⟩
  · rw [heq]
    exact ⟨rfl, rfl, hkept⟩

/-! ## The record before its size is looked at -/

def keptError (canonicalMessage : Text) : Value ν → Option (LogError Text)
  | .object fields => (((readEntries fields).lookup "error".toList).bind
      (sanitizeError · canonicalMessage)).map fun error => { error with detail := none }
  | _ => none

def fixedPart (event component : Text) (operationId : Option Text) (fields : Value ν) : Record ν :=
  { header event component operationId with
    truncated := true
    error := keptError (messageFromEvent event) fields }

theorem payload_spec (event component : Text) (operationId : Option Text) {fields : Value ν}
    (hdistinct : fields.distinct = true) :
    (payload event component operationId fields).event = event ∧
      (payload event component operationId fields).component =
        truncateUtf8 (trimBy isWhitespace component) maxStringBytes ∧
      bare (payload event component operationId fields) =
        fixedPart event component operationId fields ∧
      CleanFields (payload event component operationId fields).fields := by
  cases fields with
  | object fields =>
    rw [payload_eq (distinct_object hdistinct).1]
    refine ⟨rfl, rfl, rfl, fun field hfield => ?_⟩
    obtain ⟨entry, -, hentry⟩ := List.mem_filterMap.mp hfield
    obtain ⟨value, hvalue, rfl⟩ := Option.map_eq_some_iff.mp hentry
    unfold keepField LogRecord.keepField at hvalue
    split at hvalue
    · cases hvalue
    · rename_i hkept
      rw [not_or, skipsKey, Bool.or_eq_true, not_or] at hkept
      exact ⟨Bool.eq_false_iff.mpr hkept.1.2, clean_sanitizeValue hvalue⟩
  | _ => exact ⟨rfl, rfl, rfl, CleanFields.nil⟩

theorem component_kept_iff (component : Text) :
    truncateUtf8 (trimBy isWhitespace component) maxStringBytes = component ↔
      trimBy isWhitespace component = component ∧ utf8Len component ≤ maxStringBytes := by
  constructor
  · intro hkept
    obtain ⟨before, after, hsplit, -⟩ := exists_trim isWhitespace component
    obtain ⟨rest, hrest, hlen, -⟩ :=
      floorCharBoundary_spec (trimBy isWhitespace component) maxStringBytes
    -- a part of the component that is the whole has nothing around it
    unfold truncateUtf8 at hkept
    split at hkept
    · rename_i hshort
      rw [hkept] at hshort
      exact ⟨hkept, hshort⟩
    · rw [hkept] at hrest hlen
      have hlength := congrArg List.length hsplit
      have htrimmed := congrArg List.length hrest
      rw [List.length_append, List.length_append] at hlength
      rw [List.length_append, trimBy] at htrimmed
      obtain rfl : rest = [] := List.eq_nil_of_length_eq_zero (by omega)
      exact ⟨hrest.trans (List.append_nil _), hlen⟩
  · rintro ⟨htrim, hshort⟩
    rw [htrim, truncateUtf8, if_pos hshort]

/-! ## What is expected of a record -/

/-- The record is within the limit, it keeps the event and the component, and no key in it is
sensitive. -/
structure Sound (N : NumberTexts ν) (event component : Text) (record : Record ν) : Prop where
  bounded : encodedLen N record ≤ maxRecordBytes
  event : record.event = event
  component : record.component = component
  clean : Clean record.toValue

/-- **The record of a valid event is sound** exactly if the component is kept as it is, and if the
record is short enough before anything is taken out, or its fixed part is. -/
theorem buildRecord_sound_iff (N : NumberTexts ν) {event : Text} (component : Text)
    (operationId : Option Text) {fields : Value ν} (hvalid : isValidEventName event = true)
    (hdistinct : fields.distinct = true) :
    Sound N event component (buildRecord N event component operationId fields) ↔
      (trimBy isWhitespace component = component ∧ utf8Len component ≤ maxStringBytes) ∧
        (encodedLen N (payload event component operationId fields) ≤ maxRecordBytes ∨
          encodedLen N (fixedPart event component operationId fields) ≤ maxRecordBytes) := by
  obtain ⟨hevent, hcomponent, hbare, hclean⟩ :=
    payload_spec event component operationId hdistinct
  obtain ⟨heventKept, hcomponentKept, hsublist⟩ :=
    enforceRecordLimit_head N (payload event component operationId fields)
  have hlimit := fits_enforceRecordLimit_iff N (payload event component operationId fields)
  rw [hbare, fits, fits, fits, decide_eq_true_iff, decide_eq_true_iff, decide_eq_true_iff] at hlimit
  rw [← component_kept_iff, ← hcomponent, ← hcomponentKept, ← hlimit, buildRecord, if_pos hvalid]
  constructor
  · intro hsound
    exact ⟨hsound.component, hsound.bounded⟩
  · rintro ⟨hkept, hbounded⟩
    exact ⟨hbounded, heventKept.trans hevent, hkept,
      clean_toValue fun field hfield => hclean field (hsublist.mem hfield)⟩

theorem buildRecord_sound_iff_failedFields :
    Sound decimalTexts "ssh.connect.failed".toList "engine".toList
        (buildRecord decimalTexts "ssh.connect.failed".toList "engine".toList (some "op".toList)
          (.object failedFields.entries)) ↔
      (trimBy isWhitespace "engine".toList = "engine".toList ∧
        utf8Len "engine".toList ≤ maxStringBytes) ∧
        (encodedLen decimalTexts (payload "ssh.connect.failed".toList "engine".toList
            (some "op".toList) (.object failedFields.entries)) ≤ maxRecordBytes ∨
          encodedLen decimalTexts (fixedPart "ssh.connect.failed".toList "engine".toList
            (some "op".toList) (.object failedFields.entries)) ≤ maxRecordBytes) :=
  buildRecord_sound_iff decimalTexts "engine".toList (some "op".toList) (by decide)
    failedFields.distinct

def longEvent : Text := List.replicate maxRecordBytes 'a'

theorem longEvent_valid : isValidEventName longEvent = true := by
  have hmem : ∀ c ∈ longEvent, c = 'a' := fun c hc => List.eq_of_mem_replicate hc
  have hdot : '.' ∉ longEvent := fun h => absurd (hmem _ h) (by decide)
  have hends : longEvent.head? ≠ some '.' ∧ longEvent.getLast? ≠ some '.' :=
    ⟨fun h => hdot (List.mem_of_mem_head? h), fun h => hdot (List.mem_of_mem_getLast? h)⟩
  have hchars : longEvent.all (fun ch => ch.isLower || ch.isDigit) = true := by
    rw [List.all_eq_true]
    intro c hc
    rw [hmem c hc]
    decide
  have hne : longEvent.isEmpty = false := rfl
  unfold isValidEventName
  rw [List.splitOn_eq_singleton hdot]
  simp [hne, hends.1, hends.2, hchars]

/-- It is written out whole. -/
theorem longEvent_not_bounded : isValidEventName longEvent = true ∧
    maxRecordBytes < encodedLen decimalTexts
      (buildRecord decimalTexts longEvent "engine".toList none .null) := by
  refine ⟨longEvent_valid, Nat.lt_of_lt_of_le ?_ (event_length_le _ _)⟩
  rw [buildRecord, if_pos longEvent_valid, (enforceRecordLimit_head _ _).1,
    (payload_spec longEvent _ none rfl).1, longEvent]
  have hwidth : escapedLength codePointBytes 'a'.toNat = 1 := by decide
  rw [quotedLength, List.map_replicate, List.map_replicate, hwidth, List.sum_replicate_nat]
  omega

end Backend

end FluxTerm.Logging
