import FluxTerm.Lib.Assoc
import FluxTerm.Lib.JsString

/-!
# FluxTerm — log records

JSON values as the fields of a log record, and the records that both log sanitisers build from
them.
-/

namespace FluxTerm.Logging

open Lib

variable {σ τ ν : Type}

/-- A JSON value. `σ` are the strings of the side that holds it and `ν` the numbers. -/
inductive LogValue (σ ν : Type) where
  | null
  | bool (value : Bool)
  | number (value : ν)
  | string (value : σ)
  | array (items : List (LogValue σ ν))
  | object (fields : List (Text × LogValue σ ν))

inductive Step where
  | key (key : Text)
  | item (index : ℕ)
deriving DecidableEq

namespace LogValue

def at? : List Step → LogValue σ ν → Option (LogValue σ ν)
  | [], value => some value
  | .key key :: path, .object fields => (fields.lookup key).bind (at? path)
  | .item index :: path, .array items => items[index]?.bind (at? path)
  | _, _ => none

def asString? : LogValue σ ν → Option σ
  | .string value => some value
  | _ => none

def property (key : Text) : LogValue σ ν → Option (LogValue σ ν)
  | .object fields => fields.lookup key
  | _ => none

mutual

def distinct : LogValue σ ν → Bool
  | .array items => distinctItems items
  | .object fields => decide (fields.map Prod.fst).Nodup && distinctFields fields
  | _ => true

def distinctItems : List (LogValue σ ν) → Bool
  | [] => true
  | item :: items => item.distinct && distinctItems items

def distinctFields : List (Text × LogValue σ ν) → Bool
  | [] => true
  | (_, value) :: fields => value.distinct && distinctFields fields

end

end LogValue

structure Printed (σ ν : Type) where
  key : Text → ℕ
  string : σ → ℕ
  number : ν → ℕ

mutual

def encodedLength (P : Printed σ ν) : LogValue σ ν → ℕ
  | .null => 4
  | .bool value => if value then 4 else 5
  | .number value => P.number value
  | .string value => P.string value
  | .array items => 2 + (items.length - 1) + itemsLength P items
  | .object fields => 2 + (fields.length - 1) + fieldsLength P fields

def itemsLength (P : Printed σ ν) : List (LogValue σ ν) → ℕ
  | [] => 0
  | item :: items => encodedLength P item + itemsLength P items

def fieldsLength (P : Printed σ ν) : List (Text × LogValue σ ν) → ℕ
  | [] => 0
  | (key, value) :: fields => P.key key + 1 + encodedLength P value + fieldsLength P fields

end

/-- The length of a code point in a JSON string, where it has `width` if it is not escaped. A lone
surrogate is escaped. -/
def escapedLength (width : ℕ → ℕ) (n : ℕ) : ℕ :=
  if n ∈ [0x08, 0x09, 0x0a, 0x0c, 0x0d, 0x22, 0x5c] then 2
  else if n < 0x20 ∨ (0xd800 ≤ n ∧ n < 0xe000) then 6
  else width n

def quotedLength (width : ℕ → ℕ) (points : List ℕ) : ℕ :=
  2 + (points.map (escapedLength width)).sum

/-- How a number is written by `serde_json` and by `JSON.stringify`. -/
structure NumberTexts (ν : Type) where
  serde : ν → Text
  script : ν → Text

structure LogFields (ν : Type) where
  entries : List (Text × LogValue Text ν)
  distinct : (LogValue.object entries).distinct = true

structure LogError (σ : Type) where
  code : σ
  message : σ
  detail : Option σ
deriving DecidableEq

def LogError.map (f : σ → τ) (error : LogError σ) : LogError τ :=
  ⟨f error.code, f error.message, error.detail.map f⟩

structure LogRecord (σ ν : Type) where
  event : σ
  message : σ
  component : σ
  operationId : Option σ
  error : Option (LogError σ)
  truncated : Bool
  fields : List (Text × LogValue σ ν)

def LogError.toValue (error : LogError σ) : LogValue σ ν :=
  .object (("code".toList, .string error.code) :: ("message".toList, .string error.message)
    :: (error.detail.map fun detail => ("detail".toList, .string detail)).toList)

namespace LogRecord

def toValue (record : LogRecord σ ν) : LogValue σ ν :=
  .object ([("event".toList, .string record.event), ("message".toList, .string record.message),
      ("component".toList, .string record.component)]
    ++ (record.operationId.map fun id => ("operationId".toList, .string id)).toList
    ++ (record.error.map fun error => ("error".toList, error.toValue)).toList
    ++ (if record.truncated then [("truncated".toList, .bool true)] else [])
    ++ record.fields)

/-- A round of the loop over the fields: some keys are skipped, an error is worked on by `onError`
and another field by `onField`. -/
def insertField (skip : Text → Bool) (onError : LogValue Text ν → Option (LogError σ))
    (onField : Text → LogValue Text ν → Option (LogValue σ ν)) (record : LogRecord σ ν)
    (entry : Text × LogValue Text ν) : LogRecord σ ν :=
  if skip entry.1 then record
  else if entry.1 = "error".toList then
    { record with error := (onError entry.2).or record.error }
  else
    { record with
      fields := record.fields ++ ((onField entry.1 entry.2).map (entry.1, ·)).toList }

def keepField (skip : Text → Bool) (onField : Text → LogValue Text ν → Option (LogValue σ ν))
    (entry : Text × LogValue Text ν) : Option (LogValue σ ν) :=
  if skip entry.1 ∨ entry.1 = "error".toList then none else onField entry.1 entry.2

def remove (record : LogRecord σ ν) (key : Text) : LogRecord σ ν :=
  { record with fields := record.fields.filter (·.1 ≠ key) }

def dropUntil (fits : LogRecord σ ν → Bool) : List Text → LogRecord σ ν → LogRecord σ ν
  | [], record => record
  | key :: keys, record =>
    if fits (record.remove key) then record.remove key else dropUntil fits keys (record.remove key)

/-- **The loop over the fields** leaves the error and the fields that are kept. -/
theorem foldl_insertField {skip : Text → Bool} {onError : LogValue Text ν → Option (LogError σ)}
    {onField : Text → LogValue Text ν → Option (LogValue σ ν)} (hskip : skip "error".toList = false)
    {entries : List (Text × LogValue Text ν)} (h : (entries.map Prod.fst).Nodup)
    (record : LogRecord σ ν) :
    entries.foldl (insertField skip onError onField) record =
      { record with
        error := ((entries.lookup "error".toList).bind onError).or record.error
        fields := record.fields ++
          entries.filterMap fun entry => (keepField skip onField entry).map (entry.1, ·) } := by
  induction entries generalizing record with
  | nil => rw [List.filterMap_nil, List.append_nil]; rfl
  | cons entry entries ih =>
    obtain ⟨key, value⟩ := entry
    obtain ⟨hkey, hrest⟩ := List.nodup_cons.mp h
    rw [List.foldl_cons, ih hrest, insertField]
    by_cases herror : key = "error".toList
    · subst herror
      -- the other fields have another key
      have hnone : entries.lookup "error".toList = none := by
        rw [List.lookup_eq_none_iff]
        rintro ⟨other, otherValue⟩ hother
        rw [bne_iff_ne]
        rintro rfl
        exact hkey (List.mem_map.mpr ⟨_, hother, rfl⟩)
      have hkeep : keepField skip onField ("error".toList, value) = none := if_pos (.inr rfl)
      rw [if_neg (by rw [hskip]; exact Bool.false_ne_true), if_pos rfl, hnone,
        List.lookup_cons_self, List.filterMap_cons_none (by rw [hkeep]; rfl)]
      rfl
    · have hlookup : ((key, value) :: entries).lookup "error".toList
          = entries.lookup "error".toList := by
        rw [List.lookup_cons, beq_eq_false_iff_ne.mpr (Ne.symm herror)]
      rw [hlookup]
      cases hskipped : skip key with
      | true =>
        have hkeep : keepField skip onField (key, value) = none := if_pos (.inl hskipped)
        rw [if_pos rfl, List.filterMap_cons_none (by rw [hkeep]; rfl)]
      | false =>
        have hkeep : keepField skip onField (key, value) = onField key value := by
          refine if_neg ?_
          rintro (h | h)
          · exact Bool.false_ne_true (hskipped.symm.trans h)
          · exact herror h
        rw [if_neg Bool.false_ne_true, if_neg herror]
        cases hfield : onField key value with
        | none =>
          rw [List.filterMap_cons_none (by rw [hkeep, hfield]; rfl)]
          simp
        | some kept =>
          rw [List.filterMap_cons_some (b := (key, kept)) (by rw [hkeep, hfield]; rfl)]
          simp

end LogRecord

end FluxTerm.Logging
