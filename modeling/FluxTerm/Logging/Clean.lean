import FluxTerm.Logging.Values

/-!
# FluxTerm — no sensitive key in a record

The records of the backend have no sensitive key at any depth.
-/

namespace FluxTerm.Logging

open Lib

variable {σ ν : Type}

def Clean (value : LogValue σ ν) : Prop :=
  ∀ path key, (value.at? (path ++ [.key key])).isSome = true → Backend.isSensitiveKey key = false

def CleanFields (fields : List (Text × LogValue σ ν)) : Prop :=
  ∀ field ∈ fields, Backend.isSensitiveKey field.1 = false ∧ Clean field.2

theorem Clean.leaf {value : LogValue σ ν} (h : value.isLeaf = true) : Clean value := by
  intro path key hsome
  obtain ⟨step, rest, hpath⟩ : ∃ step rest, path ++ [Step.key key] = step :: rest :=
    List.exists_cons_of_ne_nil (List.append_ne_nil_of_right_ne_nil _ (List.cons_ne_nil _ _))
  rw [hpath, LogValue.at?_leaf h] at hsome
  cases hsome

theorem Clean.array {items : List (LogValue σ ν)} (h : ∀ item ∈ items, Clean item) :
    Clean (.array items) := by
  intro path key hsome
  match path with
  | [] => cases hsome
  | .key _ :: _ => cases hsome
  | .item index :: path =>
    rw [List.cons_append, LogValue.at?] at hsome
    obtain ⟨_, hat⟩ := Option.isSome_iff_exists.mp hsome
    obtain ⟨item, hitem, hat⟩ := Option.bind_eq_some_iff.mp hat
    exact h item (List.mem_of_getElem? hitem) path key (by rw [hat]; rfl)

theorem mem_of_lookup {fields : List (Text × LogValue σ ν)} {key : Text} {value : LogValue σ ν}
    (h : fields.lookup key = some value) : (key, value) ∈ fields := by
  obtain ⟨before, after, rfl, -⟩ := List.lookup_eq_some_iff.mp h
  exact List.mem_append_right _ List.mem_cons_self

theorem Clean.object {fields : List (Text × LogValue σ ν)} (h : CleanFields fields) :
    Clean (.object fields) := by
  intro path key hsome
  match path with
  | [] =>
    rw [List.nil_append, LogValue.at?] at hsome
    obtain ⟨_, hat⟩ := Option.isSome_iff_exists.mp hsome
    obtain ⟨value, hvalue, -⟩ := Option.bind_eq_some_iff.mp hat
    exact (h _ (mem_of_lookup hvalue)).1
  | .item _ :: _ => cases hsome
  | .key other :: path =>
    rw [List.cons_append, LogValue.at?] at hsome
    obtain ⟨_, hat⟩ := Option.isSome_iff_exists.mp hsome
    obtain ⟨value, hvalue, hat⟩ := Option.bind_eq_some_iff.mp hat
    exact (h _ (mem_of_lookup hvalue)).2 path key (by rw [hat]; rfl)

theorem CleanFields.append {fields fields' : List (Text × LogValue σ ν)} (h : CleanFields fields)
    (h' : CleanFields fields') : CleanFields (fields ++ fields') := by
  intro field hfield
  rcases List.mem_append.mp hfield with hfield | hfield
  · exact h field hfield
  · exact h' field hfield

theorem CleanFields.nil : CleanFields ([] : List (Text × LogValue σ ν)) :=
  fun _ hfield => absurd hfield List.not_mem_nil

theorem CleanFields.cons {key : Text} {value : LogValue σ ν} {fields : List (Text × LogValue σ ν)}
    (hkey : Backend.isSensitiveKey key = false) (hvalue : Clean value) (h : CleanFields fields) :
    CleanFields ((key, value) :: fields) := by
  intro field hfield
  rcases List.mem_cons.mp hfield with rfl | hfield
  · exact ⟨hkey, hvalue⟩
  · exact h field hfield

theorem clean_sanitizeValue {left : ℕ} {value kept : LogValue Text ν} {key : Text}
    (h : Backend.sanitizeValue left value key = some kept) : Clean kept := by
  induction left generalizing value key kept with
  | zero => cases h
  | succ left ih =>
    cases hsensitive : Backend.isSensitiveKey key with
    | true =>
      rw [Backend.sanitizeValue_sensitive hsensitive] at h
      cases h
    | false =>
      by_cases hleaf : value.isLeaf = true
      · obtain ⟨other, hother, hotherLeaf⟩ := Backend.sanitizeValue_leaf left hsensitive hleaf
        rw [hother] at h
        cases h
        exact Clean.leaf hotherLeaf
      cases value with
      | array values =>
        rw [Backend.sanitizeValue_array hsensitive] at h
        cases h
        refine Clean.array fun item hitem => ?_
        obtain ⟨value, -, hvalue⟩ := List.mem_filterMap.mp hitem
        exact ih hvalue
      | object values =>
        rw [Backend.sanitizeValue_object hsensitive] at h
        cases h
        refine Clean.object fun field hfield => ?_
        obtain ⟨entry, -, hentry⟩ := List.mem_filterMap.mp hfield
        obtain ⟨value, hvalue, rfl⟩ := Option.map_eq_some_iff.mp hentry
        unfold Backend.keepEntry at hvalue
        split at hvalue
        · cases hvalue
        · rename_i hkept
          rw [Bool.or_eq_true, not_or] at hkept
          exact ⟨Bool.eq_false_iff.mpr hkept.1, ih hvalue⟩
      | _ => exact absurd rfl hleaf

theorem recordKeys_clean : ∀ key ∈ ["event", "message", "component", "operationId", "error",
    "truncated", "code", "detail"], Backend.isSensitiveKey key.toList = false := by
  decide

theorem clean_toValue_error (error : LogError σ) : Clean (error.toValue : LogValue σ ν) := by
  have hkey {key : String} := recordKeys_clean key
  refine .object (.cons (hkey (by simp)) (.leaf rfl) (.cons (hkey (by simp)) (.leaf rfl) ?_))
  cases error.detail with
  | none => exact .nil
  | some detail => exact .cons (hkey (by simp)) (.leaf rfl) .nil

theorem clean_toValue {record : LogRecord σ ν} (h : CleanFields record.fields) :
    Clean record.toValue := by
  have hkey {key : String} := recordKeys_clean key
  refine .object ((((CleanFields.append ?_ ?_).append ?_).append ?_).append h)
  · exact .cons (hkey (by simp)) (.leaf rfl) (.cons (hkey (by simp)) (.leaf rfl)
      (.cons (hkey (by simp)) (.leaf rfl) .nil))
  · cases record.operationId with
    | none => exact .nil
    | some id => exact .cons (hkey (by simp)) (.leaf rfl) .nil
  · cases record.error with
    | none => exact .nil
    | some error => exact .cons (hkey (by simp)) (clean_toValue_error error) .nil
  · split
    · exact .cons (hkey (by simp)) (.leaf rfl) .nil
    · exact .nil

end FluxTerm.Logging
