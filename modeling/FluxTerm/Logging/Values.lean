import FluxTerm.Logging.Texts

/-!
# FluxTerm — field values in both log sanitisers

What the two sanitisers keep of a value, where every key on the way is treated alike.
-/

namespace FluxTerm.Logging

open Lib

variable {σ τ ν : Type}

/-! ## The same keys -/

def SameKeys (v : LogValue σ ν) (w : LogValue τ ν) : Prop :=
  ∀ path, (v.at? path).isSome = (w.at? path).isSome

def SameFields (vs : List (Text × LogValue σ ν)) (ws : List (Text × LogValue τ ν)) : Prop :=
  ∀ key, Option.Rel SameKeys (vs.lookup key) (ws.lookup key)

namespace SameFields

theorem nil : SameFields ([] : List (Text × LogValue σ ν)) ([] : List (Text × LogValue τ ν)) :=
  fun _ => .none

theorem cons {vs : List (Text × LogValue σ ν)} {ws : List (Text × LogValue τ ν)}
    {v : LogValue σ ν} {w : LogValue τ ν} (key : Text) (hvalue : SameKeys v w)
    (h : SameFields vs ws) : SameFields ((key, v) :: vs) ((key, w) :: ws) := by
  intro other
  rw [List.lookup_cons, List.lookup_cons]
  split
  · exact .some hvalue
  · exact h other

theorem append {vs vs' : List (Text × LogValue σ ν)} {ws ws' : List (Text × LogValue τ ν)}
    (h : SameFields vs ws) (h' : SameFields vs' ws') : SameFields (vs ++ vs') (ws ++ ws') := by
  intro key
  rw [List.lookup_append, List.lookup_append]
  have hkey := h key
  generalize vs.lookup key = v at hkey ⊢
  generalize ws.lookup key = w at hkey ⊢
  cases hkey with
  | none => exact h' key
  | some hkey => exact .some hkey

end SameFields

def LogValue.isLeaf : LogValue σ ν → Bool
  | .array _ => false
  | .object _ => false
  | _ => true

theorem LogValue.at?_leaf {v : LogValue σ ν} (h : v.isLeaf = true) (step : Step)
    (path : List Step) : v.at? (step :: path) = none := by
  cases v with
  | array items => cases h
  | object fields => cases h
  | _ => cases step <;> rfl

namespace SameKeys

theorem leaf {v : LogValue σ ν} {w : LogValue τ ν} (hv : v.isLeaf = true) (hw : w.isLeaf = true) :
    SameKeys v w := by
  intro path
  cases path with
  | nil => rw [LogValue.at?, LogValue.at?]; rfl
  | cons step path => rw [LogValue.at?_leaf hv, LogValue.at?_leaf hw]; rfl

theorem bind {v : Option (LogValue σ ν)} {w : Option (LogValue τ ν)} (h : Option.Rel SameKeys v w)
    (path : List Step) : (v.bind (·.at? path)).isSome = (w.bind (·.at? path)).isSome := by
  cases h with
  | none => rfl
  | some h => exact h path

theorem getElem? {vs : List (LogValue σ ν)} {ws : List (LogValue τ ν)}
    (h : List.Forall₂ SameKeys vs ws) (index : ℕ) :
    Option.Rel SameKeys vs[index]? ws[index]? := by
  induction h generalizing index with
  | nil => exact .none
  | cons hhead _ ih =>
    cases index with
    | zero => exact .some hhead
    | succ index => exact ih index

theorem array {vs : List (LogValue σ ν)} {ws : List (LogValue τ ν)}
    (h : List.Forall₂ SameKeys vs ws) : SameKeys (.array vs) (.array ws) := by
  intro path
  match path with
  | [] => rfl
  | .key _ :: _ => rfl
  | .item index :: path => exact bind (getElem? h index) path

theorem object {vs : List (Text × LogValue σ ν)} {ws : List (Text × LogValue τ ν)}
    (h : SameFields vs ws) : SameKeys (.object vs) (.object ws) := by
  intro path
  match path with
  | [] => rfl
  | .key key :: path => exact bind (h key) path
  | .item _ :: _ => rfl

end SameKeys

theorem forall₂_filterMap {α β γ : Type} {R : β → γ → Prop} {f : α → Option β} {g : α → Option γ}
    {items : List α} (h : ∀ item ∈ items, Option.Rel R (f item) (g item)) :
    List.Forall₂ R (items.filterMap f) (items.filterMap g) := by
  induction items with
  | nil => exact .nil
  | cons item items ih =>
    have hrest := ih fun other hother => h other (List.mem_cons_of_mem _ hother)
    have hitem := h item List.mem_cons_self
    rw [List.filterMap_cons, List.filterMap_cons]
    generalize f item = v at hitem ⊢
    generalize g item = w at hitem ⊢
    cases hitem with
    | none => exact hrest
    | some hitem => exact .cons hitem hrest

/-! ## The order of entries -/

theorem Backend.entries_perm (fields : List (Text × LogValue Text ν)) :
    (Backend.entries fields).Perm fields := List.perm_insertionSort _ _

theorem Webview.entries_perm (fields : List (Text × LogValue Text ν)) :
    (Webview.entries fields).Perm fields :=
  ((List.perm_insertionSort _ _).append_right _).trans (List.filter_append_perm _ _)

theorem distinct_object {fields : List (Text × LogValue σ ν)}
    (h : (LogValue.object fields).distinct = true) :
    (fields.map Prod.fst).Nodup ∧ ∀ entry ∈ fields, entry.2.distinct = true := by
  rw [LogValue.distinct, Bool.and_eq_true, decide_eq_true_eq] at h
  refine ⟨h.1, ?_⟩
  obtain ⟨-, h⟩ := h
  induction fields with
  | nil => exact fun _ hentry => absurd hentry List.not_mem_nil
  | cons field fields ih =>
    obtain ⟨key, value⟩ := field
    rw [LogValue.distinctFields, Bool.and_eq_true] at h
    intro entry hentry
    rcases List.mem_cons.mp hentry with rfl | hentry
    · exact h.1
    · exact ih h.2 entry hentry

theorem distinct_array {items : List (LogValue σ ν)}
    (h : (LogValue.array items).distinct = true) : ∀ item ∈ items, item.distinct = true := by
  rw [LogValue.distinct] at h
  induction items with
  | nil => exact fun _ hitem => absurd hitem List.not_mem_nil
  | cons first items ih =>
    rw [LogValue.distinctItems, Bool.and_eq_true] at h
    intro item hitem
    rcases List.mem_cons.mp hitem with rfl | hitem
    · exact h.1
    · exact ih h.2 item hitem

/-! ## Values that are read alike -/

def readEntries (fields : List (Text × LogValue Text ν)) : List (Text × LogValue Text ν) :=
  (Backend.entries fields).take Backend.maxObjectFields

def SameFirst (fields : List (Text × LogValue Text ν)) : Prop :=
  (readEntries fields).Perm ((Webview.entries fields).take Webview.maxObjectFields)

/-- Both treat the key alike. -/
def KeyAlike (key : Text) : Prop :=
  Backend.isCoreReservedKey key = true ∨
    (Webview.isSensitiveKey key = Backend.isSensitiveKey key ∧ key ≠ Webview.protoKey)

theorem KeyAlike.sensitive {key : Text} (h : KeyAlike key) (hskips : Backend.skipsKey key = false) :
    Webview.isSensitiveKey key = Backend.isSensitiveKey key := by
  rcases h with hcore | ⟨hsame, -⟩
  · rw [Backend.skipsKey, hcore] at hskips
    cases hskips
  · exact hsame

def ReadAlike : ℕ → LogValue Text ν → Prop
  | left + 2, .array values =>
    ∀ value ∈ values.take Backend.maxArrayItems, ReadAlike (left + 1) value
  | left + 2, .object values =>
    SameFirst values ∧ ∀ entry ∈ readEntries values, KeyAlike entry.1 ∧
      (Backend.skipsKey entry.1 = false → ReadAlike (left + 1) entry.2)
  | _, _ => True

/-! ## What the sanitisers keep of an entry -/

def Backend.keepEntry (left : ℕ) (entry : Text × LogValue Text ν) : Option (LogValue Text ν) :=
  if Backend.isSensitiveKey entry.1 || Backend.isCoreReservedKey entry.1 then none
  else Backend.sanitizeValue left entry.2 entry.1

def Webview.keepEntry (left : ℕ) (entry : Text × LogValue Text ν) : Option (Webview.Value ν) :=
  if Webview.isCoreField entry.1 || Webview.isSensitiveKey entry.1 || entry.1 = Webview.protoKey
  then none else Webview.sanitizeValue left entry.2 entry.1

theorem Backend.keepEntry_zero (entry : Text × LogValue Text ν) :
    Backend.keepEntry 0 entry = none := by
  unfold Backend.keepEntry
  split <;> rfl

theorem Webview.keepEntry_zero (entry : Text × LogValue Text ν) :
    Webview.keepEntry 0 entry = none := by
  unfold Webview.keepEntry
  split <;> rfl

theorem Backend.sanitizeValue_object {left : ℕ} {key : Text}
    (h : Backend.isSensitiveKey key = false) (values : List (Text × LogValue Text ν)) :
    Backend.sanitizeValue (left + 1) (.object values) key = some (.object
      ((readEntries values).filterMap fun entry =>
        (Backend.keepEntry left entry).map (entry.1, ·))) := by
  rw [Backend.sanitizeValue, h, if_neg Bool.false_ne_true]
  congr 3
  funext entry
  unfold Backend.keepEntry
  split <;> rfl

theorem Webview.sanitizeValue_object {left : ℕ} {key : Text}
    (h : Webview.isSensitiveKey key = false) (values : List (Text × LogValue Text ν)) :
    Webview.sanitizeValue (left + 1) (.object values) key = some (.object
      (((Webview.entries values).take Webview.maxObjectFields).filterMap fun entry =>
        (Webview.keepEntry left entry).map (entry.1, ·))) := by
  rw [Webview.sanitizeValue, h, if_neg Bool.false_ne_true]
  congr 3
  funext entry
  unfold Webview.keepEntry
  split <;> rfl

theorem Backend.sanitizeValue_sensitive {key : Text} (h : Backend.isSensitiveKey key = true)
    (left : ℕ) (value : LogValue Text ν) : Backend.sanitizeValue left value key = none := by
  cases left with
  | zero => rfl
  | succ left => cases value <;> exact if_pos h

theorem Webview.sanitizeValue_sensitive {key : Text} (h : Webview.isSensitiveKey key = true)
    (left : ℕ) (value : LogValue Text ν) : Webview.sanitizeValue left value key = none := by
  cases left with
  | zero => rfl
  | succ left => cases value <;> exact if_pos h

theorem Backend.sanitizeValue_array {left : ℕ} {key : Text} (h : Backend.isSensitiveKey key = false)
    (values : List (LogValue Text ν)) :
    Backend.sanitizeValue (left + 1) (.array values) key = some (.array
      ((values.take Backend.maxArrayItems).filterMap fun value =>
        Backend.sanitizeValue left value key)) :=
  if_neg (by rw [h]; exact Bool.false_ne_true)

theorem Webview.sanitizeValue_array {left : ℕ} {key : Text} (h : Webview.isSensitiveKey key = false)
    (values : List (LogValue Text ν)) :
    Webview.sanitizeValue (left + 1) (.array values) key = some (.array
      ((values.take Webview.maxArrayItems).filterMap fun value =>
        Webview.sanitizeValue left value key)) :=
  if_neg (by rw [h]; exact Bool.false_ne_true)

theorem Backend.sanitizeValue_leaf (left : ℕ) {key : Text} (h : Backend.isSensitiveKey key = false)
    {value : LogValue Text ν} (hleaf : value.isLeaf = true) :
    ∃ kept, Backend.sanitizeValue (left + 1) value key = some kept ∧ kept.isLeaf = true := by
  have hnot : ¬Backend.isSensitiveKey key = true := by rw [h]; exact Bool.false_ne_true
  cases value with
  | array items => cases hleaf
  | object fields => cases hleaf
  | _ => exact ⟨_, if_neg hnot, rfl⟩

theorem Webview.sanitizeValue_leaf (left : ℕ) {key : Text} (h : Webview.isSensitiveKey key = false)
    {value : LogValue Text ν} (hleaf : value.isLeaf = true) :
    ∃ kept, Webview.sanitizeValue (left + 1) value key = some kept ∧ kept.isLeaf = true := by
  have hnot : ¬Webview.isSensitiveKey key = true := by rw [h]; exact Bool.false_ne_true
  cases value with
  | array items => cases hleaf
  | object fields => cases hleaf
  | _ => exact ⟨_, if_neg hnot, rfl⟩

theorem keepEntry_rel {R : LogValue Text ν → Webview.Value ν → Prop} {left : ℕ}
    {entry : Text × LogValue Text ν} (hkey : KeyAlike entry.1)
    (h : Backend.skipsKey entry.1 = false →
      Option.Rel R (Backend.sanitizeValue left entry.2 entry.1)
        (Webview.sanitizeValue left entry.2 entry.1)) :
    Option.Rel R (Backend.keepEntry left entry) (Webview.keepEntry left entry) := by
  unfold Backend.keepEntry Webview.keepEntry
  have hcoreField : Webview.isCoreField entry.1 = Backend.isCoreReservedKey entry.1 := rfl
  rw [hcoreField]
  cases hcore : Backend.isCoreReservedKey entry.1 with
  | true =>
    rw [Bool.or_true, Bool.true_or, Bool.true_or]
    exact .none
  | false =>
    rcases hkey with hkey | ⟨hsame, hproto⟩
    · exact absurd (hcore.symm.trans hkey) Bool.false_ne_true
    · rw [hsame, decide_eq_false hproto, Bool.or_false, Bool.or_false, Bool.false_or]
      cases hsensitive : Backend.isSensitiveKey entry.1 with
      | true => exact .none
      | false => exact h (by rw [Backend.skipsKey, hcore, hsensitive]; rfl)

theorem nodup_readEntries {values : List (Text × LogValue Text ν)}
    (h : (values.map Prod.fst).Nodup) : ((readEntries values).map Prod.fst).Nodup :=
  (((Backend.entries_perm values).map Prod.fst).nodup_iff.mpr h).sublist
    ((List.take_sublist _ _).map Prod.fst)

theorem mem_of_mem_readEntries {values : List (Text × LogValue Text ν)}
    {entry : Text × LogValue Text ν} (h : entry ∈ readEntries values) : entry ∈ values :=
  (Backend.entries_perm values).mem_iff.mp (List.mem_of_mem_take h)

theorem lookup_rel {R : LogValue Text ν → Webview.Value ν → Prop}
    {values : List (Text × LogValue Text ν)} (hdistinct : (values.map Prod.fst).Nodup)
    (hfirst : SameFirst values) {f : Text × LogValue Text ν → Option (LogValue Text ν)}
    {g : Text × LogValue Text ν → Option (Webview.Value ν)}
    (h : ∀ entry ∈ readEntries values, Option.Rel R (f entry) (g entry)) (key : Text) :
    Option.Rel R
      (((readEntries values).filterMap fun entry => (f entry).map (entry.1, ·)).lookup key)
      ((((Webview.entries values).take Webview.maxObjectFields).filterMap fun entry =>
        (g entry).map (entry.1, ·)).lookup key) := by
  have hnodup := nodup_readEntries hdistinct
  rw [lookup_filterMap_entry f hnodup,
    lookup_filterMap_entry g ((hfirst.map Prod.fst).nodup_iff.mp hnodup),
    ← lookup_perm hfirst hnodup]
  cases hlookup : (readEntries values).lookup key with
  | none => exact .none
  | some value => exact h (key, value) ((lookup_eq_some_iff_mem hnodup).mp hlookup)

/-- **The two sanitisers keep the same keys of a value**, at every depth. -/
theorem sameKeys_sanitizeValue {left : ℕ} {value : LogValue Text ν} {key : Text}
    (hdistinct : value.distinct = true)
    (hkey : Webview.isSensitiveKey key = Backend.isSensitiveKey key)
    (h : ReadAlike left value) :
    Option.Rel SameKeys (Backend.sanitizeValue left value key)
      (Webview.sanitizeValue left value key) := by
  induction left generalizing value key with
  | zero => exact .none
  | succ left ih =>
    cases hsensitive : Backend.isSensitiveKey key with
    | true =>
      rw [Backend.sanitizeValue_sensitive hsensitive,
        Webview.sanitizeValue_sensitive (hkey.trans hsensitive)]
      exact .none
    | false =>
      rw [hsensitive] at hkey
      by_cases hleaf : value.isLeaf = true
      · obtain ⟨kept, hkept, hkeptLeaf⟩ := Backend.sanitizeValue_leaf left hsensitive hleaf
        obtain ⟨other, hother, hotherLeaf⟩ := Webview.sanitizeValue_leaf left hkey hleaf
        rw [hkept, hother]
        exact .some (SameKeys.leaf hkeptLeaf hotherLeaf)
      cases value with
      | array values =>
        rw [Backend.sanitizeValue_array hsensitive, Webview.sanitizeValue_array hkey]
        refine .some (SameKeys.array (forall₂_filterMap fun item hitem => ?_))
        cases left with
        | zero => exact .none
        | succ left =>
          exact ih (distinct_array hdistinct item (List.mem_of_mem_take hitem))
            (hkey.trans hsensitive.symm) (h item hitem)
      | object values =>
        rw [Backend.sanitizeValue_object hsensitive, Webview.sanitizeValue_object hkey]
        obtain ⟨hnodup, hvalues⟩ := distinct_object hdistinct
        refine .some (SameKeys.object fun other => ?_)
        cases left with
        | zero =>
          -- nothing of the entries is kept
          rw [List.filterMap_eq_nil_iff.mpr fun entry _ => by rw [Backend.keepEntry_zero]; rfl,
            List.filterMap_eq_nil_iff.mpr fun entry _ => by rw [Webview.keepEntry_zero]; rfl]
          exact .none
        | succ left =>
          obtain ⟨hfirst, hentries⟩ := h
          refine lookup_rel hnodup hfirst (fun entry hentry => ?_) other
          obtain ⟨hentryKey, hread⟩ := hentries entry hentry
          refine keepEntry_rel hentryKey fun hskips => ?_
          exact ih (hvalues entry (mem_of_mem_readEntries hentry)) (hentryKey.sensitive hskips)
            (hread hskips)
      | _ => exact absurd rfl hleaf

/-! ## The lengths -/

/-- What is kept of the value is written in the same length by both. -/
def PrintsAlike (N : NumberTexts ν) : ℕ → LogValue Text ν → Prop
  | _ + 1, .number value => (N.script value).length = (N.serde value).length
  | _ + 1, .string value => ¬CutsPair value Backend.maxStringBytes
  | left + 1, .array values =>
    ∀ value ∈ values.take Backend.maxArrayItems, PrintsAlike N left value
  | left + 1, .object values =>
    ∀ entry ∈ readEntries values, Backend.skipsKey entry.1 = false → PrintsAlike N left entry.2
  | _, _ => True

def sizes (P : Printed σ ν) (fields : List (Text × LogValue σ ν)) : List (Text × ℕ) :=
  fields.map fun field => (field.1, encodedLength P field.2)

def sizesLength (key : Text → ℕ) (sizes : List (Text × ℕ)) : ℕ :=
  2 + (sizes.length - 1) + (sizes.map fun size => key size.1 + 1 + size.2).sum

theorem fieldsLength_eq (P : Printed σ ν) (fields : List (Text × LogValue σ ν)) :
    fieldsLength P fields = ((sizes P fields).map fun size => P.key size.1 + 1 + size.2).sum := by
  induction fields with
  | nil => rfl
  | cons field fields ih =>
    obtain ⟨key, value⟩ := field
    rw [fieldsLength, ih]
    rfl

theorem encodedLength_object (P : Printed σ ν) (fields : List (Text × LogValue σ ν)) :
    encodedLength P (.object fields) = sizesLength P.key (sizes P fields) := by
  rw [encodedLength, fieldsLength_eq, sizesLength]
  congr 2
  rw [sizes, List.length_map]

theorem sizesLength_perm (key : Text → ℕ) {sizes sizes' : List (Text × ℕ)}
    (h : sizes.Perm sizes') : sizesLength key sizes = sizesLength key sizes' := by
  rw [sizesLength, sizesLength, h.length_eq, (h.map _).sum_nat]

theorem sizes_perm {P : Printed Text ν} {Q : Printed JsString ν}
    {entries entries' : List (Text × LogValue Text ν)} (hperm : entries.Perm entries')
    {f : Text × LogValue Text ν → Option (LogValue Text ν)}
    {g : Text × LogValue Text ν → Option (Webview.Value ν)}
    (h : ∀ entry ∈ entries, (f entry).map (encodedLength P) = (g entry).map (encodedLength Q)) :
    (sizes P (entries.filterMap fun entry => (f entry).map (entry.1, ·))).Perm
      (sizes Q (entries'.filterMap fun entry => (g entry).map (entry.1, ·))) := by
  rw [sizes, sizes, List.map_filterMap, List.map_filterMap]
  refine List.Perm.trans (List.Perm.of_eq (List.filterMap_congr fun entry hentry => ?_))
    (hperm.filterMap _)
  have hlength := congrArg (Option.map fun length => (entry.1, length)) (h entry hentry)
  rw [Option.map_map, Option.map_map] at hlength
  rw [Option.map_map, Option.map_map]
  exact hlength

def SameLength (N : NumberTexts ν) (v : LogValue Text ν) (w : Webview.Value ν) : Prop :=
  encodedLength (Backend.printed N) v = encodedLength (Webview.printed N) w

theorem map_encodedLength_of_rel {N : NumberTexts ν} {v : Option (LogValue Text ν)}
    {w : Option (Webview.Value ν)} (h : Option.Rel (SameLength N) v w) :
    v.map (encodedLength (Backend.printed N)) = w.map (encodedLength (Webview.printed N)) := by
  cases h with
  | none => rfl
  | some h => exact congrArg some h

theorem itemsLength_of_rel {N : NumberTexts ν} {vs : List (LogValue Text ν)}
    {ws : List (Webview.Value ν)} (h : List.Forall₂ (SameLength N) vs ws) :
    itemsLength (Backend.printed N) vs = itemsLength (Webview.printed N) ws := by
  induction h with
  | nil => rfl
  | cons hhead _ ih =>
    rw [itemsLength, itemsLength, ih]
    exact congrArg (· + _) hhead

theorem string_printed (N : NumberTexts ν) (value : Text) :
    (Webview.printed N).string (jsText value) = (Backend.printed N).string value := by
  show quotedLength _ (codePoints (jsText value)) = quotedLength _ _
  have hpoints := codePoints_jsText_append value []
  rw [List.append_nil, codePoints.eq_1, List.append_nil] at hpoints
  rw [hpoints]

/-- **The two sanitisers keep as much text of a value.** -/
theorem sameLength_sanitizeValue {N : NumberTexts ν} {left : ℕ} {value : LogValue Text ν}
    {key : Text} (hkey : Webview.isSensitiveKey key = Backend.isSensitiveKey key)
    (hread : ReadAlike left value) (hprints : PrintsAlike N left value) :
    Option.Rel (SameLength N) (Backend.sanitizeValue left value key)
      (Webview.sanitizeValue left value key) := by
  induction left generalizing value key with
  | zero => exact .none
  | succ left ih =>
    cases hsensitive : Backend.isSensitiveKey key with
    | true =>
      rw [Backend.sanitizeValue_sensitive hsensitive,
        Webview.sanitizeValue_sensitive (hkey.trans hsensitive)]
      exact .none
    | false =>
      rw [hsensitive] at hkey
      have hnot : ¬Backend.isSensitiveKey key = true := by rw [hsensitive]; exact Bool.false_ne_true
      have hnot' : ¬Webview.isSensitiveKey key = true := by rw [hkey]; exact Bool.false_ne_true
      cases value with
      | null =>
        have hkept : Backend.sanitizeValue (ν := ν) (left + 1) .null key = some .null := if_neg hnot
        have hother : Webview.sanitizeValue (ν := ν) (left + 1) .null key = some .null :=
          if_neg hnot'
        rw [hkept, hother]
        exact .some rfl
      | bool value =>
        have hkept : Backend.sanitizeValue (ν := ν) (left + 1) (.bool value) key
          = some (.bool value) := if_neg hnot
        have hother : Webview.sanitizeValue (ν := ν) (left + 1) (.bool value) key
          = some (.bool value) := if_neg hnot'
        rw [hkept, hother]
        exact .some rfl
      | number value =>
        have hkept : Backend.sanitizeValue (left + 1) (.number value) key
          = some (.number value) := if_neg hnot
        have hother : Webview.sanitizeValue (left + 1) (.number value) key
          = some (.number value) := if_neg hnot'
        rw [hkept, hother]
        exact .some hprints.symm
      | string value =>
        have hkept : Backend.sanitizeValue (ν := ν) (left + 1) (.string value) key
          = some (.string (Backend.truncateUtf8 value Backend.maxStringBytes)) := if_neg hnot
        have hother : Webview.sanitizeValue (ν := ν) (left + 1) (.string value) key
          = some (.string (Webview.truncateUtf8 (jsText value) Webview.maxLogStringBytes)) :=
          if_neg hnot'
        have hcut := truncateUtf8_jsText hprints
        rw [hkept, hother]
        refine .some ?_
        show (Backend.printed N).string _ = (Webview.printed N).string _
        rw [← string_printed]
        exact congrArg _ hcut.symm
      | array values =>
        rw [Backend.sanitizeValue_array hsensitive, Webview.sanitizeValue_array hkey]
        have hitems : List.Forall₂ (SameLength N)
            ((values.take Backend.maxArrayItems).filterMap fun value =>
              Backend.sanitizeValue left value key)
            ((values.take Webview.maxArrayItems).filterMap fun value =>
              Webview.sanitizeValue left value key) := by
          refine forall₂_filterMap fun item hitem => ?_
          cases left with
          | zero => exact .none
          | succ left =>
            exact ih (hkey.trans hsensitive.symm) (hread item hitem) (hprints item hitem)
        refine .some ?_
        show encodedLength _ _ = encodedLength _ _
        rw [encodedLength, encodedLength, hitems.length_eq,
          itemsLength_of_rel hitems]
      | object values =>
        rw [Backend.sanitizeValue_object hsensitive, Webview.sanitizeValue_object hkey]
        refine .some ?_
        show encodedLength _ _ = encodedLength _ _
        rw [encodedLength_object, encodedLength_object]
        cases left with
        | zero =>
          rw [List.filterMap_eq_nil_iff.mpr fun entry _ => by rw [Backend.keepEntry_zero]; rfl,
            List.filterMap_eq_nil_iff.mpr fun entry _ => by rw [Webview.keepEntry_zero]; rfl]
          rfl
        | succ left =>
          obtain ⟨hfirst, hentries⟩ := hread
          refine sizesLength_perm _ (sizes_perm hfirst fun entry hentry => ?_)
          obtain ⟨hentryKey, hentryRead⟩ := hentries entry hentry
          refine map_encodedLength_of_rel (keepEntry_rel hentryKey fun hskips => ?_)
          refine ih ?_ (hentryRead hskips) (hprints entry hentry hskips)
          exact hentryKey.sensitive hskips

end FluxTerm.Logging
