import FluxTerm.Lib.MarkedJoin
import FluxTerm.Logging.Backend
import FluxTerm.Logging.Webview

/-!
# FluxTerm — texts in both log sanitisers

Where the two sanitisers do the same to an event name, a string or the detail of an error.
-/

namespace FluxTerm.Logging

open Lib

/-! ## Events -/

def isSegment (segment : Text) : Bool := !segment.isEmpty && segment.all Webview.isEventChar

theorem eventPattern_splitOn (event : Text) : ∃ first rest, event.splitOn '.' = first :: rest ∧
    Webview.eventPattern event = (isSegment first && rest.all isSegment) ∧
    Webview.eventSegment event = (first.all Webview.isEventChar && rest.all isSegment) := by
  induction event with
  | nil => exact ⟨[], [], rfl, rfl, rfl⟩
  | cons ch event ih =>
    obtain ⟨first, rest, hsplit, hpattern, hsegment⟩ := ih
    rw [List.splitOn_cons_eq_if_modifyHead, hsplit, Webview.eventPattern, Webview.eventSegment,
      hpattern, hsegment]
    by_cases hch : ch = '.'
    · subst hch
      exact ⟨[], first :: rest, rfl, rfl, rfl⟩
    · rw [if_neg (by simpa using hch), if_neg hch]
      refine ⟨ch :: first, rest, rfl, ?_, ?_⟩
      · rw [isSegment, List.isEmpty_cons, List.all_cons, Bool.not_false, Bool.true_and,
          Bool.and_assoc]
      · rw [List.all_cons, Bool.and_assoc]

theorem not_dot_of_eventPattern (event : Text) :
    (Webview.eventPattern event = true →
      event ≠ [] ∧ event.head? ≠ some '.' ∧ event.getLast? ≠ some '.') ∧
    (Webview.eventSegment event = true → event.getLast? ≠ some '.') := by
  induction event with
  | nil => exact ⟨nofun, fun _ => nofun⟩
  | cons ch event ih =>
    have hlast : ch ≠ '.' → Webview.eventSegment event = true →
        (ch :: event).getLast? ≠ some '.' := by
      intro hch hevent
      cases event with
      | nil => exact fun heq => hch (Option.some.inj heq)
      | cons next event =>
        rw [List.getLast?_cons_cons]
        exact ih.2 hevent
    constructor
    · rw [Webview.eventPattern, Bool.and_eq_true]
      rintro ⟨hch, hevent⟩
      have hne : ch ≠ '.' := by
        rintro rfl
        cases hch
      exact ⟨List.cons_ne_nil _ _, fun heq => hne (Option.some.inj heq), hlast hne hevent⟩
    · rw [Webview.eventSegment]
      split
      · intro hevent
        have hrest := (ih.1 hevent)
        cases event with
        | nil => exact absurd rfl hrest.1
        | cons next event =>
          rw [List.getLast?_cons_cons]
          exact hrest.2.2
      · rename_i hch
        rw [Bool.and_eq_true]
        exact fun hevent => hlast hch hevent.2

/-- **The two take the same event names.** -/
theorem eventPattern_eq (event : Text) :
    Webview.eventPattern event = Backend.isValidEventName event := by
  have hall : Webview.eventPattern event = (event.splitOn '.').all isSegment := by
    obtain ⟨first, rest, hsplit, hpattern, -⟩ := eventPattern_splitOn event
    rw [hsplit, hpattern, List.all_cons]
  unfold Backend.isValidEventName
  split
  · rename_i hguard
    refine Bool.eq_false_iff.mpr fun hpattern => ?_
    obtain ⟨hne, hhead, hlast⟩ := (not_dot_of_eventPattern event).1 hpattern
    simp only [Bool.or_eq_true, decide_eq_true_eq, List.isEmpty_iff] at hguard
    rcases hguard with (hguard | hguard) | hguard
    · exact hne hguard
    · exact hhead hguard
    · exact hlast hguard
  · exact hall

theorem messageFromEvent_eq {event : Text} (objectText : Text)
    (h : "constructor".toList ∉ event.splitOn '.') :
    Webview.messageFromEvent objectText event = Backend.messageFromEvent event := by
  unfold Webview.messageFromEvent Backend.messageFromEvent
  congr 1
  refine List.map_congr_left fun segment hsegment => ?_
  unfold Webview.acronym Backend.acronym
  rw [if_neg (c := segment = "constructor".toList) (by rintro rfl; exact h hsegment)]

theorem toNat_of_isEventChar {c : Char} (h : Webview.isEventChar c = true) :
    c.toNat < 0x10000 := by
  have h : (decide ('a'.val ≤ c.val) && decide (c.val ≤ 'z'.val) ||
      decide ('0'.val ≤ c.val) && decide (c.val ≤ '9'.val)) = true := h
  simp only [Bool.or_eq_true, Bool.and_eq_true, decide_eq_true_eq, UInt32.le_iff_toNat_le] at h
  change (97 ≤ c.toNat ∧ c.toNat ≤ 122) ∨ (48 ≤ c.toNat ∧ c.toNat ≤ 57) at h
  omega

theorem acronym_basic {segment : Text} (h : segment.all Webview.isEventChar = true) :
    ∀ c ∈ Backend.acronym segment, c.toNat < 0x10000 := by
  have hall : (Backend.acronym segment).all (fun c => c.toNat < 0x10000) = true := by
    unfold Backend.acronym
    split_ifs
    · rfl
    · rfl
    · rfl
    · rfl
    · rfl
    · rfl
    · refine List.all_eq_true.mpr fun c hc => decide_eq_true ?_
      exact toNat_of_isEventChar (List.all_eq_true.mp h c hc)
  exact fun c hc => of_decide_eq_true (forall_of_all hall c hc)

theorem messageFromEvent_basic {event : Text} (h : Backend.isValidEventName event = true) :
    ∀ c ∈ Backend.messageFromEvent event, c.toNat < 0x10000 := by
  have hsegments : ∀ segment ∈ event.splitOn '.', isSegment segment = true := by
    obtain ⟨first, rest, hsplit, hpattern, -⟩ := eventPattern_splitOn event
    rw [eventPattern_eq, h, ← List.all_cons, ← hsplit] at hpattern
    exact List.all_eq_true.mp hpattern.symm
  intro c hc
  rcases mem_intercalate hc with hc | ⟨part, hpart, hc⟩
  · rw [List.mem_singleton.mp hc]
    decide
  · obtain ⟨segment, hsegment, rfl⟩ := List.mem_map.mp hpart
    have hletters := hsegments segment hsegment
    rw [isSegment, Bool.and_eq_true] at hletters
    exact acronym_basic hletters.2 c hc

/-! ## Cutting -/

theorem searchSlice_eq {fits : ℕ → Bool} {start stop n : ℕ} (hstart : start ≤ n) (hstop : n ≤ stop)
    (hfits : ∀ m ≤ n, fits m = true) (hnot : ∀ m, n < m → m ≤ stop → fits m = false) :
    Webview.searchSlice fits start stop = n := by
  fun_induction Webview.searchSlice fits start stop with
  | case1 start stop hlt hmiddle ih =>
    refine ih ?_ hstop hnot
    by_contra hafter
    rw [hnot _ (Nat.lt_of_not_le hafter) (by omega)] at hmiddle
    cases hmiddle
  | case2 start stop hlt hmiddle ih =>
    have hbefore : n < (start + stop + 1) / 2 := by
      by_contra hle
      exact hmiddle (hfits _ (Nat.le_of_not_lt hle))
    exact ih hstart (by omega) fun m hm hle => hnot m hm (by omega)
  | case3 start stop hlt => omega

/-- The slice of a script that fits ends inside a surrogate pair. -/
def CutsPair (value : Text) (maxBytes : ℕ) : Prop :=
  ∃ before c after, value = before ++ c :: after ∧ 0x10000 ≤ c.toNat ∧
    utf8Len before + 3 = maxBytes

theorem not_cutsPair_of_le {value : Text} {maxBytes : ℕ} (h : utf8Len value ≤ maxBytes) :
    ¬CutsPair value maxBytes := by
  rintro ⟨before, c, after, rfl, hc, hbytes⟩
  have hsize : c.utf8Size = 4 := Char.utf8Size_eq_four_iff.mpr hc
  rw [utf8Len_append, utf8Len_cons, hsize] at h
  omega

theorem not_cutsPair_of_basic {value : Text} (h : ∀ c ∈ value, c.toNat < 0x10000) (maxBytes : ℕ) :
    ¬CutsPair value maxBytes := by
  rintro ⟨before, c, after, rfl, hc, -⟩
  exact absurd (h c (List.mem_append_right _ List.mem_cons_self)) (Nat.not_lt_of_le hc)

/-- **The two cut a string to the same characters.** -/
theorem truncateUtf8_jsText {value : Text} {maxBytes : ℕ} (h : ¬CutsPair value maxBytes) :
    Webview.truncateUtf8 (jsText value) maxBytes
      = jsText (Backend.truncateUtf8 value maxBytes) := by
  unfold Webview.truncateUtf8 Backend.truncateUtf8
  rw [byteLength_jsText]
  by_cases hshort : utf8Len value ≤ maxBytes
  · rw [if_pos hshort, if_pos hshort]
  rw [if_neg hshort, if_neg hshort]
  obtain ⟨rest, hvalue, hle, hnext⟩ := floorCharBoundary_spec value maxBytes
  generalize sliceTo value (floorCharBoundary value maxBytes) = kept at hvalue hle hnext ⊢
  subst hvalue
  cases rest with
  | nil =>
    rw [List.append_nil] at hshort
    exact absurd hle hshort
  | cons c rest =>
    have hnext : maxBytes < utf8Len kept + c.utf8Size := hnext c rfl
    have hfirst : maxBytes < utf8Len kept + firstUnitBytes c := by
      unfold firstUnitBytes
      split
      · exact hnext
      · rename_i hc
        -- half of a pair would fit only if exactly its three bytes were left
        have hsize : c.utf8Size = 4 := Char.utf8Size_eq_four_iff.mpr (Nat.le_of_not_lt hc)
        have hne : utf8Len kept + 3 ≠ maxBytes := fun heq =>
          h ⟨kept, c, rest, rfl, Nat.le_of_not_lt hc, heq⟩
        omega
    have hsearch : Webview.searchSlice
        (fun middle => decide (byteLength ((jsText (kept ++ c :: rest)).take middle) ≤ maxBytes)) 0
        (jsText (kept ++ c :: rest)).length = (jsText kept).length := by
      refine searchSlice_eq (Nat.zero_le _) ?_ ?_ ?_
      · rw [jsText_append, List.length_append]
        exact Nat.le_add_right _ _
      · exact fun m hm => decide_eq_true ((byteLength_take_le _ hm).trans hle)
      · intro m hm _
        exact decide_eq_false
          (Nat.not_le_of_lt (Nat.lt_of_lt_of_le hfirst (le_byteLength_take c rest hm)))
    rw [hsearch, jsText_append, List.take_left]

/-! ## Redaction -/

theorem splitRuns_eq {value : Text} (hsame : ∀ c ∈ value, isJsWhitespace c = isWhitespace c)
    (hlast : ∀ c ∈ value.getLast?, isWhitespace c = false) :
    ∃ first rest, value.splitOnP isWhitespace = first :: rest ∧
      Webview.splitRuns value = first :: rest.filter (!·.isEmpty) ∧
      ∀ c ∈ value.head?, first.isEmpty = isWhitespace c := by
  induction value with
  | nil => exact ⟨[], [], rfl, rfl, nofun⟩
  | cons ch value ih =>
    have hlast' : ∀ c ∈ value.getLast?, isWhitespace c = false := by
      intro c hc
      refine hlast c ?_
      cases value with
      | nil => cases hc
      | cons next value =>
        rw [List.getLast?_cons_cons]
        exact hc
    obtain ⟨first, rest, hsplit, hruns, hfirst⟩ :=
      ih (fun c hc => hsame c (List.mem_cons_of_mem _ hc)) hlast'
    rw [List.splitOnP_cons_eq_if_modifyHead, hsplit, Webview.splitRuns, hruns,
      hsame ch List.mem_cons_self]
    cases hch : isWhitespace ch with
    | false =>
      refine ⟨ch :: first, rest, rfl, rfl, ?_⟩
      rintro c ⟨⟩
      rw [hch]
      rfl
    | true =>
      cases value with
      | nil =>
        rw [hlast ch rfl] at hch
        cases hch
      | cons next value =>
        refine ⟨[], first :: rest, rfl, ?_, ?_⟩
        · have hempty := hfirst next rfl
          rw [List.head?_cons, Option.any_some,
            hsame next (List.mem_cons_of_mem _ List.mem_cons_self), List.filter_cons, hempty]
          cases hnext : isWhitespace next with
          | true =>
            rw [hnext] at hempty
            rw [List.isEmpty_iff.mp hempty]
            rfl
          | false => rfl
        · rintro c ⟨⟩
          rw [hch]
          rfl

/-- A detail that the two redact alike. -/
structure DetailAlike (detail : Text) : Prop where
  notEmpty : detail ≠ []
  head : ∀ c ∈ detail.head?, isWhitespace c = false
  last : ∀ c ∈ detail.getLast?, isWhitespace c = false
  spaces : ∀ c ∈ detail, isJsWhitespace c = isWhitespace c
  paths : ∀ part ∈ splitWhitespace detail,
    Webview.looksLikeAbsolutePath part = Backend.looksLikeAbsolutePath part
  uncut : ¬CutsPair (Backend.redactAbsolutePaths detail) Backend.maxErrorDetailBytes

namespace DetailAlike

variable {detail : Text}

theorem splitRuns (h : DetailAlike detail) : Webview.splitRuns detail = splitWhitespace detail := by
  obtain ⟨first, rest, hsplit, hruns, hfirst⟩ := splitRuns_eq h.spaces h.last
  rw [hruns, splitWhitespace, hsplit, List.filter_cons]
  obtain ⟨c, detail, rfl⟩ := List.exists_cons_of_ne_nil h.notEmpty
  rw [hfirst c rfl, h.head c rfl]
  rfl

/-- **The two redact the detail alike.** -/
theorem redactAbsolutePaths_eq (h : DetailAlike detail) :
    Webview.redactAbsolutePaths detail = Backend.redactAbsolutePaths detail := by
  unfold Webview.redactAbsolutePaths Backend.redactAbsolutePaths
  rw [h.splitRuns]
  congr 1
  refine List.map_congr_left fun part hpart => ?_
  unfold Webview.redactPart Backend.redactPart
  rw [h.paths part hpart]

theorem redact_ne_nil (h : DetailAlike detail) : Backend.redactAbsolutePaths detail ≠ [] := by
  obtain ⟨first, rest, hsplit, -, hfirst⟩ := splitRuns_eq h.spaces h.last
  obtain ⟨c, detail, rfl⟩ := List.exists_cons_of_ne_nil h.notEmpty
  have hempty : first.isEmpty = false := (hfirst c rfl).trans (h.head c rfl)
  have hpart : Backend.redactPart first ≠ [] := by
    unfold Backend.redactPart
    split
    · exact List.cons_ne_nil _ _
    · rintro rfl
      cases hempty
  unfold Backend.redactAbsolutePaths
  rw [splitWhitespace, hsplit, List.filter_cons_of_pos (by rw [hempty]; rfl), List.map_cons]
  cases rest.filter (!·.isEmpty) with
  | nil =>
    rw [List.map_nil, List.intercalate_singleton]
    exact hpart
  | cons other rest =>
    rw [List.map_cons, List.intercalate_cons_cons]
    intro hnil
    exact hpart (List.append_eq_nil_iff.mp (List.append_eq_nil_iff.mp hnil).1).1

end DetailAlike

theorem truncateUtf8_ne_nil {value : Text} {maxBytes : ℕ} (hvalue : value ≠ [])
    (hmax : 4 ≤ maxBytes) : Backend.truncateUtf8 value maxBytes ≠ [] := by
  unfold Backend.truncateUtf8
  split
  · exact hvalue
  · obtain ⟨rest, hrest, -, hnext⟩ := floorCharBoundary_spec value maxBytes
    intro hnil
    rw [hnil, List.nil_append] at hrest
    obtain ⟨c, after, rfl⟩ := List.exists_cons_of_ne_nil hvalue
    have hlt := hnext c (hrest ▸ rfl)
    rw [hnil, utf8Len_nil, Nat.zero_add] at hlt
    exact absurd (Nat.lt_of_lt_of_le hlt c.utf8Size_le_four) (Nat.not_lt_of_le hmax)

theorem jsText_ne_nil {value : Text} (h : value ≠ []) : jsText value ≠ [] := by
  obtain ⟨c, value, rfl⟩ := List.exists_cons_of_ne_nil h
  obtain ⟨unit, rest, hunits, -⟩ := exists_jsText_cons c value
  rw [hunits]
  exact List.cons_ne_nil _ _

end FluxTerm.Logging
