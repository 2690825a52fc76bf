import FluxTerm.Lib.Budget
import FluxTerm.Lib.Bytes
import FluxTerm.Lib.Words
import FluxTerm.Logging.Limit

/-!
# FluxTerm — what is left of a path in a redacted detail

`redact_absolute_paths` looks at the words of a detail and replaces those that begin as an absolute
path does. A path is a part of a detail: it may begin inside a word, and end in another one.

* **`Hides`** — nothing of a component is kept; **`sanitizeError_hides_iff`** — exactly when.
* **`covered_iff`** — a path without white space is redacted if its word begins as a path does.
-/

namespace FluxTerm.Logging.PathTraces

open Lib Backend

variable {ν : Type}

/-! ## Paths -/

inductive PathRoot where
  | drive (letter slash : Char) (isLetter : letter.isAlpha = true) (isSlash : slash ∈ ['\\', '/'])
  | unc (share : Text)
  | home
  | users

namespace PathRoot

def text : PathRoot → Text
  | drive letter slash _ _ => [letter, ':', slash]
  | unc share => '\\' :: '\\' :: share
  | home => "/home/".toList
  | users => "/Users/".toList

def isSeparator : PathRoot → Char → Bool
  | home, c | users, c => c == '/'
  | _, c => c == '/' || c == '\\'

end PathRoot

structure AbsolutePath where
  root : PathRoot
  below : Text

def AbsolutePath.text (path : AbsolutePath) : Text := path.root.text ++ path.below

/-! ## Traces -/

abbrev Traced := List (Char × Bool)

namespace Traced

def text (traced : Traced) : Text := traced.map Prod.fst

def Clean (traced : Traced) : Prop := ∀ c ∈ traced, c.2 = false

end Traced

open Traced

def untraced (s : Text) : Traced := s.map (·, false)

def AbsolutePath.traced (path : AbsolutePath) : Traced :=
  untraced path.root.text ++ path.below.map fun c => (c, !path.root.isSeparator c)

def detailWith (before : Text) (path : AbsolutePath) (behind : Text) : Traced :=
  untraced before ++ path.traced ++ untraced behind

/-- The words of `redact_absolute_paths`. -/
def tracedWords (detail : Traced) : List Traced := wordsOf (fun c => isWhitespace c.1) detail

def redactTracedPart (part : Traced) : Traced :=
  if looksLikeAbsolutePath part.text then untraced "[REDACTED_PATH]".toList else part

def redactTraced (detail : Traced) : Traced :=
  [(' ', false)].intercalate ((tracedWords detail).map redactTracedPart)

def keepWithin : Traced → ℕ → Traced
  | [], _ => []
  | c :: traced, n =>
    if c.1.utf8Size ≤ n then c :: keepWithin traced (n - c.1.utf8Size) else []

def keptOf (detail : Traced) : Traced := keepWithin (redactTraced detail) maxErrorDetailBytes

@[simp] theorem text_untraced (s : Text) : (untraced s).text = s := by
  rw [Traced.text, untraced, List.map_map]
  exact List.map_id s

theorem text_append (traced more : Traced) : (traced ++ more).text = traced.text ++ more.text :=
  List.map_append

theorem text_traced (path : AbsolutePath) : path.traced.text = path.text := by
  have hbelow : Traced.text (path.below.map fun c => (c, !path.root.isSeparator c)) = path.below := by
    rw [Traced.text, List.map_map]
    exact List.map_id path.below
  rw [AbsolutePath.traced, text_append, text_untraced, hbelow, AbsolutePath.text]

theorem text_detailWith (before : Text) (path : AbsolutePath) (behind : Text) :
    (detailWith before path behind).text = before ++ path.text ++ behind := by
  rw [detailWith, text_append, text_append, text_traced, text_untraced, text_untraced]

theorem clean_untraced (s : Text) : (untraced s).Clean := by
  intro c hc
  obtain ⟨d, -, rfl⟩ := List.mem_map.mp hc
  rfl

theorem Traced.Clean.append {traced more : Traced} (h : traced.Clean) (hmore : more.Clean) :
    (traced ++ more).Clean := fun c hc => (List.mem_append.mp hc).elim (h c) (hmore c)

/-! ## The sanitiser on traced texts -/

theorem splitWhitespace_text (detail : Traced) :
    splitWhitespace detail.text = (tracedWords detail).map Traced.text :=
  wordsOf_map Prod.fst detail

theorem redactTracedPart_text (part : Traced) :
    (redactTracedPart part).text = redactPart part.text := by
  unfold redactTracedPart redactPart
  split
  · exact text_untraced _
  · rfl

/-- **Traces do not matter to what is redacted.** -/
theorem redactTraced_text (detail : Traced) :
    (redactTraced detail).text = redactAbsolutePaths detail.text := by
  rw [redactAbsolutePaths, splitWhitespace_text, Traced.text, redactTraced, map_intercalate,
    List.map_map, List.map_map]
  congr 1
  exact List.map_congr_left fun part _ => redactTracedPart_text part

theorem keepWithin_text (detail : Traced) (n : ℕ) :
    (keepWithin detail n).text = sliceTo detail.text n := by
  induction detail generalizing n with
  | nil => rfl
  | cons c detail ih =>
    rw [keepWithin, Traced.text, Traced.text, List.map_cons, sliceTo]
    split
    · exact congrArg (c.1 :: ·) (ih _)
    · rfl

theorem truncateUtf8_eq_sliceTo (value : Text) (maxBytes : ℕ) :
    truncateUtf8 value maxBytes = sliceTo value maxBytes := by
  unfold truncateUtf8
  split
  · rename_i hfits
    exact (sliceTo_eq_self hfits).symm
  · exact sliceTo_floorCharBoundary value maxBytes

/-- **What is kept, traced,** is the detail that `sanitize_error` keeps. -/
theorem sanitizeError_detail {error : List (Text × Value ν)} {canonicalMessage : Text}
    {detail : Traced} (hraw : rawDetail error canonicalMessage = some detail.text) :
    (sanitizeError (.object error) canonicalMessage).bind LogError.detail =
      some (keptOf detail).text := by
  rw [sanitizeError, hraw, keptOf, keepWithin_text, redactTraced_text, ← truncateUtf8_eq_sliceTo]
  rfl

/-! ## What is left of a path -/

/-- Nothing of the path's components is in the detail that is kept. -/
structure Hides (sanitized : Option (LogError Text)) (detail : Traced) : Prop where
  kept : sanitized.bind LogError.detail = some (keptOf detail).text
  clean : (keptOf detail).Clean

def Harmless (word : Traced) : Prop := looksLikeAbsolutePath word.text = true ∨ word.Clean

def Covered (detail : Traced) : Prop := ∀ word ∈ tracedWords detail, Harmless word

/-- The first character of a component that is in no word that is redacted. -/
structure FirstLeft (detail : Traced) where
  done : List Traced
  lead : Traced
  first : Char
  tail : Traced
  rest : List Traced
  words : tracedWords detail = done ++ (lead ++ (first, true) :: tail) :: rest
  harmless : ∀ word ∈ done, Harmless word
  clean : lead.Clean
  not_redacted : looksLikeAbsolutePath (Traced.text (lead ++ (first, true) :: tail)) = false

def FirstLeft.bytesBefore {detail : Traced} (left : FirstLeft detail) : ℕ :=
  (left.done.map fun word => utf8Len (redactPart word.text) + 1).sum + utf8Len left.lead.text

def CutOff (detail : Traced) : Prop :=
  ∃ left : FirstLeft detail, maxErrorDetailBytes < left.bytesBefore + left.first.utf8Size

theorem Harmless.clean_redactTracedPart {word : Traced} (h : Harmless word) :
    (redactTracedPart word).Clean := by
  unfold redactTracedPart
  split
  · exact clean_untraced _
  · rename_i hnot
    exact h.resolve_left hnot

theorem clean_intercalate {pieces : List Traced} (h : ∀ piece ∈ pieces, piece.Clean) :
    Traced.Clean ([(' ', false)].intercalate pieces) := by
  intro c hc
  rcases mem_intercalate hc with hsep | ⟨piece, hpiece, hc⟩
  · rw [List.mem_singleton.mp hsep]
  · exact h piece hpiece c hc

theorem Covered.clean_redactTraced {detail : Traced} (h : Covered detail) :
    (redactTraced detail).Clean := by
  refine clean_intercalate fun piece hpiece => ?_
  obtain ⟨word, hword, rfl⟩ := List.mem_map.mp hpiece
  exact (h word hword).clean_redactTracedPart

theorem exists_first_marked {traced : Traced} (h : ¬traced.Clean) :
    ∃ lead first tail, traced = lead ++ (first, true) :: tail ∧ Traced.Clean lead := by
  induction traced with
  | nil => exact absurd (fun c hc => nomatch hc) h
  | cons c traced ih =>
    obtain ⟨ch, marked⟩ := c
    cases marked with
    | true => exact ⟨[], ch, traced, rfl, fun c hc => nomatch hc⟩
    | false =>
      obtain ⟨lead, first, tail, rfl, hclean⟩ := ih fun hclean =>
        h fun c hc => (List.mem_cons.mp hc).elim (fun heq => heq ▸ rfl) (hclean c)
      refine ⟨(ch, false) :: lead, first, tail, rfl, fun c hc => ?_⟩
      exact (List.mem_cons.mp hc).elim (fun heq => heq ▸ rfl) (hclean c)

theorem exists_first_harmful {words : List Traced} (h : ¬∀ word ∈ words, Harmless word) :
    ∃ done word rest, words = done ++ word :: rest ∧ (∀ other ∈ done, Harmless other) ∧
      ¬Harmless word := by
  induction words with
  | nil => exact absurd (fun word hword => nomatch hword) h
  | cons word words ih =>
    by_cases hword : Harmless word
    · obtain ⟨done, next, rest, rfl, hdone, hnext⟩ := ih fun hall =>
        h fun other hother => (List.mem_cons.mp hother).elim (fun heq => heq ▸ hword) (hall other)
      refine ⟨word :: done, next, rest, rfl, fun other hother => ?_, hnext⟩
      exact (List.mem_cons.mp hother).elim (fun heq => heq ▸ hword) (hdone other)
    · exact ⟨[], word, words, rfl, fun other hother => (nomatch hother), hword⟩

theorem exists_firstLeft {detail : Traced} (h : ¬Covered detail) : Nonempty (FirstLeft detail) := by
  obtain ⟨done, word, rest, hwords, hdone, hword⟩ := exists_first_harmful h
  rw [Harmless, not_or, Bool.not_eq_true] at hword
  obtain ⟨lead, first, tail, rfl, hclean⟩ := exists_first_marked hword.2
  exact ⟨⟨done, lead, first, tail, rest, hwords, hdone, hclean, hword.1⟩⟩

theorem utf8Len_flatMap {β : Type} (f : β → Text) (items : List β) :
    utf8Len (items.flatMap f) = (items.map fun item => utf8Len (f item)).sum := by
  induction items with
  | nil => rfl
  | cons item items ih => rw [List.flatMap_cons, utf8Len_append, ih, List.map_cons, List.sum_cons]

/-- **Where the first character that is left is** in the redacted detail. -/
theorem FirstLeft.redactTraced_eq {detail : Traced} (left : FirstLeft detail) :
    ∃ lead tail, redactTraced detail = lead ++ (left.first, true) :: tail ∧ Traced.Clean lead ∧
      utf8Len lead.text = left.bytesBefore := by
  obtain ⟨done, lead, first, tail, rest, hwords, hdone, hclean, hnot⟩ := left
  have hpart : redactTracedPart (lead ++ (first, true) :: tail) = lead ++ (first, true) :: tail := by
    rw [redactTracedPart, hnot, if_neg Bool.false_ne_true]
  refine ⟨(done.map redactTracedPart).flatMap (· ++ [(' ', false)]) ++ lead,
    tail ++ joinedRest (' ', false) (rest.map redactTracedPart), ?_, ?_, ?_⟩
  · rw [redactTraced, hwords, List.map_append, List.map_cons, intercalate_append,
      intercalate_concat, hpart]
    simp only [List.append_assoc, List.cons_append]
  · refine Clean.append (fun c hc => ?_) hclean
    obtain ⟨piece, hpiece, hc⟩ := List.mem_flatMap.mp hc
    obtain ⟨word, hword, rfl⟩ := List.mem_map.mp hpiece
    rcases List.mem_append.mp hc with hc | hc
    · exact (hdone word hword).clean_redactTracedPart c hc
    · rw [List.mem_singleton.mp hc]
  · rw [text_append, utf8Len_append, FirstLeft.bytesBefore, Traced.text, List.map_flatMap,
      utf8Len_flatMap, List.map_map]
    congr 2
    refine List.map_congr_left fun word _ => ?_
    rw [Function.comp_apply, List.map_append, utf8Len_append]
    exact congrArg (utf8Len · + 1) (redactTracedPart_text word)

theorem clean_keepWithin {traced : Traced} (h : traced.Clean) (n : ℕ) :
    (keepWithin traced n).Clean := by
  induction traced generalizing n with
  | nil => exact h
  | cons c traced ih =>
    rw [keepWithin]
    split
    · intro d hd
      rcases List.mem_cons.mp hd with rfl | hd
      · exact h d List.mem_cons_self
      · exact ih (fun e he => h e (List.mem_cons_of_mem c he)) _ d hd
    · exact fun d hd => nomatch hd

/-- **Cutting** takes away the first character that is marked, or it does not. -/
theorem clean_keepWithin_iff {lead tail : Traced} {first : Char} (hclean : lead.Clean) (n : ℕ) :
    (keepWithin (lead ++ (first, true) :: tail) n).Clean ↔
      n < utf8Len lead.text + first.utf8Size := by
  induction lead generalizing n with
  | nil =>
    rw [List.nil_append, keepWithin]
    split
    · rename_i hfits
      refine ⟨fun h => absurd (h _ List.mem_cons_self) (by simp), fun hlt => ?_⟩
      rw [show utf8Len (Traced.text []) = 0 from rfl, Nat.zero_add] at hlt
      exact absurd hfits (Nat.not_le.mpr hlt)
    · rename_i hnot
      refine ⟨fun _ => ?_, fun _ c hc => nomatch hc⟩
      exact (Nat.lt_of_not_le hnot).trans_le (Nat.le_add_left _ _)
  | cons c lead ih =>
    have hlen : utf8Len (Traced.text (c :: lead)) = c.1.utf8Size + utf8Len (Traced.text lead) := rfl
    have ih := ih (fun d hd => hclean d (List.mem_cons_of_mem c hd)) (n - c.1.utf8Size)
    rw [List.cons_append, keepWithin, hlen]
    split
    · rename_i hfits
      have hcons : ∀ kept : Traced, Traced.Clean (c :: kept) ↔ kept.Clean := fun kept =>
        ⟨fun h d hd => h d (List.mem_cons_of_mem c hd), fun h d hd =>
          (List.mem_cons.mp hd).elim (fun heq => heq ▸ hclean c List.mem_cons_self) (h d)⟩
      rw [hcons, ih]
      omega
    · rename_i hnot
      exact ⟨fun _ => by omega, fun _ d hd => nomatch hd⟩

/-- **What is kept has nothing of the path** exactly if its words are redacted, or cut off. -/
theorem clean_keptOf_iff (detail : Traced) :
    (keptOf detail).Clean ↔ Covered detail ∨ CutOff detail := by
  constructor
  · intro h
    by_cases hcovered : Covered detail
    · exact .inl hcovered
    · obtain ⟨left⟩ := exists_firstLeft hcovered
      obtain ⟨lead, tail, heq, hclean, hlen⟩ := left.redactTraced_eq
      rw [keptOf, heq, clean_keepWithin_iff hclean, hlen] at h
      exact .inr ⟨left, h⟩
  · rintro (hcovered | ⟨left, hcut⟩)
    · exact clean_keepWithin hcovered.clean_redactTraced _
    · obtain ⟨lead, tail, heq, hclean, hlen⟩ := left.redactTraced_eq
      rw [keptOf, heq, clean_keepWithin_iff hclean, hlen]
      exact hcut

/-! ## Words that begin as a path does -/

def AbsolutePath.HasComponent (path : AbsolutePath) : Prop :=
  ∃ c ∈ path.below, path.root.isSeparator c = false

def AbsolutePath.Unspaced (path : AbsolutePath) : Prop := ∀ c ∈ path.text, isWhitespace c = false

theorem toNat_of_isAlpha {letter : Char} (h : letter.isAlpha = true) : letter.toNat < 128 := by
  have h : (decide ('A'.val ≤ letter.val ∧ letter.val ≤ 'Z'.val) ||
      decide ('a'.val ≤ letter.val) && decide (letter.val ≤ 'z'.val)) = true := h
  simp only [Bool.or_eq_true, Bool.and_eq_true, decide_eq_true_eq, UInt32.le_iff_toNat_le] at h
  change (65 ≤ letter.toNat ∧ letter.toNat ≤ 90) ∨ (97 ≤ letter.toNat ∧ letter.toNat ≤ 122) at h
  omega

theorem looksLikeAbsolutePath_iff {word : Text} : looksLikeAbsolutePath word = true ↔
    (3 < (utf8 word).length ∧ (utf8 word)[1]? = some 0x3a ∧
      ((utf8 word)[2]? = some 0x5c ∨ (utf8 word)[2]? = some 0x2f)) ∨
    "\\\\".toList <+: word ∨ "/home/".toList <+: word ∨ "/Users/".toList <+: word := by
  unfold looksLikeAbsolutePath
  rw [Bool.or_eq_true, Bool.or_eq_true, Bool.or_eq_true, Bool.and_eq_true, Bool.and_eq_true,
    Bool.or_eq_true, decide_eq_true_eq, decide_eq_true_eq, decide_eq_true_eq, decide_eq_true_eq,
    List.isPrefixOf_iff_prefix, List.isPrefixOf_iff_prefix, List.isPrefixOf_iff_prefix, or_assoc,
    and_assoc]
  rfl

theorem utf8_drive {letter slash : Char} (hletter : letter.isAlpha = true)
    (hslash : slash ∈ ['\\', '/']) (below : Text) : ∃ third : UInt8,
      utf8 (letter :: ':' :: slash :: below) = asciiByte letter :: 0x3a :: third :: utf8 below ∧
        (third = 0x5c ∨ third = 0x2f) := by
  rw [utf8_cons, utf8_cons, utf8_cons, utf8EncodeChar_ascii (toNat_of_isAlpha hletter)]
  rcases List.mem_cons.mp hslash with rfl | hslash
  · exact ⟨0x5c, rfl, .inl rfl⟩
  · rw [List.mem_singleton.mp hslash]
    exact ⟨0x2f, rfl, .inr rfl⟩

/-- **A path at the beginning of a word** is taken for one, if it has something below its root. -/
theorem looksLikeAbsolutePath_path {path : AbsolutePath} (h : path.below ≠ []) (tail : Text) :
    looksLikeAbsolutePath (path.text ++ tail) = true := by
  rw [looksLikeAbsolutePath_iff]
  obtain ⟨root, below⟩ := path
  cases root with
  | drive letter slash isLetter isSlash =>
    obtain ⟨third, hbytes, hthird⟩ := utf8_drive isLetter isSlash (below ++ tail)
    have hlen : 0 < (utf8 (below ++ tail)).length := by
      refine List.length_pos_of_ne_nil fun hnil => ?_
      exact h (List.append_eq_nil_iff.mp (utf8_eq_nil hnil)).1
    have htext : utf8 (AbsolutePath.text ⟨.drive letter slash isLetter isSlash, below⟩ ++ tail) =
        asciiByte letter :: 0x3a :: third :: utf8 (below ++ tail) := hbytes
    rw [htext]
    refine .inl ⟨?_, rfl, hthird.imp (congrArg some) (congrArg some)⟩
    rw [List.length_cons, List.length_cons, List.length_cons]
    omega
  | unc share => exact .inr (.inl ⟨share ++ below ++ tail, rfl⟩)
  | home => exact .inr (.inr (.inl ⟨below ++ tail, rfl⟩))
  | users => exact .inr (.inr (.inr ⟨below ++ tail, rfl⟩))

theorem text_begins (path : AbsolutePath) : ∃ c d rest, path.text = c :: d :: rest ∧ c ≠ ':' ∧
    d ≠ 'o' ∧ (d = 's' → c ≠ 'U') := by
  obtain ⟨root, below⟩ := path
  cases root with
  | drive letter slash isLetter isSlash =>
    refine ⟨letter, ':', slash :: below, rfl, ?_, by decide, fun h => absurd h (by decide)⟩
    rintro rfl
    cases isLetter
  | unc share => exact ⟨'\\', '\\', share ++ below, rfl, by decide, by decide, by decide⟩
  | home => exact ⟨'/', 'h', "ome/".toList ++ below, rfl, by decide, by decide, by decide⟩
  | users => exact ⟨'/', 'U', "sers/".toList ++ below, rfl, by decide, by decide, by decide⟩

/-! ## Paths without white space -/

def wordAround (before : Text) (path : AbsolutePath) (behind : Text) : Text :=
  lastWord isWhitespace before ++ path.text ++ firstWord isWhitespace behind

def tracedAround (before : Text) (path : AbsolutePath) (behind : Text) : Traced :=
  untraced (lastWord isWhitespace before) ++ path.traced ++ untraced (firstWord isWhitespace behind)

theorem text_tracedAround (before : Text) (path : AbsolutePath) (behind : Text) :
    (tracedAround before path behind).text = wordAround before path behind := by
  rw [tracedAround, text_append, text_append, text_traced, text_untraced, text_untraced, wordAround]

theorem clean_of_mem_tracedWords {s : Text} {word : Traced} (h : word ∈ tracedWords (untraced s)) :
    word.Clean := by
  rw [tracedWords, untraced, wordsOf_map] at h
  obtain ⟨part, -, rfl⟩ := List.mem_map.mp h
  exact clean_untraced part

/-- **The words of a detail** with a path without white space: all are the same for every such path,
but the one it is in. -/
theorem tracedWords_detailWith (before behind : Text) : ∃ front back : List Traced,
    (∀ word ∈ front ++ back, word.Clean) ∧ ∀ path : AbsolutePath, path.Unspaced →
      tracedWords (detailWith before path behind) =
        front ++ tracedAround before path behind :: back := by
  obtain ⟨front, hfront, hends, hlast⟩ := exists_lastWord isWhitespace before
  obtain ⟨back, hback, hbegins, hfirst⟩ := exists_firstWord isWhitespace behind
  refine ⟨tracedWords (untraced front), tracedWords (untraced back), fun word hword => ?_,
    fun path hpath => ?_⟩
  · exact (List.mem_append.mp hword).elim clean_of_mem_tracedWords clean_of_mem_tracedWords
  have hbefore : untraced before = untraced front ++ untraced (lastWord isWhitespace before) := by
    rw [untraced, untraced, untraced, ← List.map_append, ← hfront]
  have hbehind : untraced behind = untraced (firstWord isWhitespace behind) ++ untraced back := by
    rw [untraced, untraced, untraced, ← List.map_append, ← hback]
  have hne : tracedAround before path behind ≠ [] := by
    intro hnil
    obtain ⟨c, d, rest, hcons, -⟩ := text_begins path
    have htext := text_tracedAround before path behind
    rw [hnil, wordAround, hcons] at htext
    simp [Traced.text] at htext
  have hword : ∀ c ∈ tracedAround before path behind, isWhitespace c.1 = false := by
    intro c hc
    have hmem : c.1 ∈ wordAround before path behind := by
      rw [← text_tracedAround]
      exact List.mem_map_of_mem hc
    rcases List.mem_append.mp hmem with hmem | hmem
    · exact (List.mem_append.mp hmem).elim (hlast _) (hpath _)
    · exact hfirst _ hmem
  have hsplit : detailWith before path behind =
      untraced front ++ tracedAround before path behind ++ untraced back := by
    rw [detailWith, hbefore, hbehind, tracedAround]
    simp only [List.append_assoc]
  rw [hsplit]
  exact wordsOf_middle (hends.map (f := (·, false)) fun _ => rfl) hne hword
    (hbegins.map (f := (·, false)) fun _ => rfl)

/-- **A path without white space is hidden** if its word begins as an absolute path does. -/
theorem covered_iff {before behind : Text} {path : AbsolutePath} (hpath : path.Unspaced)
    (hcomponent : path.HasComponent) : Covered (detailWith before path behind) ↔
      looksLikeAbsolutePath (wordAround before path behind) = true := by
  obtain ⟨front, back, hclean, hwords⟩ := tracedWords_detailWith before behind
  rw [Covered, hwords path hpath, ← text_tracedAround]
  constructor
  · intro h
    refine (h _ (List.mem_append_right _ List.mem_cons_self)).resolve_right fun hnone => ?_
    obtain ⟨c, hc, hcomponent⟩ := hcomponent
    have hmem : (c, !path.root.isSeparator c) ∈ tracedAround before path behind :=
      List.mem_append_left _ (List.mem_append_right _ (List.mem_append_right _
        (List.mem_map_of_mem (f := fun c => (c, !path.root.isSeparator c)) hc)))
    have hfalse := hnone _ hmem
    rw [hcomponent] at hfalse
    cases hfalse
  · intro hlooks word hword
    rcases List.mem_append.mp hword with hword | hword
    · exact .inr (hclean word (List.mem_append_left _ hword))
    · rcases List.mem_cons.mp hword with rfl | hword
      · exact .inl hlooks
      · exact .inr (hclean word (List.mem_append_right _ hword))

theorem AbsolutePath.HasComponent.below_ne_nil {path : AbsolutePath} (h : path.HasComponent) :
    path.below ≠ [] := by
  obtain ⟨c, hc, -⟩ := h
  exact List.ne_nil_of_mem hc

/-- **At the beginning of a word** a path without white space is hidden. -/
theorem covered_of_endsWord {before : Text} (hbefore : EndsWord isWhitespace before)
    {path : AbsolutePath} (hpath : path.Unspaced) (hcomponent : path.HasComponent) (behind : Text) :
    Covered (detailWith before path behind) := by
  have hlast : lastWord isWhitespace before = [] := by
    have h : lastWord isWhitespace (before ++ []) = [] :=
      lastWord_append hbefore fun c hc => nomatch hc
    rwa [List.append_nil] at h
  rw [covered_iff hpath hcomponent, wordAround, hlast, List.nil_append]
  exact looksLikeAbsolutePath_path hcomponent.below_ne_nil _

/-! ## Two paths in the same place -/

theorem splitWhitespace_around (before behind : Text) : ∃ front back : List Text,
    ∀ path : AbsolutePath, path.Unspaced → splitWhitespace (before ++ path.text ++ behind) =
      front ++ wordAround before path behind :: back := by
  obtain ⟨front, back, -, hwords⟩ := tracedWords_detailWith before behind
  refine ⟨front.map Traced.text, back.map Traced.text, fun path hpath => ?_⟩
  rw [← text_detailWith, splitWhitespace_text, hwords path hpath, List.map_append, List.map_cons,
    text_tracedAround]

/-- **Two details that differ in a path that is redacted** are redacted to the same. -/
theorem redactAbsolutePaths_alike {before behind : Text} {path other : AbsolutePath}
    (hpath : path.Unspaced) (hother : other.Unspaced)
    (hlooks : looksLikeAbsolutePath (wordAround before path behind) = true)
    (hlooks' : looksLikeAbsolutePath (wordAround before other behind) = true) :
    redactAbsolutePaths (before ++ other.text ++ behind) =
      redactAbsolutePaths (before ++ path.text ++ behind) := by
  obtain ⟨front, back, hwords⟩ := splitWhitespace_around before behind
  have hpart : redactPart (wordAround before other behind) =
      redactPart (wordAround before path behind) := by
    rw [redactPart, redactPart, if_pos hlooks, if_pos hlooks']
  rw [redactAbsolutePaths, redactAbsolutePaths, hwords path hpath, hwords other hother,
    List.map_append, List.map_append, List.map_cons, List.map_cons, hpart]

theorem not_space_mem_redactPart {value part : Text} (h : part ∈ splitWhitespace value) :
    ' ' ∉ redactPart part := by
  unfold redactPart
  split
  · exact not_mem_toList rfl rfl
  · intro hmem
    cases not_sep_of_mem_wordsOf h ' ' hmem

theorem redactPart_eq_of_redactAbsolutePaths_eq {value other : Text} (hne : splitWhitespace value ≠ [])
    (hne' : splitWhitespace other ≠ [])
    (h : redactAbsolutePaths value = redactAbsolutePaths other) :
    (splitWhitespace value).map redactPart = (splitWhitespace other).map redactPart := by
  have hparts : ∀ s : Text, ∀ part ∈ (splitWhitespace s).map redactPart, ' ' ∉ part := by
    intro s part hpart
    obtain ⟨word, hword, rfl⟩ := List.mem_map.mp hpart
    exact not_space_mem_redactPart hword
  have hsplit := congrArg (List.splitOn ' ') h
  rwa [redactAbsolutePaths, redactAbsolutePaths, List.splitOn_intercalate ' ' (hparts value)
    (by simpa using hne), List.splitOn_intercalate ' ' (hparts other) (by simpa using hne')] at hsplit

theorem exists_slash_mem_text (path : AbsolutePath) : '\\' ∈ path.text ∨ '/' ∈ path.text := by
  obtain ⟨root, below⟩ := path
  cases root with
  | drive letter slash isLetter isSlash =>
    have hmem : slash ∈ AbsolutePath.text ⟨.drive letter slash isLetter isSlash, below⟩ :=
      List.mem_append_left _ (List.mem_cons_of_mem _ (List.mem_cons_of_mem _ List.mem_cons_self))
    rcases (by simpa using isSlash : slash = '\\' ∨ slash = '/') with rfl | rfl
    · exact .inl hmem
    · exact .inr hmem
  | unc share => exact .inl List.mem_cons_self
  | home => exact .inr List.mem_cons_self
  | users => exact .inr List.mem_cons_self

theorem wordAround_ne_placeholder (before : Text) (path : AbsolutePath) (behind : Text) :
    wordAround before path behind ≠ "[REDACTED_PATH]".toList := by
  intro heq
  have hmem : ∀ c ∈ path.text, c ∈ "[REDACTED_PATH]".toList := fun c hc =>
    heq ▸ List.mem_append_left _ (List.mem_append_right _ hc)
  rcases exists_slash_mem_text path with hslash | hslash
  · exact not_mem_toList rfl rfl (hmem _ hslash)
  · exact not_mem_toList rfl rfl (hmem _ hslash)

/-- **Only then** two different paths without white space are redacted to the same. -/
theorem redactAbsolutePaths_alike_iff {before behind : Text} {path other : AbsolutePath}
    (hpath : path.Unspaced) (hother : other.Unspaced) (hne : other.text ≠ path.text) :
    redactAbsolutePaths (before ++ other.text ++ behind) =
        redactAbsolutePaths (before ++ path.text ++ behind) ↔
      looksLikeAbsolutePath (wordAround before path behind) = true ∧
        looksLikeAbsolutePath (wordAround before other behind) = true := by
  refine ⟨fun h => ?_, fun h => redactAbsolutePaths_alike hpath hother h.1 h.2⟩
  obtain ⟨front, back, hwords⟩ := splitWhitespace_around before behind
  have hparts := redactPart_eq_of_redactAbsolutePaths_eq (by rw [hwords other hother]; simp)
    (by rw [hwords path hpath]; simp) h
  rw [hwords path hpath, hwords other hother, List.map_append, List.map_append, List.map_cons,
    List.map_cons] at hparts
  have hpart := (List.cons.inj (List.append_cancel_left hparts)).1
  unfold redactPart at hpart
  split at hpart
  · split at hpart
    · rename_i hlooks' hlooks
      exact ⟨hlooks, hlooks'⟩
    · exact absurd hpart.symm (wordAround_ne_placeholder before path behind)
  · split at hpart
    · exact absurd hpart (wordAround_ne_placeholder before other behind)
    · exact absurd (List.append_cancel_left (List.append_cancel_right hpart)) hne

/-! ## What `sanitize_error` keeps -/

theorem sanitizeError_congr {error error' : List (Text × Value ν)} {canonicalMessage : Text}
    {detail detail' : Text} (hraw : rawDetail error canonicalMessage = some detail)
    (hraw' : rawDetail error' canonicalMessage = some detail')
    (hcode : error'.lookup "code".toList = error.lookup "code".toList) :
    sanitizeError (.object error') canonicalMessage = sanitizeError (.object error) canonicalMessage ↔
      truncateUtf8 (redactAbsolutePaths detail') maxErrorDetailBytes =
        truncateUtf8 (redactAbsolutePaths detail) maxErrorDetailBytes := by
  rw [sanitizeError, sanitizeError, hraw, hraw', hcode]
  simp

theorem truncateUtf8_eq_self {value : Text} {maxBytes : ℕ} (h : utf8Len value ≤ maxBytes) :
    truncateUtf8 value maxBytes = value := if_pos h

/-- **Nothing of a path's components is kept** exactly if every word with something of them begins
as an absolute path does, or the first character that is left is cut off. For paths without white
space in the same place, errors are then recorded alike; and if nothing is cut, only then. -/
theorem sanitizeError_hides_iff {error : List (Text × Value ν)}
    {canonicalMessage before behind : Text} {path : AbsolutePath}
    (hraw : rawDetail error canonicalMessage = some (before ++ path.text ++ behind)) :
    (Hides (sanitizeError (.object error) canonicalMessage) (detailWith before path behind) ↔
      Covered (detailWith before path behind) ∨ CutOff (detailWith before path behind)) ∧
    ∀ (other : AbsolutePath) (error' : List (Text × Value ν)),
      rawDetail error' canonicalMessage = some (before ++ other.text ++ behind) →
      error'.lookup "code".toList = error.lookup "code".toList →
      path.Unspaced → other.Unspaced → other.text ≠ path.text →
        (looksLikeAbsolutePath (wordAround before path behind) = true ∧
            looksLikeAbsolutePath (wordAround before other behind) = true →
          sanitizeError (.object error') canonicalMessage =
            sanitizeError (.object error) canonicalMessage) ∧
        (utf8Len (redactAbsolutePaths (before ++ path.text ++ behind)) ≤ maxErrorDetailBytes →
          utf8Len (redactAbsolutePaths (before ++ other.text ++ behind)) ≤ maxErrorDetailBytes →
          sanitizeError (.object error') canonicalMessage =
            sanitizeError (.object error) canonicalMessage →
          looksLikeAbsolutePath (wordAround before path behind) = true ∧
            looksLikeAbsolutePath (wordAround before other behind) = true) := by
  refine ⟨?_, fun other error' hraw' hcode hpath hother hne => ?_⟩
  · rw [← clean_keptOf_iff]
    refine ⟨Hides.clean, fun hclean => ⟨sanitizeError_detail ?_, hclean⟩⟩
    rw [text_detailWith, hraw]
  · rw [sanitizeError_congr hraw hraw' hcode, ← redactAbsolutePaths_alike_iff hpath hother hne]
    refine ⟨congrArg (truncateUtf8 · maxErrorDetailBytes), fun hfits hfits' hsame => ?_⟩
    rwa [truncateUtf8_eq_self hfits, truncateUtf8_eq_self hfits'] at hsame

def settingsPath (user : Text) : AbsolutePath where
  root := .drive 'C' '\\' rfl List.mem_cons_self
  below := "Users\\".toList ++ user ++ "\\settings.json".toList

def errorWith (detail : Text) : List (Text × Value ℕ) :=
  [("code".toList, .string "settings_write_failed".toList),
    ("message".toList, .string "Failed to write settings".toList),
    ("detail".toList, .string detail)]

def writeError (user : Text) : List (Text × Value ℕ) :=
  errorWith ("write ".toList ++ (settingsPath user).text ++ " failed".toList)

theorem settingsPath_hidden :
    Hides (sanitizeError (.object (writeError "someone".toList)) "settings persist failed".toList)
        (detailWith "write ".toList (settingsPath "someone".toList) " failed".toList) ∧
      sanitizeError (.object (writeError "other".toList)) "settings persist failed".toList =
        sanitizeError (.object (writeError "someone".toList)) "settings persist failed".toList := by
  have hwrite : EndsWord isWhitespace "write ".toList := .inr ⟨"write".toList, ' ', rfl, rfl⟩
  have hraw : rawDetail (writeError "someone".toList) "settings persist failed".toList =
      some ("write ".toList ++ (settingsPath "someone".toList).text ++ " failed".toList) := rfl
  have hspec := sanitizeError_hides_iff hraw
  refine ⟨hspec.1.mpr (.inl (covered_of_endsWord hwrite (forall_not_of_all rfl)
    ⟨'U', List.mem_cons_self, rfl⟩ _)), ?_⟩
  exact (hspec.2 (settingsPath "other".toList) (writeError "other".toList) rfl rfl
    (forall_not_of_all rfl) (forall_not_of_all rfl) (by decide)).1
      ⟨by decide, by decide⟩

def openError (user : Text) : List (Text × Value ℕ) :=
  errorWith ("open \"".toList ++ (settingsPath user).text ++ "\" failed".toList)

/-- **A path in quotes** is kept as it is. -/
theorem quoted_path_kept :
    (sanitizeError (.object (openError "someone".toList)) "settings persist failed".toList).bind
        LogError.detail = some "open \"C:\\Users\\someone\\settings.json\" failed".toList ∧
      ¬∀ (error : List (Text × Value ℕ)) (canonicalMessage before behind : Text)
        (path : AbsolutePath),
        rawDetail error canonicalMessage = some (before ++ path.text ++ behind) →
          Hides (sanitizeError (.object error) canonicalMessage)
            (detailWith before path behind) := by
  refine ⟨by decide, fun hall => ?_⟩
  have hhides := hall (openError "someone".toList) "settings persist failed".toList "open \"".toList
    "\" failed".toList (settingsPath "someone".toList) rfl
  have hkept : ('U', true) ∈ keptOf (detailWith "open \"".toList (settingsPath "someone".toList)
      "\" failed".toList) := by
    decide
  cases hhides.clean _ hkept

end FluxTerm.Logging.PathTraces
