import FluxTerm.Lib.Bytes

/-!
# FluxTerm — escape sequences in terminal output

`strip_ansi_escape_sequences` in `ai/mod.rs` scans the bytes of a snippet and leaves out what an
escape character begins.
-/

namespace FluxTerm.Ai

open Lib

def esc : Char := '\x1b'

def bel : Char := '\x07'

/-! ## The scan -/

def skipCsi : Bytes → Bytes
  | [] => []
  | b :: bytes => if 0x40 ≤ b ∧ b ≤ 0x7e then bytes else skipCsi bytes

def skipOsc : Bytes → Bytes
  | [] => []
  | b :: bytes =>
    if b = 0x07 then bytes
    else if b = 0x1b ∧ bytes.head? = some 0x5c then bytes.tail
    else skipOsc bytes

theorem length_skipCsi_le (bytes : Bytes) : (skipCsi bytes).length ≤ bytes.length := by
  induction bytes with
  | nil => exact Nat.le_refl _
  | cons b bytes ih =>
    unfold skipCsi
    split
    · exact Nat.le_succ _
    · exact Nat.le_succ_of_le ih

theorem length_skipOsc_le (bytes : Bytes) : (skipOsc bytes).length ≤ bytes.length := by
  induction bytes with
  | nil => exact Nat.le_refl _
  | cons b bytes ih =>
    unfold skipOsc
    split
    · exact Nat.le_succ _
    · split
      · rw [List.length_tail, List.length_cons]
        omega
      · exact Nat.le_succ_of_le ih

/-- The loop over the bytes: what is pushed to `out`. -/
def stripBytes : Bytes → Bytes
  | [] => []
  | b :: bytes =>
    if b = 0x1b then
      match bytes with
      | [] => []
      | kind :: rest =>
        if kind = 0x5b then stripBytes (skipCsi rest)
        else if kind = 0x5d then stripBytes (skipOsc rest)
        else stripBytes rest
    else b :: stripBytes bytes
termination_by bytes => bytes.length
decreasing_by
  · exact Nat.lt_succ_of_le (Nat.le_succ_of_le (length_skipCsi_le rest))
  · exact Nat.lt_succ_of_le (Nat.le_succ_of_le (length_skipOsc_le rest))
  · exact Nat.lt_succ_of_le (Nat.le_succ _)
  · exact Nat.lt_succ_self _

def stripAnsiEscapeSequences (input : Text) : Text := lossy (stripBytes (utf8 input))

theorem stripBytes_nil : stripBytes [] = [] := by rw [stripBytes]

theorem stripBytes_append {kept : Bytes} (h : 0x1b ∉ kept) (bytes : Bytes) :
    stripBytes (kept ++ bytes) = kept ++ stripBytes bytes := by
  induction kept with
  | nil => rfl
  | cons b kept ih =>
    rw [List.mem_cons, not_or] at h
    rw [List.cons_append, stripBytes.eq_def]
    dsimp only
    rw [if_neg (Ne.symm h.1), ih h.2, List.cons_append]

theorem stripBytes_csi (bytes : Bytes) :
    stripBytes (0x1b :: 0x5b :: bytes) = stripBytes (skipCsi bytes) := by
  rw [stripBytes.eq_def]
  rfl

theorem stripBytes_osc (bytes : Bytes) :
    stripBytes (0x1b :: 0x5d :: bytes) = stripBytes (skipOsc bytes) := by
  rw [stripBytes.eq_def]
  rfl

theorem stripBytes_other {kind : UInt8} (hcsi : kind ≠ 0x5b) (hosc : kind ≠ 0x5d) (bytes : Bytes) :
    stripBytes (0x1b :: kind :: bytes) = stripBytes bytes := by
  rw [stripBytes.eq_def]
  dsimp only
  rw [if_pos rfl, if_neg hcsi, if_neg hosc]

/-! ## Bytes of characters -/

theorem utf8EncodeChar_esc : String.utf8EncodeChar esc = [0x1b] := rfl

def IsFinal (c : Char) : Prop := 0x40 ≤ c.toNat ∧ c.toNat ≤ 0x7e

theorem not_final_byte {c : Char} (h : ¬IsFinal c) {b : UInt8}
    (hb : b ∈ String.utf8EncodeChar c) : ¬(0x40 ≤ b ∧ b ≤ 0x7e) := by
  rw [UInt8.le_iff_toNat_le, UInt8.le_iff_toNat_le]
  by_cases hc : c.toNat < 128
  · rw [utf8EncodeChar_ascii hc, List.mem_singleton] at hb
    rw [hb, toNat_asciiByte hc]
    exact h
  · have hle := le_of_mem_utf8EncodeChar (Nat.le_of_not_lt hc) hb
    rintro ⟨-, hmax⟩
    have hmax : b.toNat ≤ 126 := hmax
    omega

theorem mem_tail_utf8EncodeChar {c : Char} {b : UInt8} (hb : b ∈ (String.utf8EncodeChar c).tail) :
    0x80 ≤ b.toNat ∧ b.toNat < 0xc0 := by
  rw [String.utf8EncodeChar] at hb
  split at hb
  · cases hb
  · split at hb
    · simp only [List.tail_cons, List.mem_cons, List.not_mem_nil, or_false] at hb
      subst hb
      simp only [UInt8.toNat_ofNat']
      omega
    · split at hb
      · simp only [List.tail_cons, List.mem_cons, List.not_mem_nil, or_false] at hb
        rcases hb with rfl | rfl <;> simp only [UInt8.toNat_ofNat'] <;> omega
      · simp only [List.tail_cons, List.mem_cons, List.not_mem_nil, or_false] at hb
        rcases hb with rfl | rfl | rfl <;> simp only [UInt8.toNat_ofNat'] <;> omega

theorem lossy_continuation {bytes : Bytes} (h : ∀ b ∈ bytes, 0x80 ≤ b.toNat ∧ b.toNat < 0xc0)
    (rest : Bytes) :
    lossy (bytes ++ rest) = List.replicate bytes.length replacement ++ lossy rest := by
  induction bytes with
  | nil => rfl
  | cons b bytes ih =>
    obtain ⟨hmin, hmax⟩ := h b List.mem_cons_self
    have hlead : leadByte b.toNat = ([replacement], none) := by
      unfold leadByte
      repeat rw [if_neg (by omega)]
    rw [List.cons_append, lossy, lossyFrom_cons, lossyStep, hlead]
    exact congrArg (replacement :: ·) (ih fun b hb => h b (List.mem_cons_of_mem _ hb))

def stray (c : Char) : Text := List.replicate (c.utf8Size - 1) replacement

theorem stray_ascii {c : Char} (h : c.toNat < 128) : stray c = [] := by
  have hsize : c.utf8Size = 1 := by
    rw [← String.length_utf8EncodeChar, utf8EncodeChar_ascii h, List.length_singleton]
  rw [stray, hsize]
  rfl

theorem replacement_mem_stray {c : Char} (h : 128 ≤ c.toNat) : replacement ∈ stray c := by
  have hsize : c.utf8Size ≠ 1 := by
    intro hone
    rw [Char.utf8Size_eq_one_iff, UInt32.le_iff_toNat_le] at hone
    have hone : c.toNat ≤ 127 := hone
    omega
  have hpos := c.utf8Size_pos
  exact List.mem_replicate.mpr ⟨by omega, rfl⟩

/-! ## Sequences -/

theorem skipCsi_append {params : Text} (h : ∀ c ∈ params, ¬IsFinal c) (bytes : Bytes) :
    skipCsi (utf8 params ++ bytes) = skipCsi bytes := by
  have hskip : ∀ skipped : Bytes, (∀ b ∈ skipped, ¬(0x40 ≤ b ∧ b ≤ 0x7e)) →
      skipCsi (skipped ++ bytes) = skipCsi bytes := by
    intro skipped hnot
    induction skipped with
    | nil => rfl
    | cons b skipped ih =>
      rw [List.cons_append, skipCsi, if_neg (hnot b List.mem_cons_self)]
      exact ih fun b hb => hnot b (List.mem_cons_of_mem _ hb)
  refine hskip _ fun b hb => ?_
  obtain ⟨c, hc, hmem⟩ := List.mem_flatMap.mp hb
  exact not_final_byte (h c hc) hmem

theorem skipCsi_final {final : Char} (h : IsFinal final) (bytes : Bytes) :
    skipCsi (String.utf8EncodeChar final ++ bytes) = bytes := by
  have hascii : final.toNat < 128 := Nat.lt_of_le_of_lt h.2 (by omega)
  rw [utf8EncodeChar_ascii hascii, List.singleton_append, skipCsi, if_pos]
  rw [UInt8.le_iff_toNat_le, UInt8.le_iff_toNat_le, toNat_asciiByte hascii]
  exact h

def IsOscText : Text → Prop
  | [] => True
  | c :: body => c ≠ bel ∧ ¬(c = esc ∧ body.head? = some '\\') ∧ IsOscText body

def IsOscEnd (stop : Text) : Prop := stop = [bel] ∨ stop = [esc, '\\']

theorem skipOsc_char {c : Char} {rest : Text} (hbel : c ≠ bel)
    (hst : ¬(c = esc ∧ rest.head? = some '\\')) (bytes : Bytes)
    (hbytes : rest = [] → bytes.head? ≠ some 0x5c) :
    skipOsc (String.utf8EncodeChar c ++ (utf8 rest ++ bytes)) = skipOsc (utf8 rest ++ bytes) := by
  have hskip : ∀ skipped : Bytes, (∀ b ∈ skipped, b ≠ 0x07 ∧ b ≠ 0x1b) →
      skipOsc (skipped ++ (utf8 rest ++ bytes)) = skipOsc (utf8 rest ++ bytes) := by
    intro skipped hnot
    induction skipped with
    | nil => rfl
    | cons b skipped ih =>
      obtain ⟨hbel, hesc⟩ := hnot b List.mem_cons_self
      rw [List.cons_append, skipOsc, if_neg hbel, if_neg fun h => hesc h.1]
      exact ih fun b hb => hnot b (List.mem_cons_of_mem _ hb)
  by_cases hesc : c = esc
  · have hhead : ¬(utf8 rest ++ bytes).head? = some 0x5c := by
      intro hhead
      cases rest with
      | nil => exact hbytes rfl hhead
      | cons d rest =>
        rw [List.head?_append_of_ne_nil _ fun h => List.cons_ne_nil d rest (utf8_eq_nil h)] at hhead
        exact hst ⟨hesc, (head_utf8 (by decide)).mp hhead⟩
    rw [hesc, utf8EncodeChar_esc, List.singleton_append, skipOsc, if_neg (by decide),
      if_neg fun h => hhead h.2]
  · refine hskip _ fun b hb => ⟨?_, ?_⟩
    · rintro rfl
      exact hbel (byte_eq_of_ascii (d := bel) (by decide) rfl hb)
    · rintro rfl
      exact hesc (byte_eq_of_ascii (d := esc) (by decide) rfl hb)

theorem skipOsc_append {body : Text} (h : IsOscText body) (bytes : Bytes)
    (hbytes : bytes.head? ≠ some 0x5c) : skipOsc (utf8 body ++ bytes) = skipOsc bytes := by
  induction body with
  | nil => rfl
  | cons c body ih =>
    rw [utf8_cons, List.append_assoc, skipOsc_char h.1 h.2.1 bytes fun _ => hbytes, ih h.2.2]

theorem skipOsc_end {stop : Text} (h : IsOscEnd stop) (bytes : Bytes) :
    skipOsc (utf8 stop ++ bytes) = bytes ∧ (utf8 stop ++ bytes).head? ≠ some 0x5c := by
  rcases h with rfl | rfl
  · exact ⟨rfl, by change some _ ≠ some _; decide⟩
  · exact ⟨rfl, by change some _ ≠ some _; decide⟩

/-- A text that is read to the end of a sequence, or behind a character, and what is kept of it. -/
inductive Scanned : Text → Text → Prop
  | nil : Scanned [] []
  | char {c : Char} {s kept : Text} (h : c ≠ esc) (rest : Scanned s kept) :
      Scanned (c :: s) (c :: kept)
  | csi {params : Text} {final : Char} {s kept : Text} (hparams : ∀ c ∈ params, ¬IsFinal c)
      (hfinal : IsFinal final) (rest : Scanned s kept) :
      Scanned (esc :: '[' :: (params ++ final :: s)) kept
  | osc {body stop s kept : Text} (hbody : IsOscText body) (hstop : IsOscEnd stop)
      (rest : Scanned s kept) : Scanned (esc :: ']' :: (body ++ (stop ++ s))) kept
  | other {c : Char} {s kept : Text} (hcsi : c ≠ '[') (hosc : c ≠ ']') (rest : Scanned s kept) :
      Scanned (esc :: c :: s) (stray c ++ kept)

namespace Scanned

theorem append {s kept s' kept' : Text} (h : Scanned s kept) (h' : Scanned s' kept') :
    Scanned (s ++ s') (kept ++ kept') := by
  induction h with
  | nil => exact h'
  | char hc _ ih => exact .char hc ih
  | csi hparams hfinal _ ih =>
    simpa only [List.cons_append, List.append_assoc] using Scanned.csi hparams hfinal ih
  | osc hbody hstop _ ih =>
    simpa only [List.cons_append, List.append_assoc] using Scanned.osc hbody hstop ih
  | other hcsi hosc _ ih =>
    simpa only [List.cons_append, List.append_assoc] using Scanned.other hcsi hosc ih

theorem exists_bytes {s kept : Text} (h : Scanned s kept) : ∃ out : Bytes,
    (∀ bytes, stripBytes (utf8 s ++ bytes) = out ++ stripBytes bytes) ∧
      ∀ bytes, lossy (out ++ bytes) = kept ++ lossy bytes := by
  induction h with
  | nil => exact ⟨[], fun _ => rfl, fun _ => rfl⟩
  | @char c s kept hc _ ih =>
    obtain ⟨out, hstrip, hread⟩ := ih
    refine ⟨String.utf8EncodeChar c ++ out, fun bytes => ?_, fun bytes => ?_⟩
    · have hesc : (0x1b : UInt8) ∉ String.utf8EncodeChar c := fun hmem =>
        hc (byte_eq_of_ascii (d := esc) (by decide) rfl hmem)
      rw [utf8_cons, List.append_assoc, stripBytes_append hesc, hstrip, List.append_assoc]
    · rw [List.append_assoc, lossy, lossyFrom_utf8EncodeChar]
      exact congrArg (c :: ·) (hread bytes)
  | @csi params final s kept hparams hfinal _ ih =>
    obtain ⟨out, hstrip, hread⟩ := ih
    refine ⟨out, fun bytes => ?_, hread⟩
    change stripBytes (0x1b :: 0x5b :: (utf8 (params ++ final :: s) ++ bytes)) = _
    rw [stripBytes_csi, utf8_append, utf8_cons, List.append_assoc, List.append_assoc,
      skipCsi_append hparams, skipCsi_final hfinal, hstrip]
  | @osc body stop s kept hbody hstop _ ih =>
    obtain ⟨out, hstrip, hread⟩ := ih
    refine ⟨out, fun bytes => ?_, hread⟩
    change stripBytes (0x1b :: 0x5d :: (utf8 (body ++ (stop ++ s)) ++ bytes)) = _
    rw [stripBytes_osc, utf8_append, utf8_append, List.append_assoc, List.append_assoc,
      skipOsc_append hbody _ (skipOsc_end hstop _).2, (skipOsc_end hstop _).1, hstrip]
  | @other c s kept hcsi hosc _ ih =>
    obtain ⟨out, hstrip, hread⟩ := ih
    obtain ⟨first, more, hbytes⟩ := List.exists_cons_of_ne_nil (String.utf8EncodeChar_ne_nil (c := c))
    have hmore : ∀ b ∈ more, 0x80 ≤ b.toNat ∧ b.toNat < 0xc0 := fun b hb =>
      mem_tail_utf8EncodeChar (c := c) (by rw [hbytes]; exact hb)
    have hesc : (0x1b : UInt8) ∉ more := fun hmem => absurd (hmore _ hmem).1 (by decide)
    have hlength : more.length = c.utf8Size - 1 := by
      rw [← String.length_utf8EncodeChar, hbytes, List.length_cons, Nat.add_sub_cancel]
    have hfirst : first ∈ String.utf8EncodeChar c := by
      rw [hbytes]
      exact List.mem_cons_self
    have hcsi : first ≠ 0x5b := fun heq => hcsi (byte_eq_of_ascii (by decide) heq hfirst)
    have hosc : first ≠ 0x5d := fun heq => hosc (byte_eq_of_ascii (by decide) heq hfirst)
    refine ⟨more ++ out, fun bytes => ?_, fun bytes => ?_⟩
    · rw [utf8_cons, utf8_cons, utf8EncodeChar_esc, hbytes]
      change stripBytes (0x1b :: first :: (more ++ utf8 s ++ bytes)) = _
      rw [stripBytes_other hcsi hosc, List.append_assoc, stripBytes_append hesc, hstrip,
        List.append_assoc]
    · rw [List.append_assoc, lossy_continuation hmore, hread, hlength, List.append_assoc]
      rfl

end Scanned

/-- **The scan goes on** behind a text that it has read to the end of a sequence. -/
theorem strip_append_of_scanned {s kept : Text} (h : Scanned s kept) (rest : Text) :
    stripAnsiEscapeSequences (s ++ rest) = kept ++ stripAnsiEscapeSequences rest := by
  obtain ⟨out, hstrip, hread⟩ := h.exists_bytes
  rw [stripAnsiEscapeSequences, utf8_append, hstrip, hread]
  rfl

theorem strip_of_scanned {s kept : Text} (h : Scanned s kept) :
    stripAnsiEscapeSequences s = kept := by
  have hrest := strip_append_of_scanned h []
  have hnil : stripAnsiEscapeSequences [] = [] := by
    rw [stripAnsiEscapeSequences, utf8_nil, stripBytes_nil]
    rfl
  rwa [List.append_nil, hnil, List.append_nil] at hrest

/-! ## Every text -/

theorem csi_cases (s : Text) :
    (∃ params final rest, s = params ++ final :: rest ∧ (∀ c ∈ params, ¬IsFinal c) ∧
      IsFinal final) ∨ ∀ c ∈ s, ¬IsFinal c := by
  induction s with
  | nil => exact .inr fun _ h => absurd h List.not_mem_nil
  | cons c s ih =>
    by_cases hc : IsFinal c
    · exact .inl ⟨[], c, s, rfl, fun _ h => absurd h List.not_mem_nil, hc⟩
    · rcases ih with ⟨params, final, rest, rfl, hparams, hfinal⟩ | hnone
      · exact .inl ⟨c :: params, final, rest, rfl, List.forall_mem_cons.mpr ⟨hc, hparams⟩, hfinal⟩
      · exact .inr (List.forall_mem_cons.mpr ⟨hc, hnone⟩)

theorem osc_cases (s : Text) :
    (∃ body stop rest, s = body ++ (stop ++ rest) ∧ IsOscText body ∧ IsOscEnd stop) ∨
      IsOscText s := by
  induction s with
  | nil => exact .inr trivial
  | cons c s ih =>
    by_cases hbel : c = bel
    · exact .inl ⟨[], [bel], s, by rw [hbel]; rfl, trivial, .inl rfl⟩
    by_cases hst : c = esc ∧ s.head? = some '\\'
    · obtain ⟨rest, rfl⟩ := List.head?_eq_some_iff.mp hst.2
      exact .inl ⟨[], [esc, '\\'], rest, by rw [hst.1]; rfl, trivial, .inr rfl⟩
    · rcases ih with ⟨body, stop, rest, rfl, hbody, hstop⟩ | hnone
      · refine .inl ⟨c :: body, stop, rest, rfl, ⟨hbel, fun h => hst ⟨h.1, ?_⟩, hbody⟩, hstop⟩
        rw [List.head?_append, h.2, Option.some_or]
      · exact .inr ⟨hbel, hst, hnone⟩

/-- **Every text** is read to the end of a sequence, but for one that has no end, of which nothing
is kept. -/
theorem exists_scanned (input : Text) : ∃ s kept rest, input = s ++ rest ∧ Scanned s kept ∧
    stripAnsiEscapeSequences rest = [] := by
  induction hlength : input.length using Nat.strong_induction_on generalizing input with
  | _ n ih =>
    subst hlength
    -- what is behind a sequence is shorter
    have hbehind : ∀ (first kept rest : Text), first ≠ [] → input = first ++ rest →
        Scanned first kept → ∃ s kept rest, input = s ++ rest ∧ Scanned s kept ∧
          stripAnsiEscapeSequences rest = [] := by
      intro first kept rest hne hinput hfirst
      have hshorter : rest.length < input.length := by
        rw [hinput, List.length_append]
        exact Nat.lt_add_of_pos_left (List.length_pos_of_ne_nil hne)
      obtain ⟨s, kept', rest', rfl, hscanned, hnothing⟩ := ih _ hshorter rest rfl
      exact ⟨first ++ s, kept ++ kept', rest', by rw [hinput, List.append_assoc],
        hfirst.append hscanned, hnothing⟩
    have hunfinished : stripBytes (utf8 input) = [] → ∃ s kept rest, input = s ++ rest ∧
        Scanned s kept ∧ stripAnsiEscapeSequences rest = [] := fun hnothing =>
      ⟨[], [], input, rfl, .nil, by rw [stripAnsiEscapeSequences, hnothing]; rfl⟩
    cases input with
    | nil => exact hunfinished stripBytes_nil
    | cons c input =>
      by_cases hesc : c = esc
      · subst hesc
        cases input with
        | nil =>
          refine hunfinished ?_
          change stripBytes [0x1b] = []
          rw [stripBytes.eq_def]
          rfl
        | cons d input =>
          by_cases hcsi : d = '['
          · subst hcsi
            rcases csi_cases input with ⟨params, final, rest, rfl, hparams, hfinal⟩ | hnone
            · exact hbehind (esc :: '[' :: (params ++ [final])) [] rest (List.cons_ne_nil _ _)
                (by simp) (.csi hparams hfinal .nil)
            · refine hunfinished ?_
              change stripBytes (0x1b :: 0x5b :: utf8 input) = []
              rw [stripBytes_csi, ← List.append_nil (utf8 input), skipCsi_append hnone]
              exact stripBytes_nil
          by_cases hosc : d = ']'
          · subst hosc
            rcases osc_cases input with ⟨body, stop, rest, rfl, hbody, hstop⟩ | hnone
            · exact hbehind (esc :: ']' :: (body ++ (stop ++ []))) [] rest (List.cons_ne_nil _ _)
                (by simp) (.osc hbody hstop .nil)
            · refine hunfinished ?_
              change stripBytes (0x1b :: 0x5d :: utf8 input) = []
              rw [stripBytes_osc, ← List.append_nil (utf8 input), skipOsc_append hnone _ (by simp)]
              exact stripBytes_nil
          · exact hbehind [esc, d] _ input (List.cons_ne_nil _ _) rfl (.other hcsi hosc .nil)
      · exact hbehind [c] [c] input (List.cons_ne_nil _ _) rfl (.char hesc .nil)

def SplitsChar (input : Text) : Prop :=
  ∃ s kept c rest, Scanned s kept ∧ input = s ++ esc :: c :: rest ∧ 128 ≤ c.toNat

theorem SplitsChar.behind {s kept input : Text} (hs : Scanned s kept) (h : SplitsChar input) :
    SplitsChar (s ++ input) := by
  obtain ⟨s', kept', c, rest, hs', rfl, hc⟩ := h
  exact ⟨s ++ s', kept ++ kept', c, rest, hs.append hs', by rw [List.append_assoc], hc⟩

theorem Scanned.mem_kept {s kept : Text} (h : Scanned s kept) :
    ∀ d ∈ kept, (d ≠ esc ∧ d ∈ s) ∨ (d = replacement ∧ SplitsChar s) := by
  induction h with
  | nil => exact fun _ hd => absurd hd List.not_mem_nil
  | @char c s kept hc _ ih =>
    intro d hd
    rcases List.mem_cons.mp hd with rfl | hd
    · exact .inl ⟨hc, List.mem_cons_self⟩
    · exact (ih d hd).imp (And.imp_right (List.mem_cons_of_mem _))
        (And.imp_right (SplitsChar.behind (.char hc .nil)))
  | @csi params final s kept hparams hfinal _ ih =>
    have hfirst : Scanned (esc :: '[' :: (params ++ [final])) [] := .csi hparams hfinal .nil
    refine fun d hd => (ih d hd).imp (And.imp_right fun hmem => ?_) (And.imp_right fun hsplit => ?_)
    · simp [hmem]
    · simpa using hsplit.behind hfirst
  | @osc body stop s kept hbody hstop _ ih =>
    have hfirst : Scanned (esc :: ']' :: (body ++ (stop ++ []))) [] := .osc hbody hstop .nil
    refine fun d hd => (ih d hd).imp (And.imp_right fun hmem => ?_) (And.imp_right fun hsplit => ?_)
    · simp [hmem]
    · simpa using hsplit.behind hfirst
  | @other c s kept hcsi hosc _ ih =>
    intro d hd
    rcases List.mem_append.mp hd with hd | hd
    · refine .inr ⟨List.eq_of_mem_replicate hd, [], [], c, s, .nil, rfl, ?_⟩
      by_contra hascii
      rw [stray_ascii (Nat.lt_of_not_le hascii)] at hd
      cases hd
    · have hfirst : Scanned [esc, c] (stray c ++ []) := .other hcsi hosc .nil
      exact (ih d hd).imp
        (And.imp_right fun hmem => List.mem_cons_of_mem _ (List.mem_cons_of_mem _ hmem))
        (And.imp_right (SplitsChar.behind hfirst))

/-- **Nothing is added** to a text, unless a character is split and the text has no `U+FFFD`. -/
theorem strip_sound_iff (input : Text) :
    (∀ c ∈ stripAnsiEscapeSequences input, c ≠ esc ∧ c ∈ input) ↔
      ¬SplitsChar input ∨ replacement ∈ input := by
  constructor
  · intro hsound
    by_contra hnot
    rw [not_or, not_not] at hnot
    obtain ⟨⟨s, kept, c, rest, hs, rfl, hc⟩, hnone⟩ := hnot
    have hcsi : c ≠ '[' := by
      rintro rfl
      exact absurd hc (by decide)
    have hosc : c ≠ ']' := by
      rintro rfl
      exact absurd hc (by decide)
    have hscanned : Scanned (s ++ [esc, c]) (kept ++ (stray c ++ [])) :=
      hs.append (.other hcsi hosc .nil)
    have hstrip := strip_append_of_scanned hscanned rest
    rw [List.append_assoc] at hstrip
    refine hnone (hsound replacement ?_).2
    change replacement ∈ stripAnsiEscapeSequences (s ++ ([esc, c] ++ rest))
    rw [hstrip]
    simp [replacement_mem_stray hc]
  · intro hcond d hd
    obtain ⟨s, kept, rest, rfl, hs, hnothing⟩ := exists_scanned input
    rw [strip_append_of_scanned hs, hnothing, List.append_nil] at hd
    rcases hs.mem_kept d hd with ⟨hesc, hmem⟩ | ⟨rfl, hsplit⟩
    · exact ⟨hesc, List.mem_append_left _ hmem⟩
    · refine ⟨by decide, hcond.resolve_left fun hnot => hnot ?_⟩
      obtain ⟨s', kept', c, rest', hs', rfl, hc⟩ := hsplit
      exact ⟨s', kept', c, rest' ++ rest, hs', by simp, hc⟩

/-! ## Texts of runs and sequences -/

def IsControl (c : Char) : Prop := c.toNat < 0x20 ∨ 0x7f ≤ c.toNat ∧ c.toNat < 0xa0

/-- A run of text, or a complete escape sequence. -/
inductive Item where
  | text (run : Text) (visible : ∀ c ∈ run, ¬IsControl c)
  | csi (params : Text) (final : Char)
      (params_range : ∀ c ∈ params, 0x20 ≤ c.toNat ∧ c.toNat ≤ 0x3f) (final_range : IsFinal final)
  | osc (body stop : Text) (body_inside : IsOscText body) (stop_end : IsOscEnd stop)
  | intermediate (first : Char) (more : Text) (final : Char)
      (range : ∀ c ∈ first :: more, 0x20 ≤ c.toNat ∧ c.toNat ≤ 0x2f)
      (final_range : 0x30 ≤ final.toNat ∧ final.toNat ≤ 0x7e)
  | single (final : Char) (final_range : 0x30 ≤ final.toNat ∧ final.toNat ≤ 0x7e)
      (not_csi : final ≠ '[') (not_osc : final ≠ ']')

namespace Item

def input : Item → Text
  | text run _ => run
  | csi params final _ _ => esc :: '[' :: (params ++ [final])
  | osc body stop _ _ => esc :: ']' :: (body ++ stop)
  | intermediate first more final _ _ => esc :: first :: (more ++ [final])
  | single final _ _ _ => [esc, final]

def run : Item → Text
  | text run _ => run
  | _ => []

def IsIntermediate : Item → Prop
  | intermediate .. => True
  | _ => False

def kept : Item → Text
  | text run _ => run
  | intermediate _ more final _ _ => more ++ [final]
  | _ => []

end Item

theorem scanned_self {s : Text} (h : ∀ c ∈ s, c ≠ esc) : Scanned s s := by
  induction s with
  | nil => exact .nil
  | cons c s ih =>
    rw [List.forall_mem_cons] at h
    exact .char h.1 (ih h.2)

theorem Item.scanned (item : Item) : Scanned item.input item.kept := by
  cases item with
  | text run hvisible =>
    refine scanned_self fun c hc => ?_
    rintro rfl
    exact hvisible _ hc (.inl (by decide))
  | csi params final hparams hfinal =>
    refine .csi (fun c hc hcfinal => ?_) hfinal .nil
    have hle := (hparams c hc).2
    have hge := hcfinal.1
    omega
  | osc body stop hbody hstop =>
    have hosc : Scanned (esc :: ']' :: (body ++ (stop ++ []))) [] := .osc hbody hstop .nil
    rwa [List.append_nil] at hosc
  | intermediate first more final hrange hfinal =>
    obtain ⟨hfirst, hmore⟩ := List.forall_mem_cons.mp hrange
    have hrest : Scanned (more ++ [final]) (more ++ [final]) := by
      refine scanned_self fun c hc => ?_
      rintro rfl
      rcases List.mem_append.mp hc with hc | hc
      · exact absurd (hmore _ hc).1 (by decide)
      · rw [← List.mem_singleton.mp hc] at hfinal
        exact absurd hfinal.1 (by decide)
    have hcsi : first ≠ '[' := by
      rintro rfl
      exact absurd hfirst.2 (by decide)
    have hosc : first ≠ ']' := by
      rintro rfl
      exact absurd hfirst.2 (by decide)
    have hscanned := Scanned.other hcsi hosc hrest
    rwa [stray_ascii (by omega), List.nil_append] at hscanned
  | single final hfinal hcsi hosc =>
    have hscanned := Scanned.other hcsi hosc .nil
    rwa [stray_ascii (by omega), List.nil_append] at hscanned

theorem scanned_items (items : List Item) :
    Scanned (items.flatMap Item.input) (items.flatMap Item.kept) := by
  induction items with
  | nil => exact .nil
  | cons item items ih => exact item.scanned.append ih

theorem length_runs_le (items : List Item) :
    (items.flatMap Item.run).length ≤ (items.flatMap Item.kept).length := by
  induction items with
  | nil => exact Nat.le_refl _
  | cons item items ih =>
    rw [List.flatMap_cons, List.flatMap_cons, List.length_append, List.length_append]
    refine Nat.add_le_add ?_ ih
    cases item with
    | text run _ => exact Nat.le_refl _
    | _ => exact Nat.zero_le _

theorem kept_eq_runs_iff (items : List Item) :
    items.flatMap Item.kept = items.flatMap Item.run ↔ ∀ item ∈ items, ¬item.IsIntermediate := by
  induction items with
  | nil => simp
  | cons item items ih =>
    rw [List.flatMap_cons, List.flatMap_cons, List.forall_mem_cons, ← ih]
    cases item with
    | text run _ => exact ⟨fun h => ⟨id, List.append_cancel_left h⟩, fun h => congrArg _ h.2⟩
    | intermediate first more final _ _ =>
      refine ⟨fun h => ?_, fun h => absurd trivial h.1⟩
      have hlength := congrArg List.length h
      have hle := length_runs_le items
      simp only [Item.kept, Item.run, List.length_append, List.length_singleton,
        List.length_nil] at hlength
      omega
    | _ => exact ⟨fun h => ⟨id, h⟩, fun h => h.2⟩

/-- **The scan leaves out exactly the sequences** of texts without intermediate bytes, and adds
nothing where no character is split. -/
theorem strip_exact_iff (items : List Item) (input : Text) :
    (stripAnsiEscapeSequences (items.flatMap Item.input) = items.flatMap Item.run ↔
        ∀ item ∈ items, ¬item.IsIntermediate) ∧
      ((∀ c ∈ stripAnsiEscapeSequences input, c ≠ esc ∧ c ∈ input) ↔
        ¬SplitsChar input ∨ replacement ∈ input) := by
  refine ⟨?_, strip_sound_iff input⟩
  rw [strip_of_scanned (scanned_items items)]
  exact kept_eq_runs_iff items

/-- `ESC ( B`, which selects ASCII. -/
def selectAscii : Item :=
  .intermediate '(' [] 'B' (fun c hc => by rw [List.mem_singleton.mp hc]; decide) (by decide)

/-- The final byte is left, and a character behind an escape becomes `U+FFFD`. -/
theorem selectAscii_not_stripped :
    stripAnsiEscapeSequences ([selectAscii].flatMap Item.input) = ['B'] ∧
      [selectAscii].flatMap Item.run = [] ∧
      stripAnsiEscapeSequences [esc, 'é'] = [replacement] ∧ replacement ∉ [esc, 'é'] := by
  have hsplit : Scanned [esc, 'é'] (stray 'é' ++ []) := .other (by decide) (by decide) .nil
  refine ⟨strip_of_scanned (scanned_items _), rfl, strip_of_scanned hsplit, by decide⟩

end FluxTerm.Ai
