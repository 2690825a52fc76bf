import FluxTerm.Lib.Utf8

/-!
# Strings of a script

The strings of ECMAScript as they are: sequences of UTF-16 code units, surrogates not necessarily in
pairs.
-/

namespace FluxTerm.Lib

abbrev JsString := List UInt16

def js (s : String) : JsString := (s.toList.flatMap utf16Units).map UInt16.ofNat

def isJsWhitespaceUnit (unit : UInt16) : Bool := isJsWhitespace (Char.ofNat unit.toNat)

/-- `trim`. -/
def jsTrim (s : JsString) : JsString :=
  (s.dropWhile isJsWhitespaceUnit).rdropWhile isJsWhitespaceUnit

def jsText (s : Text) : JsString := (s.flatMap utf16Units).map UInt16.ofNat

def isHighSurrogate (unit : UInt16) : Bool := 0xd800 ≤ unit.toNat && unit.toNat < 0xdc00

def isLowSurrogate (unit : UInt16) : Bool := 0xdc00 ≤ unit.toNat && unit.toNat < 0xe000

def codePoints : JsString → List ℕ
  | [] => []
  | [unit] => [unit.toNat]
  | high :: low :: rest =>
    if isHighSurrogate high && isLowSurrogate low then
      (0x10000 + (high.toNat - 0xd800) * 0x400 + (low.toNat - 0xdc00)) :: codePoints rest
    else high.toNat :: codePoints (low :: rest)

/-- What `for … of` goes through: the strings of the code points. -/
def jsChars : JsString → List JsString
  | [] => []
  | [unit] => [[unit]]
  | high :: low :: rest =>
    if isHighSurrogate high && isLowSurrogate low then [high, low] :: jsChars rest
    else [high] :: jsChars (low :: rest)

/-- The UTF-8 bytes of a code point; a lone surrogate is replaced by `U+FFFD`. -/
def codePointBytes (n : ℕ) : ℕ :=
  if n < 0x80 then 1 else if n < 0x800 then 2 else if n < 0x10000 then 3 else 4

/-- The length of what `TextEncoder` writes. -/
def byteLength (s : JsString) : ℕ := ((codePoints s).map codePointBytes).sum

theorem utf8Size_eq_codePointBytes (c : Char) : c.utf8Size = codePointBytes c.toNat := by
  show c.utf8Size = codePointBytes c.val.toNat
  unfold codePointBytes
  rcases c.utf8Size_eq with h | h | h | h
  · have hc : c.val.toNat ≤ 0x7f := Char.utf8Size_eq_one_iff.mp h
    rw [h, if_pos (by omega)]
  · have hc : 0x7f < c.val.toNat ∧ c.val.toNat ≤ 0x7ff := Char.utf8Size_eq_two_iff.mp h
    rw [h, if_neg (by omega), if_pos (by omega)]
  · have hc : 0x7ff < c.val.toNat ∧ c.val.toNat ≤ 0xffff := Char.utf8Size_eq_three_iff.mp h
    rw [h, if_neg (by omega), if_neg (by omega), if_pos (by omega)]
  · have hc : 0xffff < c.val.toNat := Char.utf8Size_eq_four_iff.mp h
    rw [h, if_neg (by omega), if_neg (by omega), if_neg (by omega)]

theorem toNat_lt_surrogate_or (c : Char) :
    c.toNat < 0xd800 ∨ 0xe000 ≤ c.toNat ∧ c.toNat < 0x110000 := by
  have h := c.valid
  rcases h with h | ⟨h, h'⟩
  · exact .inl h
  · exact .inr ⟨by show 0xe000 ≤ c.val.toNat; omega, h'⟩

theorem jsText_append (s t : Text) : jsText (s ++ t) = jsText s ++ jsText t := by
  rw [jsText, List.flatMap_append, List.map_append]
  rfl

theorem jsText_cons_of_lt {c : Char} (h : c.toNat < 0x10000) (s : Text) :
    jsText (c :: s) = UInt16.ofNat c.toNat :: jsText s := by
  simp [jsText, utf16Units, h]

theorem not_isHighSurrogate_of_char {c : Char} (h : c.toNat < 0x10000) :
    isHighSurrogate (UInt16.ofNat c.toNat) = false := by
  have hvalid := toNat_lt_surrogate_or c
  have hnat : (UInt16.ofNat c.toNat).toNat = c.toNat := UInt16.toNat_ofNat_of_lt' h
  rw [isHighSurrogate, hnat, Bool.and_eq_false_iff, decide_eq_false_iff_not,
    decide_eq_false_iff_not]
  omega

theorem exists_surrogates {c : Char} (h : ¬c.toNat < 0x10000) (s : Text) :
    ∃ high low, jsText (c :: s) = high :: low :: jsText s ∧ isHighSurrogate high = true ∧
      isLowSurrogate low = true ∧
      0x10000 + (high.toNat - 0xd800) * 0x400 + (low.toNat - 0xdc00) = c.toNat := by
  have hvalid := toNat_lt_surrogate_or c
  have hhigh : (UInt16.ofNat (0xd800 + (c.toNat - 0x10000) / 0x400)).toNat
      = 0xd800 + (c.toNat - 0x10000) / 0x400 :=
    UInt16.toNat_ofNat_of_lt' (by show _ < 65536; omega)
  have hlow : (UInt16.ofNat (0xdc00 + (c.toNat - 0x10000) % 0x400)).toNat
      = 0xdc00 + (c.toNat - 0x10000) % 0x400 :=
    UInt16.toNat_ofNat_of_lt' (by show _ < 65536; omega)
  refine ⟨UInt16.ofNat (0xd800 + (c.toNat - 0x10000) / 0x400),
    UInt16.ofNat (0xdc00 + (c.toNat - 0x10000) % 0x400), ?_, ?_, ?_, ?_⟩
  · simp [jsText, utf16Units, h]
  · rw [isHighSurrogate, hhigh, Bool.and_eq_true, decide_eq_true_eq, decide_eq_true_eq]
    omega
  · rw [isLowSurrogate, hlow, Bool.and_eq_true, decide_eq_true_eq, decide_eq_true_eq]
    omega
  · rw [hhigh, hlow]
    omega

theorem codePoints_jsText_append (s : Text) (rest : JsString) :
    codePoints (jsText s ++ rest) = s.map Char.toNat ++ codePoints rest := by
  induction s with
  | nil => rfl
  | cons c s ih =>
    by_cases hc : c.toNat < 0x10000
    · have hnat : (UInt16.ofNat c.toNat).toNat = c.toNat := UInt16.toNat_ofNat_of_lt' hc
      rw [jsText_cons_of_lt hc, List.map_cons, List.cons_append, List.cons_append, ← ih]
      cases hrest : jsText s ++ rest with
      | nil => rw [codePoints, codePoints, hnat]
      | cons low after =>
        rw [codePoints, not_isHighSurrogate_of_char hc, Bool.false_and, if_neg Bool.false_ne_true,
          hnat]
    · obtain ⟨high, low, hunits, hhigh, hlow, hvalue⟩ := exists_surrogates hc s
      rw [hunits, List.cons_append, List.cons_append, codePoints, hhigh, hlow, Bool.and_self,
        if_pos rfl, ih, hvalue]
      rfl

theorem jsChars_jsText (s : Text) : jsChars (jsText s) = s.map fun c => jsText [c] := by
  induction s with
  | nil => rfl
  | cons c s ih =>
    by_cases hc : c.toNat < 0x10000
    · rw [jsText_cons_of_lt hc, List.map_cons, ← ih, jsText_cons_of_lt hc]
      cases hrest : jsText s with
      | nil => rfl
      | cons low after =>
        rw [jsChars, not_isHighSurrogate_of_char hc, Bool.false_and, if_neg Bool.false_ne_true]
        rfl
    · obtain ⟨high, low, hunits, hhigh, hlow, -⟩ := exists_surrogates hc s
      have hchar : jsText [c] = [high, low] := by
        have h : jsText [c] ++ jsText s = [high, low] ++ jsText s :=
          (jsText_append [c] s).symm.trans hunits
        exact List.append_cancel_right h
      rw [hunits, jsChars, hhigh, hlow, Bool.and_self, if_pos rfl, ih, List.map_cons, hchar]

theorem byteLength_jsText_append (s : Text) (rest : JsString) :
    byteLength (jsText s ++ rest) = utf8Len s + byteLength rest := by
  rw [byteLength, codePoints_jsText_append, List.map_append, List.sum_append, List.map_map, utf8Len]
  congr 2
  exact List.map_congr_left fun c _ => (utf8Size_eq_codePointBytes c).symm

theorem byteLength_jsText (s : Text) : byteLength (jsText s) = utf8Len s := by
  rw [← List.append_nil (jsText s), byteLength_jsText_append]
  rfl

theorem codePointBytes_le_three (unit : UInt16) : codePointBytes unit.toNat ≤ 3 := by
  have hunit : unit.toNat < 65536 := unit.toNat_lt
  unfold codePointBytes
  split_ifs <;> omega

theorem codePointBytes_pair (n : ℕ) : codePointBytes (0x10000 + n) = 4 := by
  unfold codePointBytes
  rw [if_neg (by omega), if_neg (by omega), if_neg (by omega)]

theorem byteLength_singleton (unit : UInt16) : byteLength [unit] = codePointBytes unit.toNat :=
  Nat.add_zero _

theorem byteLength_le_append (s t : JsString) : byteLength s ≤ byteLength (s ++ t) := by
  fun_induction codePoints s with
  | case1 => exact Nat.zero_le _
  | case2 unit =>
    cases t with
    | nil => exact le_rfl
    | cons low rest =>
      rw [byteLength_singleton, List.singleton_append, byteLength, codePoints]
      split
      · -- the slice ended inside a pair
        rw [List.map_cons, List.sum_cons, Nat.add_assoc, codePointBytes_pair]
        have hunit := codePointBytes_le_three unit
        omega
      · rw [List.map_cons, List.sum_cons]
        exact Nat.le_add_right _ _
  | case3 high low rest hpair ih =>
    rw [byteLength, codePoints, if_pos hpair, List.cons_append, List.cons_append, byteLength,
      codePoints, if_pos hpair]
    exact Nat.add_le_add_left ih _
  | case4 high low rest hpair ih =>
    rw [byteLength, codePoints, if_neg hpair, List.cons_append, List.cons_append, byteLength,
      codePoints, if_neg hpair]
    exact Nat.add_le_add_left ih _

/-- The bytes of the first unit of a character: half of a pair is replaced by `U+FFFD`. -/
def firstUnitBytes (c : Char) : ℕ := if c.toNat < 0x10000 then c.utf8Size else 3

theorem exists_jsText_cons (c : Char) (s : Text) :
    ∃ unit rest, jsText (c :: s) = unit :: rest ∧ byteLength [unit] = firstUnitBytes c := by
  have hvalid := toNat_lt_surrogate_or c
  unfold firstUnitBytes
  split
  · rename_i hc
    have hnat : (UInt16.ofNat c.toNat).toNat = c.toNat := UInt16.toNat_ofNat_of_lt' hc
    refine ⟨UInt16.ofNat c.toNat, jsText s, by simp [jsText, utf16Units, hc], ?_⟩
    rw [byteLength_singleton, hnat, utf8Size_eq_codePointBytes]
  · rename_i hc
    let high := 0xd800 + (c.toNat - 0x10000) / 0x400
    have hhigh : (UInt16.ofNat high).toNat = high :=
      UInt16.toNat_ofNat_of_lt' (by show _ < 65536; omega)
    refine ⟨UInt16.ofNat high,
      UInt16.ofNat (0xdc00 + (c.toNat - 0x10000) % 0x400) :: jsText s, ?_, ?_⟩
    · simp [jsText, utf16Units, hc, high]
    · rw [byteLength_singleton, hhigh, codePointBytes, if_neg (by omega), if_neg (by omega),
        if_pos (by omega)]

theorem byteLength_take_le {s : Text} {m : ℕ} (t : Text) (h : m ≤ (jsText s).length) :
    byteLength ((jsText (s ++ t)).take m) ≤ utf8Len s := by
  rw [jsText_append, List.take_append_of_le_length h, ← byteLength_jsText]
  conv_rhs => rw [← List.take_append_drop m (jsText s)]
  exact byteLength_le_append _ _

theorem le_byteLength_take {s : Text} {m : ℕ} (c : Char) (t : Text) (h : (jsText s).length < m) :
    utf8Len s + firstUnitBytes c ≤ byteLength ((jsText (s ++ c :: t)).take m) := by
  obtain ⟨unit, rest, hunits, hbytes⟩ := exists_jsText_cons c t
  obtain ⟨n, hn⟩ := Nat.exists_eq_add_of_lt h
  rw [jsText_append, hunits, List.take_append, List.take_of_length_le (Nat.le_of_lt h), hn,
    Nat.add_assoc, Nat.add_sub_cancel_left, List.take_succ_cons, byteLength_jsText_append, ← hbytes,
    ← List.singleton_append]
  exact Nat.add_le_add_left (byteLength_le_append _ _) _

end FluxTerm.Lib
