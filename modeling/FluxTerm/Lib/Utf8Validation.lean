import FluxTerm.Lib.Bytes

/-!
# Validating UTF-8

`std::str::from_utf8`, which says where bytes stop to be UTF-8, and the sequences that a reading of
them goes through.
-/

namespace FluxTerm.Lib

/-! ## Sequences -/

/-- The bytes begin a character, and leave the sequence `p` under way. -/
inductive Opens : Bytes → Pending → Prop where
  | lead {b : UInt8} {p : Pending} (h : leadByte b.toNat = ([], some p)) : Opens [b] p
  | next {bs : Bytes} {p : Pending} {b : UInt8} (h : Opens bs p) (hlo : p.lo ≤ b.toNat)
      (hhi : b.toNat ≤ p.hi) (hleft : p.left ≠ 1) :
      Opens (bs ++ [b]) { acc := p.acc * 64 + (b.toNat - 0x80), left := p.left - 1 }

/-- The bytes are read as a character. -/
inductive Completes : Bytes → Char → Prop where
  | ascii {b : UInt8} (h : b.toNat < 0x80) : Completes [b] (Char.ofNat b.toNat)
  | last {bs : Bytes} {p : Pending} {b : UInt8} (h : Opens bs p) (hlo : p.lo ≤ b.toNat)
      (hhi : b.toNat ≤ p.hi) (hleft : p.left = 1) :
      Completes (bs ++ [b]) (Char.ofNat (p.acc * 64 + (b.toNat - 0x80)))

/-- The bytes are read as a text. -/
inductive Reads : Bytes → Text → Prop where
  | nil : Reads [] []
  | cons {bs bytes : Bytes} {c : Char} {s : Text} (h : Completes bs c) (hs : Reads bytes s) :
      Reads (bs ++ bytes) (c :: s)

/-- The bytes begin no character, or one that the next byte does not go on with. -/
inductive Stops : Bytes → Bytes → Prop where
  | lead {b : UInt8} {rest : Bytes} (h : leadByte b.toNat = ([replacement], none)) : Stops [b] rest
  | next {bs rest : Bytes} {p : Pending} {b : UInt8} (h : Opens bs p)
      (hout : ¬(p.lo ≤ b.toNat ∧ b.toNat ≤ p.hi)) : Stops bs (b :: rest)

def twoBytes (n : ℕ) : Pending := { acc := n - 0xc0, left := 1 }

def threeBytes (n : ℕ) : Pending :=
  { acc := n - 0xe0, left := 2, lo := if n = 0xe0 then 0xa0 else 0x80,
    hi := if n = 0xed then 0x9f else 0xbf }

def fourBytes (n : ℕ) : Pending :=
  { acc := n - 0xf0, left := 3, lo := if n = 0xf0 then 0x90 else 0x80,
    hi := if n = 0xf4 then 0x8f else 0xbf }

theorem leadByte_twoBytes {n : ℕ} (hlo : 0xc2 ≤ n) (hhi : n ≤ 0xdf) :
    leadByte n = ([], some (twoBytes n)) := by
  have h := leadByte_two (n - 0xc0) (by omega) (by omega)
  rwa [Nat.sub_add_cancel (by omega)] at h

theorem leadByte_threeBytes {n : ℕ} (hlo : 0xe0 ≤ n) (hhi : n ≤ 0xef) :
    leadByte n = ([], some (threeBytes n)) := by
  have h := leadByte_three (n - 0xe0) (by omega)
  have hfirst : n - 0xe0 = 0 ↔ n = 0xe0 := by omega
  have hsurrogate : n - 0xe0 = 0xd ↔ n = 0xed := by omega
  simp only [hfirst, hsurrogate, Nat.sub_add_cancel hlo] at h
  exact h

theorem leadByte_fourBytes {n : ℕ} (hlo : 0xf0 ≤ n) (hhi : n ≤ 0xf4) :
    leadByte n = ([], some (fourBytes n)) := by
  have h := leadByte_four (n - 0xf0) (by omega)
  have hfirst : n - 0xf0 = 0 ↔ n = 0xf0 := by omega
  have hlast : n - 0xf0 = 4 ↔ n = 0xf4 := by omega
  simp only [hfirst, hlast, Nat.sub_add_cancel hlo] at h
  exact h

theorem leadByte_other {n : ℕ} (h : n < 0xc2 ∨ 0xf4 < n) :
    leadByte n = (if n < 0x80 then [Char.ofNat n] else [replacement], none) := by
  unfold leadByte
  split
  · rfl
  · repeat rw [if_neg (by omega)]

theorem leadByte_cases {n : ℕ} {p : Pending} (h : leadByte n = ([], some p)) :
    (0xc2 ≤ n ∧ n ≤ 0xdf ∧ p = twoBytes n) ∨ (0xe0 ≤ n ∧ n ≤ 0xef ∧ p = threeBytes n) ∨
      (0xf0 ≤ n ∧ n ≤ 0xf4 ∧ p = fourBytes n) := by
  by_cases hother : n < 0xc2 ∨ 0xf4 < n
  · rw [leadByte_other hother] at h
    cases congrArg Prod.snd h
  by_cases htwo : n ≤ 0xdf
  · rw [leadByte_twoBytes (by omega) htwo] at h
    exact .inl ⟨by omega, htwo, (Option.some.inj (congrArg Prod.snd h)).symm⟩
  by_cases hthree : n ≤ 0xef
  · rw [leadByte_threeBytes (by omega) hthree] at h
    exact .inr (.inl ⟨by omega, hthree, (Option.some.inj (congrArg Prod.snd h)).symm⟩)
  · rw [leadByte_fourBytes (by omega) (by omega)] at h
    exact .inr (.inr ⟨by omega, by omega, (Option.some.inj (congrArg Prod.snd h)).symm⟩)

/-! ## Encodings -/

theorem eq_ofNat {b : UInt8} {n : ℕ} (h : n = b.toNat) : UInt8.ofNat n = b := by
  rw [h, UInt8.ofNat_toNat]

theorem encode_ascii {b : UInt8} (h : b.toNat < 0x80) :
    String.utf8EncodeChar (Char.ofNat b.toNat) = [b] := by
  have hcode : (Char.ofNat b.toNat).val.toNat = b.toNat := toNat_ofNat (.inl (by omega))
  rw [String.utf8EncodeChar, hcode, if_pos (by omega), UInt8.ofNat_toNat]

theorem encode_two {a b : UInt8} (ha : 0xc2 ≤ a.toNat) (ha' : a.toNat ≤ 0xdf)
    (hb : 0x80 ≤ b.toNat) (hb' : b.toNat ≤ 0xbf) :
    String.utf8EncodeChar (Char.ofNat ((a.toNat - 0xc0) * 64 + (b.toNat - 0x80))) = [a, b] := by
  generalize hn : (a.toNat - 0xc0) * 64 + (b.toNat - 0x80) = n
  have hcode : (Char.ofNat n).val.toNat = n := toNat_ofNat (.inl (by omega))
  rw [String.utf8EncodeChar, hcode, if_neg (by omega), if_pos (by omega),
    eq_ofNat (b := a) (by omega), eq_ofNat (b := b) (by omega)]

theorem encode_three {a b c : UInt8} (ha : 0xe0 ≤ a.toNat) (ha' : a.toNat ≤ 0xef)
    (hb : (threeBytes a.toNat).lo ≤ b.toNat) (hb' : b.toNat ≤ (threeBytes a.toNat).hi)
    (hc : 0x80 ≤ c.toNat) (hc' : c.toNat ≤ 0xbf) :
    String.utf8EncodeChar (Char.ofNat (((a.toNat - 0xe0) * 64 + (b.toNat - 0x80)) * 64 +
      (c.toNat - 0x80))) = [a, b, c] := by
  generalize hn : ((a.toNat - 0xe0) * 64 + (b.toNat - 0x80)) * 64 + (c.toNat - 0x80) = n
  unfold threeBytes at hb hb'
  dsimp only at hb hb'
  have hrange : 0x800 ≤ n ∧ n ≤ 0xffff ∧ (n < 0xd800 ∨ 0xdfff < n) ∧ 0x80 ≤ b.toNat ∧
      b.toNat ≤ 0xbf := by
    split at hb <;> split at hb' <;> omega
  have hcode : (Char.ofNat n).val.toNat = n :=
    toNat_ofNat (hrange.2.2.1.imp id fun h => ⟨h, by omega⟩)
  rw [String.utf8EncodeChar, hcode, if_neg (by omega), if_neg (by omega), if_pos (by omega),
    eq_ofNat (b := a) (by omega), eq_ofNat (b := b) (by omega), eq_ofNat (b := c) (by omega)]

theorem encode_four {a b c d : UInt8} (ha : 0xf0 ≤ a.toNat) (ha' : a.toNat ≤ 0xf4)
    (hb : (fourBytes a.toNat).lo ≤ b.toNat) (hb' : b.toNat ≤ (fourBytes a.toNat).hi)
    (hc : 0x80 ≤ c.toNat) (hc' : c.toNat ≤ 0xbf) (hd : 0x80 ≤ d.toNat) (hd' : d.toNat ≤ 0xbf) :
    String.utf8EncodeChar (Char.ofNat ((((a.toNat - 0xf0) * 64 + (b.toNat - 0x80)) * 64 +
      (c.toNat - 0x80)) * 64 + (d.toNat - 0x80))) = [a, b, c, d] := by
  generalize hn : (((a.toNat - 0xf0) * 64 + (b.toNat - 0x80)) * 64 + (c.toNat - 0x80)) * 64 +
    (d.toNat - 0x80) = n
  unfold fourBytes at hb hb'
  dsimp only at hb hb'
  have hrange : 0xffff < n ∧ n < 0x110000 ∧ 0x80 ≤ b.toNat ∧ b.toNat ≤ 0xbf := by
    split at hb <;> split at hb' <;> omega
  have hcode : (Char.ofNat n).val.toNat = n := toNat_ofNat (.inr ⟨by omega, by omega⟩)
  rw [String.utf8EncodeChar, hcode, if_neg (by omega), if_neg (by omega), if_neg (by omega),
    eq_ofNat (b := a) (by omega), eq_ofNat (b := b) (by omega), eq_ofNat (b := c) (by omega),
    eq_ofNat (b := d) (by omega)]

theorem Opens.cases_bytes {bs : Bytes} {p : Pending} (h : Opens bs p) :
    (∃ a : UInt8, bs = [a] ∧ leadByte a.toNat = ([], some p)) ∨
    (∃ a b : UInt8, bs = [a, b] ∧ 0xe0 ≤ a.toNat ∧ a.toNat ≤ 0xef ∧
      (threeBytes a.toNat).lo ≤ b.toNat ∧ b.toNat ≤ (threeBytes a.toNat).hi ∧
      p = { acc := (a.toNat - 0xe0) * 64 + (b.toNat - 0x80), left := 1 }) ∨
    (∃ a b : UInt8, bs = [a, b] ∧ 0xf0 ≤ a.toNat ∧ a.toNat ≤ 0xf4 ∧
      (fourBytes a.toNat).lo ≤ b.toNat ∧ b.toNat ≤ (fourBytes a.toNat).hi ∧
      p = { acc := (a.toNat - 0xf0) * 64 + (b.toNat - 0x80), left := 2 }) ∨
    ∃ a b c : UInt8, bs = [a, b, c] ∧ 0xf0 ≤ a.toNat ∧ a.toNat ≤ 0xf4 ∧
      (fourBytes a.toNat).lo ≤ b.toNat ∧ b.toNat ≤ (fourBytes a.toNat).hi ∧
      0x80 ≤ c.toNat ∧ c.toNat ≤ 0xbf ∧
      p = { acc := ((a.toNat - 0xf0) * 64 + (b.toNat - 0x80)) * 64 + (c.toNat - 0x80), left := 1 } := by
  induction h with
  | lead hlead => exact .inl ⟨_, rfl, hlead⟩
  | @next bs p last h hlo hhi hleft ih =>
    rcases ih with ⟨a, rfl, hlead⟩ | ⟨a, b, rfl, ha, ha', hb, hb', rfl⟩ |
      ⟨a, b, rfl, ha, ha', hb, hb', rfl⟩ | ⟨a, b, c, rfl, ha, ha', hb, hb', hc, hc', rfl⟩
    · rcases leadByte_cases hlead with ⟨-, -, rfl⟩ | ⟨ha, ha', rfl⟩ | ⟨ha, ha', rfl⟩
      · exact absurd rfl hleft
      · exact .inr (.inl ⟨a, last, rfl, ha, ha', hlo, hhi, rfl⟩)
      · exact .inr (.inr (.inl ⟨a, last, rfl, ha, ha', hlo, hhi, rfl⟩))
    · exact absurd rfl hleft
    · exact .inr (.inr (.inr ⟨a, b, last, rfl, ha, ha', hb, hb', hlo, hhi, rfl⟩))
    · exact absurd rfl hleft

/-- **What is read as a character** is its encoding. -/
theorem Completes.eq_encode {bs : Bytes} {c : Char} (h : Completes bs c) :
    bs = String.utf8EncodeChar c := by
  cases h with
  | ascii h => exact (encode_ascii h).symm
  | @last bs p d h hlo hhi hleft =>
    rcases h.cases_bytes with ⟨a, rfl, hlead⟩ | ⟨a, b, rfl, ha, ha', hb, hb', rfl⟩ |
      ⟨a, b, rfl, ha, ha', hb, hb', rfl⟩ | ⟨a, b, c, rfl, ha, ha', hb, hb', hc, hc', rfl⟩
    · rcases leadByte_cases hlead with ⟨ha, ha', rfl⟩ | ⟨-, -, rfl⟩ | ⟨-, -, rfl⟩
      · exact (encode_two ha ha' hlo hhi).symm
      · cases hleft
      · cases hleft
    · exact (encode_three ha ha' hb hb' hlo hhi).symm
    · cases hleft
    · exact (encode_four ha ha' hb hb' hc hc' hlo hhi).symm

theorem Reads.eq_utf8 {bytes : Bytes} {s : Text} (h : Reads bytes s) : bytes = utf8 s := by
  induction h with
  | nil => rfl
  | cons h _ ih => rw [utf8_cons, ← h.eq_encode, ih]

theorem Opens.bounds {bs : Bytes} {p : Pending} (h : Opens bs p) :
    p.lo ≤ p.hi ∧ p.lo ≤ 0xbf ∧ 1 ≤ p.left := by
  cases h with
  | lead hlead =>
    rcases leadByte_cases hlead with ⟨-, -, rfl⟩ | ⟨-, -, rfl⟩ | ⟨-, -, rfl⟩
    · exact ⟨(by decide : 0x80 ≤ 0xbf), (by decide : 0x80 ≤ 0xbf), Nat.le_refl 1⟩
    · unfold threeBytes
      dsimp only
      split <;> split <;> omega
    · unfold fourBytes
      dsimp only
      split <;> split <;> omega
  | @next bs p b h hlo hhi hleft =>
    refine ⟨(by decide : 0x80 ≤ 0xbf), (by decide : 0x80 ≤ 0xbf), ?_⟩
    rcases h.cases_bytes with ⟨a, -, hlead⟩ | ⟨a, b, -, -, -, -, -, rfl⟩ |
      ⟨a, b, -, -, -, -, -, rfl⟩ | ⟨a, b, c, -, -, -, -, -, -, -, rfl⟩
    · rcases leadByte_cases hlead with ⟨-, -, rfl⟩ | ⟨-, -, rfl⟩ | ⟨-, -, rfl⟩
      · exact absurd rfl hleft
      · exact (by decide : 1 ≤ 2 - 1)
      · exact (by decide : 1 ≤ 3 - 1)
    · exact absurd rfl hleft
    · exact (by decide : 1 ≤ 2 - 1)
    · exact absurd rfl hleft

/-- **What begins a character** is a beginning of its encoding, and not all of it. -/
theorem Opens.exists_char {bs : Bytes} {p : Pending} (h : Opens bs p) :
    ∃ c more, more ≠ [] ∧ String.utf8EncodeChar c = bs ++ more := by
  obtain ⟨hrange, hlo, hleft⟩ := h.bounds
  have hbyte : (UInt8.ofNat p.lo).toNat = p.lo := by
    rw [UInt8.toNat_ofNat']
    omega
  by_cases hlast : p.left = 1
  · have hc := Completes.last h (b := UInt8.ofNat p.lo) (by omega) (by omega) hlast
    exact ⟨_, [UInt8.ofNat p.lo], by simp, hc.eq_encode.symm⟩
  · have hnext := Opens.next h (b := UInt8.ofNat p.lo) (by omega) (by omega) hlast
    obtain ⟨c, more, -, hencode⟩ := hnext.exists_char
    exact ⟨c, UInt8.ofNat p.lo :: more, by simp, by simpa using hencode⟩
termination_by p.left

theorem Opens.length_le {bs : Bytes} {p : Pending} (h : Opens bs p) : bs.length ≤ 3 := by
  obtain ⟨c, more, hmore, hencode⟩ := h.exists_char
  have hlen := congrArg List.length hencode
  have hpos := List.length_pos_of_ne_nil hmore
  have hsize := c.utf8Size_le_four
  rw [String.length_utf8EncodeChar, List.length_append] at hlen
  omega

theorem Opens.ne_nil {bs : Bytes} {p : Pending} (h : Opens bs p) : bs ≠ [] := by
  cases h <;> simp

/-! ## The validation -/

structure Utf8Error where
  validUpTo : ℕ
  errorLen : Option ℕ
deriving DecidableEq

def isContinuation (b : UInt8) : Bool := 0x80 ≤ b.toNat && b.toNat ≤ 0xbf

def isSecond (first second : UInt8) : Bool :=
  (if first.toNat = 0xe0 then 0xa0 else if first.toNat = 0xf0 then 0x90 else 0x80) ≤ second.toNat &&
    second.toNat ≤ (if first.toNat = 0xed then 0x9f else if first.toNat = 0xf4 then 0x8f else 0xbf)

/-- `run_utf8_validation`, from an offset on. -/
def runUtf8Validation : ℕ → Bytes → Except Utf8Error Unit
  | _, [] => .ok ()
  | offset, first :: bytes =>
    if first.toNat < 0x80 then runUtf8Validation (offset + 1) bytes
    else if 0xc2 ≤ first.toNat ∧ first.toNat ≤ 0xdf then
      match bytes with
      | [] => .error ⟨offset, none⟩
      | second :: bytes =>
        if isContinuation second then runUtf8Validation (offset + 2) bytes
        else .error ⟨offset, some 1⟩
    else if 0xe0 ≤ first.toNat ∧ first.toNat ≤ 0xef then
      match bytes with
      | [] => .error ⟨offset, none⟩
      | second :: bytes =>
        if isSecond first second then
          match bytes with
          | [] => .error ⟨offset, none⟩
          | third :: bytes =>
            if isContinuation third then runUtf8Validation (offset + 3) bytes
            else .error ⟨offset, some 2⟩
        else .error ⟨offset, some 1⟩
    else if 0xf0 ≤ first.toNat ∧ first.toNat ≤ 0xf4 then
      match bytes with
      | [] => .error ⟨offset, none⟩
      | second :: bytes =>
        if isSecond first second then
          match bytes with
          | [] => .error ⟨offset, none⟩
          | third :: bytes =>
            if isContinuation third then
              match bytes with
              | [] => .error ⟨offset, none⟩
              | fourth :: bytes =>
                if isContinuation fourth then runUtf8Validation (offset + 4) bytes
                else .error ⟨offset, some 3⟩
            else .error ⟨offset, some 2⟩
        else .error ⟨offset, some 1⟩
    else .error ⟨offset, some 1⟩

/-- What a result says of the bytes `front ++ rest`, of which `front` is valid. -/
inductive ValidationResult (offset : ℕ) (front : Bytes) : Bytes → Except Utf8Error Unit → Prop where
  | valid : ValidationResult offset front [] (.ok ())
  | invalid {bad rest : Bytes} (h : Stops bad rest) :
      ValidationResult offset front (bad ++ rest)
        (.error ⟨offset + front.length, some bad.length⟩)
  | incomplete {left : Bytes} {p : Pending} (h : Opens left p) :
      ValidationResult offset front left (.error ⟨offset + front.length, none⟩)

def Validated (offset : ℕ) (bytes : Bytes) (result : Except Utf8Error Unit) : Prop :=
  ∃ s front rest, bytes = front ++ rest ∧ Reads front s ∧ ValidationResult offset front rest result

theorem Validated.of_stops {offset : ℕ} {bad rest : Bytes} (h : Stops bad rest) :
    Validated offset (bad ++ rest) (.error ⟨offset, some bad.length⟩) :=
  ⟨[], [], bad ++ rest, rfl, .nil, .invalid h⟩

theorem Validated.of_opens {offset : ℕ} {left : Bytes} {p : Pending} (h : Opens left p) :
    Validated offset left (.error ⟨offset, none⟩) :=
  ⟨[], [], left, rfl, .nil, .incomplete h⟩

theorem Validated.cons {offset : ℕ} {bs bytes : Bytes} {c : Char} {result : Except Utf8Error Unit}
    (hc : Completes bs c) (h : Validated (offset + bs.length) bytes result) :
    Validated offset (bs ++ bytes) result := by
  obtain ⟨s, front, rest, rfl, hreads, hresult⟩ := h
  have hlen : offset + bs.length + front.length = offset + (bs ++ front).length := by
    rw [List.length_append, Nat.add_assoc]
  refine ⟨c :: s, bs ++ front, rest, (List.append_assoc bs front rest).symm, .cons hc hreads, ?_⟩
  cases hresult with
  | valid => exact .valid
  | invalid h =>
    rw [hlen]
    exact .invalid h
  | incomplete h =>
    rw [hlen]
    exact .incomplete h

theorem isContinuation_iff {b : UInt8} :
    isContinuation b = true ↔ 0x80 ≤ b.toNat ∧ b.toNat ≤ 0xbf := by
  rw [isContinuation, Bool.and_eq_true, decide_eq_true_eq, decide_eq_true_eq]

theorem isSecond_iff_threeBytes {first second : UInt8} (h : first.toNat ≤ 0xef) :
    isSecond first second = true ↔ (threeBytes first.toNat).lo ≤ second.toNat ∧
      second.toNat ≤ (threeBytes first.toNat).hi := by
  rw [isSecond, Bool.and_eq_true, decide_eq_true_eq, decide_eq_true_eq,
    if_neg (c := first.toNat = 0xf0) (by omega), if_neg (c := first.toNat = 0xf4) (by omega)]
  rfl

theorem isSecond_iff_fourBytes {first second : UInt8} (h : 0xf0 ≤ first.toNat) :
    isSecond first second = true ↔ (fourBytes first.toNat).lo ≤ second.toNat ∧
      second.toNat ≤ (fourBytes first.toNat).hi := by
  rw [isSecond, Bool.and_eq_true, decide_eq_true_eq, decide_eq_true_eq,
    if_neg (c := first.toNat = 0xe0) (by omega), if_neg (c := first.toNat = 0xed) (by omega)]
  rfl

theorem opens_twoBytes {first : UInt8} (h : 0xc2 ≤ first.toNat ∧ first.toNat ≤ 0xdf) :
    Opens [first] (twoBytes first.toNat) := .lead (leadByte_twoBytes h.1 h.2)

theorem opens_threeBytes {first : UInt8} (h : 0xe0 ≤ first.toNat ∧ first.toNat ≤ 0xef) :
    Opens [first] (threeBytes first.toNat) := .lead (leadByte_threeBytes h.1 h.2)

theorem opens_fourBytes {first : UInt8} (h : 0xf0 ≤ first.toNat ∧ first.toNat ≤ 0xf4) :
    Opens [first] (fourBytes first.toNat) := .lead (leadByte_fourBytes h.1 h.2)

theorem Opens.continued {bs : Bytes} {p : Pending} {b : UInt8} (h : Opens bs p)
    (hb : p.lo ≤ b.toNat ∧ b.toNat ≤ p.hi) (hleft : p.left ≠ 1) :
    Opens (bs ++ [b]) { acc := p.acc * 64 + (b.toNat - 0x80), left := p.left - 1 } :=
  .next h hb.1 hb.2 hleft

theorem Opens.completed {bs : Bytes} {p : Pending} {b : UInt8} (h : Opens bs p)
    (hb : p.lo ≤ b.toNat ∧ b.toNat ≤ p.hi) (hleft : p.left = 1) : ∃ c, Completes (bs ++ [b]) c :=
  ⟨_, .last h hb.1 hb.2 hleft⟩

/-- **What the validation says.** -/
theorem runUtf8Validation_spec (offset : ℕ) (bytes : Bytes) :
    Validated offset bytes (runUtf8Validation offset bytes) := by
  fun_induction runUtf8Validation offset bytes with
  | case1 offset => exact ⟨[], [], [], rfl, .nil, .valid⟩
  | case2 offset first bytes hascii ih => exact .cons (.ascii hascii) ih
  | case3 offset first _ htwo => exact .of_opens (opens_twoBytes htwo)
  | case4 offset first _ htwo second bytes hsecond ih =>
    obtain ⟨c, hc⟩ := (opens_twoBytes htwo).completed (isContinuation_iff.mp hsecond) rfl
    exact .cons hc ih
  | case5 offset first _ htwo second bytes hsecond =>
    exact .of_stops (.next (opens_twoBytes htwo) (mt isContinuation_iff.mpr hsecond))
  | case6 offset first _ _ hthree => exact .of_opens (opens_threeBytes hthree)
  | case7 offset first _ _ hthree second hsecond =>
    have hin := (isSecond_iff_threeBytes hthree.2).mp hsecond
    exact .of_opens ((opens_threeBytes hthree).continued hin (by decide : 2 ≠ 1))
  | case8 offset first _ _ hthree second hsecond third bytes hthird ih =>
    have hin := (isSecond_iff_threeBytes hthree.2).mp hsecond
    obtain ⟨c, hc⟩ := ((opens_threeBytes hthree).continued hin (by decide : 2 ≠ 1)).completed
      (isContinuation_iff.mp hthird) rfl
    exact .cons hc ih
  | case9 offset first _ _ hthree second hsecond third bytes hthird =>
    have hin := (isSecond_iff_threeBytes hthree.2).mp hsecond
    exact .of_stops (.next ((opens_threeBytes hthree).continued hin (by decide : 2 ≠ 1))
      (mt isContinuation_iff.mpr hthird))
  | case10 offset first _ _ hthree second bytes hsecond =>
    exact .of_stops (.next (opens_threeBytes hthree)
      (mt (isSecond_iff_threeBytes hthree.2).mpr hsecond))
  | case11 offset first _ _ _ hfour => exact .of_opens (opens_fourBytes hfour)
  | case12 offset first _ _ _ hfour second hsecond =>
    have hin := (isSecond_iff_fourBytes hfour.1).mp hsecond
    exact .of_opens ((opens_fourBytes hfour).continued hin (by decide : 3 ≠ 1))
  | case13 offset first _ _ _ hfour second hsecond third hthird =>
    have hin := (isSecond_iff_fourBytes hfour.1).mp hsecond
    have hopens := (opens_fourBytes hfour).continued hin (by decide : 3 ≠ 1)
    exact .of_opens (hopens.continued (isContinuation_iff.mp hthird) (by decide : 2 ≠ 1))
  | case14 offset first _ _ _ hfour second hsecond third hthird fourth bytes hfourth ih =>
    have hin := (isSecond_iff_fourBytes hfour.1).mp hsecond
    have hopens := (opens_fourBytes hfour).continued hin (by decide : 3 ≠ 1)
    obtain ⟨c, hc⟩ := (hopens.continued (isContinuation_iff.mp hthird) (by decide : 2 ≠ 1)).completed
      (isContinuation_iff.mp hfourth) rfl
    exact .cons hc ih
  | case15 offset first _ _ _ hfour second hsecond third hthird fourth bytes hfourth =>
    have hin := (isSecond_iff_fourBytes hfour.1).mp hsecond
    have hopens := (opens_fourBytes hfour).continued hin (by decide : 3 ≠ 1)
    exact .of_stops (.next (hopens.continued (isContinuation_iff.mp hthird) (by decide : 2 ≠ 1))
      (mt isContinuation_iff.mpr hfourth))
  | case16 offset first _ _ _ hfour second hsecond third bytes hthird =>
    have hin := (isSecond_iff_fourBytes hfour.1).mp hsecond
    have hopens := (opens_fourBytes hfour).continued hin (by decide : 3 ≠ 1)
    exact .of_stops (.next hopens (mt isContinuation_iff.mpr hthird))
  | case17 offset first _ _ _ hfour second bytes hsecond =>
    exact .of_stops (.next (opens_fourBytes hfour)
      (mt (isSecond_iff_fourBytes hfour.1).mpr hsecond))
  | case18 offset first bytes hascii htwo hthree hfour =>
    have hlead : leadByte first.toNat = ([replacement], none) := by
      rw [leadByte_other (by omega), if_neg hascii]
    exact .of_stops (.lead hlead)

theorem Stops.ne_nil {bad rest : Bytes} (h : Stops bad rest) : bad ≠ [] := by
  cases h with
  | lead => exact List.cons_ne_nil _ _
  | next h => exact h.ne_nil

theorem Stops.append {bad rest : Bytes} (h : Stops bad rest) (more : Bytes) :
    Stops bad (rest ++ more) := by
  cases h with
  | lead hlead => exact .lead hlead
  | next h hout => exact .next h hout

end FluxTerm.Lib
