import FluxTerm.Lib.Text

/-!
# Bytes of a text

UTF-8, Base64 and the lossy reading of bytes: what is no UTF-8 becomes `U+FFFD`, one for each
maximal part of a sequence.
-/

namespace FluxTerm.Lib

abbrev Bytes := List UInt8

def utf8 (s : Text) : Bytes := s.flatMap String.utf8EncodeChar

def asciiByte (c : Char) : UInt8 := UInt8.ofNat c.toNat

@[simp] theorem utf8_nil : utf8 [] = [] := rfl

@[simp] theorem utf8_append (s t : Text) : utf8 (s ++ t) = utf8 s ++ utf8 t :=
  List.flatMap_append

theorem utf8_cons (c : Char) (s : Text) : utf8 (c :: s) = String.utf8EncodeChar c ++ utf8 s := rfl

theorem utf8_eq_nil {s : Text} (h : utf8 s = []) : s = [] := by
  cases s with
  | nil => rfl
  | cons c s =>
    rw [utf8_cons] at h
    exact absurd (List.append_eq_nil_iff.mp h).1 String.utf8EncodeChar_ne_nil

/-- `String::from_utf8`. -/
def decodeUtf8 (bytes : Bytes) : Option Text := fromUtf8 bytes.toByteArray

@[simp] theorem decodeUtf8_utf8 (s : Text) : decodeUtf8 (utf8 s) = some s := fromUtf8_utf8Bytes s

/-! ## Base64 -/

def base64Char (n : ℕ) : Char :=
  Char.ofNat (if n < 26 then n + 65 else if n < 52 then n + 71 else if n < 62 then n - 4
    else if n = 62 then 43 else 47)

/-- The standard Base64 encoding, padded. -/
def base64 : Bytes → Text
  | [] => []
  | [a] =>
    let n := a.toNat * 16
    [base64Char (n / 64), base64Char (n % 64), '=', '=']
  | [a, b] =>
    let n := (a.toNat * 256 + b.toNat) * 4
    [base64Char (n / 4096), base64Char (n / 64 % 64), base64Char (n % 64), '=']
  | a :: b :: c :: rest =>
    let n := (a.toNat * 256 + b.toNat) * 256 + c.toNat
    base64Char (n / 262144) :: base64Char (n / 4096 % 64) :: base64Char (n / 64 % 64)
      :: base64Char (n % 64) :: base64 rest

/-! ## ASCII bytes of a text -/

theorem toNat_asciiByte {c : Char} (h : c.toNat < 128) : (asciiByte c).toNat = c.toNat := by
  simp only [asciiByte, UInt8.toNat_ofNat']
  omega

theorem ofNat_asciiByte {c : Char} (h : c.toNat < 128) : Char.ofNat (asciiByte c).toNat = c := by
  rw [toNat_asciiByte h]
  exact Char.ofNat_toNat c

theorem asciiByte_injective {c d : Char} (hc : c.toNat < 128) (hd : d.toNat < 128)
    (h : asciiByte c = asciiByte d) : c = d := by
  rw [← ofNat_asciiByte hc, h, ofNat_asciiByte hd]

theorem utf8EncodeChar_ascii {c : Char} (h : c.toNat < 128) :
    String.utf8EncodeChar c = [asciiByte c] := by
  have hle : c.val.toNat ≤ 0x7f := Nat.le_of_lt_succ h
  simp only [String.utf8EncodeChar, if_pos hle]
  rfl

theorem le_of_mem_utf8EncodeChar {c : Char} {b : UInt8} (hc : 128 ≤ c.toNat)
    (hb : b ∈ String.utf8EncodeChar c) : 128 ≤ b.toNat := by
  have hc' : ¬c.val.toNat ≤ 0x7f := Nat.not_le.mpr hc
  have hval : c.val.toNat < 0x110000 := by
    have h := c.valid
    simp only [UInt32.isValidChar, Nat.isValidChar] at h
    omega
  simp only [String.utf8EncodeChar, if_neg hc'] at hb
  -- a leading byte carries a bit from `0xc0` on, a following one `0x80`
  split at hb
  · simp only [List.mem_cons, List.not_mem_nil, or_false] at hb
    rcases hb with rfl | rfl <;> simp only [UInt8.toNat_ofNat'] <;> omega
  · split at hb
    · simp only [List.mem_cons, List.not_mem_nil, or_false] at hb
      rcases hb with rfl | rfl | rfl <;> simp only [UInt8.toNat_ofNat'] <;> omega
    · simp only [List.mem_cons, List.not_mem_nil, or_false] at hb
      rcases hb with rfl | rfl | rfl | rfl <;> simp only [UInt8.toNat_ofNat'] <;> omega

theorem eq_of_mem_utf8 {s : Text} {c : Char} (hc : c.toNat < 128) (h : asciiByte c ∈ utf8 s) :
    c ∈ s := by
  obtain ⟨d, hd, hmem⟩ := List.mem_flatMap.mp h
  by_cases hascii : d.toNat < 128
  · rw [utf8EncodeChar_ascii hascii, List.mem_singleton] at hmem
    rw [asciiByte_injective hc hascii hmem]
    exact hd
  · have hle := le_of_mem_utf8EncodeChar (Nat.le_of_not_lt hascii) hmem
    rw [toNat_asciiByte hc] at hle
    omega

theorem byte_eq_of_ascii {c d : Char} {b : UInt8} (hd : d.toNat < 128) (hb : b = asciiByte d)
    (hmem : b ∈ String.utf8EncodeChar c) : c = d := by
  have hcd : d ∈ [c] := eq_of_mem_utf8 hd (by rw [← hb]; simpa [utf8] using hmem)
  exact (List.mem_singleton.mp hcd).symm

theorem head_utf8 {s : Text} {d : Char} (hd : d.toNat < 128) :
    (utf8 s).head? = some (asciiByte d) ↔ s.head? = some d := by
  cases s with
  | nil => simp
  | cons c s =>
    rw [utf8_cons, List.head?_cons, Option.some.injEq]
    constructor
    · intro hhead
      have hmem : asciiByte d ∈ String.utf8EncodeChar c := by
        rw [List.head?_append_of_ne_nil _ String.utf8EncodeChar_ne_nil] at hhead
        exact List.mem_of_mem_head? hhead
      exact byte_eq_of_ascii hd rfl hmem
    · rintro rfl
      rw [utf8EncodeChar_ascii hd]
      rfl

/-! ## The lossy reading -/

structure Pending where
  acc : ℕ
  left : ℕ
  lo : ℕ := 0x80
  hi : ℕ := 0xbf
deriving DecidableEq

/-- `U+FFFD`, read where the bytes are no UTF-8. -/
def replacement : Char := Char.ofNat 0xfffd

/-- A byte that begins a sequence: the character it is or stands for, or the sequence it opens. -/
def leadByte (b : ℕ) : Text × Option Pending :=
  if b < 0x80 then ([Char.ofNat b], none)
  else if 0xc2 ≤ b ∧ b ≤ 0xdf then ([], some { acc := b - 0xc0, left := 1 })
  else if b = 0xe0 then ([], some { acc := 0, left := 2, lo := 0xa0 })
  else if b = 0xed then ([], some { acc := 0xd, left := 2, hi := 0x9f })
  else if 0xe1 ≤ b ∧ b ≤ 0xef then ([], some { acc := b - 0xe0, left := 2 })
  else if b = 0xf0 then ([], some { acc := 0, left := 3, lo := 0x90 })
  else if 0xf1 ≤ b ∧ b ≤ 0xf3 then ([], some { acc := b - 0xf0, left := 3 })
  else if b = 0xf4 then ([], some { acc := 4, left := 3, hi := 0x8f })
  else ([replacement], none)

def lossyStep : Option Pending → ℕ → Text × Option Pending
  | none, b => leadByte b
  | some p, b =>
    if p.lo ≤ b ∧ b ≤ p.hi then
      let acc := p.acc * 64 + (b - 0x80)
      if p.left = 1 then ([Char.ofNat acc], none) else ([], some { acc, left := p.left - 1 })
    else (replacement :: (leadByte b).1, (leadByte b).2)

def lossyFrom : Option Pending → Bytes → Text
  | none, [] => []
  | some _, [] => [replacement]
  | st, b :: bs => (lossyStep st b.toNat).1 ++ lossyFrom (lossyStep st b.toNat).2 bs

def lossy (bs : Bytes) : Text := lossyFrom none bs

/-- The text of a UTF-8 error, from byte `i` on. The sequence under way began at `start`. -/
def utf8Error (start i : ℕ) : Option Pending → Bytes → String
  | none, [] => ""
  | some _, [] => "incomplete utf-8 byte sequence from index " ++ toString start
  | none, b :: bs =>
    match leadByte b.toNat with
    | (_, some p) => utf8Error i (i + 1) (some p) bs
    | (_, none) =>
      if b.toNat < 0x80 then utf8Error (i + 1) (i + 1) none bs
      else "invalid utf-8 sequence of 1 bytes from index " ++ toString i
  | some p, b :: bs =>
    if p.lo ≤ b.toNat ∧ b.toNat ≤ p.hi then
      utf8Error (if p.left = 1 then i + 1 else start) (i + 1) (lossyStep (some p) b.toNat).2 bs
    else "invalid utf-8 sequence of " ++ toString (i - start) ++ " bytes from index "
      ++ toString start

theorem lossyFrom_cons (st : Option Pending) (b : UInt8) (bs : Bytes) :
    lossyFrom st (b :: bs) = (lossyStep st b.toNat).1 ++ lossyFrom (lossyStep st b.toNat).2 bs := by
  cases st <;> rfl

@[simp] theorem lossy_nil : lossy [] = [] := rfl

def Pending.Opened : Option Pending → Prop
  | none => True
  | some p => 0x80 ≤ p.lo

theorem Pending.opened_none : Pending.Opened none := trivial

theorem leadByte_opened (b : ℕ) : Pending.Opened (leadByte b).2 := by
  unfold leadByte
  repeat' split
  all_goals simp [Pending.Opened]

theorem lossyStep_opened (st : Option Pending) (b : ℕ) : Pending.Opened (lossyStep st b).2 := by
  cases st with
  | none => exact leadByte_opened b
  | some p =>
    rw [lossyStep]
    split
    · dsimp only
      split
      · exact trivial
      · exact Nat.le_refl _
    · exact leadByte_opened b

theorem lossyFrom_ascii {st : Option Pending} {b : UInt8} (hst : Pending.Opened st)
    (hb : b.toNat < 128) (bs : Bytes) :
    lossyFrom st (b :: bs) = lossyFrom st [] ++ Char.ofNat b.toNat :: lossyFrom none bs := by
  have hlead : leadByte b.toNat = ([Char.ofNat b.toNat], none) := by simp [leadByte, hb]
  cases st with
  | none => simp [lossyStep, hlead, lossyFrom]
  | some p =>
    have hlo : 0x80 ≤ p.lo := hst
    have hout : ¬(p.lo ≤ b.toNat ∧ b.toNat ≤ p.hi) := by omega
    simp [lossyStep, hout, hlead, lossyFrom]

theorem lossyFrom_append_cons {b : UInt8} (hb : b.toNat < 128) (bs : Bytes) :
    ∀ (as : Bytes) {st : Option Pending}, Pending.Opened st →
      lossyFrom st (as ++ b :: bs) = lossyFrom st as ++ Char.ofNat b.toNat :: lossyFrom none bs
  | [], _, hst => lossyFrom_ascii hst hb bs
  | a :: as, st, _ => by
    rw [List.cons_append, lossyFrom_cons, lossyFrom_cons,
      lossyFrom_append_cons hb bs as (lossyStep_opened st a.toNat), List.append_assoc]

theorem lossy_append_cons {c : Char} (hc : c.toNat < 128) (as bs : Bytes) :
    lossy (as ++ asciiByte c :: bs) = lossy as ++ c :: lossy bs := by
  have hb : (asciiByte c).toNat < 128 := by rw [toNat_asciiByte hc]; exact hc
  rw [lossy, lossyFrom_append_cons hb bs as Pending.opened_none, ofNat_asciiByte hc]
  rfl

/-! ## Texts are read back -/

theorem leadByte_two : ∀ m < 0x20, 2 ≤ m →
    leadByte (m + 0xc0) = ([], some { acc := m, left := 1 }) := by decide

theorem leadByte_three : ∀ m < 0x10, leadByte (m + 0xe0) =
    ([], some { acc := m, left := 2, lo := if m = 0 then 0xa0 else 0x80,
                hi := if m = 0xd then 0x9f else 0xbf }) := by decide

theorem leadByte_four : ∀ m < 5, leadByte (m + 0xf0) =
    ([], some { acc := m, left := 3, lo := if m = 0 then 0x90 else 0x80,
                hi := if m = 4 then 0x8f else 0xbf }) := by decide

theorem lossyFrom_next {p : Pending} {k : ℕ} (hk : k < 64) (hlo : p.lo ≤ k + 0x80)
    (hhi : k + 0x80 ≤ p.hi) (bs : Bytes) :
    lossyFrom (some p) (UInt8.ofNat (k + 0x80) :: bs) =
      if p.left = 1 then Char.ofNat (p.acc * 64 + k) :: lossyFrom none bs
      else lossyFrom (some { acc := p.acc * 64 + k, left := p.left - 1 }) bs := by
  have hb : (UInt8.ofNat (k + 0x80)).toNat = k + 0x80 := by
    rw [UInt8.toNat_ofNat']
    omega
  have hsub : k + 0x80 - 0x80 = k := Nat.add_sub_cancel k 0x80
  rw [lossyFrom_cons, hb, lossyStep, if_pos ⟨hlo, hhi⟩, hsub]
  dsimp only
  split
  · rfl
  · rfl

theorem lossyFrom_lead {b : ℕ} {p : Pending} (hb : b < 256) (hlead : leadByte b = ([], some p))
    (bs : Bytes) : lossyFrom none (UInt8.ofNat b :: bs) = lossyFrom (some p) bs := by
  have hnat : (UInt8.ofNat b).toNat = b := by
    rw [UInt8.toNat_ofNat']
    omega
  rw [lossyFrom_cons, hnat, lossyStep, hlead]
  rfl

theorem lossyFrom_utf8EncodeChar (c : Char) (bs : Bytes) :
    lossyFrom none (String.utf8EncodeChar c ++ bs) = c :: lossyFrom none bs := by
  have hc : Char.ofNat c.val.toNat = c := Char.ofNat_toNat c
  have hvalid := c.valid
  simp only [UInt32.isValidChar, Nat.isValidChar] at hvalid
  rw [String.utf8EncodeChar]
  generalize c.val.toNat = n at hc hvalid
  split
  · -- one byte
    have hnat : (UInt8.ofNat n).toNat = n := by
      rw [UInt8.toNat_ofNat']
      omega
    have hascii : leadByte n = ([Char.ofNat n], none) := by
      rw [leadByte, if_pos (by omega)]
    rw [List.singleton_append, lossyFrom_cons, hnat, lossyStep, hascii, hc]
    rfl
  · split
    · have hcode : n / 64 % 0x20 * 64 + n % 0x40 = n := by omega
      rw [List.cons_append, List.cons_append, List.nil_append,
        lossyFrom_lead (by omega) (leadByte_two _ (by omega) (by omega)),
        lossyFrom_next (by omega) (by dsimp only; omega) (by dsimp only; omega), if_pos rfl]
      dsimp only
      rw [hcode, hc]
    · split
      · have hcode : (n / 4096 % 0x10 * 64 + n / 64 % 0x40) * 64 + n % 0x40 = n := by omega
        have hlo : (if n / 4096 % 0x10 = 0 then 0xa0 else 0x80) ≤ n / 64 % 0x40 + 0x80 := by
          split <;> omega
        have hhi : n / 64 % 0x40 + 0x80 ≤ if n / 4096 % 0x10 = 0xd then 0x9f else 0xbf := by
          split <;> omega
        rw [List.cons_append, List.cons_append, List.cons_append, List.nil_append,
          lossyFrom_lead (by omega) (leadByte_three _ (by omega)),
          lossyFrom_next (by omega) hlo hhi, if_neg (by dsimp only; omega),
          lossyFrom_next (by omega) (by dsimp only; omega) (by dsimp only; omega),
          if_pos (by rfl)]
        dsimp only
        rw [hcode, hc]
      · have hcode : ((n / 262144 % 0x08 * 64 + n / 4096 % 0x40) * 64 + n / 64 % 0x40) * 64
            + n % 0x40 = n := by omega
        have hlo : (if n / 262144 % 0x08 = 0 then 0x90 else 0x80) ≤ n / 4096 % 0x40 + 0x80 := by
          split <;> omega
        have hhi : n / 4096 % 0x40 + 0x80 ≤ if n / 262144 % 0x08 = 4 then 0x8f else 0xbf := by
          split <;> omega
        rw [List.cons_append, List.cons_append, List.cons_append, List.cons_append,
          List.nil_append, lossyFrom_lead (by omega) (leadByte_four _ (by omega)),
          lossyFrom_next (by omega) hlo hhi, if_neg (by dsimp only; omega),
          lossyFrom_next (by omega) (by dsimp only; omega) (by dsimp only; omega),
          if_neg (by dsimp only; omega),
          lossyFrom_next (by omega) (by dsimp only; omega) (by dsimp only; omega),
          if_pos (by rfl)]
        dsimp only
        rw [hcode, hc]

/-- **The reading of a text** gives the text back, whatever follows. -/
theorem lossy_utf8_append (s : Text) (bs : Bytes) : lossy (utf8 s ++ bs) = s ++ lossy bs := by
  induction s with
  | nil => rfl
  | cons c s ih =>
    rw [utf8_cons, List.append_assoc, lossy, lossyFrom_utf8EncodeChar]
    exact congrArg (c :: ·) ih

theorem lossy_utf8 (s : Text) : lossy (utf8 s) = s := by
  have happend := lossy_utf8_append s []
  rwa [List.append_nil, lossy_nil, List.append_nil] at happend

/-! ## Reading in two parts -/

/-! ## ASCII characters of a reading -/

def Pending.Big : Option Pending → Prop
  | none => True
  | some p => 0x80 ≤ p.lo ∧ 1 ≤ p.left ∧ 128 ≤ (p.acc * 64 + (p.lo - 0x80)) * 64 ^ (p.left - 1)

theorem Pending.big_none : Pending.Big none := trivial

theorem leadByte_big (b : ℕ) : Pending.Big (leadByte b).2 := by
  unfold leadByte
  repeat' split
  all_goals simp only [Pending.Big]
  all_goals omega

theorem toNat_ofNat {n : ℕ} (h : n.isValidChar) : (Char.ofNat n).toNat = n := by
  rw [Char.ofNat, dif_pos h]
  rfl

theorem ofNat_ne_of_big {n : ℕ} {c : Char} (hn : 128 ≤ n) (hc : c.toNat < 128)
    (hnull : c ≠ Char.ofNat 0) : c ≠ Char.ofNat n := by
  intro h
  by_cases hvalid : n.isValidChar
  · have hto : (Char.ofNat n).toNat = n := toNat_ofNat hvalid
    rw [h, hto] at hc
    omega
  · apply hnull
    rw [h, Char.ofNat, dif_neg hvalid]
    rfl

theorem mem_leadByte {b : UInt8} {c : Char} (hc : c.toNat < 128)
    (h : c ∈ (leadByte b.toNat).1) : b = asciiByte c := by
  have hrepl : c ≠ replacement := by
    intro he
    rw [he] at hc
    revert hc
    decide
  unfold leadByte at h
  split at h
  · rename_i hb
    rw [List.mem_singleton] at h
    rw [h, asciiByte, toNat_ofNat (Or.inl (by omega))]
    exact (UInt8.ofNat_toNat).symm
  · repeat' split at h
    all_goals simp [hrepl] at h

theorem lossyStep_big {st : Option Pending} (hst : Pending.Big st) (b : ℕ) :
    Pending.Big (lossyStep st b).2 := by
  cases st with
  | none => exact leadByte_big b
  | some p =>
    obtain ⟨hlo, hleft, hbig⟩ := hst
    rw [lossyStep]
    split
    · rename_i hin
      dsimp only
      split
      · exact trivial
      · rename_i hmore
        refine ⟨Nat.le_refl _, by dsimp only; omega, ?_⟩
        obtain ⟨k, hk⟩ : ∃ k, p.left = k + 2 := ⟨p.left - 2, by omega⟩
        have hacc : p.acc * 64 + (p.lo - 0x80) ≤ p.acc * 64 + (b - 0x80) := by omega
        rw [hk] at hbig ⊢
        calc 128 ≤ (p.acc * 64 + (p.lo - 0x80)) * 64 ^ (k + 1) := hbig
          _ ≤ (p.acc * 64 + (b - 0x80)) * 64 ^ (k + 1) := Nat.mul_le_mul_right _ hacc
          _ = ((p.acc * 64 + (b - 0x80)) * 64 + (0x80 - 0x80)) * 64 ^ k := by
            rw [Nat.pow_succ', ← Nat.mul_assoc, Nat.sub_self 0x80, Nat.add_zero (_ * 64)]
    · exact leadByte_big b

theorem mem_lossyStep {st : Option Pending} (hst : Pending.Big st) {b : UInt8} {c : Char}
    (hc : c.toNat < 128) (hnull : c ≠ Char.ofNat 0) (h : c ∈ (lossyStep st b.toNat).1) :
    b = asciiByte c := by
  cases st with
  | none => exact mem_leadByte hc h
  | some p =>
    obtain ⟨hlo, hleft, hbig⟩ := hst
    rw [lossyStep] at h
    split at h
    · rename_i hin
      dsimp only at h
      split at h
      · rename_i hlast
        rw [List.mem_singleton] at h
        rw [hlast, Nat.sub_self, Nat.pow_zero, Nat.mul_one] at hbig
        exact absurd h (ofNat_ne_of_big (by omega) hc hnull)
      · cases h
    · rcases List.mem_cons.mp h with rfl | h
      · exact absurd hc (by decide)
      · exact mem_leadByte hc h

theorem mem_of_mem_lossyFrom {c : Char} (hc : c.toNat < 128) (hnull : c ≠ Char.ofNat 0) :
    ∀ {bs : Bytes} {st : Option Pending}, Pending.Big st → c ∈ lossyFrom st bs →
      asciiByte c ∈ bs
  | [], none, _, h => by cases h
  | [], some _, _, h => by
    rw [lossyFrom, List.mem_singleton] at h
    rw [h] at hc
    exact absurd hc (by decide)
  | b :: bs, st, hst, h => by
    rw [lossyFrom_cons, List.mem_append] at h
    rcases h with h | h
    · rw [mem_lossyStep hst hc hnull h]
      exact List.mem_cons_self
    · exact List.mem_cons_of_mem _ (mem_of_mem_lossyFrom hc hnull (lossyStep_big hst _) h)

theorem not_mem_lossy {c : Char} {bs : Bytes} (hc : c.toNat < 128) (hnull : c ≠ Char.ofNat 0)
    (h : asciiByte c ∉ bs) : c ∉ lossy bs :=
  fun hmem => h (mem_of_mem_lossyFrom hc hnull Pending.big_none hmem)

end FluxTerm.Lib
