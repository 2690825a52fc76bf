import FluxTerm.Lib.Bytes

/-!
# Internet addresses

IPv4 and IPv6 addresses, the texts they are written as and the parser of Rust's `std::net`.
-/

namespace FluxTerm.Lib

/-! ## Two bytes, high byte first -/

def highByte (n : UInt16) : UInt8 := UInt8.ofNat (n.toNat / 256)

def lowByte (n : UInt16) : UInt8 := UInt8.ofNat (n.toNat % 256)

def toBeBytes (n : UInt16) : Bytes := [highByte n, lowByte n]

/-- `from_be_bytes`. -/
def ofBeBytes (high low : UInt8) : UInt16 := UInt16.ofNat (high.toNat * 256 + low.toNat)

@[simp] theorem ofBeBytes_highByte_lowByte (n : UInt16) : ofBeBytes (highByte n) (lowByte n) = n := by
  have hn : n.toNat < 65536 := n.toNat_lt
  apply UInt16.toNat_inj.mp
  unfold ofBeBytes highByte lowByte
  rw [UInt16.toNat_ofNat', UInt8.toNat_ofNat', UInt8.toNat_ofNat']
  omega

@[simp] theorem length_toBeBytes (n : UInt16) : (toBeBytes n).length = 2 := rfl

def segmentsOf : Bytes → List UInt16
  | high :: low :: rest => ofBeBytes high low :: segmentsOf rest
  | _ => []

def octetsOf (segments : List UInt16) : Bytes := segments.flatMap toBeBytes

@[simp] theorem segmentsOf_octetsOf (segments : List UInt16) :
    segmentsOf (octetsOf segments) = segments := by
  induction segments with
  | nil => rfl
  | cons n segments ih =>
    show ofBeBytes (highByte n) (lowByte n) :: segmentsOf (octetsOf segments) = n :: segments
    rw [ofBeBytes_highByte_lowByte, ih]

@[simp] theorem length_octetsOf (segments : List UInt16) :
    (octetsOf segments).length = 2 * segments.length := by
  induction segments with
  | nil => rfl
  | cons n segments ih =>
    show (octetsOf segments).length + 1 + 1 = 2 * (segments.length + 1)
    omega

/-! ## Numbers in a text -/

def digitValue (c : Char) : ℕ :=
  if 48 ≤ c.toNat ∧ c.toNat ≤ 57 then c.toNat - 48
  else if 97 ≤ c.toNat ∧ c.toNat ≤ 122 then c.toNat - 87
  else if 65 ≤ c.toNat ∧ c.toNat ≤ 90 then c.toNat - 55
  else 36

/-- `to_digit(radix).is_some()`. -/
def isDigitIn (radix : ℕ) (c : Char) : Bool := digitValue c < radix

def digitsValue (radix : ℕ) (digits : Text) : ℕ :=
  digits.foldl (fun n c => n * radix + digitValue c) 0

/-- `read_number`: the digits at the front of a text. There may be at most `maxDigits`, their
number has to be below `bound`, and a zero is followed by others only where that is allowed. -/
def readNumber (radix bound maxDigits : ℕ) (allowZeroPrefix : Bool) (s : Text) :
    Option (ℕ × Text) :=
  let digits := s.takeWhile (isDigitIn radix)
  if digits = [] ∨ maxDigits < digits.length ∨ bound ≤ digitsValue radix digits
      ∨ (allowZeroPrefix = false ∧ digits.head? = some '0' ∧ 1 < digits.length) then none
  else some (digitsValue radix digits, s.dropWhile (isDigitIn radix))

theorem digitValue_digitChar {n : ℕ} (h : n < 16) : digitValue n.digitChar = n := by
  have hall : ∀ m ∈ List.range 16, digitValue m.digitChar = m := by decide
  exact hall n (List.mem_range.mpr h)

section
variable {radix : ℕ} (hradix : 1 < radix) (hradix' : radix ≤ 16)
include hradix hradix'

theorem isDigitIn_of_mem_toDigits {c : Char} (n : ℕ) (hc : c ∈ Nat.toDigits radix n) :
    isDigitIn radix c = true := by
  induction n using Nat.strong_induction_on with
  | _ n ih =>
    rw [Nat.toDigits_eq_if hradix] at hc
    split at hc
    · rename_i hn
      rw [List.mem_singleton.mp hc, isDigitIn, digitValue_digitChar (by omega)]
      exact decide_eq_true hn
    · rcases List.mem_append.mp hc with hc | hc
      · exact ih (n / radix) (Nat.div_lt_self (by omega) hradix) hc
      · have hmod : n % radix < radix := Nat.mod_lt n (by omega)
        rw [List.mem_singleton.mp hc, isDigitIn, digitValue_digitChar (by omega)]
        exact decide_eq_true hmod

theorem digitsValue_toDigits (n : ℕ) : digitsValue radix (Nat.toDigits radix n) = n := by
  induction n using Nat.strong_induction_on with
  | _ n ih =>
    rw [Nat.toDigits_eq_if hradix]
    split
    · show 0 * radix + digitValue n.digitChar = n
      rw [digitValue_digitChar (by omega)]
      omega
    · have hmod : n % radix < radix := Nat.mod_lt n (by omega)
      have hprev := ih (n / radix) (Nat.div_lt_self (by omega) hradix)
      unfold digitsValue at hprev ⊢
      rw [List.foldl_append, hprev]
      show n / radix * radix + digitValue (n % radix).digitChar = n
      rw [digitValue_digitChar (by omega), Nat.mul_comm]
      exact Nat.div_add_mod n radix

theorem head_toDigits_ne_zero (n : ℕ) (hn : 0 < n) : (Nat.toDigits radix n).head? ≠ some '0' := by
  induction n using Nat.strong_induction_on with
  | _ n ih =>
    rw [Nat.toDigits_eq_if hradix]
    split
    · intro h
      have hzero : n.digitChar = '0' := Option.some.inj h
      have hvalue : digitValue n.digitChar = n := digitValue_digitChar (by omega)
      rw [hzero] at hvalue
      have h0 : digitValue '0' = 0 := by decide
      omega
    · have hpos : 0 < n / radix := Nat.div_pos (by omega) (by omega)
      rw [List.head?_append_of_ne_nil _ Nat.toDigits_ne_nil]
      exact ih (n / radix) (Nat.div_lt_self (by omega) hradix) hpos

theorem readNumber_toDigits {bound maxDigits n : ℕ} (hn : n < bound)
    (hlen : (Nat.toDigits radix n).length ≤ maxDigits) (allowZeroPrefix : Bool) {rest : Text}
    (hrest : ∀ c ∈ rest.head?, isDigitIn radix c = false) :
    readNumber radix bound maxDigits allowZeroPrefix (Nat.toDigits radix n ++ rest) =
      some (n, rest) := by
  have hdigits := fun c => isDigitIn_of_mem_toDigits hradix hradix' (c := c) n
  have hstop : rest.takeWhile (isDigitIn radix) = [] ∧ rest.dropWhile (isDigitIn radix) = rest := by
    cases rest with
    | nil => exact ⟨rfl, rfl⟩
    | cons c rest =>
      have hc := hrest c rfl
      exact ⟨List.takeWhile_cons_of_neg (by simp [hc]), List.dropWhile_cons_of_neg (by simp [hc])⟩
  have hzero : (Nat.toDigits radix n).head? = some '0' → (Nat.toDigits radix n).length = 1 := by
    intro h
    have hn0 : n = 0 := by
      by_contra hne
      exact head_toDigits_ne_zero hradix hradix' n (by omega) h
    rw [hn0, Nat.toDigits_zero]
    rfl
  unfold readNumber
  rw [List.takeWhile_append_of_pos hdigits, List.dropWhile_append_of_pos hdigits, hstop.1, hstop.2,
    List.append_nil]
  dsimp only
  rw [digitsValue_toDigits hradix hradix']
  apply if_neg
  rintro (h | h | h | ⟨-, h, h'⟩)
  · exact Nat.toDigits_ne_nil h
  · omega
  · omega
  · have := hzero h
    omega

end

theorem readNumber_eq_none {radix bound maxDigits : ℕ} {allowZeroPrefix : Bool} {s : Text}
    (h : ∀ c ∈ s.head?, isDigitIn radix c = false) :
    readNumber radix bound maxDigits allowZeroPrefix s = none := by
  have hnil : s.takeWhile (isDigitIn radix) = [] := by
    cases s with
    | nil => rfl
    | cons c s => exact List.takeWhile_cons_of_neg (by simp [h c rfl])
  unfold readNumber
  rw [hnil]
  exact if_pos (Or.inl rfl)

/-! ## The addresses and their texts -/

structure Ipv4Addr where
  a : UInt8
  b : UInt8
  c : UInt8
  d : UInt8
deriving DecidableEq

structure Ipv6Addr where
  segments : List UInt16
  length_eq : segments.length = 8
deriving DecidableEq

inductive IpAddr where
  | v4 (addr : Ipv4Addr)
  | v6 (addr : Ipv6Addr)
deriving DecidableEq

def Ipv4Addr.octets (addr : Ipv4Addr) : Bytes := [addr.a, addr.b, addr.c, addr.d]

def Ipv6Addr.octets (addr : Ipv6Addr) : Bytes := octetsOf addr.segments

def octetText (n : UInt8) : Text := Nat.toDigits 10 n.toNat

def Ipv4Addr.toText (addr : Ipv4Addr) : Text :=
  octetText addr.a ++ '.' :: (octetText addr.b ++ '.' :: (octetText addr.c ++ '.' :: octetText addr.d))

def groupText (n : UInt16) : Text := Nat.toDigits 16 n.toNat

def moreGroups (groups : List UInt16) : Text := groups.flatMap fun n => ':' :: groupText n

/-- `fmt_subslice`. -/
def groupsText : List UInt16 → Text
  | [] => []
  | n :: groups => groupText n ++ moreGroups groups

structure ZeroRun where
  start : ℕ := 0
  len : ℕ := 0
deriving DecidableEq

/-- The scan for the longest run of zeros, from position `i`. -/
def longestZeroes (i : ℕ) (current longest : ZeroRun) : List UInt16 → ZeroRun
  | [] => longest
  | n :: groups =>
    if n = 0 then
      let current : ZeroRun := ⟨if current.len = 0 then i else current.start, current.len + 1⟩
      longestZeroes (i + 1) current (if current.len > longest.len then current else longest) groups
    else longestZeroes (i + 1) {} longest groups

def toIpv4Mapped (segments : List UInt16) : Option Ipv4Addr :=
  if segments.take 6 = [0, 0, 0, 0, 0, 0xffff] then
    match segments.drop 6 with
    | [ab, cd] => some ⟨highByte ab, lowByte ab, highByte cd, lowByte cd⟩
    | _ => none
  else none

/-- The text of an IPv6 address. -/
def ipv6Text (segments : List UInt16) : Text :=
  match toIpv4Mapped segments with
  | some addr => "::ffff:".toList ++ addr.toText
  | none =>
    let zeroes := longestZeroes 0 {} {} segments
    if zeroes.len > 1 then
      groupsText (segments.take zeroes.start) ++ ':' :: ':' ::
        groupsText (segments.drop (zeroes.start + zeroes.len))
    else groupsText segments

def IpAddr.toText : IpAddr → Text
  | .v4 addr => addr.toText
  | .v6 addr => ipv6Text addr.segments

/-! ## The parser -/

section
variable {α : Type}

/-- `read_separator`: an item, behind a separator unless it is the first. -/
def readSeparator (separator : Char) (first : Bool) (inner : Text → Option (α × Text)) (s : Text) :
    Option (α × Text) :=
  if first then inner s
  else match s with
    | [] => none
    | c :: s => if c = separator then inner s else none

end

/-- `read_number::<u8>(10, Some(3), false)`. -/
def readOctet (s : Text) : Option (UInt8 × Text) :=
  (readNumber 10 256 3 false s).map fun number => (UInt8.ofNat number.1, number.2)

/-- `read_number::<u16>(16, Some(4), true)`. -/
def readGroup (s : Text) : Option (UInt16 × Text) :=
  (readNumber 16 65536 4 true s).map fun number => (UInt16.ofNat number.1, number.2)

def readIpv4Addr (s : Text) : Option (Ipv4Addr × Text) := do
  let (a, s) ← readSeparator '.' true readOctet s
  let (b, s) ← readSeparator '.' false readOctet s
  let (c, s) ← readSeparator '.' false readOctet s
  let (d, s) ← readSeparator '.' false readOctet s
  return (⟨a, b, c, d⟩, s)

structure Groups where
  groups : List UInt16
  ipv4 : Bool
  rest : Text

/-- `read_groups`, with the number of groups that are left. -/
def readGroups (first : Bool) : ℕ → Text → Groups
  | 0, s => ⟨[], false, s⟩
  | left + 1, s =>
    match (if 1 ≤ left then readSeparator ':' first readIpv4Addr s else none) with
    | some (addr, s) => ⟨[ofBeBytes addr.a addr.b, ofBeBytes addr.c addr.d], true, s⟩
    | none =>
      match readSeparator ':' first readGroup s with
      | some (n, s) =>
        let more := readGroups false left s
        { more with groups := n :: more.groups }
      | none => ⟨[], false, s⟩

theorem length_readGroups_le {left : ℕ} {first : Bool} {s : Text} :
    (readGroups first left s).groups.length ≤ left := by
  induction left generalizing first s with
  | zero => exact Nat.le_refl 0
  | succ left ih =>
    unfold readGroups
    split
    · rename_i haddr
      split at haddr
      · show 2 ≤ left + 1
        omega
      · cases haddr
    · split
      · exact Nat.succ_le_succ ih
      · exact Nat.zero_le _

def fillGroups (head tail : List UInt16) : List UInt16 :=
  head ++ List.replicate (8 - head.length - tail.length) 0 ++ tail

theorem length_fillGroups {head tail : List UInt16} (hhead : head.length ≤ 8)
    (htail : tail.length ≤ 8 - (head.length + 1)) : (fillGroups head tail).length = 8 := by
  unfold fillGroups
  simp only [List.length_append, List.length_replicate]
  omega

def readIpv6Addr (s : Text) : Option (Ipv6Addr × Text) :=
  let head := readGroups true 8 s
  if h : head.groups.length = 8 then some (⟨head.groups, h⟩, head.rest)
  else if head.ipv4 then none
  else match head.rest with
    | ':' :: ':' :: rest =>
      let tail := readGroups true (8 - (head.groups.length + 1)) rest
      some (⟨fillGroups head.groups tail.groups,
        length_fillGroups length_readGroups_le length_readGroups_le⟩, tail.rest)
    | _ => none

/-- `IpAddr::from_str`. -/
def parseIpAddr (s : Text) : Option IpAddr :=
  match readIpv4Addr s with
  | some (addr, rest) => if rest = [] then some (.v4 addr) else none
  | none =>
    match readIpv6Addr s with
    | some (addr, rest) => if rest = [] then some (.v6 addr) else none
    | none => none

/-! ## The text is read back -/

theorem readOctet_octetText (n : UInt8) {rest : Text}
    (hrest : ∀ c ∈ rest.head?, isDigitIn 10 c = false) :
    readOctet (octetText n ++ rest) = some (n, rest) := by
  have hn : n.toNat < 256 := n.toNat_lt
  have hlen : (Nat.toDigits 10 n.toNat).length ≤ 3 :=
    (Nat.length_toDigits_le_iff (by decide) (by decide)).mpr (by omega)
  unfold readOctet octetText
  rw [readNumber_toDigits (by decide) (by decide) hn hlen false hrest]
  simp

theorem readGroup_groupText (n : UInt16) {rest : Text}
    (hrest : ∀ c ∈ rest.head?, isDigitIn 16 c = false) :
    readGroup (groupText n ++ rest) = some (n, rest) := by
  have hn : n.toNat < 65536 := n.toNat_lt
  have hlen : (Nat.toDigits 16 n.toNat).length ≤ 4 :=
    (Nat.length_toDigits_le_iff (by decide) (by decide)).mpr (by omega)
  unfold readGroup groupText
  rw [readNumber_toDigits (by decide) (by decide) hn hlen true hrest]
  simp

theorem readIpv4Addr_toText (addr : Ipv4Addr) :
    readIpv4Addr addr.toText = some (addr, []) := by
  have hdot : ∀ s : Text, ∀ c ∈ ('.' :: s).head?, isDigitIn 10 c = false := by
    intro s c hc
    cases hc
    decide
  have hlast : readOctet (octetText addr.d ++ []) = some (addr.d, []) :=
    readOctet_octetText addr.d (by simp)
  rw [List.append_nil] at hlast
  simp [readIpv4Addr, Ipv4Addr.toText, readSeparator, readOctet_octetText _ (hdot _), hlast]

theorem readIpv4Addr_eq_none {s : Text} (h : (s.dropWhile (isDigitIn 10)).head? ≠ some '.') :
    readIpv4Addr s = none := by
  unfold readIpv4Addr
  show (readOctet s).bind _ = none
  unfold readOctet readNumber
  dsimp only
  split
  · rfl
  · show (readSeparator '.' false readOctet (s.dropWhile (isDigitIn 10))).bind _ = none
    have hnone : readSeparator '.' false readOctet (s.dropWhile (isDigitIn 10)) = none := by
      unfold readSeparator
      rw [if_neg Bool.false_ne_true]
      split
      · rfl
      · rename_i c _ heq
        rw [heq] at h
        exact if_neg fun hc => h (congrArg some hc)
    rw [hnone]
    rfl

def EndsGroups (rest : Text) : Prop := rest = [] ∨ ∃ more, rest = ':' :: ':' :: more

def AtColon (s : Text) : Prop := ∀ c ∈ s.head?, c = ':'

theorem atColon_cons (s : Text) : AtColon (':' :: s) := by
  intro c hc
  exact (Option.some.inj hc).symm

theorem EndsGroups.atColon {rest : Text} (h : EndsGroups rest) : AtColon rest := by
  rcases h with rfl | ⟨more, rfl⟩
  · intro c hc
    cases hc
  · exact atColon_cons _

theorem AtColon.not_digit {s : Text} (h : AtColon s) {radix : ℕ} (hradix : radix ≤ 36) :
    ∀ c ∈ s.head?, isDigitIn radix c = false := by
  intro c hc
  rw [h c hc]
  have hvalue : digitValue ':' = 36 := by decide
  unfold isDigitIn
  rw [hvalue]
  exact decide_eq_false (by omega)

theorem atColon_moreGroups (groups : List UInt16) {rest : Text} (h : AtColon rest) :
    AtColon (moreGroups groups ++ rest) := by
  cases groups with
  | nil => exact h
  | cons n groups => exact atColon_cons _

theorem head_dropWhile_ne_dot {digits : Text} (hdigits : ∀ c ∈ digits, isDigitIn 16 c = true)
    {rest : Text} (hrest : AtColon rest) :
    ((digits ++ rest).dropWhile (isDigitIn 10)).head? ≠ some '.' := by
  induction digits with
  | nil =>
    cases rest with
    | nil => simp
    | cons c rest =>
      have hc := hrest c rfl
      have hno : isDigitIn 10 c = false := hrest.not_digit (by decide) c rfl
      rw [List.nil_append, List.dropWhile_cons_of_neg (Bool.eq_false_iff.mp hno), hc]
      intro h
      exact absurd (Option.some.inj h) (by decide)
  | cons c digits ih =>
    rw [List.cons_append, List.dropWhile_cons]
    split
    · exact ih fun d hd => hdigits d (List.mem_cons_of_mem _ hd)
    · intro h
      have hdot := hdigits c List.mem_cons_self
      rw [Option.some.inj h] at hdot
      revert hdot
      decide

theorem readIpv4Addr_atColon {s : Text} (h : AtColon s) : readIpv4Addr s = none :=
  readIpv4Addr_eq_none (head_dropWhile_ne_dot (List.forall_mem_nil _) h)

theorem readIpv4Addr_groupText (n : UInt16) {rest : Text} (hrest : AtColon rest) :
    readIpv4Addr (groupText n ++ rest) = none :=
  readIpv4Addr_eq_none (head_dropWhile_ne_dot
    (fun _ hc => isDigitIn_of_mem_toDigits (by decide) (by decide) _ hc) hrest)

theorem readGroups_end (first : Bool) (left : ℕ) {rest : Text} (hrest : EndsGroups rest) :
    readGroups first left rest = ⟨[], false, rest⟩ := by
  cases left with
  | zero => rfl
  | succ left =>
    have hcolon : ∀ s : Text, AtColon s → readIpv4Addr s = none ∧ readGroup s = none := by
      intro s hs
      have h10 : readNumber 10 256 3 false s = none :=
        readNumber_eq_none (hs.not_digit (by decide))
      have h16 : readNumber 16 65536 4 true s = none :=
        readNumber_eq_none (hs.not_digit (by decide))
      simp [readIpv4Addr, readSeparator, readOctet, readGroup, h10, h16]
    have hnone : readSeparator ':' first readIpv4Addr rest = none ∧
        readSeparator ':' first readGroup rest = none := by
      unfold readSeparator
      split
      · exact hcolon rest hrest.atColon
      · rcases hrest with rfl | ⟨more, rfl⟩
        · exact ⟨rfl, rfl⟩
        · exact hcolon _ (atColon_cons more)
    unfold readGroups
    rw [hnone.1, hnone.2, ite_self]

theorem readGroups_group {first : Bool} {left : ℕ} (n : UInt16) {s rest : Text}
    (hs : ∀ {α : Type} (inner : Text → Option (α × Text)),
      readSeparator ':' first inner s = inner (groupText n ++ rest))
    (hrest : AtColon rest) :
    readGroups first (left + 1) s =
      { readGroups false left rest with groups := n :: (readGroups false left rest).groups } := by
  rw [readGroups, hs, hs, readIpv4Addr_groupText n hrest, ite_self,
    readGroup_groupText n (hrest.not_digit (by decide))]

theorem readGroups_moreGroups (groups : List UInt16) {left : ℕ} (hleft : groups.length ≤ left)
    {rest : Text} (hrest : EndsGroups rest) :
    readGroups false left (moreGroups groups ++ rest) = ⟨groups, false, rest⟩ := by
  induction groups generalizing left with
  | nil => exact readGroups_end false left hrest
  | cons n groups ih =>
    obtain ⟨left, rfl⟩ : ∃ k, left = k + 1 := ⟨left - 1, by simp at hleft; omega⟩
    have hcolon := atColon_moreGroups groups hrest.atColon
    have hsep : ∀ {α : Type} (inner : Text → Option (α × Text)),
        readSeparator ':' false inner (moreGroups (n :: groups) ++ rest) =
          inner (groupText n ++ (moreGroups groups ++ rest)) := by
      intro α inner
      have htext : moreGroups (n :: groups) ++ rest =
          ':' :: (groupText n ++ (moreGroups groups ++ rest)) := by
        show (':' :: groupText n ++ moreGroups groups) ++ rest = _
        simp
      rw [htext]
      rfl
    rw [readGroups_group n hsep hcolon, ih (by simpa using hleft)]

theorem readGroups_groupsText (groups : List UInt16) {left : ℕ} (hleft : groups.length ≤ left)
    {rest : Text} (hrest : EndsGroups rest) :
    readGroups true left (groupsText groups ++ rest) = ⟨groups, false, rest⟩ := by
  cases groups with
  | nil => exact readGroups_end true left hrest
  | cons n groups =>
    obtain ⟨left, rfl⟩ : ∃ k, left = k + 1 := ⟨left - 1, by simp at hleft; omega⟩
    have hcolon := atColon_moreGroups groups hrest.atColon
    have hsep : ∀ {α : Type} (inner : Text → Option (α × Text)),
        readSeparator ':' true inner (groupsText (n :: groups) ++ rest) =
          inner (groupText n ++ (moreGroups groups ++ rest)) := by
      intro α inner
      rw [← List.append_assoc]
      rfl
    rw [readGroups_group n hsep hcolon, readGroups_moreGroups groups (by simpa using hleft) hrest]

/-! ### The zeros that are left out -/

/-- A run of zeros of `segments`. -/
def ZeroRun.Zero (segments : List UInt16) (span : ZeroRun) : Prop :=
  ∀ k, span.start ≤ k → k < span.start + span.len → segments[k]? = some 0

theorem ZeroRun.zero_empty (segments : List UInt16) : ZeroRun.Zero segments {} := by
  intro k _ hk
  exact absurd hk (Nat.not_lt_zero k)

theorem ZeroRun.Zero.grow {segments : List UInt16} {current : ZeroRun} {i : ℕ}
    (hcurrent : current.Zero segments) (hend : current.len ≠ 0 → current.start + current.len = i)
    (hi : segments[i]? = some 0) :
    ZeroRun.Zero segments ⟨if current.len = 0 then i else current.start, current.len + 1⟩ := by
  intro k hk hk'
  dsimp only at hk hk'
  split at hk
  · have hki : k = i := by
      rename_i h
      rw [if_pos h] at hk'
      omega
    rw [hki]
    exact hi
  · rename_i h
    rw [if_neg h] at hk'
    have := hend h
    by_cases hki : k = i
    · rw [hki]
      exact hi
    · exact hcurrent k hk (by omega)

theorem longestZeroes_zero {segments : List UInt16} (groups : List UInt16) {i : ℕ}
    {current longest : ZeroRun} (hgroups : segments.drop i = groups)
    (hcurrent : current.Zero segments) (hlongest : longest.Zero segments)
    (hend : current.len ≠ 0 → current.start + current.len = i) :
    (longestZeroes i current longest groups).Zero segments := by
  induction groups generalizing i current longest with
  | nil => exact hlongest
  | cons n groups ih =>
    have hi : segments[i]? = some n := by
      rw [← List.head?_drop, hgroups]
      rfl
    have hnext : segments.drop (i + 1) = groups := by
      rw [← List.tail_drop, hgroups]
      rfl
    unfold longestZeroes
    split
    · rename_i hn
      rw [hn] at hi
      have hgrown := hcurrent.grow hend hi
      apply ih hnext hgrown
      · dsimp only
        by_cases hlen : current.len + 1 > longest.len
        · rw [if_pos hlen]
          exact hgrown
        · rw [if_neg hlen]
          exact hlongest
      · intro _
        dsimp only
        split
        · rename_i h
          rw [h]
        · rename_i h
          rw [← hend h]
          omega
    · exact ih hnext (ZeroRun.zero_empty segments) hlongest fun h => absurd rfl h

theorem fillGroups_take_drop {segments : List UInt16} {span : ZeroRun} (h : span.Zero segments)
    (hlen : segments.length = 8) (hspan : 1 < span.len) :
    span.start + span.len ≤ 8 ∧
      fillGroups (segments.take span.start) (segments.drop (span.start + span.len)) = segments := by
  have hin : span.start + span.len ≤ 8 := by
    have hlast := h (span.start + span.len - 1) (by omega) (by omega)
    obtain ⟨hlt, -⟩ := List.getElem?_eq_some_iff.mp hlast
    omega
  refine ⟨hin, ?_⟩
  have hzeros : (segments.drop span.start).take span.len = List.replicate span.len 0 := by
    apply List.ext_getElem?
    intro k
    by_cases hk : k < span.len
    · rw [List.getElem?_take_of_lt hk, List.getElem?_drop, h _ (by omega) (by omega),
        List.getElem?_replicate_of_lt hk]
    · rw [List.getElem?_eq_none (by rw [List.length_take]; omega),
        List.getElem?_eq_none (by rw [List.length_replicate]; omega)]
  have hcount : 8 - (segments.take span.start).length
      - (segments.drop (span.start + span.len)).length = span.len := by
    rw [List.length_take, List.length_drop]
    omega
  unfold fillGroups
  rw [hcount, ← hzeros, ← List.drop_drop, List.append_assoc, List.take_append_drop,
    List.take_append_drop]

/-! ### Round trips -/

theorem readIpv6Addr_groups {segments : List UInt16} (hlen : segments.length = 8) :
    readIpv6Addr (groupsText segments) = some (⟨segments, hlen⟩, []) := by
  have hread := readGroups_groupsText segments (Nat.le_of_eq hlen) (.inl rfl)
  rw [List.append_nil] at hread
  unfold readIpv6Addr
  simp [hread, hlen]

theorem readIpv6Addr_gap {head tail segments : List UInt16}
    (hlen : head.length + tail.length < 8) (hlen' : segments.length = 8)
    (hfill : fillGroups head tail = segments) :
    readIpv6Addr (groupsText head ++ ':' :: ':' :: groupsText tail) =
      some (⟨segments, hlen'⟩, []) := by
  have hhead : readGroups true 8 (groupsText head ++ ':' :: ':' :: groupsText tail) = _ :=
    readGroups_groupsText head (by omega) (.inr ⟨groupsText tail, rfl⟩)
  have htail : readGroups true (7 - head.length) (groupsText tail ++ []) = _ :=
    readGroups_groupsText tail (by omega) (.inl rfl)
  rw [List.append_nil] at htail
  have hne : head.length ≠ 8 := by omega
  unfold readIpv6Addr
  simp [hhead, htail, hne, hfill]

theorem readIpv6Addr_mapped {segments : List UInt16} (hlen : segments.length = 8) {addr : Ipv4Addr}
    (h : toIpv4Mapped segments = some addr) :
    readIpv6Addr ("::ffff:".toList ++ addr.toText) = some (⟨segments, hlen⟩, []) := by
  unfold toIpv4Mapped at h
  split at h
  case isFalse => cases h
  case isTrue hmapped =>
    split at h
    case h_2 => cases h
    case h_1 ab cd hlast =>
      have haddr := (Option.some.inj h).symm
      have hsegments : segments = [0, 0, 0, 0, 0, 0xffff, ab, cd] := by
        rw [← List.take_append_drop 6 segments, hmapped, hlast]
        rfl
      have hv4 : readGroups false 6 (':' :: addr.toText) = ⟨[ab, cd], true, []⟩ := by
        simp [readGroups, readSeparator, readIpv4Addr_toText, haddr]
      have htail : readGroups true 7 (groupText 0xffff ++ ':' :: addr.toText) =
          ⟨[0xffff, ab, cd], true, []⟩ := by
        rw [readGroups_group 0xffff (fun _ => rfl) (atColon_cons _), hv4]
      have htext : "::ffff:".toList ++ addr.toText =
          ':' :: ':' :: (groupText 0xffff ++ ':' :: addr.toText) := by
        have hgroup : groupText 0xffff = "ffff".toList := by decide
        rw [hgroup]
        rfl
      have hhead : readGroups true 8 (':' :: ':' :: (groupText 0xffff ++ ':' :: addr.toText)) = _ :=
        readGroups_end true 8 (.inr ⟨_, rfl⟩)
      rw [htext]
      unfold readIpv6Addr
      simp [hhead, htail, hsegments, fillGroups]

theorem readIpv6Addr_ipv6Text (addr : Ipv6Addr) :
    readIpv6Addr (ipv6Text addr.segments) = some (addr, []) := by
  obtain ⟨segments, hlen⟩ := addr
  unfold ipv6Text
  split
  · rename_i hmapped
    exact readIpv6Addr_mapped hlen hmapped
  · dsimp only
    split
    · rename_i hspan
      have hzero := longestZeroes_zero segments (i := 0) rfl (ZeroRun.zero_empty segments)
        (ZeroRun.zero_empty segments) fun h => absurd rfl h
      obtain ⟨hin, hfill⟩ := fillGroups_take_drop hzero hlen hspan
      apply readIpv6Addr_gap _ hlen hfill
      rw [List.length_take, List.length_drop]
      omega
    · exact readIpv6Addr_groups hlen

theorem readIpv4Addr_ipv6Text (addr : Ipv6Addr) : readIpv4Addr (ipv6Text addr.segments) = none := by
  obtain ⟨segments, hlen⟩ := addr
  have hgroups : ∀ groups : List UInt16, ∀ rest : Text, AtColon rest →
      readIpv4Addr (groupsText groups ++ rest) = none := by
    intro groups rest hrest
    cases groups with
    | nil => exact readIpv4Addr_atColon hrest
    | cons n groups =>
      show readIpv4Addr (groupText n ++ moreGroups groups ++ rest) = none
      rw [List.append_assoc]
      exact readIpv4Addr_groupText n (atColon_moreGroups groups hrest)
  unfold ipv6Text
  split
  · exact readIpv4Addr_atColon (atColon_cons _)
  · dsimp only
    split
    · exact hgroups _ _ (atColon_cons _)
    · have h := hgroups segments [] fun c hc => by cases hc
      rwa [List.append_nil] at h

/-- **Round trip.** Every address is read back from its text. -/
theorem parseIpAddr_toText (addr : IpAddr) : parseIpAddr addr.toText = some addr := by
  cases addr with
  | v4 addr =>
    show parseIpAddr addr.toText = some (.v4 addr)
    unfold parseIpAddr
    rw [readIpv4Addr_toText]
    exact if_pos rfl
  | v6 addr =>
    show parseIpAddr (ipv6Text addr.segments) = some (.v6 addr)
    unfold parseIpAddr
    rw [readIpv4Addr_ipv6Text, readIpv6Addr_ipv6Text]
    exact if_pos rfl

/-! ## The characters of an address -/

/-- `rest` is left of `s` behind characters that meet `p`. -/
def Taken (p : Char → Bool) (s rest : Text) : Prop :=
  ∃ used, s = used ++ rest ∧ ∀ c ∈ used, p c = true

namespace Taken

variable {p q : Char → Bool} {s t u : Text}

theorem refl (p : Char → Bool) (s : Text) : Taken p s s := ⟨[], rfl, by simp⟩

theorem cons {c : Char} (hc : p c = true) (h : Taken p s t) : Taken p (c :: s) t := by
  obtain ⟨used, rfl, hused⟩ := h
  exact ⟨c :: used, rfl, List.forall_mem_cons.mpr ⟨hc, hused⟩⟩

theorem trans (h : Taken p s t) (h' : Taken p t u) : Taken p s u := by
  obtain ⟨used, rfl, hused⟩ := h
  obtain ⟨used', rfl, hused'⟩ := h'
  exact ⟨used ++ used', (List.append_assoc ..).symm, List.forall_mem_append.mpr ⟨hused, hused'⟩⟩

theorem mono (h : Taken p s t) (hpq : ∀ c, p c = true → q c = true) : Taken q s t := by
  obtain ⟨used, hs, hused⟩ := h
  exact ⟨used, hs, fun c hc => hpq c (hused c hc)⟩

theorem forall_of_nil (h : Taken p s []) : ∀ c ∈ s, p c = true := by
  obtain ⟨used, rfl, hused⟩ := h
  rwa [List.append_nil]

end Taken

theorem taken_of_readNumber {radix bound maxDigits n : ℕ} {allowZeroPrefix : Bool} {s rest : Text}
    (h : readNumber radix bound maxDigits allowZeroPrefix s = some (n, rest)) :
    Taken (isDigitIn radix) s rest := by
  rw [readNumber] at h
  split at h
  · cases h
  · cases h
    exact ⟨s.takeWhile (isDigitIn radix), List.takeWhile_append_dropWhile.symm,
      fun c => List.mem_takeWhile_imp⟩

theorem taken_of_readOctet {s rest : Text} {n : UInt8} (h : readOctet s = some (n, rest)) :
    Taken (isDigitIn 10) s rest := by
  obtain ⟨⟨m, rest'⟩, hnumber, heq⟩ := Option.map_eq_some_iff.mp h
  cases heq
  exact taken_of_readNumber hnumber

theorem taken_of_readGroup {s rest : Text} {n : UInt16} (h : readGroup s = some (n, rest)) :
    Taken (isDigitIn 16) s rest := by
  obtain ⟨⟨m, rest'⟩, hnumber, heq⟩ := Option.map_eq_some_iff.mp h
  cases heq
  exact taken_of_readNumber hnumber

theorem taken_of_readSeparator {α : Type} {p : Char → Bool} {separator : Char} {first : Bool}
    {inner : Text → Option (α × Text)} {s rest : Text} {a : α} (hsep : p separator = true)
    (hinner : ∀ s rest a, inner s = some (a, rest) → Taken p s rest)
    (h : readSeparator separator first inner s = some (a, rest)) : Taken p s rest := by
  unfold readSeparator at h
  split at h
  · exact hinner s rest a h
  · split at h
    · cases h
    · rename_i c s
      split at h
      · rename_i hc
        exact Taken.cons (hc ▸ hsep) (hinner s rest a h)
      · cases h

def isIpv4Char (c : Char) : Bool := isDigitIn 10 c || c == '.'

def isIpChar (c : Char) : Bool := isDigitIn 16 c || c == ':' || c == '.'

theorem isIpChar_of_isIpv4Char {c : Char} (h : isIpv4Char c = true) : isIpChar c = true := by
  rw [isIpv4Char, Bool.or_eq_true] at h
  rcases h with h | h
  · have hdigit : isDigitIn 16 c = true := by
      rw [isDigitIn, decide_eq_true_eq] at h ⊢
      omega
    rw [isIpChar, hdigit]
    rfl
  · rw [isIpChar, h, Bool.or_true]

theorem taken_of_readIpv4Addr {s rest : Text} {addr : Ipv4Addr}
    (h : readIpv4Addr s = some (addr, rest)) : Taken isIpv4Char s rest := by
  have hitem (first : Bool) (s rest : Text) (n : UInt8)
      (hread : readSeparator '.' first readOctet s = some (n, rest)) : Taken isIpv4Char s rest :=
    taken_of_readSeparator (by decide)
      (fun _ _ _ hoctet => (taken_of_readOctet hoctet).mono fun c hc => by simp [isIpv4Char, hc])
      hread
  rw [readIpv4Addr] at h
  obtain ⟨⟨a, s₁⟩, h₁, h⟩ := Option.bind_eq_some_iff.mp h
  obtain ⟨⟨b, s₂⟩, h₂, h⟩ := Option.bind_eq_some_iff.mp h
  obtain ⟨⟨c, s₃⟩, h₃, h⟩ := Option.bind_eq_some_iff.mp h
  obtain ⟨⟨d, s₄⟩, h₄, h⟩ := Option.bind_eq_some_iff.mp h
  cases h
  exact (hitem true _ _ _ h₁).trans ((hitem false _ _ _ h₂).trans
    ((hitem false _ _ _ h₃).trans (hitem false _ _ _ h₄)))

theorem taken_readGroups (left : ℕ) : ∀ (first : Bool) (s : Text),
    Taken isIpChar s (readGroups first left s).rest := by
  induction left with
  | zero => exact fun first s => Taken.refl _ s
  | succ left ih =>
    intro first s
    rw [readGroups]
    split
    · rename_i addr rest haddr
      split at haddr
      · exact taken_of_readSeparator (by decide)
          (fun _ _ _ h => (taken_of_readIpv4Addr h).mono fun c => isIpChar_of_isIpv4Char) haddr
      · cases haddr
    · split
      · rename_i n rest hgroup
        refine Taken.trans (taken_of_readSeparator (by decide) (fun _ _ _ h => ?_) hgroup)
          (ih false rest)
        exact (taken_of_readGroup h).mono fun c hc => by simp [isIpChar, hc]
      · exact Taken.refl _ s

theorem taken_of_readIpv6Addr {s rest : Text} {addr : Ipv6Addr}
    (h : readIpv6Addr s = some (addr, rest)) : Taken isIpChar s rest := by
  have hhead := taken_readGroups 8 true s
  rw [readIpv6Addr] at h
  dsimp only at h
  split at h
  · cases h
    exact hhead
  · split at h
    · cases h
    · split at h
      · rename_i behind hrest
        cases h
        rw [hrest] at hhead
        exact hhead.trans (Taken.cons (by decide) (Taken.cons (by decide)
          (taken_readGroups _ true behind)))
      · cases h

theorem chars_of_parseIpAddr_v4 {s : Text} {addr : Ipv4Addr}
    (h : parseIpAddr s = some (.v4 addr)) : s ≠ [] ∧ ∀ c ∈ s, isIpv4Char c = true := by
  constructor
  · rintro rfl
    cases h
  · rw [parseIpAddr] at h
    split at h
    · rename_i addr' rest hread
      split at h
      · rename_i hrest
        exact (hrest ▸ taken_of_readIpv4Addr hread).forall_of_nil
      · cases h
    · split at h
      · split at h
        · cases h
        · cases h
      · cases h

theorem chars_of_parseIpAddr_v6 {s : Text} {addr : Ipv6Addr}
    (h : parseIpAddr s = some (.v6 addr)) : s ≠ [] ∧ ∀ c ∈ s, isIpChar c = true := by
  constructor
  · rintro rfl
    cases h
  · rw [parseIpAddr] at h
    split at h
    · split at h
      · cases h
      · cases h
    · split at h
      · rename_i addr' rest hread
        split at h
        · rename_i hrest
          exact (hrest ▸ taken_of_readIpv6Addr hread).forall_of_nil
        · cases h
      · cases h

end FluxTerm.Lib
