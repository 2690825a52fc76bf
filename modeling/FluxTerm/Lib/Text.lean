import Mathlib.Algebra.Order.Ring.Nat
import Mathlib.Data.List.DropRight

/-!
# Text

Strings as lists of characters, with the trimming that string libraries do: `trimBy p` drops the
characters at both ends that meet `p`.
-/

namespace FluxTerm.Lib

abbrev Text := List Char

instance : LawfulBEq Text := inferInstance

/-- The characters with the Unicode property `White_Space`. -/
def isWhitespace (c : Char) : Bool :=
  (0x09 ≤ c.toNat && c.toNat ≤ 0x0d) || c.toNat == 0x20 || c.toNat == 0x85 || c.toNat == 0xa0
    || c.toNat == 0x1680 || (0x2000 ≤ c.toNat && c.toNat ≤ 0x200a) || c.toNat == 0x2028
    || c.toNat == 0x2029 || c.toNat == 0x202f || c.toNat == 0x205f || c.toNat == 0x3000

/-- White space and line terminators of ECMAScript: `U+FEFF` counts, `U+0085` does not. -/
def isJsWhitespace (c : Char) : Bool :=
  c.toNat == 0xfeff || (isWhitespace c && c.toNat != 0x85)

/-- The text without the characters at its ends that meet `p`. -/
def trimBy (p : Char → Bool) (s : Text) : Text := (s.dropWhile p).rdropWhile p

def asciiLower (s : Text) : Text := s.map Char.toLower

def utf16Units (c : Char) : List ℕ :=
  if c.toNat < 0x10000 then [c.toNat]
  else [0xd800 + (c.toNat - 0x10000) / 0x400, 0xdc00 + (c.toNat - 0x10000) % 0x400]

def truthy (s : Option Text) : Option Text := s.filter fun s => !s.isEmpty

def utf8Bytes (s : Text) : ByteArray := (String.ofList s).toByteArray

def fromUtf8 (bytes : ByteArray) : Option Text := bytes.utf8Decode?.map Array.toList

theorem fromUtf8_utf8Bytes (s : Text) : fromUtf8 (utf8Bytes s) = some s := by
  simp [fromUtf8, utf8Bytes]

theorem forall_of_all {p : Char → Bool} {s : Text} (h : s.all p = true) : ∀ c ∈ s, p c = true :=
  List.all_eq_true.mp h

theorem forall_not_of_all {p : Char → Bool} {s : Text} (h : (s.any p) = false) :
    ∀ c ∈ s, p c = false := by
  intro c hc
  by_contra hp
  have hany : s.any p = true := List.any_eq_true.mpr ⟨c, hc, by simpa using hp⟩
  rw [h] at hany
  cases hany

theorem not_mem_toList {c : Char} {s : String} {chars : List Char} (hs : s = String.ofList chars)
    (h : chars.contains c = false) : c ∉ s.toList := by
  subst hs
  rw [String.toList_ofList]
  simpa using h

/-! ## Splitting and numbers -/

/-- The parts before and after the first `c`. -/
def splitOnce (c : Char) : Text → Option (Text × Text)
  | [] => none
  | d :: s => if d = c then some ([], s) else (splitOnce c s).map fun parts => (d :: parts.1, parts.2)

/-- The parts before and after the last `c`. -/
def rsplitOnce (c : Char) (s : Text) : Option (Text × Text) :=
  (splitOnce c s.reverse).map fun parts => (parts.2.reverse, parts.1.reverse)

/-- What is after the last `c`; the whole text if there is none. -/
def afterLast (c : Char) (s : Text) : Text := ((rsplitOnce c s).map Prod.snd).getD s

def splitWhitespace (s : Text) : List Text := (s.splitOnP isWhitespace).filter (!·.isEmpty)

def decimal (digits : Text) : ℕ := digits.foldl (fun n c => n * 10 + (c.toNat - '0'.toNat)) 0

/-- `str::parse::<u16>`: digits, with a plus sign before them or not. -/
def parseU16 (s : Text) : Option ℕ :=
  let digits := if s.head? = some '+' then s.tail else s
  if digits.isEmpty || !digits.all Char.isDigit then none
  else if decimal digits < 2 ^ 16 then some (decimal digits) else none

/-- The digits of an unsigned number of 64 bits, behind those read so far. -/
def parseDigits64 : ℕ → Text → Except String ℕ
  | n, [] => .ok n
  | n, c :: cs =>
    if c.isDigit then
      let next := n * 10 + (c.toNat - '0'.toNat)
      if next < 2 ^ 64 then parseDigits64 next cs
      else .error "number too large to fit in target type"
    else .error "invalid digit found in string"

/-- `str::parse::<u64>`, with the text of its error. -/
def parseU64 : Text → Except String ℕ
  | [] => .error "cannot parse integer from empty string"
  | ['+'] => .error "invalid digit found in string"
  | '+' :: digits => parseDigits64 0 digits
  | digits => parseDigits64 0 digits

theorem isDigit_of_mem_toString {c : Char} {n : ℕ} (h : c ∈ (toString n).toList) :
    c.isDigit = true := by
  have h : c ∈ (Nat.repr n).toList := h
  rw [Nat.toList_repr] at h
  exact Nat.isDigit_of_mem_toDigits (by omega) (by omega) h

theorem decimal_toDigits (n : ℕ) : decimal (Nat.toDigits 10 n) = n := by
  have h := Nat.ofDigitChars_ten_toDigits (n := n)
  rw [Nat.ofDigitChars_eq_foldl] at h
  rw [decimal]
  simpa only [Nat.mul_comm] using h

theorem toString_toList_inj {m n : ℕ} (h : (toString m).toList = (toString n).toList) : m = n := by
  have h : (Nat.repr m).toList = (Nat.repr n).toList := h
  rw [Nat.toList_repr, Nat.toList_repr] at h
  rw [← decimal_toDigits m, h, decimal_toDigits]

theorem splitOnce_append_cons {c : Char} {a : Text} (h : c ∉ a) (b : Text) :
    splitOnce c (a ++ c :: b) = some (a, b) := by
  induction a with
  | nil => simp [splitOnce]
  | cons d a ih =>
    have hd : d ≠ c := fun he => h (he ▸ List.mem_cons_self)
    rw [List.cons_append, splitOnce, if_neg hd, ih fun hm => h (List.mem_cons_of_mem _ hm)]
    rfl

theorem splitOnce_of_not_mem {c : Char} {s : Text} (h : c ∉ s) : splitOnce c s = none := by
  induction s with
  | nil => rfl
  | cons d s ih =>
    have hd : d ≠ c := fun he => h (he ▸ List.mem_cons_self)
    rw [splitOnce, if_neg hd, ih fun hm => h (List.mem_cons_of_mem _ hm)]
    rfl

theorem rsplitOnce_append_cons {c : Char} (a : Text) {b : Text} (h : c ∉ b) :
    rsplitOnce c (a ++ c :: b) = some (a, b) := by
  have hrev : c ∉ b.reverse := fun hm => h (List.mem_reverse.mp hm)
  rw [rsplitOnce, List.reverse_append, List.reverse_cons, List.append_assoc, List.singleton_append,
    splitOnce_append_cons hrev]
  simp

theorem rsplitOnce_of_not_mem {c : Char} {s : Text} (h : c ∉ s) : rsplitOnce c s = none := by
  rw [rsplitOnce, splitOnce_of_not_mem fun hm => h (List.mem_reverse.mp hm)]
  rfl

theorem eq_of_splitOnce {c : Char} : ∀ {s a b : Text}, splitOnce c s = some (a, b) →
    s = a ++ c :: b ∧ c ∉ a
  | [], _, _, h => by cases h
  | d :: s, a, b, h => by
    rw [splitOnce] at h
    split at h
    · rename_i hd
      cases h
      exact ⟨by rw [hd]; rfl, List.not_mem_nil⟩
    · rename_i hd
      obtain ⟨⟨a', b'⟩, hsplit, hparts⟩ := Option.map_eq_some_iff.mp h
      cases hparts
      obtain ⟨rfl, hc⟩ := eq_of_splitOnce hsplit
      refine ⟨rfl, fun hmem => ?_⟩
      rcases List.mem_cons.mp hmem with rfl | hmem
      · exact hd rfl
      · exact hc hmem

theorem eq_of_rsplitOnce {c : Char} {s a b : Text} (h : rsplitOnce c s = some (a, b)) :
    s = a ++ c :: b ∧ c ∉ b := by
  obtain ⟨⟨b', a'⟩, hsplit, hparts⟩ := Option.map_eq_some_iff.mp h
  cases hparts
  obtain ⟨hs, hc⟩ := eq_of_splitOnce hsplit
  refine ⟨?_, fun hmem => hc (List.mem_reverse.mp hmem)⟩
  rw [← List.reverse_reverse s, hs]
  simp

theorem mem_of_mem_afterLast {c d : Char} {s : Text} (h : d ∈ afterLast c s) : d ∈ s := by
  rw [afterLast] at h
  cases hsplit : rsplitOnce c s with
  | none => rwa [hsplit] at h
  | some parts =>
    rw [hsplit] at h
    rw [(eq_of_rsplitOnce hsplit).1]
    exact List.mem_append_right _ (List.mem_cons_of_mem _ h)

theorem afterLast_append_cons {c : Char} (a : Text) {b : Text} (h : c ∉ b) :
    afterLast c (a ++ c :: b) = b := by
  rw [afterLast, rsplitOnce_append_cons a h]
  rfl

theorem afterLast_of_not_mem {c : Char} {s : Text} (h : c ∉ s) : afterLast c s = s := by
  rw [afterLast, rsplitOnce_of_not_mem h]
  rfl

theorem splitWhitespace_append_cons {word : Text} {c : Char} (hne : word ≠ [])
    (hword : ∀ d ∈ word, isWhitespace d = false) (hc : isWhitespace c = true) (rest : Text) :
    splitWhitespace (word ++ c :: rest) = word :: splitWhitespace rest := by
  rw [splitWhitespace, List.splitOnP_append_cons_of_forall_mem hword c hc, List.filter_cons]
  simp [hne, splitWhitespace]

theorem splitWhitespace_word {word : Text} (hne : word ≠ [])
    (hword : ∀ d ∈ word, isWhitespace d = false) : splitWhitespace word = [word] := by
  rw [splitWhitespace, List.splitOnP_eq_singleton hword]
  simp [hne]

/-! ## Trimming -/

section
variable {α : Type} {p : α → Bool}

theorem trim_append {before middle after : List α} (hbefore : ∀ a ∈ before, p a = true)
    (hafter : ∀ a ∈ after, p a = true) (hhead : ∀ a ∈ middle.head?, p a = false)
    (hlast : ∀ a ∈ middle.getLast?, p a = false) :
    ((before ++ middle ++ after).dropWhile p).rdropWhile p = middle := by
  have hright : (middle ++ after).rdropWhile p = middle := by
    induction after using List.reverseRecOn with
    | nil =>
      rw [List.append_nil, List.rdropWhile_eq_self_iff]
      intro hne
      simp [hlast _ (List.getLast?_eq_some_getLast hne)]
    | append_singleton after a ih =>
      rw [← List.append_assoc, List.rdropWhile_concat_pos _ _ _ (hafter a (by simp))]
      exact ih fun b hb => hafter b (List.mem_append_left _ hb)
  rw [List.append_assoc, List.dropWhile_append_of_pos hbefore]
  cases middle with
  | nil =>
    rw [List.nil_append, List.dropWhile_eq_nil_iff.mpr hafter]
    rfl
  | cons a middle =>
    rw [List.cons_append, List.dropWhile_cons_of_neg (by simp [hhead a rfl])]
    exact hright

theorem exists_trim (p : α → Bool) (l : List α) :
    ∃ before after, l = before ++ (l.dropWhile p).rdropWhile p ++ after ∧
      (∀ a ∈ before, p a = true) ∧ (∀ a ∈ after, p a = true) ∧
      (∀ a ∈ ((l.dropWhile p).rdropWhile p).head?, p a = false) ∧
      ∀ a ∈ ((l.dropWhile p).rdropWhile p).getLast?, p a = false := by
  have hsplit : l.dropWhile p =
      (l.dropWhile p).rdropWhile p ++ (l.dropWhile p).rtakeWhile p := by
    have h := congrArg List.reverse
      (List.takeWhile_append_dropWhile (p := p) (l := (l.dropWhile p).reverse))
    rw [List.reverse_append, List.reverse_reverse] at h
    exact h.symm
  refine ⟨l.takeWhile p, (l.dropWhile p).rtakeWhile p, ?_, fun a => List.mem_takeWhile_imp,
    fun a => List.mem_rtakeWhile_imp, fun a ha => ?_, fun a ha => ?_⟩
  · rw [List.append_assoc, ← hsplit, List.takeWhile_append_dropWhile]
  · -- it begins like what the drop on the left leaves
    obtain ⟨rest, hrest⟩ := List.head?_eq_some_iff.mp ha
    obtain ⟨tail, hcons⟩ : ∃ tail, l.dropWhile p = a :: tail :=
      ⟨_, hsplit.trans (by rw [hrest, List.cons_append])⟩
    have hne : l.dropWhile p ≠ [] := by simp [hcons]
    simpa [hcons] using List.head_dropWhile_not p hne
  · have hne : (l.dropWhile p).rdropWhile p ≠ [] := by
      intro hnil
      rw [hnil] at ha
      cases ha
    rw [List.getLast?_eq_some_getLast hne, Option.mem_some_iff] at ha
    rw [← ha]
    simpa using List.rdropWhile_last_not p (l.dropWhile p) hne
end

variable {p : Char → Bool} {s : Text}

theorem not_of_dropWhile_eq_cons {c : Char} {cs : Text} (h : s.dropWhile p = c :: cs) :
    p c = false := by
  have hne : s.dropWhile p ≠ [] := by simp [h]
  have hhead := List.head_dropWhile_not p hne
  simpa [h] using hhead

theorem trimBy_eq_nil_iff : trimBy p s = [] ↔ ∀ c ∈ s, p c = true := by
  rw [trimBy, List.rdropWhile_eq_nil_iff]
  constructor
  · intro h
    cases hdrop : s.dropWhile p with
    | nil => exact List.dropWhile_eq_nil_iff.mp hdrop
    | cons c cs =>
      have hc := h c (by simp [hdrop])
      rw [not_of_dropWhile_eq_cons hdrop] at hc
      cases hc
  · intro h
    simp [List.dropWhile_eq_nil_iff.mpr h]

theorem trimBy_eq_self (h : ∀ c ∈ s, p c = false) : trimBy p s = s := by
  have hdrop : s.dropWhile p = s := by
    cases s with
    | nil => rfl
    | cons c cs => simp [h c List.mem_cons_self]
  rw [trimBy, hdrop, List.rdropWhile_eq_self_iff]
  intro hne
  simp [h _ (List.getLast_mem hne)]

theorem trimBy_eq_self_of_ends {c d : Char} (hhead : s.head? = some c) (hc : p c = false)
    (hlast : s.getLast? = some d) (hd : p d = false) : trimBy p s = s := by
  have hdrop : s.dropWhile p = s := by
    cases s with
    | nil => rfl
    | cons a s =>
      have ha : a = c := Option.some.inj hhead
      rw [List.dropWhile_cons, ha, hc]
      rfl
  rw [trimBy, hdrop, List.rdropWhile_eq_self_iff]
  intro hne hmeets
  rw [List.getLast?_eq_some_getLast hne] at hlast
  rw [Option.some.inj hlast, hd] at hmeets
  cases hmeets

theorem trimBy_append_of_meets {c : Char} (hc : p c = true) : trimBy p (s ++ [c]) = trimBy p s := by
  unfold trimBy
  rw [List.dropWhile_append]
  split
  · -- everything is trimmed away
    rename_i hempty
    rw [List.isEmpty_iff.mp hempty]
    simp [hc]
  · rw [List.rdropWhile_concat, if_pos hc]

theorem mem_of_mem_trimBy {c : Char} (h : c ∈ trimBy p s) : c ∈ s :=
  (List.dropWhile_suffix p).subset ((List.rdropWhile_prefix p _).subset h)

theorem trimBy_idem : trimBy p (trimBy p s) = trimBy p s := by
  have hdrop : (trimBy p s).dropWhile p = trimBy p s := by
    cases htrim : trimBy p s with
    | nil => rfl
    | cons c cs =>
      -- the first character left was the first one after the drop on the left
      obtain ⟨rest, hrest⟩ : trimBy p s <+: s.dropWhile p := List.rdropWhile_prefix p _
      rw [htrim, List.cons_append] at hrest
      rw [List.dropWhile_cons, not_of_dropWhile_eq_cons hrest.symm]
      rfl
  conv_lhs => rw [trimBy, hdrop]
  exact List.rdropWhile_idempotent p _

theorem trimBy_trimBy {q : Char → Bool} (hpq : ∀ c, p c = true → q c = true) :
    trimBy q (trimBy p s) = trimBy q s := by
  have hleft : ∀ t : Text, (t.dropWhile p).dropWhile q = t.dropWhile q := by
    intro t
    induction t with
    | nil => rfl
    | cons c t ih =>
      cases hc : p c with
      | true => rw [List.dropWhile_cons_of_pos hc, List.dropWhile_cons_of_pos (hpq c hc), ih]
      | false => rw [List.dropWhile_cons_of_neg (by simp [hc])]
  have hright : ∀ t : Text, trimBy q (t.rdropWhile p) = trimBy q t := by
    intro t
    induction t using List.reverseRecOn with
    | nil => rfl
    | append_singleton t c ih =>
      cases hc : p c with
      | true => rw [List.rdropWhile_concat_pos _ _ _ hc, ih, trimBy_append_of_meets (hpq c hc)]
      | false => rw [List.rdropWhile_concat_neg _ _ _ (by simp [hc])]
  calc trimBy q (trimBy p s) = trimBy q (s.dropWhile p) := hright _
    _ = trimBy q s := by rw [trimBy, hleft, ← trimBy]

theorem prefix_trimBy {pre : Text} (hne : pre ≠ []) (hpre : ∀ c ∈ pre, p c = false)
    (h : pre <+: s) : pre <+: trimBy p s := by
  obtain ⟨rest, rfl⟩ := h
  have hdrop : (pre ++ rest).dropWhile p = pre ++ rest := by
    cases pre with
    | nil => exact absurd rfl hne
    | cons c cs => simp [hpre c List.mem_cons_self]
  rw [trimBy, hdrop]
  induction rest using List.reverseRecOn with
  | nil =>
    have hself : pre.rdropWhile p = pre := by
      rw [List.rdropWhile_eq_self_iff]
      intro hne'
      simp [hpre _ (List.getLast_mem hne')]
    have hsame : pre <+: pre.rdropWhile p := (congrArg (pre <+: ·) hself).mpr List.prefix_rfl
    simpa using hsame
  | append_singleton rest c ih =>
    rw [← List.append_assoc, List.rdropWhile_concat]
    by_cases hc : p c = true
    · rw [if_pos hc]
      refine ih ?_
      cases pre with
      | nil => exact absurd rfl hne
      | cons d ds => simp [hpre d List.mem_cons_self]
    · rw [if_neg hc, List.append_assoc]
      exact List.prefix_append pre _

end FluxTerm.Lib
