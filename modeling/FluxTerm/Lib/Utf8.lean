import FluxTerm.Lib.Text

/-!
# Texts and their UTF-8 bytes

Positions in a text that are counted in bytes, as Rust's `str` counts them.
-/

namespace FluxTerm.Lib

/-- `str::len`: the number of bytes. -/
def utf8Len (s : Text) : ℕ := (s.map Char.utf8Size).sum

@[simp] theorem utf8Len_nil : utf8Len [] = 0 := rfl

@[simp] theorem utf8Len_cons (c : Char) (s : Text) : utf8Len (c :: s) = c.utf8Size + utf8Len s :=
  rfl

@[simp] theorem utf8Len_append (s t : Text) : utf8Len (s ++ t) = utf8Len s + utf8Len t := by
  rw [utf8Len, List.map_append, List.sum_append]
  rfl

def isCharBoundary : Text → ℕ → Bool
  | _, 0 => true
  | [], _ + 1 => false
  | c :: s, n + 1 => decide (c.utf8Size ≤ n + 1) && isCharBoundary s (n + 1 - c.utf8Size)

/-- `&s[..end]`, for a boundary. -/
def sliceTo : Text → ℕ → Text
  | [], _ => []
  | c :: s, n => if c.utf8Size ≤ n then c :: sliceTo s (n - c.utf8Size) else []

def floorCharBoundary (s : Text) : ℕ → ℕ
  | 0 => 0
  | n + 1 => if isCharBoundary s (n + 1) then n + 1 else floorCharBoundary s n

theorem isCharBoundary_utf8Len (s t : Text) : isCharBoundary (s ++ t) (utf8Len s) = true := by
  induction s with
  | nil => exact isCharBoundary.eq_1 _
  | cons c s ih =>
    have hpos := c.utf8Size_pos
    obtain ⟨n, hn⟩ : ∃ n, utf8Len (c :: s) = n + 1 :=
      Nat.exists_eq_succ_of_ne_zero (by rw [utf8Len_cons]; omega)
    rw [hn, List.cons_append, isCharBoundary, ← hn, utf8Len_cons, Nat.add_sub_cancel_left, ih,
      Bool.and_true, decide_eq_true_eq]
    exact Nat.le_add_right _ _

theorem sliceTo_spec {s : Text} {n : ℕ} (h : isCharBoundary s n = true) :
    sliceTo s n <+: s ∧ utf8Len (sliceTo s n) = n := by
  induction s generalizing n with
  | nil =>
    cases n with
    | zero => exact ⟨List.prefix_rfl, rfl⟩
    | succ n => cases h
  | cons c s ih =>
    cases n with
    | zero =>
      rw [sliceTo, if_neg (by have := c.utf8Size_pos; omega)]
      exact ⟨List.nil_prefix, rfl⟩
    | succ n =>
      rw [isCharBoundary, Bool.and_eq_true, decide_eq_true_eq] at h
      obtain ⟨hpre, hlen⟩ := ih h.2
      rw [sliceTo, if_pos h.1, utf8Len_cons, hlen]
      exact ⟨(List.prefix_cons_inj c).mpr hpre, Nat.add_sub_cancel' h.1⟩

theorem floorCharBoundary_isLast (s : Text) (n : ℕ) :
    isCharBoundary s (floorCharBoundary s n) = true ∧ floorCharBoundary s n ≤ n ∧
      ∀ m, floorCharBoundary s n < m → m ≤ n → isCharBoundary s m = false := by
  induction n with
  | zero =>
    refine ⟨isCharBoundary.eq_1 s, le_rfl, fun m hlt hle => ?_⟩
    exact absurd (Nat.lt_of_lt_of_le hlt hle) (Nat.lt_irrefl 0)
  | succ n ih =>
    rw [floorCharBoundary]
    split
    · rename_i hboundary
      refine ⟨hboundary, le_rfl, fun m hlt hle => ?_⟩
      exact absurd (Nat.lt_of_lt_of_le hlt hle) (Nat.lt_irrefl _)
    · rename_i hnot
      refine ⟨ih.1, Nat.le_succ_of_le ih.2.1, fun m hlt hle => ?_⟩
      rcases Nat.le_succ_iff.mp hle with hle | rfl
      · exact ih.2.2 m hlt hle
      · exact Bool.eq_false_iff.mpr hnot

/-- **Cutting at a boundary** leaves the longest beginning that fits. -/
theorem floorCharBoundary_spec (s : Text) (n : ℕ) :
    ∃ rest, s = sliceTo s (floorCharBoundary s n) ++ rest ∧
      utf8Len (sliceTo s (floorCharBoundary s n)) ≤ n ∧
      ∀ c ∈ rest.head?, n < utf8Len (sliceTo s (floorCharBoundary s n)) + c.utf8Size := by
  obtain ⟨hboundary, hle, hlast⟩ := floorCharBoundary_isLast s n
  obtain ⟨⟨rest, hrest⟩, hlen⟩ := sliceTo_spec hboundary
  refine ⟨rest, hrest.symm, hlen.trans_le hle, fun c hc => ?_⟩
  -- the position after one more character is a boundary too
  by_contra hfits
  obtain ⟨after, rfl⟩ := List.head?_eq_some_iff.mp hc
  have hnext := isCharBoundary_utf8Len (sliceTo s (floorCharBoundary s n) ++ [c]) after
  rw [List.append_assoc, List.singleton_append, hrest, utf8Len_append, utf8Len_cons, utf8Len_nil,
    Nat.add_zero] at hnext
  rw [hlast _ (by have := c.utf8Size_pos; omega) (Nat.le_of_not_lt hfits)] at hnext
  cases hnext

theorem sliceTo_append {s rest : Text} {n : ℕ} (hlen : utf8Len s ≤ n)
    (hnext : ∀ c ∈ rest.head?, n < utf8Len s + c.utf8Size) : sliceTo (s ++ rest) n = s := by
  induction s generalizing n with
  | nil =>
    cases rest with
    | nil => rfl
    | cons c rest =>
      have hc := hnext c rfl
      rw [utf8Len_nil, Nat.zero_add] at hc
      rw [List.nil_append, sliceTo, if_neg (Nat.not_le.mpr hc)]
  | cons c s ih =>
    rw [utf8Len_cons] at hlen
    rw [List.cons_append, sliceTo, if_pos (by omega)]
    refine congrArg (c :: ·) (ih (by omega) fun d hd => ?_)
    have hd := hnext d hd
    rw [utf8Len_cons] at hd
    omega

theorem sliceTo_floorCharBoundary (s : Text) (n : ℕ) :
    sliceTo s (floorCharBoundary s n) = sliceTo s n := by
  obtain ⟨rest, hsplit, hlen, hnext⟩ := floorCharBoundary_spec s n
  generalize sliceTo s (floorCharBoundary s n) = kept at *
  rw [hsplit, sliceTo_append hlen hnext]

theorem sliceTo_eq_self {s : Text} {n : ℕ} (h : utf8Len s ≤ n) : sliceTo s n = s := by
  have hcut : sliceTo (s ++ []) n = s := sliceTo_append h fun c hc => nomatch hc
  rwa [List.append_nil] at hcut

end FluxTerm.Lib
