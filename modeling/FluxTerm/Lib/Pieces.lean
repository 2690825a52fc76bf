import Mathlib.Data.List.Basic

/-!
# Pieces of a sequence

A sequence that comes in pieces and is taken from the front by number of elements: what is left,
and where it was cut.
-/

namespace FluxTerm.Lib

variable {α : Type*} {R : α → α → Prop}

/-- The pieces left when the first `n` elements have been taken away. -/
def leftOf : List (List α) → ℕ → List (List α)
  | [], _ => []
  | piece :: pieces, n =>
    if piece.length ≤ n then leftOf pieces (n - piece.length) else piece.drop n :: pieces

/-- The position `n` lies inside a piece, between two elements that `R` relates. -/
def CutsBetween (R : α → α → Prop) (pieces : List (List α)) (n : ℕ) : Prop :=
  ∃ before front x y back after, pieces = before ++ (front ++ x :: y :: back) :: after ∧
    before.flatten.length + front.length + 1 = n ∧ R x y

/-! ## What is left -/

@[simp] theorem leftOf_nil (n : ℕ) : leftOf ([] : List (List α)) n = [] := rfl

theorem leftOf_cons_of_le {piece : List α} {n : ℕ} (h : piece.length ≤ n) (pieces : List (List α)) :
    leftOf (piece :: pieces) n = leftOf pieces (n - piece.length) := if_pos h

theorem leftOf_cons_of_lt {piece : List α} {n : ℕ} (h : n < piece.length) (pieces : List (List α)) :
    leftOf (piece :: pieces) n = piece.drop n :: pieces := if_neg (by omega)

theorem flatten_leftOf (pieces : List (List α)) (n : ℕ) :
    (leftOf pieces n).flatten = pieces.flatten.drop n := by
  induction pieces generalizing n with
  | nil => simp
  | cons piece pieces ih =>
    rcases Nat.lt_or_ge n piece.length with hlt | hle
    · rw [leftOf_cons_of_lt hlt, List.flatten_cons, List.flatten_cons,
        List.drop_append_of_le_length (Nat.le_of_lt hlt)]
    · rw [leftOf_cons_of_le hle, ih, List.flatten_cons, List.drop_append,
        List.drop_eq_nil_of_le hle, List.nil_append]

theorem leftOf_leftOf (pieces : List (List α)) (n m : ℕ) :
    leftOf (leftOf pieces n) m = leftOf pieces (n + m) := by
  induction pieces generalizing n m with
  | nil => simp
  | cons piece pieces ih =>
    rcases Nat.lt_or_ge n piece.length with hlt | hle
    · rw [leftOf_cons_of_lt hlt]
      rcases Nat.lt_or_ge (n + m) piece.length with hlt' | hle'
      · rw [leftOf_cons_of_lt hlt', leftOf_cons_of_lt (by rw [List.length_drop]; omega),
          List.drop_drop]
      · rw [leftOf_cons_of_le hle', leftOf_cons_of_le (by rw [List.length_drop]; omega),
          List.length_drop]
        congr 1
        omega
    · rw [leftOf_cons_of_le hle, leftOf_cons_of_le (by omega), ih]
      congr 1
      omega

theorem leftOf_zero {pieces : List (List α)} (h : [] ∉ pieces) : leftOf pieces 0 = pieces := by
  cases pieces with
  | nil => rfl
  | cons piece pieces =>
    have hpos : 0 < piece.length :=
      List.length_pos_iff.mpr fun hnil => h (hnil ▸ List.mem_cons_self)
    rw [leftOf_cons_of_lt hpos, List.drop_zero]

theorem leftOf_append {pieces : List (List α)} {n : ℕ} (h : n ≤ pieces.flatten.length)
    {piece : List α} (hpiece : piece ≠ []) :
    leftOf (pieces ++ [piece]) n = leftOf pieces n ++ [piece] := by
  induction pieces generalizing n with
  | nil =>
    have hn : n = 0 := by simpa using h
    rw [hn, List.nil_append, leftOf_zero (by simpa using hpiece.symm), leftOf_nil, List.nil_append]
  | cons first pieces ih =>
    rw [List.flatten_cons, List.length_append] at h
    rw [List.cons_append]
    rcases Nat.lt_or_ge n first.length with hlt | hle
    · rw [leftOf_cons_of_lt hlt, leftOf_cons_of_lt hlt, List.cons_append]
    · rw [leftOf_cons_of_le hle, leftOf_cons_of_le hle, ih (by omega)]

theorem nil_notMem_leftOf {pieces : List (List α)} (h : [] ∉ pieces) (n : ℕ) :
    [] ∉ leftOf pieces n := by
  induction pieces generalizing n with
  | nil => simp
  | cons piece pieces ih =>
    rw [List.mem_cons, not_or] at h
    rcases Nat.lt_or_ge n piece.length with hlt | hle
    · rw [leftOf_cons_of_lt hlt, List.mem_cons, not_or]
      refine ⟨fun hnil => ?_, h.2⟩
      have hlen : (piece.drop n).length = 0 := by rw [← hnil, List.length_nil]
      rw [List.length_drop] at hlen
      omega
    · rw [leftOf_cons_of_le hle]
      exact ih h.2 _

/-! ## Where it was cut -/

theorem cutsBetween_cons {piece : List α} {pieces : List (List α)} {n : ℕ} :
    CutsBetween R (piece :: pieces) n ↔
      (∃ front x y back, piece = front ++ x :: y :: back ∧ front.length + 1 = n ∧ R x y) ∨
        piece.length ≤ n ∧ CutsBetween R pieces (n - piece.length) := by
  constructor
  · rintro ⟨before, front, x, y, back, after, heq, hn, hR⟩
    cases before with
    | nil =>
      injection heq with hpiece _
      exact .inl ⟨front, x, y, back, hpiece, by simpa using hn, hR⟩
    | cons first before =>
      injection heq with hpiece hpieces
      rw [List.flatten_cons, List.length_append, ← hpiece] at hn
      exact .inr ⟨by omega, before, front, x, y, back, after, hpieces, by omega, hR⟩
  · rintro (⟨front, x, y, back, hpiece, hn, hR⟩ |
      ⟨hle, before, front, x, y, back, after, heq, hn, hR⟩)
    · exact ⟨[], front, x, y, back, pieces, by rw [hpiece, List.nil_append], by simpa using hn, hR⟩
    · refine ⟨piece :: before, front, x, y, back, after, by rw [heq, List.cons_append], ?_, hR⟩
      rw [List.flatten_cons, List.length_append]
      omega

theorem not_cutsBetween_nil (n : ℕ) : ¬ CutsBetween R [] n := by
  rintro ⟨before, front, x, y, back, after, heq, -, -⟩
  cases before <;> cases heq

theorem not_cutsBetween_zero (pieces : List (List α)) : ¬ CutsBetween R pieces 0 := by
  rintro ⟨before, front, x, y, back, after, -, hn, -⟩
  omega

theorem CutsBetween.of_add {pieces : List (List α)} {n m : ℕ} (hm : 0 < m)
    (h : CutsBetween R pieces (n + m)) : CutsBetween R (leftOf pieces n) m := by
  induction pieces generalizing n with
  | nil => exact absurd h (not_cutsBetween_nil _)
  | cons piece pieces ih =>
    rw [cutsBetween_cons] at h
    rcases Nat.lt_or_ge n piece.length with hlt | hle
    · rw [leftOf_cons_of_lt hlt, cutsBetween_cons, List.length_drop]
      rcases h with ⟨front, x, y, back, rfl, hn, hR⟩ | ⟨hle, hcut⟩
      · refine .inl ⟨front.drop n, x, y, back, List.drop_append_of_le_length (by omega), ?_, hR⟩
        rw [List.length_drop]
        omega
      · refine .inr ⟨by omega, ?_⟩
        rwa [show m - (piece.length - n) = n + m - piece.length by omega]
    · rw [leftOf_cons_of_le hle]
      rcases h with ⟨front, x, y, back, rfl, hn, hR⟩ | ⟨-, hcut⟩
      · rw [List.length_append, List.length_cons, List.length_cons] at hle
        omega
      · refine ih ?_
        rwa [show n - piece.length + m = n + m - piece.length by omega]

theorem CutsBetween.of_append {pieces : List (List α)} {piece : List α} {n : ℕ}
    (h : CutsBetween R (pieces ++ [piece]) n) (hn : n ≤ pieces.flatten.length) :
    CutsBetween R pieces n := by
  induction pieces generalizing n with
  | nil =>
    obtain rfl : n = 0 := by simpa using hn
    exact absurd h (not_cutsBetween_zero _)
  | cons first pieces ih =>
    rw [List.flatten_cons, List.length_append] at hn
    rw [List.cons_append, cutsBetween_cons] at h
    rw [cutsBetween_cons]
    exact h.imp_right fun ⟨hle, hcut⟩ => ⟨hle, ih hcut (by omega)⟩

theorem CutsBetween.filter {pieces : List (List α)} {n : ℕ} (h : CutsBetween R pieces n) :
    CutsBetween R (pieces.filter (!·.isEmpty)) n := by
  induction pieces generalizing n with
  | nil => exact h
  | cons piece pieces ih =>
    cases piece with
    | nil =>
      rcases cutsBetween_cons.mp h with ⟨front, x, y, back, heq, -, -⟩ | ⟨-, hcut⟩
      · cases front <;> cases heq
      · exact ih hcut
    | cons a piece =>
      rw [List.filter_cons_of_pos rfl, cutsBetween_cons]
      exact (cutsBetween_cons.mp h).imp_right fun ⟨hle, hcut⟩ => ⟨hle, ih hcut⟩

end FluxTerm.Lib
