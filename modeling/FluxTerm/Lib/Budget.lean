import FluxTerm.Lib.MarkedJoin
import Mathlib.Data.List.Induction

/-!
# Budgets

What is left of a list when elements are dropped until the rest is within a budget, and what is
left of joined pieces when their text is cut.
-/

namespace FluxTerm.Lib

section
variable {α : Type*} (weight : α → ℕ)

def totalWeight : List α → ℕ
  | [] => 0
  | item :: items => weight item + totalWeight items

def fitting (limit : ℕ) : List α → List α
  | [] => []
  | item :: items =>
    if limit < totalWeight weight (item :: items) then fitting limit items else item :: items

variable {weight} {limit : ℕ}

theorem totalWeight_append (items more : List α) :
    totalWeight weight (items ++ more) = totalWeight weight items + totalWeight weight more := by
  induction items with
  | nil => simp [totalWeight]
  | cons item items ih =>
    rw [List.cons_append, totalWeight, totalWeight, ih]
    omega

theorem fitting_suffix (items : List α) : fitting weight limit items <:+ items := by
  induction items with
  | nil => exact List.suffix_rfl
  | cons item items ih =>
    rw [fitting]
    split
    · exact ih.trans (List.suffix_cons item items)
    · exact List.suffix_rfl

theorem totalWeight_fitting_le (items : List α) :
    totalWeight weight (fitting weight limit items) ≤ limit := by
  induction items with
  | nil => exact Nat.zero_le _
  | cons item items ih =>
    rw [fitting]
    split
    · exact ih
    · omega

theorem fitting_eq_self {items : List α} (h : totalWeight weight items ≤ limit) :
    fitting weight limit items = items := by
  cases items with
  | nil => rfl
  | cons item items => rw [fitting, if_neg (by omega)]

/-- **What comes last** takes its weight from the budget of the others. -/
theorem fitting_append {more : List α} (h : totalWeight weight more ≤ limit) (items : List α) :
    fitting weight limit (items ++ more) =
      fitting weight (limit - totalWeight weight more) items ++ more := by
  induction items with
  | nil => exact fitting_eq_self h
  | cons item items ih =>
    have hweight : totalWeight weight (item :: items ++ more) =
        totalWeight weight (item :: items) + totalWeight weight more := totalWeight_append _ _
    rw [List.cons_append] at hweight
    rw [List.cons_append, fitting, fitting]
    by_cases hover : limit < totalWeight weight (item :: (items ++ more))
    · rw [if_pos hover, if_pos (by omega), ih]
    · rw [if_neg hover, if_neg (by omega), List.cons_append]

theorem fitting_eq_nil_iff {items : List α} :
    fitting weight limit items = [] ↔ ∀ last ∈ items.getLast?, limit < weight last := by
  induction items using List.reverseRecOn with
  | nil => simp [fitting]
  | append_singleton items last _ =>
    have hlast : (items ++ [last]).getLast? = some last := List.getLast?_concat
    rw [hlast]
    constructor
    · intro hnil other hother
      obtain rfl := Option.some.inj hother
      by_contra hle
      have hone : totalWeight weight [last] ≤ limit := by
        rw [totalWeight, totalWeight]
        omega
      rw [fitting_append hone] at hnil
      simp at hnil
    · intro hover
      have hheavy := hover last rfl
      by_contra hne
      -- what is left ends with the last element
      obtain ⟨front, hfront⟩ : fitting weight limit (items ++ [last]) <:+ items ++ [last] :=
        fitting_suffix _
      obtain ⟨rest, final, hrest⟩ := List.eq_nil_or_concat'
        (fitting weight limit (items ++ [last])) |>.resolve_left hne
      have hle : totalWeight weight (fitting weight limit (items ++ [last])) ≤ limit :=
        totalWeight_fitting_le _
      rw [hrest, ← List.append_assoc] at hfront
      have hfinal := List.append_inj_right' hfront rfl
      rw [hrest, hfinal, totalWeight_append, totalWeight, totalWeight] at hle
      omega
end

/-! ## Joined pieces that are cut -/

section
variable {α : Type*} {sep : α}

/-- The pieces that end within the first `limit` elements, with a separator between two of them. -/
def wholeWithin : ℕ → List (List α) → List (List α)
  | _, [] => []
  | limit, piece :: pieces =>
    if piece.length < limit then piece :: wholeWithin (limit - piece.length - 1) pieces
    else if piece.length = limit then [piece] else []

theorem intercalate_cons_of_ne_nil {pieces : List (List α)} (h : pieces ≠ []) (piece : List α) :
    [sep].intercalate (piece :: pieces) = piece ++ sep :: [sep].intercalate pieces := by
  obtain ⟨next, more, rfl⟩ := List.exists_cons_of_ne_nil h
  rw [intercalate_cons]
  rfl

theorem length_intercalate_cons {pieces : List (List α)} (h : pieces ≠ []) (piece : List α) :
    ([sep].intercalate (piece :: pieces)).length =
      piece.length + (([sep].intercalate pieces).length + 1) := by
  rw [intercalate_cons_of_ne_nil h, List.length_append, List.length_cons]

theorem intercalate_append (before : List (List α)) (piece : List α) (after : List (List α)) :
    [sep].intercalate (before ++ piece :: after) =
      [sep].intercalate (before ++ [piece]) ++ joinedRest sep after := by
  induction before with
  | nil => simp [intercalate_cons, joinedRest]
  | cons first before ih =>
    rw [List.cons_append, List.cons_append, intercalate_cons_of_ne_nil (by simp),
      intercalate_cons_of_ne_nil (by simp), ih, List.append_assoc, List.cons_append]

theorem intercalate_concat (before : List (List α)) (piece : List α) :
    [sep].intercalate (before ++ [piece]) = before.flatMap (· ++ [sep]) ++ piece := by
  induction before with
  | nil => simp
  | cons first before ih =>
    rw [List.cons_append, intercalate_cons_of_ne_nil (by simp), ih, List.flatMap_cons]
    simp

theorem suffix_intercalate_concat (before : List (List α)) (piece : List α) :
    piece <:+ [sep].intercalate (before ++ [piece]) := by
  rw [intercalate_concat]
  exact List.suffix_append _ piece

/-- **The pieces before the cut.** -/
theorem mem_wholeWithin_iff (sep : α) {limit : ℕ} {pieces : List (List α)} {piece : List α} :
    piece ∈ wholeWithin limit pieces ↔ ∃ before after, pieces = before ++ piece :: after ∧
      ([sep].intercalate (before ++ [piece])).length ≤ limit := by
  induction pieces generalizing limit with
  | nil => simp [wholeWithin]
  | cons first pieces ih =>
    have hfirst : ([sep].intercalate [first]).length = first.length := by simp [List.intercalate]
    rw [wholeWithin]
    constructor
    · intro h
      split at h
      · rename_i hlt
        rcases List.mem_cons.mp h with rfl | h
        · exact ⟨[], pieces, rfl, by rw [List.nil_append, hfirst]; omega⟩
        · obtain ⟨before, after, rfl, hlen⟩ := ih.mp h
          refine ⟨first :: before, after, rfl, ?_⟩
          rw [List.cons_append, length_intercalate_cons (by simp)]
          omega
      · split at h
        · obtain rfl := List.mem_singleton.mp h
          exact ⟨[], pieces, rfl, by rw [List.nil_append, hfirst]; omega⟩
        · cases h
    · rintro ⟨before, after, heq, hlen⟩
      cases before with
      | nil =>
        obtain ⟨rfl, rfl⟩ := List.cons.inj heq
        rw [List.nil_append, hfirst] at hlen
        split
        · exact List.mem_cons_self
        · rw [if_pos (by omega)]
          exact List.mem_singleton_self _
      | cons next before =>
        obtain ⟨rfl, rfl⟩ := List.cons.inj heq
        -- the first piece is whole, and a separator follows
        rw [List.cons_append, length_intercalate_cons (by simp)] at hlen
        rw [if_pos (by omega)]
        exact List.mem_cons_of_mem _ (ih.mpr ⟨before, after, rfl, by omega⟩)

theorem infix_take_of_mem (sep : α) {limit : ℕ} {pieces : List (List α)} {piece : List α}
    (h : piece ∈ wholeWithin limit pieces) :
    piece <:+: ([sep].intercalate pieces).take limit := by
  obtain ⟨before, after, rfl, hlen⟩ := (mem_wholeWithin_iff sep).mp h
  rw [intercalate_append, List.take_append, List.take_of_length_le hlen]
  exact (suffix_intercalate_concat before piece).isInfix.trans (List.prefix_append _ _).isInfix
end

end FluxTerm.Lib
