import FluxTerm.Lib.Text

/-!
# Blocks

A sequence cut into blocks, each of which ends at a symbol that comes twice, while it arrives in
pieces: what is complete is taken off a buffer, and the rest stays there.
-/

namespace FluxTerm.Lib

section
variable {α : Type*} [DecidableEq α] (x : α)

/-- The blocks that are complete, without the two symbols at the end of each, and the rest. -/
def blocks : List α → List (List α) × List α
  | [] => ([], [])
  | [a] => ([], [a])
  | a :: b :: s =>
    if a = x ∧ b = x then ([] :: (blocks s).1, (blocks s).2)
    else
      match blocks (b :: s) with
      | ([], rest) => ([], a :: rest)
      | (block :: more, rest) => ((a :: block) :: more, rest)

variable {x}

theorem blocks_of_end (s : List α) : blocks x (x :: x :: s) =
    ([] :: (blocks x s).1, (blocks x s).2) := by
  rw [blocks, if_pos ⟨rfl, rfl⟩]

theorem blocks_of_not_end {a b : α} (h : ¬(a = x ∧ b = x)) (s : List α) :
    blocks x (a :: b :: s) =
      match blocks x (b :: s) with
      | ([], rest) => ([], a :: rest)
      | (block :: more, rest) => ((a :: block) :: more, rest) := by
  rw [blocks, if_neg h]

theorem rest_eq_of_none {s : List α} (h : (blocks x s).1 = []) : (blocks x s).2 = s := by
  fun_induction blocks x s with
  | case1 => rfl
  | case2 a => rfl
  | case3 a b s hend ih => cases h
  | case4 a b s hend rest hblocks ih =>
    rw [hblocks] at ih
    exact congrArg (a :: ·) (ih rfl)
  | case5 a b s hend block more rest hblocks ih => cases h

theorem blocks_rest (s : List α) : (blocks x (blocks x s).2).1 = [] := by
  fun_induction blocks x s with
  | case1 => rfl
  | case2 a => rfl
  | case3 a b s hend ih => exact ih
  | case4 a b s hend rest hblocks ih =>
    have hrest : rest = b :: s := by
      have h := rest_eq_of_none (s := b :: s) (x := x) (by rw [hblocks])
      rwa [hblocks] at h
    dsimp only
    rw [hrest, blocks_of_not_end hend, hblocks]
  | case5 a b s hend block more rest hblocks ih =>
    rw [hblocks] at ih
    exact ih

/-- **More of the sequence.** It goes on from what was left. -/
theorem blocks_append (s t : List α) : blocks x (s ++ t) =
    ((blocks x s).1 ++ (blocks x ((blocks x s).2 ++ t)).1, (blocks x ((blocks x s).2 ++ t)).2) := by
  fun_induction blocks x s with
  | case1 => rfl
  | case2 a => rfl
  | case3 a b s hend ih =>
    obtain ⟨rfl, rfl⟩ := hend
    rw [List.cons_append, List.cons_append, blocks_of_end, ih]
    rfl
  | case4 a b s hend rest hblocks ih =>
    have hrest : rest = b :: s := by
      have h := rest_eq_of_none (s := b :: s) (x := x) (by rw [hblocks])
      rwa [hblocks] at h
    rw [hrest]
    rfl
  | case5 a b s hend block more rest hblocks ih =>
    rw [hblocks] at ih
    rw [List.cons_append, List.cons_append, blocks_of_not_end hend, ← List.cons_append, ih]
    rfl
end

/-! ## Line ends -/

/-- Every `\r\n` becomes `\n`. -/
def replaceCrLf : Text → Text
  | [] => []
  | [c] => [c]
  | c :: d :: s =>
    if c = '\r' ∧ d = '\n' then '\n' :: replaceCrLf s else c :: replaceCrLf (d :: s)

end FluxTerm.Lib
