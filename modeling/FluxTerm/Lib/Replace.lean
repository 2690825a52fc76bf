import Mathlib.Data.List.Basic

/-!
# Matches left out

`replace` of every match of a pattern by nothing: the sequence is gone through from the left, and
what is behind a match is looked at anew.
-/

namespace FluxTerm.Lib

section
variable {α : Type*} {found : List α → Option ℕ}

/-- The sequence without its matches: `found` is the length of the match at the front, which is not
empty, and `skip` symbols of the last match are still to go. -/
def dropMatches (found : List α → Option ℕ) : ℕ → List α → List α
  | _, [] => []
  | skip + 1, _ :: s => dropMatches found skip s
  | 0, a :: s =>
    match found (a :: s) with
    | some length => dropMatches found (length - 1) s
    | none => a :: dropMatches found 0 s

def withoutMatches (found : List α → Option ℕ) (s : List α) : List α := dropMatches found 0 s

@[simp] theorem withoutMatches_nil : withoutMatches found [] = [] := rfl

theorem dropMatches_length (s t : List α) :
    dropMatches found s.length (s ++ t) = withoutMatches found t := by
  induction s with
  | nil => rfl
  | cons a s ih => exact ih

theorem withoutMatches_match {a : α} {s t : List α}
    (h : found (a :: s ++ t) = some (a :: s).length) :
    withoutMatches found (a :: s ++ t) = withoutMatches found t := by
  rw [List.cons_append] at h ⊢
  rw [withoutMatches, dropMatches, h]
  exact dropMatches_length s t

theorem withoutMatches_cons {a : α} {s : List α} (h : found (a :: s) = none) :
    withoutMatches found (a :: s) = a :: withoutMatches found s := by
  rw [withoutMatches, dropMatches, h]
  rfl

theorem withoutMatches_kept {s : List α} (t : List α)
    (h : ∀ a ∈ s, ∀ rest, found (a :: rest) = none) :
    withoutMatches found (s ++ t) = s ++ withoutMatches found t := by
  induction s with
  | nil => rfl
  | cons a s ih =>
    rw [List.cons_append, withoutMatches_cons (h a List.mem_cons_self _),
      ih fun b hb => h b (List.mem_cons_of_mem a hb)]
    rfl

theorem withoutMatches_cons_kept {a : α} {s t : List α} (h : found (a :: s ++ t) = none)
    (hs : ∀ b ∈ s, ∀ rest, found (b :: rest) = none) :
    withoutMatches found (a :: s ++ t) = a :: s ++ withoutMatches found t := by
  rw [List.cons_append] at h ⊢
  rw [withoutMatches_cons h, withoutMatches_kept t hs]
  rfl

theorem withoutMatches_flatMap {β : Type*} {piece kept : β → List α}
    (h : ∀ b t, withoutMatches found (piece b ++ t) = kept b ++ withoutMatches found t)
    (l : List β) : withoutMatches found (l.flatMap piece) = l.flatMap kept := by
  induction l with
  | nil => rfl
  | cons b l ih => rw [List.flatMap_cons, h, ih, List.flatMap_cons]
end

/-! ## Runs -/

section
variable {α : Type*} (first second last : α → Bool)

def runsLength (s : List α) : Option ℕ :=
  match (s.dropWhile first).dropWhile second with
  | end_ :: _ =>
    if last end_ then
      some ((s.takeWhile first).length + ((s.dropWhile first).takeWhile second).length + 1)
    else none
  | [] => none

variable {first second last}

theorem takeWhile_dropWhile_append {p : α → Bool} {s t : List α} (hs : ∀ a ∈ s, p a = true)
    (ht : ∀ a ∈ t.head?, p a = false) :
    (s ++ t).takeWhile p = s ∧ (s ++ t).dropWhile p = t := by
  rw [List.takeWhile_append_of_pos hs, List.dropWhile_append_of_pos hs]
  cases t with
  | nil => exact ⟨List.append_nil s, rfl⟩
  | cons a t =>
    have ha : ¬p a = true := by rw [ht a rfl]; exact Bool.false_ne_true
    rw [List.takeWhile_cons_of_neg ha, List.dropWhile_cons_of_neg ha, List.append_nil]
    exact ⟨rfl, rfl⟩

theorem runsLength_runs (hfirst : ∀ a, second a = true → first a = false)
    (hlast : ∀ a, last a = true → first a = false ∧ second a = false) {s t : List α} {a : α}
    (hs : ∀ b ∈ s, first b = true) (ht : ∀ b ∈ t, second b = true) (ha : last a = true)
    (rest : List α) :
    runsLength first second last (s ++ (t ++ a :: rest)) = some (s.length + t.length + 1) := by
  have hhead : ∀ b ∈ (t ++ a :: rest).head?, first b = false := by
    cases t with
    | nil => rintro b ⟨⟩; exact (hlast a ha).1
    | cons b t => rintro c ⟨⟩; exact hfirst b (ht b List.mem_cons_self)
  have hend : ∀ b ∈ (a :: rest).head?, second b = false := by
    rintro b ⟨⟩
    exact (hlast a ha).2
  obtain ⟨hrun, hafter⟩ := takeWhile_dropWhile_append hs hhead
  obtain ⟨hrun', hafter'⟩ := takeWhile_dropWhile_append ht hend
  rw [runsLength, hrun, hafter, hrun', hafter']
  exact if_pos ha
end

end FluxTerm.Lib
