import Mathlib.Data.List.Forall2

/-!
# Records with a key

A list of records in which one is put in the place of the first with its key, or at the end.
-/

namespace FluxTerm.Lib

variable {α β κ : Type*} [DecidableEq κ] {key : α → κ} {a : α} {as : List α}

/-- `a` in the place of the first element with its key, or at the end. -/
def putFirst (key : α → κ) (a : α) : List α → List α
  | [] => [a]
  | b :: bs => if key b = key a then a :: bs else b :: putFirst key a bs

theorem find?_putFirst : (putFirst key a as).find? (key · = key a) = some a := by
  induction as with
  | nil => exact List.find?_cons_of_pos (decide_eq_true rfl)
  | cons b bs ih =>
    rw [putFirst]
    split
    · exact List.find?_cons_of_pos (decide_eq_true rfl)
    · rename_i hne
      rw [List.find?_cons_of_neg (by simpa using hne)]
      exact ih

theorem find?_putFirst_of_ne {k : κ} (hk : key a ≠ k) :
    (putFirst key a as).find? (key · = k) = as.find? (key · = k) := by
  induction as with
  | nil => exact List.find?_cons_of_neg (by simpa using hk)
  | cons b bs ih =>
    rw [putFirst]
    split
    · rename_i heq
      -- neither the old element nor the new one has the key that is looked for
      have hb : key b ≠ k := heq ▸ hk
      rw [List.find?_cons_of_neg (by simpa using hk), List.find?_cons_of_neg (by simpa using hb)]
    · by_cases hb : key b = k
      · rw [List.find?_cons_of_pos (by simpa using hb), List.find?_cons_of_pos (by simpa using hb)]
      · rw [List.find?_cons_of_neg (by simpa using hb), List.find?_cons_of_neg (by simpa using hb)]
        exact ih

theorem eraseP_putFirst :
    (putFirst key a as).eraseP (key · = key a) = as.eraseP (key · = key a) := by
  induction as with
  | nil => exact List.eraseP_cons_of_pos (decide_eq_true rfl)
  | cons b bs ih =>
    rw [putFirst]
    split
    · rename_i heq
      rw [List.eraseP_cons_of_pos (by simp), List.eraseP_cons_of_pos (by simpa using heq)]
    · rename_i hne
      rw [List.eraseP_cons_of_neg (by simpa using hne), List.eraseP_cons_of_neg (by simpa using hne),
        ih]

theorem mem_putFirst {b : α} (h : b ∈ putFirst key a as) :
    b = a ∨ b ∈ as.eraseP (key · = key a) := by
  induction as with
  | nil => exact .inl (List.mem_singleton.mp h)
  | cons c cs ih =>
    rw [putFirst] at h
    split at h
    · rename_i heq
      rw [List.eraseP_cons_of_pos (by simpa using heq)]
      exact List.mem_cons.mp h
    · rename_i hne
      rw [List.eraseP_cons_of_neg (by simpa using hne)]
      rcases List.mem_cons.mp h with rfl | h
      · exact .inr List.mem_cons_self
      · exact (ih h).imp_right (List.mem_cons_of_mem _)

theorem find?_related {R : α → β → Prop} {p : α → Bool} {q : β → Bool} {bs : List β}
    (hpq : ∀ a b, R a b → p a = q b) (h : List.Forall₂ R as bs) :
    Option.Rel R (as.find? p) (bs.find? q) := by
  induction h with
  | nil => exact .none
  | @cons a b as bs hab _ ih =>
    cases hp : p a with
    | true =>
      rw [List.find?_cons_of_pos hp, List.find?_cons_of_pos (hpq a b hab ▸ hp)]
      exact .some hab
    | false =>
      have hq : q b = false := hpq a b hab ▸ hp
      rw [List.find?_cons_of_neg (by simp [hp]), List.find?_cons_of_neg (by simp [hq])]
      exact ih

end FluxTerm.Lib
