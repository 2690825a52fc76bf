import Mathlib.Tactic.Common

/-!
# Registers of holders

A register says who holds a key; each holder knows which key it holds, if any. The two agree when
each is the inverse of the other.
-/

namespace FluxTerm.Lib

variable {ι κ : Type*} {held : ι → Option κ} {book : κ → Option ι} {i j : ι} {k : κ}

/-- The register `book` names exactly the holders. -/
def Registered (held : ι → Option κ) (book : κ → Option ι) : Prop :=
  ∀ i k, held i = some k ↔ book k = some i

theorem Registered.unique (h : Registered held book) (hi : held i = some k) (hj : held j = some k) :
    i = j := by
  have hbook := (h i k).mp hi
  rw [(h j k).mp hj, Option.some.injEq] at hbook
  exact hbook.symm

variable [DecidableEq ι] [DecidableEq κ]

theorem Registered.enter (h : Registered held book) (hi : held i = none) (hk : book k = none) :
    Registered (Function.update held i (some k)) (Function.update book k (some i)) := by
  intro j l
  by_cases hj : j = i
  · subst hj
    rw [Function.update_self, Option.some.injEq]
    by_cases hl : l = k
    · subst hl
      simp
    · rw [Function.update_of_ne hl, ← h j l, hi]
      simp [Ne.symm hl]
  · rw [Function.update_of_ne hj, h j l]
    by_cases hl : l = k
    · subst hl
      rw [Function.update_self, hk]
      simp [Ne.symm hj]
    · rw [Function.update_of_ne hl]

theorem Registered.leave (h : Registered held book) (hi : held i = some k) :
    Registered (Function.update held i none) (Function.update book k none) := by
  have hk : book k = some i := (h i k).mp hi
  intro j l
  by_cases hj : j = i
  · subst hj
    rw [Function.update_self]
    by_cases hl : l = k
    · subst hl
      simp
    · rw [Function.update_of_ne hl, ← h j l, hi]
      simp [Ne.symm hl]
  · rw [Function.update_of_ne hj, h j l]
    by_cases hl : l = k
    · subst hl
      rw [Function.update_self, hk]
      simp [Ne.symm hj]
    · rw [Function.update_of_ne hl]

end FluxTerm.Lib
