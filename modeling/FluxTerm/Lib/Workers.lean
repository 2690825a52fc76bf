import Mathlib.Algebra.Ring.Nat
import Mathlib.Data.List.Perm.Basic

/-!
# Workers in a list

One worker of a list takes a step, and the others stay where they are.
-/

namespace FluxTerm.Lib

variable {α : Type*} {l : List α} {p : α → Bool} {k : ℕ} {a b c : α}

theorem countP_set_add (h : l[k]? = some a) (p : α → Bool) (b : α) :
    (l.set k b).countP p + (if p a then 1 else 0) = l.countP p + (if p b then 1 else 0) := by
  obtain ⟨hlt, rfl⟩ := List.getElem?_eq_some_iff.mp h
  rw [List.countP_set hlt]
  by_cases hp : p l[k] = true
  · have hpos : 0 < l.countP p := List.countP_pos_iff.mpr ⟨_, List.getElem_mem hlt, hp⟩
    rw [if_pos hp]
    omega
  · rw [if_neg hp]
    omega

theorem countP_set_of_eq (h : l[k]? = some a) (hp : p a = p b) :
    (l.set k b).countP p = l.countP p := by
  have hadd := countP_set_add h p b
  rw [hp] at hadd
  omega

theorem countP_set_succ (h : l[k]? = some a) (ha : p a = true) (hb : p b = false) :
    (l.set k b).countP p + 1 = l.countP p := by
  have hadd := countP_set_add h p b
  rw [if_pos ha, hb] at hadd
  exact hadd

theorem exists_split (h : l[k]? = some a) :
    ∃ before after, l = before ++ a :: after ∧ ∀ b, l.set k b = before ++ b :: after := by
  obtain ⟨hlt, rfl⟩ := List.getElem?_eq_some_iff.mp h
  refine ⟨l.take k, l.drop (k + 1), ?_, fun b => ?_⟩
  · rw [← List.drop_eq_getElem_cons hlt, List.take_append_drop]
  · rw [List.set_eq_take_append_cons_drop, if_pos hlt]

theorem sum_map_set_add (h : l[k]? = some a) (f : α → ℕ) (b : α) :
    ((l.set k b).map f).sum + f a = (l.map f).sum + f b := by
  obtain ⟨before, after, hl, hset⟩ := exists_split h
  rw [hset, hl]
  simp only [List.map_append, List.map_cons, List.sum_append_nat, List.sum_cons]
  omega

theorem mem_set_of_mem (h : l[k]? = some a) (hc : c ∈ l) : c = a ∨ c ∈ l.set k b := by
  obtain ⟨place, hplace⟩ := List.getElem?_of_mem hc
  by_cases heq : k = place
  · rw [← heq, h, Option.some.injEq] at hplace
    exact .inl hplace.symm
  · refine .inr (List.mem_of_getElem? (i := place) ?_)
    rw [List.getElem?_set_ne heq, hplace]

theorem getElem?_concat (k : ℕ) : (l ++ [a])[k]? = if k = l.length then some a else l[k]? := by
  split
  · rename_i heq
    rw [heq, List.getElem?_concat_length]
  · rename_i hne
    rcases Nat.lt_or_ge k l.length with hlt | hge
    · exact List.getElem?_append_left hlt
    · rw [List.getElem?_eq_none hge, List.getElem?_eq_none]
      rw [List.length_append, List.length_singleton]
      omega

theorem mem_eraseIdx_of_mem (h : l[k]? = some a) (hc : c ∈ l) : c = a ∨ c ∈ l.eraseIdx k := by
  obtain ⟨place, hplace⟩ := List.getElem?_of_mem hc
  by_cases heq : k = place
  · rw [← heq, h, Option.some.injEq] at hplace
    exact .inl hplace.symm
  · exact .inr (List.mem_eraseIdx_iff_getElem?.mpr ⟨place, fun hne => heq hne.symm, hplace⟩)

theorem mem_set_of_alone (halone : l.countP p ≤ 1) (h : l[k]? = some a) (ha : p a = true) :
    ∀ c ∈ l.set k b, c = b ∨ p c = false := by
  intro c hc
  obtain ⟨place, hplace⟩ := List.getElem?_of_mem hc
  by_cases heq : k = place
  · rw [← heq, List.getElem?_set_self (List.getElem?_eq_some_iff.mp h).1,
      Option.some.injEq] at hplace
    exact .inl hplace.symm
  · right
    rw [List.getElem?_set_ne heq] at hplace
    -- with the worker at `k` out of the way, none with the property is left
    obtain ⟨hlt, rfl⟩ := List.getElem?_eq_some_iff.mp h
    have hcount := (List.getElem_cons_eraseIdx_perm hlt).countP_eq p
    rw [List.countP_cons, if_pos ha] at hcount
    have hzero : (l.eraseIdx k).countP p = 0 := by omega
    have hmem : c ∈ l.eraseIdx k :=
      List.mem_eraseIdx_iff_getElem?.mpr ⟨place, Ne.symm heq, hplace⟩
    exact Bool.eq_false_iff.mpr (List.countP_eq_zero.mp hzero c hmem)

end FluxTerm.Lib
