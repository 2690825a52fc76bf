import Mathlib.Data.List.Sort
import Mathlib.Data.List.TakeWhile

/-!
# The newest items

A list of items with times, sorted from the latest to the earliest and cut to a limit. Items of
the same time keep their order.
-/

namespace FluxTerm.Lib

variable {α β τ : Type*} [LinearOrder τ] {time : α → τ} {limit : ℕ} {items : List α} {x : α}

/-- The items from the latest on, at most `limit`. -/
def newest (time : α → τ) (limit : ℕ) (items : List α) : List α :=
  (items.insertionSort (fun a b => time b ≤ time a)).take limit

theorem newest_subset (h : x ∈ newest time limit items) : x ∈ items :=
  (List.perm_insertionSort _ items).mem_iff.mp (List.mem_of_mem_take h)

theorem length_newest_le : (newest time limit items).length ≤ limit := List.length_take_le _ _

theorem nodup_map_newest {f : α → β} (h : (items.map f).Nodup) :
    ((newest time limit items).map f).Nodup := by
  refine List.Nodup.sublist ((List.take_sublist _ _).map f) ?_
  exact ((List.perm_insertionSort _ items).map f).nodup_iff.mpr h

theorem mem_newest_of_length_le (hlength : items.length ≤ limit) (h : x ∈ items) :
    x ∈ newest time limit items := by
  unfold newest
  rw [List.take_of_length_le (by rw [List.length_insertionSort]; exact hlength)]
  exact (List.perm_insertionSort _ items).mem_iff.mpr h

theorem dropped_of_not_mem (h : x ∈ items) (hdropped : x ∉ newest time limit items) :
    (newest time limit items).length = limit ∧ ∀ y ∈ newest time limit items, time x ≤ time y := by
  let sorted := items.insertionSort (fun a b => time b ≤ time a)
  have hsorted : sorted.Pairwise (fun a b => time b ≤ time a) := List.pairwise_insertionSort _ _
  have hx : x ∈ sorted.take limit ++ sorted.drop limit := by
    rw [List.take_append_drop]
    exact (List.perm_insertionSort _ items).mem_iff.mpr h
  have hlate : x ∈ sorted.drop limit := (List.mem_append.mp hx).resolve_left hdropped
  constructor
  · refine List.length_take_of_le ?_
    by_contra hlt
    rw [List.drop_of_length_le (not_le.mp hlt).le] at hlate
    exact absurd hlate List.not_mem_nil
  · intro y hy
    rw [← List.take_append_drop limit sorted, List.pairwise_append] at hsorted
    exact hsorted.2.2 y hy x hlate

theorem mem_newest_cons (h : items.countP (time x < time ·) < limit) :
    x ∈ newest time limit (x :: items) := by
  unfold newest
  rw [List.insertionSort_cons, List.orderedInsert_eq_take_drop]
  let later := (items.insertionSort (fun a b => time b ≤ time a)).takeWhile
    fun b => decide ¬time b ≤ time x
  have hlength : later.length ≤ items.countP (time x < time ·) := by
    have hall : ∀ y ∈ later, decide (time x < time y) = true := by
      intro y hy
      have hy := List.mem_takeWhile_imp hy
      exact decide_eq_true (not_le.mp (of_decide_eq_true hy))
    rw [← (List.perm_insertionSort (fun a b => time b ≤ time a) items).countP_eq,
      ← List.countP_eq_length.mpr hall]
    exact (List.takeWhile_sublist _).countP_le
  rw [List.take_append]
  refine List.mem_append_right _ ?_
  obtain ⟨room, hroom⟩ := Nat.exists_eq_succ_of_ne_zero (Nat.sub_ne_zero_of_lt (hlength.trans_lt h))
  rw [hroom, List.take_succ_cons]
  exact List.mem_cons_self

end FluxTerm.Lib
