import Mathlib.Data.List.Induction
import Mathlib.Data.List.Nodup

/-!
# The first of each key

A list in which only the first element of each key stays, of those elements that may stay at all.
-/

namespace FluxTerm.Lib

variable {α κ : Type*} [DecidableEq κ] {key : α → κ} {may : α → Bool}

def keepNew (key : α → κ) (may : α → Bool) (kept : List α) (item : α) : List α :=
  if may item = true ∧ key item ∉ kept.map key then kept ++ [item] else kept

def keepFirsts (key : α → κ) (may : α → Bool) (items : List α) : List α :=
  items.foldl (keepNew key may) []

/-- The element may stay, and none before it has its key. -/
def IsFirst (key : α → κ) (may : α → Bool) (items : List α) (item : α) : Prop :=
  may item = true ∧ ∃ before after, items = before ++ item :: after ∧
    ∀ earlier ∈ before, may earlier = true → key earlier ≠ key item

theorem keepFirsts_concat (items : List α) (item : α) :
    keepFirsts key may (items ++ [item]) = keepNew key may (keepFirsts key may items) item := by
  rw [keepFirsts, List.foldl_append]
  rfl

theorem mem_keys_keepFirsts {items : List α} {item : α} (h : item ∈ items)
    (hmay : may item = true) : key item ∈ (keepFirsts key may items).map key := by
  induction items using List.reverseRecOn with
  | nil => cases h
  | append_singleton items last ih =>
    rw [keepFirsts_concat, keepNew]
    rcases List.mem_append.mp h with hold | hlast
    · split
      · rw [List.map_append]
        exact List.mem_append_left _ (ih hold)
      · exact ih hold
    · obtain rfl := List.mem_singleton.mp hlast
      split
      · rw [List.map_append]
        exact List.mem_append_right _ (List.mem_singleton.mpr rfl)
      · rename_i hseen
        by_contra hnew
        exact hseen ⟨hmay, hnew⟩

theorem isFirst_of_mem_keepFirsts {items : List α} {item : α}
    (h : item ∈ keepFirsts key may items) : IsFirst key may items item := by
  induction items using List.reverseRecOn with
  | nil => cases h
  | append_singleton items last ih =>
    rw [keepFirsts_concat, keepNew] at h
    have hold : item ∈ keepFirsts key may items → IsFirst key may (items ++ [last]) item := by
      intro hitem
      obtain ⟨hmay, before, after, rfl, hfirst⟩ := ih hitem
      exact ⟨hmay, before, after ++ [last], by rw [List.append_assoc, List.cons_append], hfirst⟩
    split at h
    · rename_i hnew
      rcases List.mem_append.mp h with hitem | hlast
      · exact hold hitem
      · obtain rfl := List.mem_singleton.mp hlast
        refine ⟨hnew.1, items, [], rfl, fun earlier hearlier hmay heq => hnew.2 ?_⟩
        exact heq ▸ mem_keys_keepFirsts hearlier hmay
    · exact hold h

theorem mem_of_mem_keepFirsts {items : List α} {item : α} (h : item ∈ keepFirsts key may items) :
    item ∈ items := by
  obtain ⟨-, before, after, rfl, -⟩ := isFirst_of_mem_keepFirsts h
  exact List.mem_append_right _ List.mem_cons_self

theorem keepFirsts_keys_nodup (items : List α) : ((keepFirsts key may items).map key).Nodup := by
  induction items using List.reverseRecOn with
  | nil => exact List.nodup_nil
  | append_singleton items last ih =>
    rw [keepFirsts_concat, keepNew]
    split
    · rename_i hnew
      rw [List.map_append]
      refine List.nodup_append.mpr ⟨ih, List.nodup_singleton _, fun a ha b hb heq => hnew.2 ?_⟩
      rw [List.map_singleton, List.mem_singleton] at hb
      exact hb ▸ heq ▸ ha
    · exact ih

theorem keepFirsts_eq_self {items : List α} (hnodup : (items.map key).Nodup)
    (hmay : ∀ item ∈ items, may item = true) : keepFirsts key may items = items := by
  induction items using List.reverseRecOn with
  | nil => rfl
  | append_singleton items last ih =>
    rw [List.map_append, List.map_singleton] at hnodup
    obtain ⟨hitems, -, hapart⟩ := List.nodup_append.mp hnodup
    rw [keepFirsts_concat, ih hitems fun item hitem => hmay item (List.mem_append_left _ hitem),
      keepNew, if_pos]
    refine ⟨hmay last (List.mem_append_right _ (List.mem_singleton.mpr rfl)), fun hmem => ?_⟩
    exact hapart _ hmem _ (List.mem_singleton.mpr rfl) rfl

end FluxTerm.Lib
