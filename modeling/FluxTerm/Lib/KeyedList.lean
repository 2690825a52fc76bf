import Mathlib.Data.List.Nodup
import Mathlib.Data.List.Perm.Basic

/-!
# Lists of keyed records

Records with a key, each owning a list of things, where an operation adds things to the record
with a given key.
-/

namespace FluxTerm.Lib

variable {α β κ : Type} [DecidableEq κ]

/-- What the records own after `extra` went to the ones with key `k`. -/
def addAt (key : α → κ) (k : κ) (owned : α → List β) (extra : List β) (x : α) : List β :=
  if key x = k then owned x ++ extra else owned x

variable {key : α → κ} {k : κ} {owned : α → List β} {extra : List β}

theorem flatMap_addAt_of_absent {xs : List α} (h : k ∉ xs.map key) :
    xs.flatMap (addAt key k owned extra) = xs.flatMap owned := by
  induction xs with
  | nil => rfl
  | cons x xs ih =>
    rw [List.map_cons, List.mem_cons, not_or] at h
    rw [List.flatMap_cons, List.flatMap_cons, ih h.2, addAt, if_neg (Ne.symm h.1)]

theorem mem_flatMap_addAt {xs : List α} {b : β} :
    b ∈ xs.flatMap (addAt key k owned extra) ↔
      b ∈ xs.flatMap owned ∨ (k ∈ xs.map key ∧ b ∈ extra) := by
  induction xs with
  | nil => simp
  | cons x xs ih =>
    rw [List.flatMap_cons, List.flatMap_cons, List.mem_append, ih, List.mem_append, List.map_cons,
      List.mem_cons, addAt]
    by_cases hx : key x = k
    · rw [if_pos hx, List.mem_append]
      simp only [hx, true_or, true_and]
      tauto
    · rw [if_neg hx]
      have hne : k ≠ key x := Ne.symm hx
      simp only [hne, false_or]
      tauto

theorem flatMap_addAt_perm {xs : List α} (hkeys : (xs.map key).Nodup) (hk : k ∈ xs.map key) :
    (xs.flatMap (addAt key k owned extra)).Perm (xs.flatMap owned ++ extra) := by
  induction xs with
  | nil => simp at hk
  | cons x xs ih =>
    rw [List.map_cons, List.nodup_cons] at hkeys
    rw [List.map_cons, List.mem_cons] at hk
    rw [List.flatMap_cons, List.flatMap_cons, addAt]
    by_cases hx : key x = k
    · -- the record is found here, so there is none behind it
      rw [if_pos hx, flatMap_addAt_of_absent (hx ▸ hkeys.1), List.append_assoc,
        List.append_assoc]
      exact List.perm_append_comm.append_left (owned x)
    · rw [if_neg hx, List.append_assoc]
      exact (ih hkeys.2 (hk.resolve_left (Ne.symm hx))).append_left (owned x)

theorem count_owners_eq_one {xs : List α} {b : β} {p : α → Bool}
    (hp : ∀ x, p x = true ↔ b ∈ owned x) (hnodup : (xs.flatMap owned).Nodup)
    (hb : b ∈ xs.flatMap owned) : xs.countP p = 1 := by
  induction xs with
  | nil => simp at hb
  | cons x xs ih =>
    rw [List.flatMap_cons] at hnodup hb
    obtain ⟨-, hrest, hdisj⟩ := List.nodup_append'.mp hnodup
    rw [List.countP_cons]
    by_cases hx : b ∈ owned x
    · have hnone : xs.countP p = 0 := by
        rw [List.countP_eq_zero]
        intro y hy hby
        exact hdisj hx (List.mem_flatMap.mpr ⟨y, hy, (hp y).mp hby⟩)
      rw [hnone, if_pos ((hp x).mpr hx)]
    · have hmem : b ∈ xs.flatMap owned := (List.mem_append.mp hb).resolve_left hx
      rw [ih hrest hmem, if_neg fun hpx => hx ((hp x).mp hpx)]

/-! ## Renaming -/

def renamed (old next item : κ) : κ := if item = old then next else item

theorem map_renamed_of_not_mem {old next : κ} {l : List κ} (h : old ∉ l) :
    l.map (renamed old next) = l := by
  conv_rhs => rw [← List.map_id l]
  refine List.map_congr_left fun item hitem => ?_
  have hne : item ≠ old := fun heq => h (heq ▸ hitem)
  exact if_neg hne

theorem mem_map_renamed_self {old next : κ} {l : List κ} (h : old ∈ l) :
    next ∈ l.map (renamed old next) :=
  List.mem_map.mpr ⟨old, h, if_pos rfl⟩

theorem mem_map_renamed_of_ne {old next item : κ} {l : List κ} (h : item ∈ l) (hne : item ≠ old) :
    item ∈ l.map (renamed old next) :=
  List.mem_map.mpr ⟨item, h, if_neg hne⟩

theorem nodup_map_renamed {old next : κ} {l : List κ} (hnodup : l.Nodup) (hnext : next ∉ l) :
    (l.map (renamed old next)).Nodup := by
  refine hnodup.map_on fun a ha b hb hab => ?_
  have hane : a ≠ next := fun heq => hnext (heq ▸ ha)
  have hbne : b ≠ next := fun heq => hnext (heq ▸ hb)
  unfold renamed at hab
  split at hab <;> split at hab
  · simp_all
  · exact absurd hab.symm hbne
  · exact absurd hab hane
  · exact hab

end FluxTerm.Lib
