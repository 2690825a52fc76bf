import Mathlib.Data.List.Nodup
import Mathlib.Data.List.Perm.Basic

/-!
# Association lists

Lists of entries with a key each, read with `List.lookup`.
-/

namespace FluxTerm.Lib

variable {κ α β : Type}

theorem map_fst_filterMap_sublist (f : κ × α → Option β) (entries : List (κ × α)) :
    ((entries.filterMap fun entry => (f entry).map (entry.1, ·)).map Prod.fst).Sublist
      (entries.map Prod.fst) := by
  induction entries with
  | nil => exact List.Sublist.slnil
  | cons entry entries ih =>
    cases hf : f entry with
    | none =>
      rw [List.filterMap_cons_none (by rw [hf]; rfl)]
      exact ih.cons _
    | some value =>
      rw [List.filterMap_cons_some (b := (entry.1, value)) (by rw [hf]; rfl)]
      exact ih.cons_cons _

variable [BEq κ] [LawfulBEq κ]

theorem lookup_eq_some_iff_mem {entries : List (κ × α)} (h : (entries.map Prod.fst).Nodup) {k : κ}
    {v : α} : entries.lookup k = some v ↔ (k, v) ∈ entries := by
  induction entries with
  | nil => exact iff_of_false nofun List.not_mem_nil
  | cons entry entries ih =>
    obtain ⟨key, value⟩ := entry
    obtain ⟨hkey, hrest⟩ := List.nodup_cons.mp h
    rw [List.lookup_cons, List.mem_cons]
    by_cases hk : k = key
    · subst hk
      rw [beq_self_eq_true]
      constructor
      · rintro hv
        cases hv
        exact .inl rfl
      · rintro (heq | hmem)
        · cases heq
          rfl
        · exact absurd (List.mem_map_of_mem hmem) hkey
    · rw [beq_eq_false_iff_ne.mpr hk]
      exact (ih hrest).trans ⟨.inr, fun h => h.resolve_left fun heq => hk (congrArg Prod.fst heq)⟩

theorem lookup_perm {entries entries' : List (κ × α)} (hperm : entries.Perm entries')
    (h : (entries.map Prod.fst).Nodup) (k : κ) : entries.lookup k = entries'.lookup k := by
  have h' := (hperm.map Prod.fst).nodup_iff.mp h
  ext v
  rw [lookup_eq_some_iff_mem h, lookup_eq_some_iff_mem h', hperm.mem_iff]

theorem lookup_filterMap_entry (f : κ × α → Option β) {entries : List (κ × α)}
    (h : (entries.map Prod.fst).Nodup) (k : κ) :
    (entries.filterMap fun entry => (f entry).map (entry.1, ·)).lookup k
      = (entries.lookup k).bind fun v => f (k, v) := by
  have h' := h.sublist (map_fst_filterMap_sublist f entries)
  ext w
  rw [lookup_eq_some_iff_mem h', List.mem_filterMap, Option.bind_eq_some_iff]
  constructor
  · rintro ⟨entry, hentry, hf⟩
    obtain ⟨value, hvalue, heq⟩ := Option.map_eq_some_iff.mp hf
    cases heq
    exact ⟨entry.2, (lookup_eq_some_iff_mem h).mpr hentry, hvalue⟩
  · rintro ⟨v, hv, hf⟩
    exact ⟨(k, v), (lookup_eq_some_iff_mem h).mp hv, by rw [hf]; rfl⟩

theorem lookup_filter_ne [DecidableEq κ] (key k : κ) (entries : List (κ × α)) :
    (entries.filter fun entry => entry.1 ≠ key).lookup k
      = if k = key then none else entries.lookup k := by
  induction entries with
  | nil => rw [List.filter_nil, List.lookup_nil, ite_self]
  | cons entry entries ih =>
    obtain ⟨other, value⟩ := entry
    by_cases hother : other = key
    · rw [List.filter_cons_of_neg (by simpa using hother), ih, List.lookup_cons]
      split
      · rfl
      · rename_i hne
        rw [beq_eq_false_iff_ne.mpr fun heq => hne (heq.trans hother)]
    · rw [List.filter_cons_of_pos (by simpa using hother), List.lookup_cons, List.lookup_cons, ih]
      by_cases hk : k = other
      · have hkey : k ≠ key := fun heq => hother (hk.symm.trans heq)
        rw [if_neg hkey, if_neg hkey, beq_iff_eq.mpr hk]
      · rw [beq_eq_false_iff_ne.mpr hk]

end FluxTerm.Lib
