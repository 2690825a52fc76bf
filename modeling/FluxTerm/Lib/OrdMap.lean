import Mathlib.Data.List.Perm.Basic
import Mathlib.Algebra.Order.Ring.Nat

/-!
# Ordered maps

The ordered map of a program, as its list of entries in ascending key order. The order is a field
of the structure, so a map with two entries for one key cannot be built. Both updates are
described by a permutation of the entries, which is what sums and counts over the entries need:
-/

namespace FluxTerm.Lib

structure OrdMap (κ : Type*) (β : Type*) [LinearOrder κ] where
  entries : List (κ × β)
  sorted : entries.Pairwise (fun a b => a.1 < b.1)

namespace OrdMap

variable {κ : Type*} {β : Type*} [LinearOrder κ]

instance [DecidableEq β] : DecidableEq (OrdMap κ β) := fun m n =>
  decidable_of_iff (m.entries = n.entries) ⟨fun h => by cases m; cases n; cases h; rfl, fun h => h ▸ rfl⟩

def empty : OrdMap κ β := ⟨[], .nil⟩

@[simp] theorem empty_entries : (empty : OrdMap κ β).entries = [] := rfl

def keys (m : OrdMap κ β) : List κ := m.entries.map Prod.fst

def size (m : OrdMap κ β) : ℕ := m.entries.length

/-! ## Insertion -/

def insertEntry (k : κ) (v : β) : List (κ × β) → List (κ × β)
  | [] => [(k, v)]
  | e :: es =>
    if k < e.1 then (k, v) :: e :: es
    else if e.1 < k then e :: insertEntry k v es
    else (k, v) :: es

theorem mem_insertEntry {k : κ} {v : β} :
    ∀ {es : List (κ × β)} {e : κ × β}, e ∈ insertEntry k v es → e = (k, v) ∨ e ∈ es
  | [], e, h => by simpa [insertEntry] using h
  | d :: es, e, h => by
      rw [insertEntry] at h
      split at h
      · simpa using h
      · split at h
        · rcases List.mem_cons.mp h with rfl | h
          · exact .inr (List.mem_cons_self ..)
          · exact (mem_insertEntry h).imp id (List.mem_cons_of_mem _)
        · rcases List.mem_cons.mp h with rfl | h
          · exact .inl rfl
          · exact .inr (List.mem_cons_of_mem _ h)

theorem insertEntry_sorted (k : κ) (v : β) :
    ∀ {es : List (κ × β)}, es.Pairwise (fun a b => a.1 < b.1) →
      (insertEntry k v es).Pairwise (fun a b => a.1 < b.1)
  | [], _ => by simp [insertEntry]
  | d :: es, h => by
      obtain ⟨hd, hes⟩ := List.pairwise_cons.mp h
      rw [insertEntry]
      split
      · rename_i hlt
        refine List.pairwise_cons.mpr ⟨fun e he => ?_, h⟩
        rcases List.mem_cons.mp he with rfl | he
        · exact hlt
        · exact hlt.trans (hd e he)
      · split
        · rename_i _ hlt
          refine List.pairwise_cons.mpr ⟨fun e he => ?_, insertEntry_sorted k v hes⟩
          rcases mem_insertEntry he with rfl | he
          · exact hlt
          · exact hd e he
        · rename_i h1 h2
          have hk : d.1 = k := le_antisymm (not_lt.mp h1) (not_lt.mp h2)
          exact List.pairwise_cons.mpr ⟨fun e he => hk ▸ hd e he, hes⟩

theorem insertEntry_perm {k : κ} {v : β} :
    ∀ {es : List (κ × β)}, (∀ e ∈ es, e.1 ≠ k) → (insertEntry k v es).Perm ((k, v) :: es)
  | [], _ => by simp [insertEntry]
  | d :: es, h => by
      rw [insertEntry]
      split
      · exact .refl _
      · split
        · have ih := insertEntry_perm (v := v) fun e he => h e (List.mem_cons_of_mem _ he)
          exact (ih.cons d).trans (.swap ..)
        · rename_i h1 h2
          exact absurd (le_antisymm (not_lt.mp h1) (not_lt.mp h2)) (h d (List.mem_cons_self ..))

def insert (m : OrdMap κ β) (k : κ) (v : β) : OrdMap κ β :=
  ⟨insertEntry k v m.entries, insertEntry_sorted k v m.sorted⟩

theorem insert_perm {m : OrdMap κ β} {k : κ} (v : β) (h : ∀ e ∈ m.entries, e.1 ≠ k) :
    (m.insert k v).entries.Perm ((k, v) :: m.entries) :=
  insertEntry_perm h

/-! ## Removal -/

/-- The entries whose key is not `k`. -/
def without (m : OrdMap κ β) (k : κ) : OrdMap κ β :=
  ⟨m.entries.filter (fun e => e.1 ≠ k), m.sorted.filter _⟩

/-- The value stored under `k`. -/
def get? (m : OrdMap κ β) (k : κ) : Option β :=
  (m.entries.find? (fun e => e.1 = k)).map Prod.snd

theorem get?_without (m : OrdMap κ β) (k key : κ) :
    (m.without k).get? key = if key = k then none else m.get? key := by
  unfold get? without
  dsimp only
  rw [List.find?_filter]
  split
  · rename_i hkey
    subst hkey
    rw [List.find?_eq_none.mpr fun e _ => by simp]
    rfl
  · rename_i hkey
    congr 2
    funext e
    by_cases he : e.1 = key
    · simp [he, hkey]
    · simp [he]

theorem find?_insertEntry (k : κ) (v : β) (key : κ) :
    ∀ es : List (κ × β), (insertEntry k v es).find? (fun e => e.1 = key) =
      if key = k then some (k, v) else es.find? (fun e => e.1 = key)
  | [] => by
      rw [insertEntry, List.find?_cons, List.find?_nil]
      by_cases hkey : key = k
      · simp [hkey]
      · simp [hkey, Ne.symm hkey]
  | d :: es => by
      rw [insertEntry]
      split
      · rw [List.find?_cons]
        by_cases hkey : key = k
        · simp [hkey]
        · simp [hkey, Ne.symm hkey]
      · rename_i hk
        split
        · rename_i hlt
          rw [List.find?_cons, find?_insertEntry k v key es, List.find?_cons]
          by_cases hkey : key = k
          · have hd : d.1 ≠ k := hlt.ne
            simp [hkey, hd]
          · simp [hkey]
        · rename_i hge
          have hd : d.1 = k := le_antisymm (not_lt.mp hk) (not_lt.mp hge)
          rw [List.find?_cons, List.find?_cons]
          by_cases hkey : key = k
          · simp [hkey]
          · simp [hkey, hd, Ne.symm hkey]

theorem get?_insert (m : OrdMap κ β) (k key : κ) (v : β) :
    (m.insert k v).get? key = if key = k then some v else m.get? key := by
  unfold get? insert
  dsimp only
  rw [find?_insertEntry]
  split <;> rfl

/-- Take the entry of `k` out: its value and the remaining map. -/
def remove (m : OrdMap κ β) (k : κ) : Option (β × OrdMap κ β) :=
  (m.get? k).map (fun v => (v, m.without k))

theorem remove_eq_none {m : OrdMap κ β} {k : κ} :
    m.remove k = none ↔ ∀ e ∈ m.entries, e.1 ≠ k := by
  simp [remove, get?]

theorem filter_ne_perm {k : κ} {v : β} :
    ∀ {es : List (κ × β)}, es.Pairwise (fun a b => a.1 < b.1) → (k, v) ∈ es →
      es.Perm ((k, v) :: es.filter (fun e => e.1 ≠ k))
  | d :: es, hs, hmem => by
      obtain ⟨hd, hes⟩ := List.pairwise_cons.mp hs
      by_cases hk : d.1 = k
      · -- the entry is the head: no later entry has its key
        have hall : ∀ e ∈ es, e.1 ≠ k := fun e he heq => (hd e he).ne (hk.trans heq.symm)
        have hdv : (k, v) = d := by
          rcases List.mem_cons.mp hmem with h | h
          · exact h
          · exact absurd rfl (hall _ h)
        subst hdv
        have hfilter : es.filter (fun e => e.1 ≠ k) = es :=
          List.filter_eq_self.mpr fun e he => by simpa using hall e he
        simp only [ne_eq, not_true_eq_false, decide_false, Bool.false_eq_true,
          not_false_eq_true, List.filter_cons_of_neg]
        rw [show (es.filter fun e => decide ¬e.1 = k) = es from hfilter]
      · have hmem' : (k, v) ∈ es := by
          rcases List.mem_cons.mp hmem with h | h
          · exact absurd (congrArg Prod.fst h).symm hk
          · exact h
        rw [List.filter_cons_of_pos (by simpa using hk)]
        exact ((filter_ne_perm hes hmem').cons d).trans (.swap ..)

theorem remove_perm {m rest : OrdMap κ β} {k : κ} {v : β} (h : m.remove k = some (v, rest)) :
    m.entries.Perm ((k, v) :: rest.entries) := by
  simp only [remove, get?, Option.map_map, Option.map_eq_some_iff] at h
  obtain ⟨e, he, hev⟩ := h
  simp only [Function.comp_apply, Prod.mk.injEq] at hev
  obtain ⟨rfl, rfl⟩ := hev
  have hkey : e.1 = k := by simpa using List.find?_some he
  have hmem : (k, e.2) ∈ m.entries := by
    rw [← hkey]
    exact List.mem_of_find?_eq_some he
  exact filter_ne_perm m.sorted hmem

theorem size_of_remove {m rest : OrdMap κ β} {k : κ} {v : β} (h : m.remove k = some (v, rest)) :
    m.size = rest.size + 1 := by
  simpa [size] using (remove_perm h).length_eq

end OrdMap

end FluxTerm.Lib
