import Mathlib.Data.List.Basic

/-!
# Views of a value with revisions

A value has a revision that grows when the value changes. Views get it in messages that arrive in
any order, and keep what has the largest revision.
-/

namespace FluxTerm.Lib

structure View (μ : Type*) where
  shown : Option μ
  inbox : List μ

namespace View

variable {μ : Type*}

def empty : View μ := ⟨none, []⟩

def send (v : View μ) (m : μ) : View μ := { v with inbox := v.inbox ++ [m] }

/-- What is shown once `next` has come: a larger revision stays. -/
def newer (revision : μ → ℕ) (shown : Option μ) (next : μ) : μ :=
  match shown with
  | some current => if revision next < revision current then current else next
  | none => next

/-- The message at `i` arrives. -/
def deliver (revision : μ → ℕ) (v : View μ) (i : ℕ) : Option (View μ) :=
  (v.inbox[i]?).map fun m => ⟨some (newer revision v.shown m), v.inbox.eraseIdx i⟩

def known (v : View μ) : List μ := v.shown.toList ++ v.inbox

variable {revision : μ → ℕ} {v v' : View μ} {m latest : μ} {i : ℕ}

@[simp] theorem known_send (v : View μ) (m : μ) : (v.send m).known = v.known ++ [m] :=
  (List.append_assoc ..).symm

theorem newer_cases (revision : μ → ℕ) (shown : Option μ) (next : μ) :
    newer revision shown next = next ∨ shown = some (newer revision shown next) := by
  cases shown with
  | none => exact .inl rfl
  | some current =>
    rw [newer]
    split
    · exact .inr rfl
    · exact .inl rfl

theorem revision_le_of_deliver (h : v.deliver revision i = some v') {old : μ}
    (hold : v.shown = some old) : ∃ new, v'.shown = some new ∧ revision old ≤ revision new := by
  obtain ⟨m, -, rfl⟩ := Option.map_eq_some_iff.mp h
  refine ⟨_, rfl, ?_⟩
  rw [hold, newer]
  split
  · exact Nat.le_refl _
  · rename_i hle
    exact Nat.not_lt.mp hle

theorem known_subset_of_deliver (h : v.deliver revision i = some v') : v'.known ⊆ v.known := by
  obtain ⟨next, hnext, rfl⟩ := Option.map_eq_some_iff.mp h
  intro m hm
  rcases List.mem_append.mp hm with hm | hm
  · cases hm with
    | head =>
      rcases newer_cases revision v.shown next with heq | heq
      · rw [heq]
        exact List.mem_append_right _ (List.mem_of_getElem? hnext)
      · exact List.mem_append_left _ (Option.mem_toList.mpr heq)
    | tail _ hm => cases hm
  · exact List.mem_append_right _ (List.mem_of_mem_eraseIdx hm)

/-- Nothing that the view knows is later than `latest`, and it knows `latest` if it knows
anything. -/
structure Tracks (revision : μ → ℕ) (latest : μ) (v : View μ) : Prop where
  below : ∀ m ∈ v.known, revision m < revision latest ∨ m = latest
  hears : v.known ≠ [] → latest ∈ v.known

theorem Tracks.of_known_eq_nil (h : v.known = []) : Tracks revision latest v where
  below _ hm := absurd (h ▸ hm) List.not_mem_nil
  hears hne := absurd h hne

theorem Tracks.send (h : Tracks revision latest v) : Tracks revision latest (v.send latest) where
  below m hm := by
    rw [known_send] at hm
    rcases List.mem_append.mp hm with hm | hm
    · exact h.below m hm
    · exact .inr (List.mem_singleton.mp hm)
  hears _ := by
    rw [known_send]
    exact List.mem_append_right _ List.mem_cons_self

theorem Tracks.advance (h : Tracks revision latest v) (hlt : revision latest < revision m) :
    Tracks revision m (v.send m) where
  below old hold := by
    rw [known_send] at hold
    rcases List.mem_append.mp hold with hold | hold
    · rcases h.below old hold with hbelow | rfl
      · exact .inl (Nat.lt_trans hbelow hlt)
      · exact .inl hlt
    · exact .inr (List.mem_singleton.mp hold)
  hears _ := by
    rw [known_send]
    exact List.mem_append_right _ List.mem_cons_self

theorem Tracks.deliver (h : Tracks revision latest v) (hv : v.deliver revision i = some v') :
    Tracks revision latest v' where
  below m hm := h.below m (known_subset_of_deliver hv hm)
  hears _ := by
    obtain ⟨next, hnext, rfl⟩ := Option.map_eq_some_iff.mp hv
    have hmem : next ∈ v.known := List.mem_append_right _ (List.mem_of_getElem? hnext)
    rcases List.mem_append.mp (h.hears (List.ne_nil_of_mem hmem)) with hshown | hinbox
    · -- it is shown already, and stays
      have hshown : v.shown = some latest := Option.mem_toList.mp hshown
      refine List.mem_append_left _ (Option.mem_toList.mpr ?_)
      show some (newer revision v.shown next) = some latest
      rw [hshown, newer]
      rcases h.below next hmem with hlt | rfl
      · rw [if_pos hlt]
      · rw [ite_self]
    · by_cases heq : next = latest
      · -- it is the message
        subst heq
        refine List.mem_append_left _ (Option.mem_toList.mpr ?_)
        show some (newer revision v.shown next) = some next
        cases hshown : v.shown with
        | none => rfl
        | some current =>
          have hcurrent : current ∈ v.known :=
            List.mem_append_left _ (Option.mem_toList.mpr hshown)
          rw [newer]
          rcases h.below current hcurrent with hlt | rfl
          · rw [if_neg (Nat.lt_asymm hlt)]
          · rw [ite_self]
      · -- it stays on its way
        obtain ⟨j, hj⟩ := List.mem_iff_getElem?.mp hinbox
        refine List.mem_append_right _ (List.mem_eraseIdx_iff_getElem?.mpr ⟨j, ?_, hj⟩)
        rintro rfl
        exact heq (Option.some.inj (hnext.symm.trans hj))

theorem Tracks.shown_eq (h : Tracks revision latest v) (hinbox : v.inbox = [])
    (hshown : v.shown = some m) : m = latest := by
  have hknown : v.known = [m] := by
    rw [known, hinbox, hshown]
    rfl
  have hmem := h.hears (hknown ▸ List.cons_ne_nil _ _)
  rw [hknown] at hmem
  exact (List.mem_singleton.mp hmem).symm

end View

end FluxTerm.Lib
