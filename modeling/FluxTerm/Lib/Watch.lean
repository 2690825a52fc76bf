import Mathlib.Tactic.Common

/-!
# Watch channels

A channel that keeps its last value. A receiver remembers the version that it has seen; what it
finds on subscribing counts as seen, and a value sent while there is no receiver is not stored.
-/

namespace FluxTerm.Lib

structure Watch (α : Type*) where
  value : α
  version : ℕ
  receivers : List ℕ
deriving DecidableEq

namespace Watch

variable {α : Type*} (w : Watch α)

def new (value : α) : Watch α := ⟨value, 0, []⟩

def send (value : α) : Watch α :=
  match w.receivers with
  | [] => w
  | _ :: _ => { w with value, version := w.version + 1 }

def subscribe : Watch α := { w with receivers := w.receivers ++ [w.version] }

/-- The value that the receiver `index` has not seen, if there is one. -/
def changed (index : ℕ) : Option α :=
  (w.receivers[index]?).bind fun seen => if seen = w.version then none else some w.value

/-- The receiver `index` has seen the value. -/
def mark (index : ℕ) : Watch α := { w with receivers := w.receivers.set index w.version }

/-- The receiver `index` is dropped. -/
def drop (index : ℕ) : Watch α := { w with receivers := w.receivers.eraseIdx index }

@[simp] theorem receivers_send (value : α) : (w.send value).receivers = w.receivers := by
  unfold send
  split <;> rfl

def IsFresh : Prop := ∀ seen ∈ w.receivers, seen ≤ w.version

/-- Every receiver has yet to see `value`. -/
def Told (value : α) : Prop := ∀ seen ∈ w.receivers, seen ≠ w.version ∧ w.value = value

variable {w} {value : α} {index : ℕ}

theorem isFresh_send (h : w.IsFresh) : (w.send value).IsFresh := by
  unfold send
  split
  · exact h
  · exact fun seen hseen => Nat.le_succ_of_le (h seen hseen)

theorem isFresh_subscribe (h : w.IsFresh) : w.subscribe.IsFresh := by
  intro seen hseen
  rcases List.mem_append.mp hseen with hseen | hseen
  · exact h seen hseen
  · exact Nat.le_of_eq (List.mem_singleton.mp hseen)

theorem isFresh_mark (h : w.IsFresh) : (w.mark index).IsFresh := by
  intro seen hseen
  rcases List.mem_or_eq_of_mem_set hseen with hseen | rfl
  · exact h seen hseen
  · exact Nat.le_refl _

theorem isFresh_drop (h : w.IsFresh) : (w.drop index).IsFresh :=
  fun seen hseen => h seen (List.mem_of_mem_eraseIdx hseen)

theorem told_send (h : w.IsFresh) : (w.send value).Told value := by
  unfold send
  split
  · rename_i hnone
    unfold Told
    rw [hnone]
    exact nofun
  · intro seen hseen
    have := h seen hseen
    exact ⟨by show seen ≠ w.version + 1; omega, rfl⟩

theorem Told.drop (h : w.Told value) (index : ℕ) : (w.drop index).Told value :=
  fun seen hseen => h seen (List.mem_of_mem_eraseIdx hseen)

theorem Told.changed (h : w.Told value) (hindex : index < w.receivers.length) :
    w.changed index = some value := by
  unfold Watch.changed
  have hseen := h _ (List.getElem_mem hindex)
  rw [List.getElem?_eq_getElem hindex, Option.bind_some, if_neg hseen.1, hseen.2]

end Watch

end FluxTerm.Lib
