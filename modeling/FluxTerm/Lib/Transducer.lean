import Mathlib.Algebra.BigOperators.Group.List.Basic
import Mathlib.Data.List.Induction

/-!
# Loops that put something out

A loop goes through a sequence with a state, and puts out a piece at every symbol.
-/

namespace FluxTerm.Lib

variable {σ τ α β γ δ : Type*}

def feed (step : σ → α → σ × List β) (s : σ) : List α → σ × List β
  | [] => (s, [])
  | a :: as =>
    let (next, out) := step s a
    let (last, more) := feed step next as
    (last, out ++ more)

section
variable {step : σ → α → σ × List β}

@[simp] theorem feed_nil (s : σ) : feed step s [] = (s, []) := rfl

theorem feed_cons (s : σ) (a : α) (as : List α) :
    feed step s (a :: as)
      = ((feed step (step s a).1 as).1, (step s a).2 ++ (feed step (step s a).1 as).2) := rfl

theorem feed_append (s : σ) (as bs : List α) :
    feed step s (as ++ bs)
      = ((feed step (feed step s as).1 bs).1,
        (feed step s as).2 ++ (feed step (feed step s as).1 bs).2) := by
  induction as generalizing s with
  | nil => rfl
  | cons a as ih => rw [List.cons_append, feed_cons, ih, feed_cons, List.append_assoc]

theorem feed_snoc (s : σ) (as : List α) (a : α) :
    feed step s (as ++ [a])
      = ((step (feed step s as).1 a).1, (feed step s as).2 ++ (step (feed step s as).1 a).2) := by
  rw [feed_append, feed_cons, feed_nil, List.append_nil]

theorem feed_invariant {I : σ → Prop} (hstep : ∀ s a, I s → I (step s a).1) {s : σ} (hs : I s)
    (as : List α) : I (feed step s as).1 := by
  induction as generalizing s with
  | nil => exact hs
  | cons a as ih => exact ih (hstep s a hs)

end

/-! ## Initial parts -/

theorem forall_prefix_iff {P : List α → Prop} {Q : List α → α → Prop} (hnil : P [])
    (hsnoc : ∀ before a, P before → (P (before ++ [a]) ↔ Q before a)) (as : List α) :
    (∀ before, before <+: as → P before) ↔ ∀ before a, before ++ [a] <+: as → Q before a := by
  constructor
  · intro h before a hprefix
    have hbefore := h before ((List.prefix_append before [a]).trans hprefix)
    exact (hsnoc before a hbefore).mp (h _ hprefix)
  · intro h before
    induction before using List.reverseRecOn with
    | nil => exact fun _ => hnil
    | append_singleton before a ih =>
      intro hprefix
      have hbefore := ih ((List.prefix_append before [a]).trans hprefix)
      exact (hsnoc before a hbefore).mpr (h before a hprefix)

/-! ## Places -/

section
variable (size : β → ℕ) (Q : ℕ → β → Prop)

variable {size Q}

end

/-! ## Runs of one key -/

section
variable {ρ κ : Type*} [DecidableEq κ] (key : ρ → κ) (current : σ → Option κ)
  (flush : σ → List β) (enter : σ → ρ → σ) (content : σ → ρ → σ × List β)

variable {key}

omit [DecidableEq κ] in
variable {current flush enter content}
variable (hcontent : ∀ s r, current (content s r).1 = current s)
  (henter : ∀ s r, current (enter s r) = some (key r))
include hcontent henter

omit henter in
end

/-! ## Pieces of one length -/

end FluxTerm.Lib
