import Mathlib.Data.List.Basic

/-!
# A copy behind a queue

A sender keeps a state and puts a message into a queue for each of its changes; a receiver takes
the messages out in order and makes the same changes to a copy, up to a message after which it
makes no more.
-/

namespace FluxTerm.Lib

variable {σ μ : Type*} {step : σ → μ → σ} {ok : σ → μ → Prop} {last : μ → Prop}

/-- The messages lead from one state to the other, or there is a last one among them. -/
inductive Follows (step : σ → μ → σ) (ok : σ → μ → Prop) (last : μ → Prop) :
    σ → List μ → σ → Prop where
  | nil (s : σ) : Follows step ok last s [] s
  | stop {s t : σ} {m : μ} {ms : List μ} (h : last m) : Follows step ok last s (m :: ms) t
  | cons {s t : σ} {m : μ} {ms : List μ} (h : ok s m)
      (hrest : Follows step ok last (step s m) ms t) : Follows step ok last s (m :: ms) t

theorem Follows.snoc {s t : σ} {ms : List μ} {m : μ} (h : Follows step ok last s ms t)
    (hm : ok t m) : Follows step ok last s (ms ++ [m]) (step t m) := by
  induction h with
  | nil s => exact .cons hm (.nil _)
  | stop hlast => exact .stop hlast
  | cons hok _ ih => exact .cons hok (ih hm)

theorem Follows.close {s t : σ} {ms : List μ} {m : μ} (h : Follows step ok last s ms t)
    (hm : last m) : Follows step ok last s (ms ++ [m]) t := by
  induction h with
  | nil s => exact .stop hm
  | stop hlast => exact .stop hlast
  | cons hok _ ih => exact .cons hok ih

theorem Follows.head {s t : σ} {ms : List μ} {m : μ} (h : Follows step ok last s (m :: ms) t)
    (hm : ¬last m) : ok s m ∧ Follows step ok last (step s m) ms t := by
  cases h with
  | stop hlast => exact absurd hlast hm
  | cons hok hrest => exact ⟨hok, hrest⟩

end FluxTerm.Lib
