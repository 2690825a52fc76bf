import Mathlib.Tactic.Common

/-!
# Programs that may fail

A program with a state that stays when it fails, and what holds however such a program ends.
-/

namespace FluxTerm.Lib

def Effect (σ ε α : Type) : Type := σ → Except ε α × σ

namespace Effect

variable {σ ε ε' α β : Type}

def andThen (m : Effect σ ε α) (f : α → Effect σ ε β) : Effect σ ε β := fun s =>
  match m s with
  | (.ok a, t) => f a t
  | (.error err, t) => (.error err, t)

instance : Monad (Effect σ ε) where
  pure a := fun s => (.ok a, s)
  bind := andThen

def fail (err : ε) : Effect σ ε α := fun s => (.error err, s)

def lift (result : Except ε α) : Effect σ ε α := fun s => (result, s)

def modifyGet (f : σ → α × σ) : Effect σ ε α := fun s => (.ok (f s).1, (f s).2)

def attempt (m : Effect σ ε α) : Effect σ ε' (Except ε α) := fun s => (.ok (m s).1, (m s).2)

def forM (f : α → Effect σ ε Unit) : List α → Effect σ ε Unit
  | [] => pure ()
  | a :: as => do
    f a
    forM f as

theorem bind_of_ok {m : Effect σ ε α} {s t : σ} {a : α} (h : m s = (.ok a, t))
    (f : α → Effect σ ε β) : (m >>= f) s = f a t := by
  show andThen m f s = f a t
  unfold andThen
  rw [h]

/-! ## What holds at every end -/

/-- `I` is kept, and what is returned has the property `Q`. -/
def Keeps (I : σ → Prop) (m : Effect σ ε α) (Q : α → Prop) : Prop :=
  ∀ s, I s → I (m s).2 ∧ ∀ a, (m s).1 = .ok a → Q a

variable {I : σ → Prop} {m : Effect σ ε α} {Q Q' : α → Prop} {R : β → Prop}

theorem Keeps.mono (h : Keeps I m Q) (hQ : ∀ a, Q a → Q' a) : Keeps I m Q' := by
  intro s hs
  obtain ⟨hI, hok⟩ := h s hs
  exact ⟨hI, fun a ha => hQ a (hok a ha)⟩

theorem keeps_pure {a : α} (h : Q a) : Keeps I (pure a : Effect σ ε α) Q := by
  intro s hs
  refine ⟨hs, fun b hb => ?_⟩
  cases hb
  exact h

theorem keeps_fail (err : ε) : Keeps I (fail err : Effect σ ε α) Q := by
  intro s hs
  exact ⟨hs, nofun⟩

theorem keeps_lift {result : Except ε α} (h : ∀ a, result = .ok a → Q a) :
    Keeps I (lift result) Q :=
  fun _ hs => ⟨hs, h⟩

theorem keeps_modifyGet {f : σ → α × σ} (hI : ∀ s, I s → I (f s).2) (hQ : ∀ s, I s → Q (f s).1) :
    Keeps I (modifyGet f : Effect σ ε α) Q := by
  intro s hs
  refine ⟨hI s hs, fun a ha => ?_⟩
  cases ha
  exact hQ s hs

theorem keeps_attempt (h : Keeps I m Q) :
    Keeps I (attempt m : Effect σ ε' (Except ε α)) fun result => ∀ a, result = .ok a → Q a := by
  intro s hs
  obtain ⟨hI, hok⟩ := h s hs
  refine ⟨hI, fun result hresult a ha => ?_⟩
  cases hresult
  exact hok a ha

theorem keeps_bind {f : α → Effect σ ε β} (h : Keeps I m Q) (hf : ∀ a, Q a → Keeps I (f a) R) :
    Keeps I (m >>= f) R := by
  intro s hs
  obtain ⟨hI, hok⟩ := h s hs
  show I (andThen m f s).2 ∧ ∀ b, (andThen m f s).1 = .ok b → R b
  unfold andThen
  cases hm : m s with
  | mk result t =>
    rw [hm] at hI hok
    cases result with
    | error err => exact ⟨hI, nofun⟩
    | ok a => exact hf a (hok a rfl) t hI

theorem keeps_forM {f : α → Effect σ ε Unit} {as : List α}
    (h : ∀ a ∈ as, Keeps I (f a) fun _ => True) : Keeps I (forM f as) fun _ => True := by
  induction as with
  | nil => exact keeps_pure trivial
  | cons a as ih =>
    apply keeps_bind (h a List.mem_cons_self)
    intro _ _
    exact ih fun b hb => h b (List.mem_cons_of_mem _ hb)

end Effect

end FluxTerm.Lib
