import Mathlib.Data.List.Forall2

/-!
# Fallible computations

What an `Except` computation that returned a value did on the way, and `collect`: a fallible
function applied along a list, up to the first error.
-/

namespace FluxTerm.Lib

variable {ε α β γ : Type}

theorem bind_eq_ok_iff {x : Except ε α} {f : α → Except ε β} {b : β} :
    (x >>= f) = .ok b ↔ ∃ a, x = .ok a ∧ f a = .ok b := by
  cases x with
  | error e =>
    constructor
    · intro h; cases h
    · rintro ⟨a, h, -⟩; cases h
  | ok a =>
    constructor
    · intro h; exact ⟨a, rfl, h⟩
    · rintro ⟨a', h, hf⟩; cases h; exact hf

theorem map_eq_ok_iff {x : Except ε α} {f : α → β} {b : β} :
    x.map f = .ok b ↔ ∃ a, x = .ok a ∧ f a = b := by
  cases x with
  | error e => simp [Except.map]
  | ok a => simp [Except.map]

def collect (f : ℕ → α → Except ε β) : ℕ → List α → Except ε (List β)
  | _, [] => .ok []
  | i, a :: as => do
    let b ← f i a
    let bs ← collect f (i + 1) as
    return b :: bs

@[simp] theorem collect_nil (f : ℕ → α → Except ε β) (i : ℕ) : collect f i [] = .ok [] := rfl

theorem collect_cons_eq_ok_iff {f : ℕ → α → Except ε β} {i : ℕ} {a : α} {as : List α}
    {bs : List β} : collect f i (a :: as) = .ok bs ↔
      ∃ b bs', f i a = .ok b ∧ collect f (i + 1) as = .ok bs' ∧ bs = b :: bs' := by
  rw [collect, bind_eq_ok_iff]
  constructor
  · rintro ⟨b, hb, h⟩
    rw [bind_eq_ok_iff] at h
    obtain ⟨bs', hbs', h⟩ := h
    cases h
    exact ⟨b, bs', hb, hbs', rfl⟩
  · rintro ⟨b, bs', hb, hbs', rfl⟩
    refine ⟨b, hb, ?_⟩
    rw [hbs']
    rfl

theorem forall₂_of_collect {f : ℕ → α → Except ε β} {R : α → β → Prop}
    (hf : ∀ i a b, f i a = .ok b → R a b) :
    ∀ {i : ℕ} {as : List α} {bs : List β}, collect f i as = .ok bs → List.Forall₂ R as bs
  | i, [], bs, h => by
    rw [collect_nil] at h
    cases h
    exact .nil
  | i, a :: as, bs, h => by
    obtain ⟨b, bs', hb, hbs', rfl⟩ := collect_cons_eq_ok_iff.mp h
    exact .cons (hf i a b hb) (forall₂_of_collect hf hbs')

theorem collect_of_forall₂ {f : ℕ → α → Except ε β} {R : α → β → Prop}
    (hf : ∀ i a b, R a b → f i a = .ok b) {as : List α} {bs : List β} (h : List.Forall₂ R as bs) :
    ∀ i, collect f i as = .ok bs := by
  induction h with
  | nil => exact fun i => rfl
  | cons hab _ ih => exact fun i => collect_cons_eq_ok_iff.mpr ⟨_, _, hf i _ _ hab, ih (i + 1), rfl⟩

theorem exists_collect_eq_ok {f : ℕ → α → Except ε β} {as : List α}
    (h : ∀ i, ∀ a ∈ as, ∃ b, f i a = .ok b) : ∀ i, ∃ bs, collect f i as = .ok bs := by
  induction as with
  | nil => exact fun i => ⟨[], rfl⟩
  | cons a as ih =>
    intro i
    obtain ⟨b, hb⟩ := h i a List.mem_cons_self
    obtain ⟨bs, hbs⟩ := ih (fun i a ha => h i a (List.mem_cons_of_mem _ ha)) (i + 1)
    exact ⟨b :: bs, collect_cons_eq_ok_iff.mpr ⟨b, bs, hb, hbs, rfl⟩⟩

theorem forall₂_unique {R R' : α → β → Prop} (hR : ∀ a b b', R a b → R' a b' → b = b')
    {as : List α} {bs bs' : List β} (h : List.Forall₂ R as bs) (h' : List.Forall₂ R' as bs') :
    bs = bs' := by
  induction h generalizing bs' with
  | nil => cases h'; rfl
  | cons hab _ ih =>
    cases h' with
    | cons hab' h' => rw [hR _ _ _ hab hab', ih h']

end FluxTerm.Lib
