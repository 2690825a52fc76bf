import Mathlib.Data.List.Basic

/-!
# Split trees

Binary trees whose inner nodes carry a label and whose leaves carry the data: a screen cut into
regions. What the operations do to the leaves, from left to right, is what most of their users
need to know.
-/

namespace FluxTerm.Lib

/-- A tree of splits with label `σ` over leaves `α`. -/
inductive SplitTree (σ α : Type) where
  | leaf (a : α)
  | split (label : σ) (first second : SplitTree σ α)
deriving DecidableEq

namespace SplitTree

variable {σ α β : Type}

/-! ## Leaves -/

def leaves : SplitTree σ α → List α
  | leaf a => [a]
  | split _ first second => first.leaves ++ second.leaves

@[simp] theorem leaves_leaf (a : α) : (leaf a : SplitTree σ α).leaves = [a] := rfl

@[simp] theorem leaves_split (label : σ) (first second : SplitTree σ α) :
    (split label first second).leaves = first.leaves ++ second.leaves := rfl

theorem leaves_ne_nil (t : SplitTree σ α) : t.leaves ≠ [] := by
  induction t with
  | leaf a => simp
  | split label first second ih₁ _ => simp [ih₁]

def expand (f : α → SplitTree σ β) : SplitTree σ α → SplitTree σ β
  | leaf a => f a
  | split label first second => split label (first.expand f) (second.expand f)

theorem leaves_expand (f : α → SplitTree σ β) (t : SplitTree σ α) :
    (t.expand f).leaves = t.leaves.flatMap fun a => (f a).leaves := by
  induction t with
  | leaf a => simp [expand]
  | split label first second ih₁ ih₂ => simp [expand, ih₁, ih₂]

def mapLeaf (f : α → β) (t : SplitTree σ α) : SplitTree σ β := t.expand fun a => leaf (f a)

@[simp] theorem leaves_mapLeaf (f : α → β) (t : SplitTree σ α) :
    (t.mapLeaf f).leaves = t.leaves.map f := by
  rw [mapLeaf, leaves_expand]
  exact List.map_eq_flatMap.symm

/-- Leaves kept, changed or dropped; a split that lost a side gives way to the other one. -/
def prune (f : α → Option α) : SplitTree σ α → Option (SplitTree σ α)
  | leaf a => (f a).map leaf
  | split label first second =>
    match first.prune f, second.prune f with
    | none, none => none
    | none, some second => some second
    | some first, none => some first
    | some first, some second => some (split label first second)

def leaves? (t : Option (SplitTree σ α)) : List α := t.elim [] leaves

@[simp] theorem leaves?_none : leaves? (none : Option (SplitTree σ α)) = [] := rfl

@[simp] theorem leaves?_some (t : SplitTree σ α) : leaves? (some t) = t.leaves := rfl

theorem leaves_prune (f : α → Option α) (t : SplitTree σ α) :
    leaves? (t.prune f) = t.leaves.filterMap f := by
  induction t with
  | leaf a => cases hf : f a <;> simp [prune, hf]
  | split label first second ih₁ ih₂ =>
    rw [leaves_split, List.filterMap_append, ← ih₁, ← ih₂, prune]
    cases first.prune f <;> cases second.prune f <;> simp

/-! ## Nodes by their path -/

inductive Side where
  | first
  | second
deriving DecidableEq

def subtree : SplitTree σ α → List Side → Option (SplitTree σ α)
  | t, [] => some t
  | split _ first _, .first :: path => first.subtree path
  | split _ _ second, .second :: path => second.subtree path
  | leaf _, _ :: _ => none

@[simp] theorem subtree_nil (t : SplitTree σ α) : t.subtree [] = some t := by
  cases t <;> rfl

def labelAt : SplitTree σ α → List Side → Option σ
  | split label _ _, [] => some label
  | split _ first _, .first :: path => first.labelAt path
  | split _ _ second, .second :: path => second.labelAt path
  | leaf _, _ => none

def shape : SplitTree σ α → SplitTree Unit α
  | leaf a => leaf a
  | split _ first second => split () first.shape second.shape

/-- **Extensionality.** A tree is its shape and the labels of its splits. -/
theorem ext_labelAt {t u : SplitTree σ α} (hshape : t.shape = u.shape)
    (hlabel : ∀ path, t.labelAt path = u.labelAt path) : t = u := by
  induction t generalizing u with
  | leaf a =>
    cases u with
    | leaf b => simpa [shape] using hshape
    | split label first second => simp [shape] at hshape
  | split label first second ih₁ ih₂ =>
    cases u with
    | leaf b => simp [shape] at hshape
    | split label' first' second' =>
      simp only [shape, split.injEq, true_and] at hshape
      have hroot : label = label' := by simpa [labelAt] using hlabel []
      rw [hroot, ih₁ hshape.1 fun path => hlabel (.first :: path),
        ih₂ hshape.2 fun path => hlabel (.second :: path)]

def setLabel (label : σ) : SplitTree σ α → List Side → SplitTree σ α
  | split _ first second, [] => split label first second
  | split label' first second, .first :: path => split label' (first.setLabel label path) second
  | split label' first second, .second :: path => split label' first (second.setLabel label path)
  | leaf a, _ => leaf a

theorem shape_setLabel (label : σ) (t : SplitTree σ α) (path : List Side) :
    (t.setLabel label path).shape = t.shape := by
  induction t generalizing path with
  | leaf a => cases path <;> rfl
  | split label' first second ih₁ ih₂ =>
    cases path with
    | nil => rfl
    | cons side path => cases side <;> simp [setLabel, shape, ih₁, ih₂]

theorem labelAt_setLabel {label : σ} {t : SplitTree σ α} {path : List Side}
    (hpath : (t.labelAt path).isSome) (path' : List Side) :
    (t.setLabel label path).labelAt path'
      = if path' = path then some label else t.labelAt path' := by
  induction t generalizing path path' with
  | leaf a => cases path <;> simp [labelAt] at hpath
  | split label' first second ih₁ ih₂ =>
    cases path with
    | nil =>
      cases path' with
      | nil => rfl
      | cons side' path' => cases side' <;> simp [setLabel, labelAt]
    | cons side path =>
      cases side <;> cases path' with
      | nil => simp [setLabel, labelAt]
      | cons side' path' => cases side' <;> simp_all [setLabel, labelAt]

/-- Every split gets the label that `f` gives it, seen with its two sides. -/
def relabel (f : σ → SplitTree σ α → SplitTree σ α → σ) : SplitTree σ α → SplitTree σ α
  | leaf a => leaf a
  | split label first second =>
    split (f label first second) (first.relabel f) (second.relabel f)

theorem shape_relabel (f : σ → SplitTree σ α → SplitTree σ α → σ) (t : SplitTree σ α) :
    (t.relabel f).shape = t.shape := by
  induction t with
  | leaf a => rfl
  | split label first second ih₁ ih₂ => simp [relabel, shape, ih₁, ih₂]

theorem labelAt_relabel (f : σ → SplitTree σ α → SplitTree σ α → σ) {t : SplitTree σ α}
    {path : List Side} {label : σ} {first second : SplitTree σ α}
    (h : t.subtree path = some (split label first second)) :
    (t.relabel f).labelAt path = some (f label first second) := by
  induction path generalizing t with
  | nil =>
    rw [subtree_nil, Option.some.injEq] at h
    subst h
    rfl
  | cons side path ih =>
    cases t with
    | leaf a => simp [subtree] at h
    | split label' first' second' => cases side <;> exact ih h

theorem labelAt_eq_some_iff {t : SplitTree σ α} {path : List Side} {label : σ} :
    t.labelAt path = some label ↔
      ∃ first second, t.subtree path = some (split label first second) := by
  induction path generalizing t with
  | nil => cases t <;> simp [labelAt, eq_comm]
  | cons side path ih =>
    cases t with
    | leaf a => simp [labelAt, subtree]
    | split label' first' second' => cases side <;> exact ih

theorem labelAt_eq_of_shape_eq {τ : Type} {t : SplitTree σ α} {u : SplitTree τ α}
    (hshape : t.shape = u.shape) (path : List Side) :
    t.labelAt path = none ↔ u.labelAt path = none := by
  induction t generalizing u path with
  | leaf a =>
    cases u with
    | leaf b => cases path <;> simp [labelAt]
    | split label first second => simp [shape] at hshape
  | split label first second ih₁ ih₂ =>
    cases u with
    | leaf b => simp [shape] at hshape
    | split label' first' second' =>
      simp only [shape, split.injEq, true_and] at hshape
      cases path with
      | nil => simp [labelAt]
      | cons side path =>
        cases side with
        | first => exact ih₁ hshape.1 path
        | second => exact ih₂ hshape.2 path

end SplitTree

end FluxTerm.Lib
