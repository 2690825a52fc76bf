import Mathlib.Data.List.Basic

/-!
# Joined texts that can be told apart

Texts joined by a separator that may occur in them. What is joined can be read off the result if
each text begins with one of some marks, and in none of them a mark follows the separator.
-/

namespace FluxTerm.Lib

variable {α : Type*} {sep : α} {marks : List (List α)}

def Marked (marks : List (List α)) (text : List α) : Prop := ∃ mark ∈ marks, mark <+: text

def Plain (sep : α) (marks : List (List α)) (text : List α) : Prop :=
  ∀ before behind, text = before ++ sep :: behind → ¬Marked marks behind

def Behind (sep : α) (marks : List (List α)) (rest : List α) : Prop :=
  rest = [] ∨ ∃ next, rest = sep :: next ∧ Marked marks next

def joinedRest (sep : α) : List (List α) → List α
  | [] => []
  | texts => sep :: [sep].intercalate texts

theorem intercalate_cons (text : List α) (texts : List (List α)) :
    [sep].intercalate (text :: texts) = text ++ joinedRest sep texts := by
  cases texts with
  | nil => simp [joinedRest, List.intercalate]
  | cons second texts => simp [joinedRest, List.intercalate]

theorem mem_intercalate {a : α} {sep : List α} {texts : List (List α)}
    (h : a ∈ sep.intercalate texts) : a ∈ sep ∨ ∃ text ∈ texts, a ∈ text := by
  induction texts with
  | nil => cases h
  | cons text texts ih =>
    cases texts with
    | nil =>
      rw [List.intercalate_singleton] at h
      exact .inr ⟨text, List.mem_cons_self, h⟩
    | cons next texts =>
      rw [List.intercalate_cons_cons, List.mem_append, List.mem_append] at h
      rcases h with (h | h) | h
      · exact .inr ⟨text, List.mem_cons_self, h⟩
      · exact .inl h
      · rcases ih h with h | ⟨other, hother, h⟩
        · exact .inl h
        · exact .inr ⟨other, List.mem_cons_of_mem _ hother, h⟩

theorem map_intercalate {β : Type*} (f : α → β) (sep : List α) (texts : List (List α)) :
    (sep.intercalate texts).map f = (sep.map f).intercalate (texts.map (List.map f)) := by
  induction texts with
  | nil => rfl
  | cons text texts ih =>
    cases texts with
    | nil => rw [List.intercalate_singleton, List.map_singleton, List.intercalate_singleton]
    | cons next texts =>
      rw [List.intercalate_cons_cons, List.map_append, List.map_append, ih]
      exact List.intercalate_cons_cons.symm

theorem Marked.append {text : List α} (h : Marked marks text) (rest : List α) :
    Marked marks (text ++ rest) := by
  obtain ⟨mark, hmem, hbegin⟩ := h
  exact ⟨mark, hmem, hbegin.trans (List.prefix_append text rest)⟩

theorem plain_of_not_mem {text : List α} (h : sep ∉ text) : Plain sep marks text := by
  intro before behind heq
  exact absurd (heq ▸ List.mem_append_right before List.mem_cons_self) h

theorem Plain.append_left {text : List α} (h : Plain sep marks text) {front : List α}
    (hfront : sep ∉ front) : Plain sep marks (front ++ text) := by
  intro before behind heq
  rcases List.append_eq_append_iff.mp heq with ⟨excess, rfl, hover⟩ | ⟨excess, rfl, hover⟩
  · exact h excess behind hover
  · cases excess with
    | nil => exact h [] behind hover.symm
    | cons c excess =>
      obtain ⟨rfl, -⟩ := List.cons.inj hover
      exact absurd (List.mem_append_right before List.mem_cons_self) hfront

theorem behind_joinedRest {texts : List (List α)} (h : ∀ text ∈ texts, Marked marks text) :
    Behind sep marks (joinedRest sep texts) := by
  cases texts with
  | nil => exact .inl rfl
  | cons text texts =>
    refine .inr ⟨_, rfl, ?_⟩
    rw [intercalate_cons]
    exact (h text List.mem_cons_self).append _

theorem marked_of_append (hmarks : ∀ mark ∈ marks, sep ∉ mark) {text rest : List α}
    (hrest : Behind sep marks rest) (h : Marked marks (text ++ rest)) : Marked marks text := by
  obtain ⟨mark, hmem, tail, htail⟩ := h
  refine ⟨mark, hmem, ?_⟩
  rcases List.append_eq_append_iff.mp htail with ⟨excess, rfl, -⟩ | ⟨excess, rfl, hover⟩
  · exact List.prefix_append mark excess
  · cases excess with
    | nil => simp
    | cons c excess =>
      rcases hrest with rfl | ⟨next, rfl, -⟩
      · cases hover
      · obtain ⟨rfl, -⟩ := List.cons.inj hover
        exact absurd (List.mem_append_right _ List.mem_cons_self) (hmarks _ hmem)

theorem eq_of_append_eq (hmarks : ∀ mark ∈ marks, sep ∉ mark) {text text' rest rest' : List α}
    (hplain' : Plain sep marks text') (hrest : Behind sep marks rest)
    (hrest' : Behind sep marks rest') (h : text ++ rest = text' ++ rest')
    (hle : text.length ≤ text'.length) : text = text' := by
  rcases List.append_eq_append_iff.mp h with ⟨excess, rfl, hover⟩ | ⟨excess, rfl, -⟩
  · cases excess with
    | nil => rw [List.append_nil]
    | cons c excess =>
      -- the longer text has a separator with a mark behind it
      rcases hrest with rfl | ⟨next, rfl, hnext⟩
      · cases hover
      · obtain ⟨rfl, rfl⟩ := List.cons.inj hover
        exact absurd (marked_of_append hmarks hrest' hnext) (hplain' text excess rfl)
  · rw [List.length_append] at hle
    rw [List.eq_nil_of_length_eq_zero (by omega : excess.length = 0), List.append_nil]

/-- **Joined texts can be read off.** -/
theorem intercalate_injective (hmarks : ∀ mark ∈ marks, sep ∉ mark ∧ mark ≠ [])
    {texts texts' : List (List α)} (h : ∀ text ∈ texts, Marked marks text ∧ Plain sep marks text)
    (h' : ∀ text ∈ texts', Marked marks text ∧ Plain sep marks text)
    (heq : [sep].intercalate texts = [sep].intercalate texts') : texts = texts' := by
  have hsep : ∀ mark ∈ marks, sep ∉ mark := fun mark hmark => (hmarks mark hmark).1
  have hne {text : List α} (hmarked : Marked marks text) (rest : List α) : text ++ rest ≠ [] := by
    obtain ⟨mark, hmem, hbegin⟩ := hmarked
    intro hnil
    have htext := (List.append_eq_nil_iff.mp hnil).1
    exact (hmarks mark hmem).2 (List.prefix_nil.mp (htext ▸ hbegin))
  induction texts generalizing texts' with
  | nil =>
    cases texts' with
    | nil => rfl
    | cons text' texts' =>
      rw [intercalate_cons] at heq
      exact absurd heq.symm (hne (h' text' List.mem_cons_self).1 _)
  | cons text texts ih =>
    cases texts' with
    | nil =>
      rw [intercalate_cons] at heq
      exact absurd heq (hne (h text List.mem_cons_self).1 _)
    | cons text' texts' =>
      obtain ⟨⟨-, hplain⟩, hrest⟩ := List.forall_mem_cons.mp h
      obtain ⟨⟨-, hplain'⟩, hrest'⟩ := List.forall_mem_cons.mp h'
      have hbehind : Behind sep marks (joinedRest sep texts) :=
        behind_joinedRest fun t ht => (hrest t ht).1
      have hbehind' : Behind sep marks (joinedRest sep texts') :=
        behind_joinedRest fun t ht => (hrest' t ht).1
      rw [intercalate_cons, intercalate_cons] at heq
      obtain rfl : text = text' := by
        rcases Nat.le_total text.length text'.length with hle | hle
        · exact eq_of_append_eq hsep hplain' hbehind hbehind' heq hle
        · exact (eq_of_append_eq hsep hplain hbehind' hbehind heq.symm hle).symm
      have hjoined := List.append_cancel_left heq
      refine congrArg (text :: ·) (ih hrest hrest' ?_)
      cases texts with
      | nil =>
        cases texts' with
        | nil => rfl
        | cons second texts' => cases hjoined
      | cons first texts =>
        cases texts' with
        | nil => cases hjoined
        | cons second texts' => exact (List.cons.inj hjoined).2

end FluxTerm.Lib
