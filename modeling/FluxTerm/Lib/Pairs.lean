import Mathlib.Data.List.Basic

/-!
# Two by two

A sequence is taken two by two; its last symbol is over where the length is odd.
-/

namespace FluxTerm.Lib

variable {α β : Type*}

def whole : List α → List α
  | a :: b :: l => a :: b :: whole l
  | _ => []

def unpaired : List α → List α
  | _ :: _ :: l => unpaired l
  | l => l

def pairsWith (f : α → α → β) : List α → List β
  | a :: b :: l => f a b :: pairsWith f l
  | _ => []

@[simp] theorem whole_append_unpaired : ∀ l : List α, whole l ++ unpaired l = l
  | [] => rfl
  | [_] => rfl
  | a :: b :: l => congrArg (a :: b :: ·) (whole_append_unpaired l)

theorem take_eq_whole : ∀ l : List α, l.take (l.length - l.length % 2) = whole l
  | [] => rfl
  | [_] => rfl
  | a :: b :: l => by
    have hlength : (a :: b :: l).length - (a :: b :: l).length % 2
        = l.length - l.length % 2 + 1 + 1 := by
      simp only [List.length_cons]
      omega
    rw [hlength]
    exact congrArg (a :: b :: ·) (take_eq_whole l)

theorem drop_eq_unpaired (l : List α) : l.drop (l.length - l.length % 2) = unpaired l := by
  have hsplit := List.take_append_drop (l.length - l.length % 2) l
  rw [take_eq_whole] at hsplit
  exact List.append_cancel_left (hsplit.trans (whole_append_unpaired l).symm)

theorem unpaired_eq : ∀ l : List α, unpaired l = [] ∨ ∃ a, unpaired l = [a]
  | [] => .inl rfl
  | [a] => .inr ⟨a, rfl⟩
  | _ :: _ :: l => unpaired_eq l

theorem pairsWith_whole_append (f : α → α → β) :
    ∀ l t : List α, pairsWith f (whole l ++ t) = pairsWith f l ++ pairsWith f t
  | [], _ => rfl
  | [_], _ => rfl
  | a :: b :: l, t => congrArg (f a b :: ·) (pairsWith_whole_append f l t)

theorem unpaired_whole_append : ∀ l t : List α, unpaired (whole l ++ t) = unpaired t
  | [], _ => rfl
  | [_], _ => rfl
  | _ :: _ :: l, t => unpaired_whole_append l t

theorem pairsWith_whole (f : α → α → β) (l : List α) : pairsWith f (whole l) = pairsWith f l := by
  have h : pairsWith f (whole l ++ []) = pairsWith f l ++ [] := pairsWith_whole_append f l []
  rwa [List.append_nil, List.append_nil] at h

theorem unpaired_whole (l : List α) : unpaired (whole l) = [] := by
  have h := unpaired_whole_append l []
  rwa [List.append_nil] at h

theorem eq_of_pairs {f : α → α → β} {p : α → Prop}
    (hf : ∀ {a b c d}, p a → p b → p c → p d → f a b = f c d → a = c ∧ b = d) :
    ∀ {l t : List α}, (∀ a ∈ l, p a) → (∀ a ∈ t, p a) → pairsWith f l = pairsWith f t →
      unpaired l = unpaired t → l = t
  | [], [], _, _, _, _ => rfl
  | [], [_], _, _, _, h => nomatch h
  | [_], [], _, _, _, h => nomatch h
  | [_], [_], _, _, _, h => h
  | [], _ :: _ :: _, _, _, h, _ => nomatch h
  | [_], _ :: _ :: _, _, _, h, _ => nomatch h
  | _ :: _ :: _, [], _, _, h, _ => nomatch h
  | _ :: _ :: _, [_], _, _, h, _ => nomatch h
  | a :: b :: l, c :: d :: t, hl, ht, h, hrest => by
    obtain ⟨hhead, htail⟩ := List.cons.inj h
    have hpairs := eq_of_pairs hf (fun x hx => hl x (by simp [hx]))
      (fun x hx => ht x (by simp [hx])) htail hrest
    obtain ⟨rfl, rfl⟩ := hf (hl a (by simp)) (hl b (by simp)) (ht c (by simp)) (ht d (by simp))
      hhead
    rw [hpairs]

end FluxTerm.Lib
