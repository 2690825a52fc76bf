import Mathlib.Data.List.Basic
import Mathlib.Data.List.TakeWhile

/-!
# Words

The words of a sequence between separators, of which there may be any number in a row.
-/

namespace FluxTerm.Lib

variable {α β : Type*}

/-- The words between the elements that meet `p`. -/
def wordsOf (p : α → Bool) (l : List α) : List (List α) := (l.splitOnP p).filter (!·.isEmpty)

variable {p : α → Bool}

theorem splitOnP_map (f : β → α) (l : List β) :
    (l.map f).splitOnP p = (l.splitOnP fun b => p (f b)).map (List.map f) := by
  induction l with
  | nil => rfl
  | cons b l ih =>
    rw [List.map_cons, List.splitOnP_cons_eq_if_modifyHead, List.splitOnP_cons_eq_if_modifyHead]
    split
    · rw [List.map_cons, ih, List.map_nil]
    · rw [ih]
      obtain ⟨first, rest, hsplit⟩ :=
        List.exists_cons_of_ne_nil (List.splitOnP_ne_nil (fun b => p (f b)) l)
      rw [hsplit]
      rfl

/-- **Elements that carry more** fall into words as they do without it. -/
theorem wordsOf_map (f : β → α) (l : List β) :
    wordsOf p (l.map f) = (wordsOf (fun b => p (f b)) l).map (List.map f) := by
  unfold wordsOf
  rw [splitOnP_map, List.filter_map]
  congr 1
  refine List.filter_congr fun word _ => ?_
  cases word <;> rfl

theorem wordsOf_append_cons {s : α} (hs : p s = true) (l m : List α) :
    wordsOf p (l ++ s :: m) = wordsOf p l ++ wordsOf p m := by
  unfold wordsOf
  rw [List.splitOnP_append_cons l m hs, List.filter_append]

theorem wordsOf_nil : wordsOf p ([] : List α) = [] := rfl

theorem wordsOf_word {word : List α} (hne : word ≠ []) (hword : ∀ a ∈ word, p a = false) :
    wordsOf p word = [word] := by
  unfold wordsOf
  rw [List.splitOnP_eq_singleton hword]
  simp [hne]

theorem not_sep_of_mem_splitOnP {l piece : List α} (h : piece ∈ l.splitOnP p) :
    ∀ a ∈ piece, p a = false := by
  induction l generalizing piece with
  | nil =>
    obtain rfl := List.mem_singleton.mp h
    exact fun a ha => nomatch ha
  | cons b l ih =>
    rw [List.splitOnP_cons_eq_if_modifyHead] at h
    obtain ⟨first, rest, hsplit⟩ := List.exists_cons_of_ne_nil (List.splitOnP_ne_nil p l)
    split at h
    · rcases List.mem_cons.mp h with rfl | h
      · exact fun a ha => nomatch ha
      · exact ih h
    · rename_i hb
      rw [hsplit, List.modifyHead_cons] at h
      rcases List.mem_cons.mp h with rfl | h
      · intro a ha
        rcases List.mem_cons.mp ha with rfl | ha
        · exact Bool.eq_false_iff.mpr hb
        · exact ih (hsplit ▸ List.mem_cons_self) a ha
      · exact ih (hsplit ▸ List.mem_cons_of_mem first h)

theorem not_sep_of_mem_wordsOf {l word : List α} (h : word ∈ wordsOf p l) :
    ∀ a ∈ word, p a = false :=
  not_sep_of_mem_splitOnP (List.mem_filter.mp h).1

/-! ## The ends -/

def EndsWord (p : α → Bool) (l : List α) : Prop := l = [] ∨ ∃ front s, l = front ++ [s] ∧ p s = true

def BeginsWord (p : α → Bool) (l : List α) : Prop := l = [] ∨ ∃ s back, l = s :: back ∧ p s = true

/-- **A stretch between separators.** -/
theorem wordsOf_middle {front word back : List α} (hfront : EndsWord p front) (hne : word ≠ [])
    (hword : ∀ a ∈ word, p a = false) (hback : BeginsWord p back) :
    wordsOf p (front ++ word ++ back) = wordsOf p front ++ word :: wordsOf p back := by
  have hrest : wordsOf p (word ++ back) = word :: wordsOf p back := by
    rcases hback with rfl | ⟨s, back, rfl, hs⟩
    · rw [List.append_nil, wordsOf_word hne hword, wordsOf_nil]
    · have hempty : wordsOf p (s :: back) = wordsOf p [] ++ wordsOf p back :=
        wordsOf_append_cons hs [] back
      rw [wordsOf_append_cons hs, wordsOf_word hne hword, hempty, wordsOf_nil]
      rfl
  rw [List.append_assoc]
  rcases hfront with rfl | ⟨front, s, rfl, hs⟩
  · rw [List.nil_append, hrest, wordsOf_nil, List.nil_append]
  · rw [List.append_assoc, List.singleton_append, wordsOf_append_cons hs, hrest,
      wordsOf_append_cons hs, wordsOf_nil, List.append_nil]

def firstWord (p : α → Bool) (l : List α) : List α := l.takeWhile fun a => !p a

def lastWord (p : α → Bool) (l : List α) : List α := (firstWord p l.reverse).reverse

theorem exists_firstWord (p : α → Bool) (l : List α) : ∃ back, l = firstWord p l ++ back ∧
    BeginsWord p back ∧ ∀ a ∈ firstWord p l, p a = false := by
  refine ⟨l.dropWhile fun a => !p a, (List.takeWhile_append_dropWhile).symm, ?_, fun a ha => ?_⟩
  · cases hdrop : l.dropWhile fun a => !p a with
    | nil => exact .inl rfl
    | cons s back =>
      have hhead := List.head_dropWhile_not (fun a => !p a) (l := l) (by simp [hdrop])
      exact .inr ⟨s, back, rfl, by simpa [hdrop] using hhead⟩
  · simpa using List.mem_takeWhile_imp ha

theorem exists_lastWord (p : α → Bool) (l : List α) : ∃ front, l = front ++ lastWord p l ∧
    EndsWord p front ∧ ∀ a ∈ lastWord p l, p a = false := by
  obtain ⟨back, hsplit, hback, hword⟩ := exists_firstWord p l.reverse
  refine ⟨back.reverse, ?_, ?_, fun a ha => hword a (List.mem_reverse.mp ha)⟩
  · have hrev := congrArg List.reverse hsplit
    rwa [List.reverse_reverse, List.reverse_append] at hrev
  · rcases hback with rfl | ⟨s, back, rfl, hs⟩
    · exact .inl rfl
    · exact .inr ⟨back.reverse, s, List.reverse_cons, hs⟩

theorem lastWord_append {front word : List α} (hfront : EndsWord p front)
    (hword : ∀ a ∈ word, p a = false) : lastWord p (front ++ word) = word := by
  have hall : ∀ a ∈ word.reverse, (!p a) = true := fun a ha => by
    rw [hword a (List.mem_reverse.mp ha)]
    rfl
  have hnone : firstWord p front.reverse = [] := by
    rcases hfront with rfl | ⟨front, s, rfl, hs⟩
    · rfl
    · rw [firstWord, List.reverse_concat', List.takeWhile_cons_of_neg (by simp [hs])]
  rw [firstWord] at hnone
  rw [lastWord, firstWord, List.reverse_append, List.takeWhile_append_of_pos hall, hnone,
    List.append_nil, List.reverse_reverse]

theorem EndsWord.append {front back : List α} (hfront : EndsWord p front)
    (hback : EndsWord p back) : EndsWord p (front ++ back) := by
  rcases hback with rfl | ⟨back, s, rfl, hs⟩
  · rwa [List.append_nil]
  · exact .inr ⟨front ++ back, s, (List.append_assoc _ _ _).symm, hs⟩

theorem EndsWord.map {f : α → β} {q : β → Bool} (hq : ∀ a, q (f a) = p a) {l : List α}
    (h : EndsWord p l) : EndsWord q (l.map f) := by
  rcases h with rfl | ⟨front, s, rfl, hs⟩
  · exact .inl rfl
  · exact .inr ⟨front.map f, f s, List.map_append, (hq s).trans hs⟩

theorem BeginsWord.map {f : α → β} {q : β → Bool} (hq : ∀ a, q (f a) = p a) {l : List α}
    (h : BeginsWord p l) : BeginsWord q (l.map f) := by
  rcases h with rfl | ⟨s, back, rfl, hs⟩
  · exact .inl rfl
  · exact .inr ⟨f s, back.map f, List.map_cons, (hq s).trans hs⟩

end FluxTerm.Lib
