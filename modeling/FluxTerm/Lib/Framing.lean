import Mathlib.Data.List.Basic

/-!
# Lines and a blank line

Text framed by line ends of two symbols, `cr lf`, with a blank line after its last line: how it
splits into lines, and where it ends in a longer sequence.
-/

namespace FluxTerm.Lib

variable {α : Type} [DecidableEq α] (cr lf : α)

def joinHead (lines : List (List α)) : List α :=
  lines.flatMap (fun line => line ++ [cr, lf]) ++ [cr, lf]

def splitLines : List α → List (List α)
  | [] => [[]]
  | [x] => [[x]]
  | x :: y :: rest =>
    if x = cr ∧ y = lf then [] :: splitLines rest
    else (splitLines (y :: rest)).modifyHead (x :: ·)

def headEnd : List α → Option ℕ
  | [] => none
  | x :: xs => if [cr, lf, cr, lf] <+: x :: xs then some 4 else (headEnd xs).map (· + 1)

/-- `head` is the shortest beginning of `xs` that ends in a line end and an empty line. -/
structure IsHead (xs head : List α) : Prop where
  isPrefix : head <+: xs
  isSuffix : [cr, lf, cr, lf] <:+ head
  shortest : ∀ other, other <+: xs → [cr, lf, cr, lf] <:+ other → head.length ≤ other.length

/-- Lines that a blank line tells from what follows: at least one, and none of them empty or with
a `cr` in it. -/
structure Framed (lines : List (List α)) : Prop where
  ne_nil : lines ≠ []
  line_ne_nil : ∀ line ∈ lines, line ≠ []
  not_mem : ∀ line ∈ lines, cr ∉ line

variable {cr lf}

omit [DecidableEq α] in
theorem joinHead_cons (line : List α) (lines : List (List α)) :
    joinHead cr lf (line :: lines) = line ++ cr :: lf :: joinHead cr lf lines := by
  simp [joinHead]

/-! ## Lines -/

theorem splitLines_append_cons {line : List α} (h : cr ∉ line) (rest : List α) :
    splitLines cr lf (line ++ cr :: lf :: rest) = line :: splitLines cr lf rest := by
  induction line with
  | nil => simp [splitLines]
  | cons x line ih =>
    have hx : x ≠ cr := fun he => h (he ▸ List.mem_cons_self)
    have htail := ih fun hmem => h (List.mem_cons_of_mem _ hmem)
    -- what follows `x` is not empty, and `x` begins no line end
    cases line with
    | nil =>
      rw [List.nil_append] at htail
      simp [splitLines, hx]
    | cons y line =>
      rw [List.cons_append, List.cons_append, splitLines, if_neg fun hc => hx hc.1,
        ← List.cons_append, htail]
      rfl

/-- **Lines taken apart.** A head splits into its lines, the blank line and what is after it. -/
theorem splitLines_joinHead {lines : List (List α)} (h : ∀ line ∈ lines, cr ∉ line) :
    splitLines cr lf (joinHead cr lf lines) = lines ++ [[], []] := by
  induction lines with
  | nil => simp [joinHead, splitLines]
  | cons line lines ih =>
    rw [joinHead_cons, splitLines_append_cons (h line List.mem_cons_self),
      ih fun l hl => h l (List.mem_cons_of_mem _ hl)]
    rfl

theorem eq_of_joinHead_eq {before lines lines' after : List (List α)}
    (h : ∀ line ∈ lines, cr ∉ line) (h' : ∀ line ∈ lines', cr ∉ line)
    (heq : joinHead cr lf (before ++ (lines ++ after)) =
      joinHead cr lf (before ++ (lines' ++ after))) : lines = lines' := by
  have hjoin : joinHead cr lf lines = joinHead cr lf lines' := by
    simp only [joinHead, List.flatMap_append, List.append_assoc] at heq ⊢
    have hleft := List.append_cancel_left heq
    rw [List.append_cancel_right hleft]
  have hsplit := congrArg (splitLines cr lf) hjoin
  rw [splitLines_joinHead h, splitLines_joinHead h'] at hsplit
  exact List.append_cancel_right hsplit

/-! ## The end of a head -/

theorem headEnd_cons_of_ne {x : α} (hx : x ≠ cr) (xs : List α) :
    headEnd cr lf (x :: xs) = (headEnd cr lf xs).map (· + 1) := by
  have hpre : ¬[cr, lf, cr, lf] <+: x :: xs := fun h => hx (List.cons_prefix_cons.mp h).1.symm
  rw [headEnd, if_neg hpre]

theorem headEnd_append_of_not_mem {xs : List α} (h : cr ∉ xs) (ys : List α) :
    headEnd cr lf (xs ++ ys) = (headEnd cr lf ys).map (· + xs.length) := by
  induction xs with
  | nil => simp
  | cons x xs ih =>
    have hx : x ≠ cr := fun he => h (he ▸ List.mem_cons_self)
    rw [List.cons_append, headEnd_cons_of_ne hx, ih fun hmem => h (List.mem_cons_of_mem _ hmem),
      Option.map_map]
    rfl

theorem headEnd_le {n : ℕ} : ∀ {xs : List α}, headEnd cr lf xs = some n → n ≤ xs.length
  | [], h => by cases h
  | x :: xs, h => by
    rw [headEnd] at h
    split at h
    · rename_i hpre
      cases h
      exact hpre.length_le
    · obtain ⟨m, hm, rfl⟩ := Option.map_eq_some_iff.mp h
      exact Nat.succ_le_succ (headEnd_le hm)

theorem four_le_headEnd {n : ℕ} : ∀ {xs : List α}, headEnd cr lf xs = some n → 4 ≤ n
  | [], h => by cases h
  | x :: xs, h => by
    rw [headEnd] at h
    split at h
    · cases h
      exact Nat.le_refl 4
    · obtain ⟨m, hm, rfl⟩ := Option.map_eq_some_iff.mp h
      exact Nat.le_succ_of_le (four_le_headEnd hm)

theorem headEnd_append {n : ℕ} (ys : List α) :
    ∀ {xs : List α}, headEnd cr lf xs = some n → headEnd cr lf (xs ++ ys) = some n
  | [], h => by cases h
  | x :: xs, h => by
    rw [headEnd] at h
    rw [List.cons_append, headEnd]
    split at h
    · rename_i hpre
      have hlong : [cr, lf, cr, lf] <+: x :: (xs ++ ys) := hpre.trans (List.prefix_append _ _)
      rw [if_pos hlong]
      exact h
    · rename_i hpre
      obtain ⟨m, hm, rfl⟩ := Option.map_eq_some_iff.mp h
      have hlong : ¬[cr, lf, cr, lf] <+: x :: (xs ++ ys) := by
        intro hc
        -- a head is found in `xs` only if there are four symbols
        have hfour : 4 ≤ (x :: xs).length := by
          have hle := headEnd_le hm
          have hpos : 4 ≤ m := four_le_headEnd hm
          simp only [List.length_cons]
          omega
        exact hpre (List.prefix_of_prefix_length_le hc
          (List.prefix_append (x :: xs) ys) hfour)
      rw [if_neg hlong, headEnd_append ys hm]
      rfl

theorem headEnd_of_append {n : ℕ} {ys : List α} : ∀ {xs : List α},
    headEnd cr lf (xs ++ ys) = some n → n ≤ xs.length → headEnd cr lf xs = some n
  | [], h, hn => by
    have hfour := four_le_headEnd h
    simp only [List.length_nil] at hn
    omega
  | x :: xs, h, hn => by
    have hfour := four_le_headEnd h
    rw [List.cons_append, headEnd] at h
    rw [headEnd]
    split at h
    · rename_i hpre
      cases h
      have hshort : [cr, lf, cr, lf] <+: x :: xs :=
        List.prefix_of_prefix_length_le hpre (List.prefix_append (x :: xs) ys) hn
      rw [if_pos hshort]
    · rename_i hpre
      obtain ⟨m, hm, rfl⟩ := Option.map_eq_some_iff.mp h
      have hshort : ¬[cr, lf, cr, lf] <+: x :: xs := fun hc => hpre (hc.trans (List.prefix_append _ _))
      rw [if_neg hshort, headEnd_of_append hm (Nat.le_of_succ_le_succ hn)]
      rfl

theorem suffix_take_headEnd {n : ℕ} : ∀ {xs : List α},
    headEnd cr lf xs = some n → [cr, lf, cr, lf] <:+ xs.take n
  | [], h => by cases h
  | x :: xs, h => by
    rw [headEnd] at h
    split at h
    · rename_i hpre
      cases h
      have htake : [cr, lf, cr, lf] = (x :: xs).take 4 := List.prefix_iff_eq_take.mp hpre
      exact htake ▸ List.suffix_rfl
    · obtain ⟨m, hm, rfl⟩ := Option.map_eq_some_iff.mp h
      rw [List.take_succ_cons]
      exact (suffix_take_headEnd hm).trans (List.suffix_cons x _)

theorem headEnd_le_of_suffix (cr lf : α) : ∀ (before rest : List α),
    ∃ n ≤ before.length + 4, headEnd cr lf (before ++ [cr, lf, cr, lf] ++ rest) = some n
  | [], rest => by
    refine ⟨4, by simp, ?_⟩
    have hpre : [cr, lf, cr, lf] <+: cr :: lf :: cr :: lf :: rest := ⟨rest, rfl⟩
    show headEnd cr lf (cr :: lf :: cr :: lf :: rest) = some 4
    rw [headEnd, if_pos hpre]
  | x :: before, rest => by
    obtain ⟨n, hn, hend⟩ := headEnd_le_of_suffix cr lf before rest
    rw [List.cons_append, List.cons_append, headEnd]
    split
    · exact ⟨4, by simp, rfl⟩
    · refine ⟨n + 1, ?_, by rw [hend]; rfl⟩
      rw [List.length_cons]
      omega

/-- **The end of the head.** It is where the shortest beginning ends that ends in a blank line. -/
theorem headEnd_eq_some_iff {xs : List α} {n : ℕ} :
    headEnd cr lf xs = some n ↔ n ≤ xs.length ∧ IsHead cr lf xs (xs.take n) := by
  have hsome : ∀ other : List α, other <+: xs → [cr, lf, cr, lf] <:+ other →
      ∃ m ≤ other.length, headEnd cr lf xs = some m := by
    rintro other ⟨rest, rfl⟩ ⟨before, rfl⟩
    obtain ⟨m, hm, hend⟩ := headEnd_le_of_suffix cr lf before rest
    exact ⟨m, by simpa using hm, hend⟩
  constructor
  · intro h
    have hle := headEnd_le h
    refine ⟨hle, List.take_prefix n xs, suffix_take_headEnd h, fun other hpre hsuf => ?_⟩
    obtain ⟨m, hm, hend⟩ := hsome other hpre hsuf
    rw [h] at hend
    cases hend
    rw [List.length_take]
    omega
  · rintro ⟨hle, hhead⟩
    obtain ⟨m, hm, hend⟩ := hsome _ hhead.isPrefix hhead.isSuffix
    have hshort := hhead.shortest _ (List.take_prefix m xs) (suffix_take_headEnd hend)
    have hlen := headEnd_le hend
    rw [List.length_take, List.length_take] at hshort
    rw [List.length_take] at hm
    have hmn : m = n := by omega
    rw [hend, hmn]

theorem headEnd_eq_some_of_isHead {xs head : List α} (h : IsHead cr lf xs head) :
    headEnd cr lf xs = some head.length := by
  have htake := List.prefix_iff_eq_take.mp h.isPrefix
  exact headEnd_eq_some_iff.mpr ⟨h.isPrefix.length_le, htake ▸ h⟩

theorem headEnd_concat {xs : List α} (h : headEnd cr lf xs = none) (x : α) :
    headEnd cr lf (xs ++ [x]) =
      if [cr, lf, cr, lf] <:+ xs ++ [x] then some (xs.length + 1) else none := by
  -- a head that ends before the symbol is a head of what is before it
  have hlast : ∀ n, headEnd cr lf (xs ++ [x]) = some n → n = xs.length + 1 := by
    intro n hn
    have hle := headEnd_le hn
    rw [List.length_append, List.length_singleton] at hle
    by_contra hne
    rw [headEnd_of_append hn (by omega)] at h
    cases h
  cases hend : headEnd cr lf (xs ++ [x]) with
  | none =>
    rw [if_neg]
    rintro ⟨before, hbefore⟩
    obtain ⟨n, -, hn⟩ := headEnd_le_of_suffix cr lf before []
    rw [List.append_nil, hbefore, hend] at hn
    cases hn
  | some n =>
    have hn := hlast n hend
    have hsuffix := suffix_take_headEnd hend
    rw [hn, List.take_of_length_le (by simp)] at hsuffix
    rw [if_pos hsuffix, hn]

/-- **The head is found.** The head of framed lines ends where its blank line does. -/
theorem headEnd_joinHead (hne : cr ≠ lf) {lines : List (List α)} (h : Framed cr lines)
    (ys : List α) :
    headEnd cr lf (joinHead cr lf lines ++ ys) = some (joinHead cr lf lines).length := by
  obtain ⟨hnil, hlines, hcr⟩ := h
  induction lines with
  | nil => exact absurd rfl hnil
  | cons line lines ih =>
    rw [joinHead_cons, List.append_assoc, headEnd_append_of_not_mem (hcr line List.mem_cons_self),
      List.cons_append, List.cons_append]
    cases lines with
    | nil =>
      -- the line end of the last line and the blank line
      have hpre : [cr, lf, cr, lf] <+: cr :: lf :: (joinHead cr lf [] ++ ys) := ⟨ys, rfl⟩
      rw [headEnd, if_pos hpre]
      simp [joinHead, Nat.add_comm]
    | cons next lines =>
      have hnext := hlines next (List.mem_cons_of_mem _ List.mem_cons_self)
      have hnextcr := hcr next (List.mem_cons_of_mem _ List.mem_cons_self)
      have hpre : ¬[cr, lf, cr, lf] <+: cr :: lf :: (joinHead cr lf (next :: lines) ++ ys) := by
        intro hc
        cases next with
        | nil => exact hnext rfl
        | cons x next =>
          have hx := (List.cons_prefix_cons.mp (List.cons_prefix_cons.mp
            (List.cons_prefix_cons.mp hc).2).2).1
          exact hnextcr (hx ▸ List.mem_cons_self)
      rw [headEnd, if_neg hpre, headEnd_cons_of_ne (Ne.symm hne),
        ih (List.cons_ne_nil _ _) (fun l hl => hlines l (List.mem_cons_of_mem _ hl))
          (fun l hl => hcr l (List.mem_cons_of_mem _ hl))]
      simp only [Option.map_some, List.length_append, List.length_cons]
      congr 1
      omega

theorem joinHead_append_inj (hne : cr ≠ lf) {lines lines' : List (List α)} {xs xs' : List α}
    (h : Framed cr lines) (h' : Framed cr lines')
    (heq : joinHead cr lf lines ++ xs = joinHead cr lf lines' ++ xs') :
    lines = lines' ∧ xs = xs' := by
  have hend := headEnd_joinHead hne h xs
  rw [heq, headEnd_joinHead hne h' xs'] at hend
  obtain ⟨hhead, hrest⟩ := List.append_inj heq (Option.some.inj hend).symm
  have hsplit := congrArg (splitLines cr lf) hhead
  rw [splitLines_joinHead h.not_mem, splitLines_joinHead h'.not_mem] at hsplit
  exact ⟨List.append_cancel_right hsplit, hrest⟩

end FluxTerm.Lib
