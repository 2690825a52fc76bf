import FluxTerm.Lib.Text

/-!
# Records in the lines of a file

A text file whose lines are records, or nothing that can be read as one. A record has a key, the
first record with a key counts, and a new one replaces all with its key at the end of the file.
-/

namespace FluxTerm.Lib

/-! ## Lines -/

def trimCr (line : Text) : Text := if line.getLast? = some '\r' then line.dropLast else line

/-- `str::lines`: there is no line after the last line feed. -/
def textLines (s : Text) : List Text :=
  let parts := s.splitOn '\n'
  parts.dropLast.map trimCr ++ (parts.getLast?.filter (· ≠ [])).toList

def joinLines (lines : List Text) : Text := List.intercalate ['\n'] lines ++ ['\n']

theorem joinLines_eq {lines : List Text} (hne : lines ≠ []) :
    joinLines lines = List.intercalate ['\n'] (lines ++ [[]]) := by
  induction lines with
  | nil => exact absurd rfl hne
  | cons line lines ih =>
    cases lines with
    | nil => simp [joinLines]
    | cons next lines =>
      have htail := ih (List.cons_ne_nil next lines)
      unfold joinLines at htail ⊢
      rw [List.intercalate_cons_cons, List.append_assoc, htail]
      exact List.intercalate_cons_cons.symm

theorem textLines_joinLines {lines : List Text} (hne : lines ≠ [])
    (h : ∀ line ∈ lines, '\n' ∉ line) : textLines (joinLines lines) = lines.map trimCr := by
  have hparts : (joinLines lines).splitOn '\n' = lines ++ [[]] := by
    rw [joinLines_eq hne]
    refine List.splitOn_intercalate '\n' (fun line hline => ?_) (by simp)
    rcases List.mem_append.mp hline with hline | hline
    · exact h line hline
    · rw [List.mem_singleton.mp hline]
      exact List.not_mem_nil
  unfold textLines
  rw [hparts]
  simp

theorem not_mem_of_mem_splitOn {c : Char} : ∀ {s line : Text}, line ∈ s.splitOn c → c ∉ line
  | [], line, h => by
    rw [List.splitOn_nil, List.mem_singleton] at h
    rw [h]
    exact List.not_mem_nil
  | d :: s, line, h => by
    rw [List.splitOn_cons_eq_if_modifyHead] at h
    split at h
    · rcases List.mem_cons.mp h with rfl | h
      · exact List.not_mem_nil
      · exact not_mem_of_mem_splitOn h
    · rename_i hd
      cases hsplit : s.splitOn c with
      | nil => exact absurd hsplit (List.splitOn_ne_nil c s)
      | cons first rest =>
        rw [hsplit, List.modifyHead_cons] at h
        rcases List.mem_cons.mp h with rfl | h
        · have hfirst : c ∉ first := not_mem_of_mem_splitOn (s := s) (hsplit ▸ List.mem_cons_self)
          intro hmem
          rcases List.mem_cons.mp hmem with hcd | hmem
          · exact hd (beq_iff_eq.mpr hcd.symm)
          · exact hfirst hmem
        · exact not_mem_of_mem_splitOn (s := s) (hsplit ▸ List.mem_cons_of_mem _ h)

theorem mem_of_mem_trimCr {c : Char} {line : Text} (h : c ∈ trimCr line) : c ∈ line := by
  unfold trimCr at h
  split at h
  · exact List.dropLast_subset _ h
  · exact h

theorem not_mem_of_mem_textLines {s line : Text} (h : line ∈ textLines s) : '\n' ∉ line := by
  unfold textLines at h
  rcases List.mem_append.mp h with h | h
  · obtain ⟨part, hpart, rfl⟩ := List.mem_map.mp h
    exact fun hmem => not_mem_of_mem_splitOn (List.dropLast_subset _ hpart) (mem_of_mem_trimCr hmem)
  · rw [Option.mem_toList, Option.filter_eq_some_iff] at h
    exact not_mem_of_mem_splitOn (List.mem_of_getLast? h.1)

/-! ## Records -/

section records

variable {α κ ν : Type} [DecidableEq κ] (parse : α → Option (κ × ν))

def hasKey (key : κ) (line : α) : Bool := (parse line).any (·.1 = key)

def lookup (key : κ) : List α → Option ν
  | [] => none
  | line :: lines =>
    match parse line with
    | some (k, value) => if k = key then some value else lookup key lines
    | none => lookup key lines

def without (key : κ) (lines : List α) : List α := lines.filter (!hasKey parse key ·)

variable {parse} {key other : κ} {lines : List α}

theorem lookup_cons_of_not {line : α} (h : hasKey parse key line = false) :
    lookup parse key (line :: lines) = lookup parse key lines := by
  rw [lookup]
  cases hparse : parse line with
  | none => rfl
  | some record =>
    have hne : record.1 ≠ key := by
      rw [hasKey, hparse] at h
      exact of_decide_eq_false h
    exact if_neg hne

theorem lookup_of_not (h : ∀ line ∈ lines, hasKey parse key line = false) (rest : List α) :
    lookup parse key (lines ++ rest) = lookup parse key rest := by
  induction lines with
  | nil => rfl
  | cons line lines ih =>
    rw [List.cons_append, lookup_cons_of_not (h line List.mem_cons_self)]
    exact ih fun line hline => h line (List.mem_cons_of_mem _ hline)

theorem lookup_without_self (lines rest : List α) :
    lookup parse key (without parse key lines ++ rest) = lookup parse key rest := by
  refine lookup_of_not (fun line hline => ?_) rest
  simpa using (List.mem_filter.mp hline).2

theorem lookup_without_of_ne (hne : other ≠ key) (lines rest : List α) :
    lookup parse other (without parse key lines ++ rest) = lookup parse other (lines ++ rest) := by
  induction lines with
  | nil => rfl
  | cons line lines ih =>
    unfold without at ih ⊢
    rw [List.filter_cons]
    cases hkey : hasKey parse key line with
    | false =>
      rw [Bool.not_false, if_pos rfl, List.cons_append, List.cons_append, lookup, lookup, ih]
    | true =>
      -- a record with `key` is none with `other`
      have hother : hasKey parse other line = false := by
        rw [hasKey] at hkey ⊢
        cases hparse : parse line with
        | none => rfl
        | some record =>
          rw [hparse] at hkey
          have hrecord : record.1 = key := of_decide_eq_true hkey
          exact decide_eq_false (hrecord ▸ hne.symm)
      rw [Bool.not_true, if_neg Bool.false_ne_true, ih, List.cons_append, lookup_cons_of_not hother]

theorem lookup_append_of_not {line : α} (h : hasKey parse key line = false) (lines : List α) :
    lookup parse key (lines ++ [line]) = lookup parse key lines := by
  induction lines with
  | nil => exact lookup_cons_of_not h
  | cons first lines ih =>
    rw [List.cons_append, lookup, lookup, ih]

theorem filter_without (lines : List α) :
    (without parse key lines).filter (fun line => (parse line).isNone) =
      lines.filter fun line => (parse line).isNone := by
  unfold without
  rw [List.filter_filter]
  refine List.filter_congr fun line _ => ?_
  rw [hasKey]
  cases parse line with
  | none => rfl
  | some record => rfl

theorem lookup_map {f : α → α} (hf : ∀ line, parse (f line) = parse line) (lines : List α) :
    lookup parse key (lines.map f) = lookup parse key lines := by
  induction lines with
  | nil => rfl
  | cons line lines ih =>
    rw [List.map_cons, lookup, lookup, hf, ih]

end records

end FluxTerm.Lib
