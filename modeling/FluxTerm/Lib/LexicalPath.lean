import Mathlib.Data.List.Basic
import Mathlib.Data.List.Induction

/-!
# Lexical paths

A path seen as a sequence of components, resolved without looking at a file system: `.` is
dropped and `..` takes back the component before it. At the root of an absolute path `..` has no
effect; at the start of a relative one it stays as a step out of the starting directory.

The second half reads Unix paths, as lists of characters, into components: `push`, `join` and what
they do to the components of a path.
-/

namespace FluxTerm.Lib

/-- A path component: `.`, `..` or a name. -/
inductive Comp (α : Type*) where
  | curDir
  | parentDir
  | normal (name : α)
deriving DecidableEq

structure Resolved (α : Type*) where
  ups : ℕ
  names : List α
deriving DecidableEq

namespace Resolved

variable {α : Type*}

def start : Resolved α := ⟨0, []⟩

def step (absolute : Bool) (r : Resolved α) : Comp α → Resolved α
  | .curDir => r
  | .parentDir =>
    match r.names with
    | [] => if absolute then r else { r with ups := r.ups + 1 }
    | _ :: names => { r with names }
  | .normal name => { r with names := name :: r.names }

/-- The resolved path `s` seen from the resolved path `r`: out of `r` as far as `s` climbs, then
down its names. -/
def under (absolute : Bool) (r s : Resolved α) : Resolved α :=
  ⟨if absolute then r.ups else r.ups + (s.ups - r.names.length), s.names ++ r.names.drop s.ups⟩

theorem under_start (absolute : Bool) (r : Resolved α) : under absolute r start = r := by
  cases absolute <;> simp [under, start]

theorem under_step (absolute : Bool) (r s : Resolved α) (c : Comp α) :
    under absolute r (step false s c) = step absolute (under absolute r s) c := by
  obtain ⟨ups, names⟩ := s
  cases c with
  | curDir => rfl
  | normal name => rfl
  | parentDir =>
    cases names with
    | cons name names => rfl
    | nil =>
      -- the climb leaves `s`, so it takes a name of `r`, if one is left
      simp only [step, under, List.nil_append, Bool.false_eq_true, if_false]
      cases hdrop : r.names.drop ups with
      | nil =>
        have hlen : r.names.length ≤ ups := by simpa using hdrop
        have hdrop' : r.names.drop (ups + 1) = [] := by simp; omega
        cases absolute with
        | true => simp [hdrop']
        | false =>
          simp only [hdrop', Bool.false_eq_true, if_false]
          congr 1
          omega
      | cons name names =>
        have hlen : ups < r.names.length := by
          by_contra hge
          rw [List.drop_eq_nil_of_le (Nat.le_of_not_lt hge)] at hdrop
          cases hdrop
        have hdrop' : r.names.drop (ups + 1) = names := by
          rw [← List.drop_drop, hdrop, List.drop_one, List.tail_cons]
        simp only [hdrop']
        congr 2
        omega

/-- `p` is the path `root` or a descendant of it. -/
def Within (root p : Resolved α) : Prop := p.ups = root.ups ∧ root.names <:+ p.names

instance [DecidableEq α] (root p : Resolved α) : Decidable (Within root p) :=
  inferInstanceAs (Decidable (_ ∧ _))

end Resolved

variable {α : Type*}

def resolve (absolute : Bool) (cs : List (Comp α)) : Resolved α :=
  cs.foldl (Resolved.step absolute) .start

/-- **Resolving behind a prefix.** Only the resolved forms of the two parts matter. -/
theorem resolve_append (absolute : Bool) (root cs : List (Comp α)) :
    resolve absolute (root ++ cs)
      = Resolved.under absolute (resolve absolute root) (resolve false cs) := by
  induction cs using List.reverseRecOn with
  | nil => rw [List.append_nil]; exact (Resolved.under_start absolute _).symm
  | append_singleton cs c ih =>
    rw [← List.append_assoc]
    simp only [resolve, List.foldl_append, List.foldl_cons, List.foldl_nil] at ih ⊢
    rw [ih, Resolved.under_step]

/-- The part `cs` behind the prefix `root` re-enters what it climbs out of: it does not climb
further than the prefix has names (an absolute path has nothing above them), and behind the climb
it names the directories left, in their order. -/
def ReEnters (absolute : Bool) (root cs : List (Comp α)) : Prop :=
  let net := resolve false cs
  let names := (resolve absolute root).names
  (absolute = true ∨ net.ups ≤ names.length) ∧ names.take net.ups <:+ net.names

instance [DecidableEq α] (absolute : Bool) (root cs : List (Comp α)) :
    Decidable (ReEnters absolute root cs) :=
  inferInstanceAs (Decidable (_ ∧ _))

/-- **Staying within a prefix.** -/
theorem within_append_iff (absolute : Bool) (root cs : List (Comp α)) :
    Resolved.Within (resolve absolute root) (resolve absolute (root ++ cs)) ↔
      ReEnters absolute root cs := by
  rw [resolve_append]
  set r := resolve absolute root
  set s := resolve false cs
  -- the names of `r` that the climb leaves standing are on both sides
  have hsuffix : r.names <:+ s.names ++ r.names.drop s.ups ↔ r.names.take s.ups <:+ s.names := by
    have h : r.names.take s.ups ++ r.names.drop s.ups <:+ s.names ++ r.names.drop s.ups ↔
        r.names.take s.ups <:+ s.names := List.suffix_append_self_iff
    rwa [List.take_append_drop] at h
  have hups : (Resolved.under absolute r s).ups = r.ups ↔
      (absolute = true ∨ s.ups ≤ r.names.length) := by
    cases absolute <;> simp [Resolved.under]
    omega
  exact and_congr hups hsuffix

/-- **Leading back to a prefix.** -/
theorem resolve_append_eq_iff (absolute : Bool) (root cs : List (Comp α)) :
    resolve absolute (root ++ cs) = resolve absolute root ↔
      (absolute = true ∨ (resolve false cs).ups ≤ (resolve absolute root).names.length) ∧
        (resolve false cs).names = (resolve absolute root).names.take (resolve false cs).ups := by
  rw [resolve_append]
  set r := resolve absolute root
  set s := resolve false cs
  have hnames : s.names ++ r.names.drop s.ups = r.names ↔ s.names = r.names.take s.ups := by
    constructor
    · intro h
      rw [← List.append_left_inj (r.names.drop s.ups), h, List.take_append_drop]
    · intro h
      rw [h, List.take_append_drop]
  have hups : (Resolved.under absolute r s).ups = r.ups ↔
      (absolute = true ∨ s.ups ≤ r.names.length) := by
    cases absolute <;> simp [Resolved.under]
    omega
  rw [← hups, ← hnames]
  constructor
  · intro h
    exact ⟨congrArg Resolved.ups h, congrArg Resolved.names h⟩
  · rintro ⟨h, h'⟩
    exact congrArg₂ Resolved.mk h h'

/-- The part `cs` behind the prefix `root` re-enters it and goes on below it. -/
def Descends (absolute : Bool) (root cs : List (Comp α)) : Prop :=
  ReEnters absolute root cs ∧
    (resolve false cs).names ≠ (resolve absolute root).names.take (resolve false cs).ups

instance [DecidableEq α] (absolute : Bool) (root cs : List (Comp α)) :
    Decidable (Descends absolute root cs) :=
  inferInstanceAs (Decidable (_ ∧ _))

/-- **Staying below a prefix.** -/
theorem below_append_iff (absolute : Bool) (root cs : List (Comp α)) :
    (Resolved.Within (resolve absolute root) (resolve absolute (root ++ cs)) ∧
        resolve absolute (root ++ cs) ≠ resolve absolute root) ↔ Descends absolute root cs := by
  rw [within_append_iff, Ne, resolve_append_eq_iff, Descends]
  refine and_congr_right fun h => ?_
  rw [not_and]
  exact ⟨fun hne => hne h.1, fun hne _ => hne⟩

/-! ## Unix paths -/

def sep : Char := '/'

def Comp.ofPiece (piece : List Char) : Comp (List Char) :=
  if piece = ['.'] then .curDir
  else if piece = ['.', '.'] then .parentDir
  else .normal piece

def pieces (p : List Char) : List (List Char) := (p.splitOn sep).filter (· ≠ [])

def comps (p : List Char) : List (Comp (List Char)) := (pieces p).map Comp.ofPiece

def isAbs (p : List Char) : Bool := p.head? == some sep

/-- `p` becomes `p/q`: a separator only where one is missing, and an absolute `q` replaces `p`. -/
def push (p q : List Char) : List Char :=
  if isAbs q then q
  else if p.getLast? = some sep ∨ p = [] then p ++ q
  else p ++ sep :: q

theorem pieces_nil : pieces [] = [] := by simp [pieces]

theorem pieces_append_sep (p q : List Char) : pieces (p ++ sep :: q) = pieces p ++ pieces q := by
  simp [pieces, List.splitOn_append_cons_self]

theorem pieces_append_of_getLast {p : List Char} (h : p.getLast? = some sep) (q : List Char) :
    pieces (p ++ q) = pieces p ++ pieces q := by
  obtain ⟨l, rfl⟩ := List.getLast?_eq_some_iff.mp h
  rw [List.append_assoc, List.singleton_append, pieces_append_sep, pieces_append_sep, pieces_nil,
    List.append_nil]

theorem pieces_of_not_mem {p : List Char} (h : sep ∉ p) (hne : p ≠ []) : pieces p = [p] := by
  have hsplit : p.splitOn sep = [p] := List.splitOn_eq_singleton h
  simp [pieces, hsplit, hne]

theorem sep_not_mem_of_mem_splitOn {p piece : List Char} (h : piece ∈ p.splitOn sep) :
    sep ∉ piece := by
  induction p generalizing piece with
  | nil =>
    rw [List.splitOn_nil, List.mem_singleton] at h
    simp [h]
  | cons c cs ih =>
    rw [List.splitOn_cons_eq_if_modifyHead] at h
    split at h
    · rcases List.mem_cons.mp h with rfl | h
      · exact List.not_mem_nil
      · exact ih h
    · rename_i hc
      obtain ⟨hd, tl, hsplit⟩ := List.exists_cons_of_ne_nil (List.splitOn_ne_nil sep cs)
      rw [hsplit] at h ih
      rcases List.mem_cons.mp h with rfl | h
      · have hhd : sep ∉ hd := ih List.mem_cons_self
        have hne : sep ≠ c := fun heq => hc (by simp [heq])
        simp [hne, hhd]
      · exact ih (List.mem_cons_of_mem _ h)

theorem of_mem_pieces {p piece : List Char} (h : piece ∈ pieces p) : piece ≠ [] ∧ sep ∉ piece := by
  rw [pieces, List.mem_filter] at h
  exact ⟨by simpa using h.2, sep_not_mem_of_mem_splitOn h.1⟩

theorem comps_of_mem_pieces {p piece : List Char} (h : piece ∈ pieces p) :
    comps piece = [Comp.ofPiece piece] := by
  obtain ⟨hne, hsep⟩ := of_mem_pieces h
  rw [comps, pieces_of_not_mem hsep hne, List.map_singleton]

theorem isAbs_of_not_mem {name : List Char} (h : sep ∉ name) : isAbs name = false := by
  cases name with
  | nil => rfl
  | cons c cs =>
    have hne : sep ≠ c := fun heq => h (by simp [heq])
    simpa [isAbs] using hne.symm

theorem isAbs_of_mem_pieces {p piece : List Char} (h : piece ∈ pieces p) :
    isAbs piece = false := isAbs_of_not_mem (of_mem_pieces h).2

theorem pieces_push {name : List Char} (hne : name ≠ []) (hsep : sep ∉ name) (p : List Char) :
    pieces (push p name) = pieces p ++ [name] := by
  rw [push, if_neg (by simp [isAbs_of_not_mem hsep])]
  by_cases hlast : p.getLast? = some sep ∨ p = []
  · rw [if_pos hlast]
    rcases hlast with hlast | rfl
    · rw [pieces_append_of_getLast hlast, pieces_of_not_mem hsep hne]
    · rw [List.nil_append, pieces_nil, pieces_of_not_mem hsep hne, List.nil_append]
  · rw [if_neg hlast, pieces_append_sep, pieces_of_not_mem hsep hne]

theorem comps_append_sep (p q : List Char) : comps (p ++ sep :: q) = comps p ++ comps q := by
  rw [comps, pieces_append_sep, List.map_append]; rfl

theorem comps_push {p q : List Char} (h : isAbs q = false) :
    comps (push p q) = comps p ++ comps q := by
  rw [push, if_neg (by simp [h])]
  by_cases hlast : p.getLast? = some sep ∨ p = []
  · rw [if_pos hlast]
    rcases hlast with hlast | rfl
    · simp [comps, pieces_append_of_getLast hlast]
    · simp [comps, pieces_nil]
  · rw [if_neg hlast, comps_append_sep]

theorem isAbs_push {p q : List Char} (h : isAbs q = false) : isAbs (push p q) = isAbs p := by
  rw [push, if_neg (by simp [h])]
  cases p with
  | nil => simpa [isAbs] using h
  | cons c cs => split <;> simp [isAbs]

end FluxTerm.Lib
