import Mathlib.Algebra.Order.BigOperators.Group.List
import Mathlib.Algebra.Order.Ring.Nat

/-!
# Coverage of positions by spans

A span is a stretch of consecutive positions. `coverage ss p` counts how many spans of a list
contain the position `p`, and `Tiles ss n lim` says that below the limit `lim` the spans contain
every position under `n` exactly once and no other. Work that is handed out piecewise, answered
out of order and put together again is described by such a tiling: the pieces may be permuted,
a piece may be cut in two, and adjacent pieces may be merged.
-/

namespace FluxTerm.Lib

/-- The `len` positions from `start` on. -/
structure Span where
  start : ℕ
  len : ℕ
deriving DecidableEq

def Span.count (s : Span) (p : ℕ) : ℕ := if s.start ≤ p ∧ p < s.start + s.len then 1 else 0

theorem Span.count_of_mem {s : Span} {p : ℕ} (h1 : s.start ≤ p) (h2 : p < s.start + s.len) :
    s.count p = 1 := if_pos ⟨h1, h2⟩

theorem Span.count_of_lt {s : Span} {p : ℕ} (h : p < s.start) : s.count p = 0 :=
  if_neg fun ⟨h', _⟩ => absurd h' (Nat.not_le.mpr h)

theorem Span.count_of_ge {s : Span} {p : ℕ} (h : s.start + s.len ≤ p) : s.count p = 0 :=
  if_neg fun ⟨_, h'⟩ => absurd h' (Nat.not_lt.mpr h)

theorem Span.count_split (start a b p : ℕ) :
    Span.count ⟨start, a + b⟩ p = Span.count ⟨start, a⟩ p + Span.count ⟨start + a, b⟩ p := by
  simp only [Span.count]
  split_ifs <;> omega

def coverage (ss : List Span) (p : ℕ) : ℕ := (ss.map (·.count p)).sum

@[simp] theorem coverage_nil (p : ℕ) : coverage [] p = 0 := rfl

@[simp] theorem coverage_cons (s : Span) (ss : List Span) (p : ℕ) :
    coverage (s :: ss) p = s.count p + coverage ss p := by
  simp [coverage]

@[simp] theorem coverage_append (ss ts : List Span) (p : ℕ) :
    coverage (ss ++ ts) p = coverage ss p + coverage ts p := by
  simp [coverage]

theorem coverage_perm {ss ts : List Span} (h : ss.Perm ts) (p : ℕ) :
    coverage ss p = coverage ts p :=
  (h.map _).sum_eq

theorem exists_mem_of_coverage_pos {ss : List Span} {p : ℕ} (h : 0 < coverage ss p) :
    ∃ s ∈ ss, s.start ≤ p ∧ p < s.start + s.len := by
  by_contra hno
  push Not at hno
  have hzero : coverage ss p = 0 := by
    refine List.sum_eq_zero fun c hc => ?_
    obtain ⟨s, hs, rfl⟩ := List.mem_map.mp hc
    exact if_neg fun ⟨h1, h2⟩ => absurd h2 (Nat.not_lt.mpr (hno s hs h1))
  omega

theorem count_le_coverage {ss : List Span} {s : Span} (hs : s ∈ ss) (p : ℕ) :
    s.count p ≤ coverage ss p :=
  List.single_le_sum (fun _ _ => Nat.zero_le _) _ (List.mem_map_of_mem hs)

/-- Below `lim`, the spans contain each position under `n` exactly once and no other. -/
def Tiles (ss : List Span) (n lim : ℕ) : Prop :=
  ∀ p, p < lim → coverage ss p = if p < n then 1 else 0

theorem Tiles.extend {ss : List Span} {n lim : ℕ} (h : Tiles ss n lim) (len : ℕ) :
    Tiles (ss ++ [⟨n, len⟩]) (n + len) lim := by
  intro p hp
  rw [coverage_append, coverage_cons, coverage_nil, h p hp, Span.count]
  simp only
  split_ifs <;> omega

theorem Tiles.of_coverage {ss ts : List Span} {n lim : ℕ} (h : Tiles ss n lim)
    (heq : ∀ p, p < lim → coverage ts p = coverage ss p) : Tiles ts n lim :=
  fun p hp => (heq p hp).trans (h p hp)

theorem Tiles.start_ge {ss : List Span} {e n lim : ℕ} (h : Tiles (⟨0, e⟩ :: ss) n lim)
    (he : e ≤ n) {s : Span} (hs : s ∈ ss) (hlen : 0 < s.len) (hlim : s.start < lim) :
    e ≤ s.start := by
  by_contra hlt
  push Not at hlt
  have htile := h s.start hlim
  rw [coverage_cons, if_pos (hlt.trans_le he), Span.count_of_mem (by simp) (by simpa using hlt)]
    at htile
  have hpos := count_le_coverage hs s.start
  rw [Span.count_of_mem le_rfl (by omega)] at hpos
  omega

theorem Tiles.exists_next {ss : List Span} {e n lim : ℕ} (h : Tiles (⟨0, e⟩ :: ss) n lim)
    (hen : e < n) (helim : e < lim) : ∃ s ∈ ss, s.start = e ∧ 0 < s.len := by
  have htile := h e helim
  rw [coverage_cons, if_pos hen, Span.count_of_ge (by simp)] at htile
  have hpos : 0 < coverage ss e := by omega
  obtain ⟨s, hs, h1, h2⟩ := exists_mem_of_coverage_pos hpos
  have hge := h.start_ge hen.le hs (by omega) (by omega)
  exact ⟨s, hs, by omega, by omega⟩

end FluxTerm.Lib
