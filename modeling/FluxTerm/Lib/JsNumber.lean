import Mathlib.Data.Rat.Floor

/-!
# Numbers of a script

The numbers of ECMAScript as far as comparing them goes: not-a-number, the infinities, and the
finite ones as rationals. `max`, `min` and `round` follow the functions of `Math`.
-/

namespace FluxTerm.Lib

def nearestNumber (n : ℕ) : ℕ :=
  if n < 2 ^ 53 then n
  else
    let unit := 2 ^ (n.log2 - 52)
    if 2 * (n % unit) < unit ∨ (2 * (n % unit) = unit ∧ n / unit % 2 = 0) then n / unit * unit
    else (n / unit + 1) * unit

theorem nearestNumber_of_lt {n : ℕ} (h : n < 2 ^ 53) : nearestNumber n = n := if_pos h

example : nearestNumber (2 ^ 53 + 3) = 2 ^ 53 + 4 := by decide

inductive JsNumber where
  | nan
  | negInf
  | finite (q : ℚ)
  | posInf
deriving DecidableEq

namespace JsNumber

/-- `a <= b`. -/
def le : JsNumber → JsNumber → Bool
  | nan, _ => false
  | _, nan => false
  | negInf, _ => true
  | _, posInf => true
  | finite p, finite q => p ≤ q
  | _, _ => false

/-- `Math.max(a, b)`. -/
def max (a b : JsNumber) : JsNumber :=
  if a = nan ∨ b = nan then nan else if le a b then b else a

/-- `Math.min(a, b)`. -/
def min (a b : JsNumber) : JsNumber :=
  if a = nan ∨ b = nan then nan else if le a b then a else b

/-- `Math.round(value)`: halves are rounded up. -/
def round : JsNumber → JsNumber
  | finite q => finite ⌊q + 1 / 2⌋
  | value => value

/-- `w` is the number of `[lo, hi]` next to `v`. -/
inductive ClampedTo (lo hi : ℚ) : JsNumber → JsNumber → Prop where
  | inside {v : ℚ} (hlo : lo ≤ v) (hhi : v ≤ hi) : ClampedTo lo hi (finite v) (finite v)
  | below {v : ℚ} (hv : v < lo) : ClampedTo lo hi (finite v) (finite lo)
  | above {v : ℚ} (hv : hi < v) : ClampedTo lo hi (finite v) (finite hi)
  | negInf : ClampedTo lo hi negInf (finite lo)
  | posInf : ClampedTo lo hi posInf (finite hi)

/-- **Clamping.** The result of `Math.min(hi, Math.max(lo, value))`, and of nothing else, is the
number of `[lo, hi]` next to `value`; not-a-number has none. -/
theorem clamp_spec {lo hi : ℚ} (h : lo < hi) (v w : JsNumber) :
    ClampedTo lo hi v w ↔ v ≠ nan ∧ w = min (finite hi) (max (finite lo) v) := by
  cases v with
  | nan =>
    constructor
    · intro hw; cases hw
    · exact fun hw => absurd rfl hw.1
  | negInf =>
    have hval : min (finite hi) (max (finite lo) negInf) = finite lo := by
      simp [min, max, le, not_le.mpr h]
    rw [hval]
    constructor
    · intro hw; cases hw; exact ⟨by simp, rfl⟩
    · rintro ⟨-, rfl⟩; exact .negInf
  | posInf =>
    have hval : min (finite hi) (max (finite lo) posInf) = finite hi := by simp [min, max, le]
    rw [hval]
    constructor
    · intro hw; cases hw; exact ⟨by simp, rfl⟩
    · rintro ⟨-, rfl⟩; exact .posInf
  | finite q =>
    rcases lt_or_ge q lo with hq | hq
    · have hval : min (finite hi) (max (finite lo) (finite q)) = finite lo := by
        simp [min, max, le, not_le.mpr hq, not_le.mpr h]
      rw [hval]
      constructor
      · intro hw
        cases hw with
        | inside hlo _ => exact absurd hlo (not_le.mpr hq)
        | below _ => exact ⟨by simp, rfl⟩
        | above hv => exact absurd (hv.trans hq) (not_lt.mpr h.le)
      · rintro ⟨-, rfl⟩; exact .below hq
    · rcases lt_or_ge hi q with hq' | hq'
      · have hval : min (finite hi) (max (finite lo) (finite q)) = finite hi := by
          simp [min, max, le, hq, hq'.le]
        rw [hval]
        constructor
        · intro hw
          cases hw with
          | inside _ hhi => exact absurd hhi (not_le.mpr hq')
          | below hv => exact absurd hv (not_lt.mpr hq)
          | above _ => exact ⟨by simp, rfl⟩
        · rintro ⟨-, rfl⟩; exact .above hq'
      · have hval : min (finite hi) (max (finite lo) (finite q)) = finite q := by
          rcases hq'.eq_or_lt with rfl | hlt
          · simp [min, max, le, hq]
          · simp [min, max, le, hq, not_le.mpr hlt]
        rw [hval]
        constructor
        · intro hw
          cases hw with
          | inside _ _ => exact ⟨by simp, rfl⟩
          | below hv => exact absurd hv (not_lt.mpr hq)
          | above hv => exact absurd hv (not_lt.mpr hq')
        · rintro ⟨-, rfl⟩; exact .inside hq hq'

end JsNumber

end FluxTerm.Lib
