import Mathlib.Algebra.Order.Floor.Ring
import Mathlib.Algebra.Order.Field.Basic
import Mathlib.Logic.Function.Iterate
import Mathlib.Tactic.Linarith
import Mathlib.Tactic.FieldSimp
import Mathlib.Tactic.Ring

/-!
# `ViamEthercat.Lib.Decay`: a magnitude that falls by a fixed amount to zero

`decay h w` takes `h` off `w` and stops at zero. Its iterates have a closed form, and reach zero
after exactly `⌈w / h⌉₊` of them (`decay_iterate_eq_zero_iff`).

A speed that decays by `a * dt` in each interval of length `dt`, evenly over the interval, covers
`travelled`. The distance is `w ^ 2 / (2 * a)`, as for a ramp in continuous time, up to an excess
of the last interval, where the speed reaches zero with time left (`travelled_le`).
-/

set_option autoImplicit false

namespace ViamEthercat.Lib

variable {K : Type} [Field K] [LinearOrder K] [IsStrictOrderedRing K]

/-- `w` after one fall by `h`, no further than to zero. -/
def decay (h w : K) : K := max 0 (w - h)

variable {h w : K}

omit [IsStrictOrderedRing K] in
theorem decay_nonneg : 0 ≤ decay h w := le_max_left _ _

theorem decay_of_le (hw : w ≤ h) : decay h w = 0 := max_eq_left (sub_nonpos.mpr hw)

theorem decay_of_lt (hw : h < w) : decay h w = w - h := max_eq_right (sub_nonneg.mpr hw.le)

/-- What is left after `n` falls. -/
theorem decay_iterate (hh : 0 ≤ h) (hw : 0 ≤ w) (n : ℕ) :
    (decay h)^[n] w = max 0 (w - n * h) := by
  induction n with
  | zero => simp [hw]
  | succ n ih =>
      rw [Function.iterate_succ_apply', ih, decay]
      push_cast
      obtain hleft | hgone := le_total (n * h) w
      · rw [max_eq_right (sub_nonneg.mpr hleft)]
        ring_nf
      · rw [max_eq_left (sub_nonpos.mpr hgone), max_eq_left (by linarith), max_eq_left]
        linarith

/-- Nothing is left from the `⌈w / h⌉₊`-th fall on. -/
theorem decay_iterate_eq_zero_iff [FloorRing K] (hh : 0 < h) (hw : 0 ≤ w) {n : ℕ} :
    (decay h)^[n] w = 0 ↔ ⌈w / h⌉₊ ≤ n := by
  rw [decay_iterate hh.le hw, max_eq_left_iff, sub_nonpos, Nat.ceil_le, div_le_iff₀ hh]

/-- The distance of `n` intervals, each at its mean speed. -/
def travelled (dt h : K) : ℕ → K → K
  | 0, _ => 0
  | n + 1, w => (w + decay h w) / 2 * dt + travelled dt h n (decay h w)

theorem travelled_nonneg {dt : K} (hdt : 0 ≤ dt) (hw : 0 ≤ w) (n : ℕ) :
    0 ≤ travelled dt h n w := by
  induction n generalizing w with
  | zero => exact le_rfl
  | succ n ih =>
      have hrest := ih (w := decay h w) decay_nonneg
      have hmean : 0 ≤ (w + decay h w) / 2 := by linarith [decay_nonneg (h := h) (w := w)]
      rw [travelled]
      linarith [mul_nonneg hmean hdt]

theorem travelled_zero {dt : K} (hh : 0 ≤ h) (n : ℕ) : travelled dt h n 0 = 0 := by
  induction n with
  | zero => rfl
  | succ n ih => rw [travelled, decay_of_le hh, ih]; simp

/-- The last interval, at most `h` fast, exceeds the ramp by at most `a * dt ^ 2 / 8`. -/
theorem last_interval_le {a dt : K} (ha : 0 < a) :
    w / 2 * dt ≤ w ^ 2 / (2 * a) + a * dt ^ 2 / 8 := by
  have hsquare : w ^ 2 / (2 * a) + a * dt ^ 2 / 8 - w / 2 * dt =
      (w - a * dt / 2) ^ 2 / (2 * a) := by
    field_simp
    ring
  have hnonneg : 0 ≤ (w - a * dt / 2) ^ 2 / (2 * a) := by positivity
  linarith

/-- The stopping distance. -/
theorem travelled_le {a dt : K} (ha : 0 < a) (hdt : 0 ≤ dt) (hw : 0 ≤ w) (n : ℕ) :
    travelled dt (a * dt) n w ≤ w ^ 2 / (2 * a) + a * dt ^ 2 / 8 := by
  induction n generalizing w with
  | zero =>
      rw [travelled]
      positivity
  | succ n ih =>
      rw [travelled]
      obtain hlast | hmore := le_or_gt w (a * dt)
      · rw [decay_of_le hlast, travelled_zero (by positivity), add_zero, add_zero]
        exact last_interval_le ha
      · -- a whole interval covers exactly its part of the ramp
        have hrest := ih (w := decay (a * dt) w) decay_nonneg
        rw [decay_of_lt hmore] at hrest ⊢
        have hpart : (w + (w - a * dt)) / 2 * dt =
            w ^ 2 / (2 * a) - (w - a * dt) ^ 2 / (2 * a) := by
          field_simp
          ring
        linarith

end ViamEthercat.Lib
