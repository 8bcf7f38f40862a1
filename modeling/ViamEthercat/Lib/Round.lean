import Mathlib.Algebra.Order.Floor.Ring
import Mathlib.Tactic.Linarith
import Mathlib.Tactic.Ring

/-!
# `ViamEthercat.Lib.Round`: rounding to the nearest integer

`llround` rounds to the nearest integer, and halves away from zero; `roundHalfEven` takes a half
to the even integer. The rules of `llround`:

* `llround_le_iff`, `le_llround_iff`: where the rounded value passes an integer.
* `natAbs_llround_le`, `llround_mono`: rounding keeps the order of magnitudes, and of numbers.
* `abs_llround_sub_le`: rounding moves a number by at most one half.
-/

set_option autoImplicit false

namespace ViamEthercat.Lib

-- One named proof for each literal of a field, which the definitions of all modules share.
instance atLeastTwo_two : Nat.AtLeastTwo 2 := ⟨Nat.le_refl 2⟩
instance atLeastTwo_ten : Nat.AtLeastTwo 10 := ⟨by decide⟩

variable {K : Type} [Field K] [LinearOrder K] [FloorRing K]

/-- The nearest integer, halves away from zero. -/
def llround (x : K) : Int := if 0 ≤ x then ⌊x + 1 / 2⌋ else ⌈x - 1 / 2⌉

/-- The nearest integer, halves to the even one. -/
def roundHalfEven (x : K) : Int :=
  if x - ⌊x⌋ < 1 / 2 ∨ x - ⌊x⌋ = 1 / 2 ∧ ⌊x⌋ % 2 = 0 then ⌊x⌋ else ⌊x⌋ + 1

variable [IsStrictOrderedRing K]

/-- Rounding to a negative integer, where halves go down. -/
theorem llround_le_iff {x : K} {n : Int} (hn : n < 0) :
    llround x ≤ n ↔ x ≤ n + 1 / 2 := by
  unfold llround
  have hn' : (n : K) ≤ -1 := by exact_mod_cast Int.le_sub_one_of_lt hn
  split_ifs with hx
  · have hfloor : (0 : Int) ≤ ⌊x + 1 / 2⌋ := Int.floor_nonneg.mpr (by linarith)
    constructor
    · intro h
      omega
    · intro h
      linarith
  · rw [Int.ceil_le, sub_le_iff_le_add]

/-- Rounding to a positive integer, where halves go up. -/
theorem le_llround_iff {x : K} {n : Int} (hn : 0 < n) :
    n ≤ llround x ↔ n - 1 / 2 ≤ x := by
  unfold llround
  have hn' : (1 : K) ≤ n := by exact_mod_cast hn
  split_ifs with hx
  · rw [Int.le_floor, sub_le_iff_le_add]
  · have hceil : ⌈x - 1 / 2⌉ ≤ (0 : Int) := Int.ceil_nonpos.mpr (by linarith)
    constructor
    · intro h
      omega
    · intro h
      linarith

/-- Rounding is symmetric about zero. -/
theorem natAbs_llround (x : K) : ((llround x).natAbs : Int) = ⌊|x| + 1 / 2⌋ := by
  unfold llround
  split_ifs with hx
  · have hfloor : (0 : Int) ≤ ⌊x + 1 / 2⌋ := Int.floor_nonneg.mpr (by linarith)
    rw [Int.natAbs_of_nonneg hfloor, abs_of_nonneg hx]
  · have hceil : ⌈x - 1 / 2⌉ ≤ (0 : Int) := Int.ceil_nonpos.mpr (by linarith)
    rw [Int.ofNat_natAbs_of_nonpos hceil, abs_of_neg (not_le.mp hx), ← Int.floor_neg]
    congr 1
    ring

/-- A number of smaller magnitude rounds to a smaller magnitude. -/
theorem natAbs_llround_le {x y : K} (h : |x| ≤ |y|) :
    (llround x).natAbs ≤ (llround y).natAbs := by
  have hfloor : ⌊|x| + 1 / 2⌋ ≤ ⌊|y| + 1 / 2⌋ := Int.floor_le_floor (by linarith)
  rw [← natAbs_llround, ← natAbs_llround] at hfloor
  exact_mod_cast hfloor

theorem llround_mono {x y : K} (h : x ≤ y) : llround x ≤ llround y := by
  obtain hneg | hzero | hpos := lt_trichotomy (llround y) 0
  · exact (llround_le_iff hneg).mpr (h.trans ((llround_le_iff hneg).mp le_rfl))
  · -- a positive value is rounded to from above only
    by_contra hgt
    have hx : 0 < llround x := by omega
    have hy := (le_llround_iff hx).mpr (((le_llround_iff hx).mp le_rfl).trans h)
    omega
  · obtain hx | hx := le_or_gt (llround x) 0
    · omega
    · exact (le_llround_iff hx).mpr (((le_llround_iff hx).mp le_rfl).trans h)

/-- Rounding moves a number by at most one half. -/
theorem abs_llround_sub_le (x : K) : |(llround x : K) - x| ≤ 1 / 2 := by
  unfold llround
  split_ifs
  · rw [abs_le]
    constructor
    · linarith [Int.lt_floor_add_one (x + 1 / 2)]
    · linarith [Int.floor_le (x + 1 / 2)]
  · rw [abs_le]
    constructor
    · linarith [Int.le_ceil (x - 1 / 2)]
    · linarith [Int.ceil_lt_add_one (x - 1 / 2)]

theorem llround_intCast (n : Int) : llround (n : K) = n := by
  have h := abs_llround_sub_le (n : K)
  have hlt : |((llround (n : K) - n : Int) : K)| < 1 := by
    push_cast
    linarith
  have hz : |llround (n : K) - n| < 1 := by exact_mod_cast hlt
  have hzero := Int.abs_lt_one_iff.mp hz
  omega

end ViamEthercat.Lib
