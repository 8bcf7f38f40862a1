import ViamEthercat.Lib.Round
import Mathlib.Data.Int.Log
import Mathlib.Data.Rat.Floor

/-!
# `ViamEthercat.Ethercat.Util`: doubles, rounding and the unit conversions

The model of the conversions of `ethercat/util.hpp`. A `double` that comes from outside (an
argument, a configuration value) is NaN, an infinity or a rational, and the special values
follow IEEE 754. One zero is kept, since no function of the source reads its sign.

The operations give the exact result. A conversion takes the rounding of that result as a
parameter (`rounded`): `binary64` is the rounding of the hardware, and `.fin` none at all. The
conversions without a parameter are those of exact arithmetic.
-/

set_option autoImplicit false

namespace ViamEthercat

/-- A `double`. -/
inductive Double where
  | nan
  | inf (negative : Bool)
  | fin (q : ℚ)
deriving DecidableEq, Repr

namespace Double

/-- `std::isfinite`. -/
def isFinite : Double → Bool
  | .fin _ => true
  | _ => false

/-- `std::isnan`. -/
def isNan : Double → Bool
  | .nan => true
  | _ => false

/-- `<`, false on a NaN. -/
def lt : Double → Double → Bool
  | .nan, _ => false
  | _, .nan => false
  | .inf a, .inf b => a && !b
  | .inf a, .fin _ => a
  | .fin _, .inf b => !b
  | .fin a, .fin b => decide (a < b)

/-- `<=`, false on a NaN. -/
def le (x y : Double) : Bool := lt x y || (decide (x = y) && !x.isNan)

/-- Unary minus. -/
def neg : Double → Double
  | .nan => .nan
  | .inf a => .inf !a
  | .fin a => .fin (-a)

/-- `std::abs`. -/
def abs : Double → Double
  | .nan => .nan
  | .inf _ => .inf false
  | .fin a => .fin |a|

/-- The sign bit of a product with an infinity. -/
def negative : Double → Bool
  | .nan => false
  | .inf a => a
  | .fin a => decide (a < 0)

/-- `*`: an infinity times zero is a NaN. -/
def mul (x y : Double) : Double :=
  match x, y with
  | .fin a, .fin b => .fin (a * b)
  | .nan, _ => .nan
  | _, .nan => .nan
  | x, y => if x = .fin 0 ∨ y = .fin 0 then .nan else .inf (xor x.negative y.negative)

/-- `+`: opposite infinities give a NaN. -/
def add : Double → Double → Double
  | .fin a, .fin b => .fin (a + b)
  | .nan, _ => .nan
  | _, .nan => .nan
  | .inf a, .inf b => if a = b then .inf a else .nan
  | .inf a, .fin _ => .inf a
  | .fin _, .inf b => .inf b

/-- `-`. -/
def sub (x y : Double) : Double := add x (neg y)

/-- `/`, where a zero divisor is the positive zero. -/
def div : Double → Double → Double
  | .fin a, .fin b =>
      if b ≠ 0 then .fin (a / b) else if a = 0 then .nan else .inf (decide (a < 0))
  | .nan, _ => .nan
  | _, .nan => .nan
  | .inf _, .inf _ => .nan
  | .inf a, .fin b => .inf (xor a (decide (b < 0)))
  | .fin _, .inf _ => .fin 0

/-- `/` by a nonzero constant. -/
def divBy (x : Double) (d : ℚ) : Double := mul x (.fin d⁻¹)

/-- `std::clamp`. -/
def clamp (v lo hi : Double) : Double :=
  -- Both comparisons are false on a NaN, which passes through.
  if lt v lo then lo else if lt hi v then hi else v

/-! ### Rounding -/

/-- The result of an operation on doubles, when `round` rounds the numbers. -/
def rounded (round : ℚ → Double) : Double → Double
  | .fin q => round q
  | x => x

@[simp] theorem rounded_fin (x : Double) : rounded .fin x = x := by cases x <;> rfl

/-- The exponent of the last of the 53 bits of a number. A subnormal number has fewer bits. -/
def lastPlace (q : ℚ) : Int := max (Int.log 2 |q| - 52) (-1074)

/-- The rounding of IEEE 754 binary64: to the nearest number, halves to the even one, and to an
infinity past the largest number. -/
def binary64 (q : ℚ) : Double :=
  let place : ℚ := 2 ^ lastPlace q
  let r := Lib.roundHalfEven (q / place) * place
  if 2 ^ 1024 ≤ |r| then .inf (decide (q < 0)) else .fin r

/-! ### Text -/

/-- The six decimals of `std::to_string`, rounded half to even. -/
def fixed6 (q : ℚ) : String :=
  let scaled : ℚ := |q| * 10 ^ 6
  let n : Nat := ⌊scaled⌋.toNat
  let frac := scaled - n
  let n := if frac > 1 / 2 ∨ (frac = 1 / 2 ∧ n % 2 = 1) then n + 1 else n
  let digits := toString (n % 10 ^ 6)
  (if q < 0 then "-" else "") ++ toString (n / 10 ^ 6) ++ "." ++
    String.ofList (List.replicate (6 - digits.length) '0') ++ digits

/-- `std::to_string(double)`. -/
def toText : Double → String
  | .nan => "nan"
  | .inf a => if a then "-inf" else "inf"
  | .fin q => fixed6 q

end Double

open Double

/-- `clamp_to_i32`: saturate, and read a NaN as the least value. -/
def clampToI32 (v : Double) : Int32 :=
  -- Written as a negated comparison, so that a NaN takes this branch.
  if !lt (.fin (-2147483648)) v then Int32.minValue
  else if le (.fin 2147483647) v then Int32.maxValue
  else match v with
    | .fin q => Int32.ofInt (Lib.llround q)
    -- Not reached: an infinity or a NaN was taken above.
    | _ => 0

def revsToCountsIn (round : ℚ → Double) (revs countsPerRev gearRatio : Double) : Int32 :=
  clampToI32 (rounded round (mul (rounded round (mul revs countsPerRev)) gearRatio))

/-- `revs_to_counts` in exact arithmetic. -/
def revsToCounts (revs countsPerRev gearRatio : Double) : Int32 :=
  revsToCountsIn .fin revs countsPerRev gearRatio

theorem revsToCounts_eq (revs countsPerRev gearRatio : Double) :
    revsToCounts revs countsPerRev gearRatio =
      clampToI32 (mul (mul revs countsPerRev) gearRatio) := by
  simp only [revsToCounts, revsToCountsIn, rounded_fin]

def countsToRevs (counts : Int32) (countsPerRev gearRatio : Double) : Double :=
  let denom := mul countsPerRev gearRatio
  if denom ≠ .fin 0 then div (.fin counts.toInt) denom else .fin 0

/-- rpm to revolutions per second to counts per second, as a `double`. -/
def deviceRateIn (round : ℚ → Double) (rpm countsPerRev gearRatio : Double) : Double :=
  rounded round
    (mul (rounded round (mul (rounded round (divBy rpm 60)) countsPerRev)) gearRatio)

def rpmToDeviceVelocityIn (round : ℚ → Double) (rpm countsPerRev gearRatio : Double) : Int32 :=
  clampToI32 (deviceRateIn round rpm countsPerRev gearRatio)

/-- `rpm_to_device_velocity` in exact arithmetic. -/
def rpmToDeviceVelocity (rpm countsPerRev gearRatio : Double) : Int32 :=
  rpmToDeviceVelocityIn .fin rpm countsPerRev gearRatio

theorem rpmToDeviceVelocity_eq (rpm countsPerRev gearRatio : Double) :
    rpmToDeviceVelocity rpm countsPerRev gearRatio =
      clampToI32 (mul (mul (divBy rpm 60) countsPerRev) gearRatio) := by
  simp only [rpmToDeviceVelocity, rpmToDeviceVelocityIn, deviceRateIn, rounded_fin]

/-- `clamp_rpm` of `viam/lib/motion_profile.cpp`: a bound that is not positive is zero. -/
def clampRpm (rpm maxRpm : Double) : Double :=
  let bound := if lt (.fin 0) maxRpm then maxRpm else .fin 0
  clamp rpm (neg bound) bound

end ViamEthercat
