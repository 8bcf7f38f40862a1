import ViamEthercat.Proofs.Attributes
import ViamEthercat.Proofs.Requests
import ViamEthercat.Servo.HomingRun
import ViamEthercat.Servo.Teardown

/-!
# `ViamEthercat.Proofs.DriveParameters`: the magnitudes that the drive is given

Four parameters are a speed or an acceleration, converted by `rpm_to_device_velocity`, which is
signed: the product has the sign of the gear ratio. Where it is read as an unsigned value it is the
magnitude if and only if the product is a number above -1/2 (`clampToI32_magnitude_iff`). For the
inputs this means a positive gear ratio, a product that rounds to zero, and no infinity that
meets a zero (`RateOk`). The ramp and the ceiling of the cyclic mode are positive if and only
if their product reaches 1/2 (`clampToI32_pos_iff`).
-/

set_option autoImplicit false

namespace ViamEthercat

open Double Lib

/-! ### The conversion -/

/-- The magnitude of a number, rounded and saturated to `int32_t`. -/
def saturated : Double → Nat
  | .fin q => min (llround |q|).toNat (2 ^ 31 - 1)
  | .inf _ => 2 ^ 31 - 1
  | .nan => 0

theorem saturated_abs (v : Double) : saturated v.abs = saturated v := by
  cases v with
  | nan => rfl
  | inf a => rfl
  | fin q => simp only [Double.abs, saturated, abs_abs]

theorem llround_abs (q : ℚ) : llround |q| = (llround q).natAbs := by
  rw [natAbs_llround, llround, if_pos (abs_nonneg q)]

/-- The conversion gives the magnitude as an unsigned value if and only if the number does not
round to a negative one. -/
theorem clampToI32_magnitude_iff (v : Double) :
    ((clampToI32 v).toUInt32.toNat ≤ 2 ^ 31 - 1 ∧
      (clampToI32 v).toUInt32.toNat = saturated v) ↔ lt (.fin (-(1 / 2))) v = true := by
  have hunsigned := Servo.toNat_toUInt32 (clampToI32 v)
  cases v with
  | nan => decide
  | inf a => cases a <;> decide
  | fin q =>
      have hneg : llround q ≤ -1 ↔ q ≤ -(1 / 2) := by
        rw [llround_le_iff (by decide)]
        constructor
        · intro h
          push_cast at h
          linarith
        · intro h
          push_cast
          linarith
      have hlt : lt (.fin (-(1 / 2))) (.fin q) = true ↔ 0 ≤ llround q := by
        rw [lt, decide_eq_true_iff, ← not_le, ← hneg]
        omega
      rw [toInt_clampToI32_fin] at hunsigned
      rw [hlt, saturated, llround_abs]
      omega

/-- The converted value is positive if and only if the number rounds to a positive one. -/
theorem clampToI32_pos_iff (v : Double) :
    0 < (clampToI32 v).toInt ↔ le (.fin (1 / 2)) v = true := by
  cases v with
  | nan => decide
  | inf a => cases a <;> decide
  | fin q =>
      have hpos : 1 ≤ llround q ↔ 1 / 2 ≤ q := by
        rw [le_llround_iff (by decide)]
        constructor
        · intro h
          push_cast at h
          linarith
        · intro h
          push_cast
          linarith
      have hle : le (.fin (1 / 2)) (.fin q) = true ↔ 1 / 2 ≤ q := by
        simp [le, lt, isNan, le_iff_lt_or_eq]
      rw [toInt_clampToI32_fin, hle, ← hpos]
      omega

/-! ### The product -/

namespace Double

/-- The magnitude of a product is the product of the magnitudes. -/
theorem magnitude_mul (x y : Double) : (mul x y).abs = mul x.abs y.abs := by
  cases x with
  | nan => rfl
  | inf a =>
      cases y with
      | nan => rfl
      | inf b => simp [mul, abs, negative]
      | fin q => by_cases hq : q = 0 <;> simp [mul, abs, negative, hq]
  | fin p =>
      cases y with
      | nan => rfl
      | inf b => by_cases hp : p = 0 <;> simp [mul, abs, negative, hp]
      | fin q => simp [mul, abs, abs_mul]

/-- A positive factor moves to the end of a product. -/
theorem mul_right_comm_of_pos {k : ℚ} (hk : 0 < k) (x y : Double) :
    mul (mul x (.fin k)) y = mul (mul x y) (.fin k) := by
  cases x with
  | nan => rfl
  | inf a =>
      cases y with
      | nan => simp [mul, hk.ne']
      | inf b => simp [mul, negative, hk.ne', not_lt.mpr hk.le]
      | fin q => by_cases hq : q = 0 <;> simp [mul, negative, hk.ne', not_lt.mpr hk.le, hq]
  | fin p =>
      cases y with
      | nan => rfl
      | inf b =>
          have hsign : p * k < 0 ↔ p < 0 := by
            rw [← not_le, ← not_le, mul_nonneg_iff_of_pos_right hk]
          by_cases hp : p = 0 <;> simp [mul, negative, hk.ne', not_lt.mpr hk.le, hp, hsign]
      | fin q =>
          simp only [mul, fin.injEq]
          ring

theorem lt_mul_of_pos {k r : ℚ} (hk : 0 < k) (w : Double) :
    lt (.fin r) (mul w (.fin k)) = lt (.fin (r / k)) w := by
  cases w with
  | nan => rfl
  | inf a => cases a <;> simp [mul, lt, negative, hk.ne', not_lt.mpr hk.le]
  | fin p => simp [mul, lt, div_lt_iff₀ hk]

theorem le_mul_of_pos {k r : ℚ} (hk : 0 < k) (w : Double) :
    le (.fin r) (mul w (.fin k)) = le (.fin (r / k)) w := by
  unfold le
  rw [lt_mul_of_pos hk]
  cases w with
  | nan => rfl
  | inf a => cases a <;> simp [mul, negative, hk.ne', not_lt.mpr hk.le]
  | fin p => simp [mul, isNan, div_eq_iff hk.ne']

theorem mul_pos_of_pos {x y : Double} (hx : lt (.fin 0) x = true) (hy : lt (.fin 0) y = true) :
    lt (.fin 0) (mul x y) = true := by
  rcases pos_cases hx with rfl | ⟨p, rfl, hp⟩ <;> rcases pos_cases hy with rfl | ⟨q, rfl, hq⟩
  · rfl
  · rw [inf_mul_fin hq]
    rfl
  · rw [fin_mul_inf hp]
    rfl
  · simpa [mul, lt] using mul_pos hp hq

/-- A positive number times `y` stays above a negative bound if and only if `y` is a number, and
not so negative that the magnitude of the product reaches the bound. -/
theorem above_mul_iff {x y : Double} {r : ℚ} (hx : lt (.fin 0) x = true) (hr : 0 < r)
    (hy : y ≠ .fin 0) : lt (.fin (-r)) (mul x y) = true ↔
      y ≠ .nan ∧ (lt y (.fin 0) = true → lt (mul x y.abs) (.fin r) = true) := by
  rcases pos_cases hx with rfl | ⟨p, rfl, hp⟩
  · cases y with
    | nan => simp [mul, lt]
    | inf b => cases b <;> simp [mul, lt, negative, Double.abs]
    | fin q =>
        have hq : q ≠ 0 := fun h => hy (congrArg _ h)
        by_cases hneg : q < 0 <;> simp [mul, lt, negative, Double.abs, hq, hneg]
  · cases y with
    | nan => simp [mul, lt]
    | inf b =>
        rw [fin_mul_inf hp, Double.abs, fin_mul_inf hp]
        cases b <;> simp [lt]
    | fin q =>
        simp only [mul, lt, Double.abs, decide_eq_true_iff, ne_eq, reduceCtorEq,
          not_false_eq_true, true_and]
        by_cases hneg : q < 0
        · rw [abs_of_neg hneg]
          constructor
          · intro h _
            linarith
          · intro h
            linarith [h hneg]
        · have hprod : 0 ≤ p * q := mul_nonneg hp.le (not_lt.mp hneg)
          exact iff_of_true (by linarith) fun h => absurd h hneg

end Double

/-- `rpm / 60.0 * counts_per_rev * gear_ratio`. -/
def rate (rpm countsPerRev gearRatio : Double) : Double :=
  mul (mul (divBy rpm 60) countsPerRev) gearRatio

theorem rpmToDeviceVelocity_eq_rate (rpm countsPerRev gearRatio : Double) :
    rpmToDeviceVelocity rpm countsPerRev gearRatio =
      clampToI32 (rate rpm countsPerRev gearRatio) :=
  rpmToDeviceVelocity_eq rpm countsPerRev gearRatio

theorem rate_eq (rpm countsPerRev gearRatio : Double) :
    rate rpm countsPerRev gearRatio =
      mul (mul (mul rpm countsPerRev) gearRatio) (.fin (60 : ℚ)⁻¹) := by
  rw [rate, divBy, mul_right_comm_of_pos (by norm_num), mul_right_comm_of_pos (by norm_num)]

/-- The magnitude of a rate is the rate of the magnitudes. -/
theorem abs_rate (rpm gearRatio : Double) {countsPerRev : Double}
    (hcounts : lt (.fin 0) countsPerRev = true) :
    (rate rpm countsPerRev gearRatio).abs = rate rpm.abs countsPerRev gearRatio.abs := by
  have habs : countsPerRev.abs = countsPerRev := by
    rcases pos_cases hcounts with rfl | ⟨c, rfl, hc⟩
    · rfl
    · simp [Double.abs, abs_of_pos hc]
  have hsixty : Double.abs (.fin (60 : ℚ)⁻¹) = .fin 60⁻¹ := by simp [Double.abs]
  rw [rate_eq, rate_eq, magnitude_mul, magnitude_mul, magnitude_mul, habs, hsixty]

/-- The inputs of a rate that does not round to a negative number. -/
structure RateOk (rpm countsPerRev gearRatio : Double) : Prop where
  number : gearRatio ≠ .nan
  zero : rpm = .fin 0 → countsPerRev.isFinite = true ∧ gearRatio.isFinite = true
  negative : lt gearRatio (.fin 0) = true →
    lt (mul (mul rpm countsPerRev) gearRatio.abs) (.fin 30) = true

/-- A rate reaches half a count per second where the product over a minute reaches 30. -/
theorem rate_half_iff (rpm countsPerRev gearRatio : Double) :
    le (.fin (1 / 2)) (rate rpm countsPerRev gearRatio) =
      le (.fin 30) (mul (mul rpm countsPerRev) gearRatio) := by
  rw [rate_eq, le_mul_of_pos (by norm_num)]
  norm_num

/-- A rate that is above minus half a count per second. -/
theorem rate_above_iff {rpm countsPerRev gearRatio : Double} (hrpm : le (.fin 0) rpm = true)
    (hcounts : lt (.fin 0) countsPerRev = true) (hgear : gearRatio ≠ .fin 0) :
    lt (.fin (-(1 / 2))) (rate rpm countsPerRev gearRatio) = true ↔
      RateOk rpm countsPerRev gearRatio := by
  rw [rate_eq, lt_mul_of_pos (by norm_num), show (-(1 / 2) : ℚ) / 60⁻¹ = -30 by norm_num]
  by_cases hzero : rpm = .fin 0
  · subst hzero
    -- Zero times an infinity is not a number.
    rcases pos_cases hcounts with rfl | ⟨c, rfl, hc⟩
    · exact iff_of_false (by simp [mul, lt]) fun h =>
        absurd (h.zero rfl).1 (by decide)
    · cases gearRatio with
      | nan => exact iff_of_false (by simp [mul, lt]) fun h => h.number rfl
      | inf b => exact iff_of_false (by simp [mul, lt]) fun h =>
          Bool.noConfusion (h.zero rfl).2
      | fin g =>
          refine iff_of_true (by simp [mul, lt]) ⟨by simp, fun _ => ⟨rfl, rfl⟩, ?_⟩
          intro _
          simp [mul, lt, Double.abs]
  · have hpos : lt (.fin 0) rpm = true := by
      have hne : decide (Double.fin 0 = rpm) = false := decide_eq_false fun h => hzero h.symm
      simpa [le, hne] using hrpm
    rw [above_mul_iff (mul_pos_of_pos hpos hcounts) (by norm_num) hgear]
    constructor
    · rintro ⟨hnumber, hnegative⟩
      exact ⟨hnumber, fun h => absurd h hzero, hnegative⟩
    · rintro ⟨hnumber, -, hnegative⟩
      exact ⟨hnumber, hnegative⟩

namespace Servo

/-- The unsigned value of a parameter is its magnitude. -/
def IsMagnitude (value : UInt32) (rpm countsPerRev gearRatio : Double) : Prop :=
  value.toNat ≤ 2 ^ 31 - 1 ∧
    value.toNat = saturated (rate rpm.abs countsPerRev gearRatio.abs)

/-- A converted parameter is its magnitude if and only if its inputs are in order. -/
theorem isMagnitude_iff {rpm countsPerRev gearRatio : Double} (hrpm : le (.fin 0) rpm = true)
    (hcounts : lt (.fin 0) countsPerRev = true) (hgear : gearRatio ≠ .fin 0) :
    IsMagnitude (rpmToDeviceVelocity rpm countsPerRev gearRatio).toUInt32 rpm countsPerRev
        gearRatio ↔ RateOk rpm countsPerRev gearRatio := by
  rw [← rate_above_iff hrpm hcounts hgear, ← clampToI32_magnitude_iff, IsMagnitude,
    ← abs_rate rpm gearRatio hcounts, saturated_abs, rpmToDeviceVelocity_eq_rate]

/-- What `validate` has checked of the homing block. -/
theorem homing_of_validate {c : ServoConfig} (h : c.validate = .ok ())
    (hmethod : c.homing.method ≠ 0) :
    lt (.fin 0) c.homing.speedRpm = true ∧ le (.fin 0) c.homing.accelRpmPerS = true := by
  unfold ServoConfig.validate at h
  -- The homing block comes behind twelve checks.
  iterate 12 obtain ⟨-, h⟩ := require_bind_ok_iff.mp h
  rw [if_pos hmethod] at h
  unfold ServoConfig.validateHoming at h
  obtain ⟨hspeed, h⟩ := require_bind_ok_iff.mp h
  obtain ⟨haccel, -⟩ := require_bind_ok_iff.mp h
  exact ⟨hspeed, haccel⟩

/-- The quick-stop deceleration is converted from a number that is not negative. -/
theorem quickStopDecel_ok {attrs : ProtoStruct} {countsPerRev gearRatio : Double} {v : UInt32}
    (h : quickStopDecel attrs countsPerRev gearRatio = .ok v) :
    ∃ qs, optNum attrs "quick_stop_decel_rpm_per_s" (.fin 0) = .ok qs ∧
      le (.fin 0) qs = true ∧ v = (rpmToDeviceVelocity qs countsPerRev gearRatio).toUInt32 := by
  obtain ⟨qs, hqs, h⟩ := bind_eq_ok.mp h
  refine ⟨qs, hqs, ?_⟩
  cases hle : le (.fin 0) qs with
  | false =>
      rw [hle] at h
      cases h
  | true =>
      rw [hle] at h
      exact ⟨rfl, (Except.ok.inj h).symm⟩

/-- The parameters that the drive is given: the unsigned ones are magnitudes, and the ramp and the
ceiling of the cyclic mode are positive. -/
structure SaneParameters (attrs : ProtoStruct) (c : DriveConfig) : Prop where
  quickStop : ∀ qs, optNum attrs "quick_stop_decel_rpm_per_s" (.fin 0) = .ok qs →
    IsMagnitude c.quickStopDecel qs c.countsPerRev c.gearRatio
  homingSpeed : c.homing.method ≠ 0 →
    IsMagnitude c.homingSpeed c.homing.speedRpm c.countsPerRev c.gearRatio
  -- The drive keeps its own acceleration when none is configured.
  homingAccel : c.homing.method ≠ 0 → lt (.fin 0) c.homing.accelRpmPerS = true →
    IsMagnitude c.homingAccel c.homing.accelRpmPerS c.countsPerRev c.gearRatio
  cyclic : c.motionMode = .cyclicPosition → lt (.fin 0) c.maxMotorSpeedRpm = true →
    0 < c.accelCps2 ∧ 0 < c.vmaxCps

/-- The condition on the inputs of the parameters. -/
structure SaneInputs (attrs : ProtoStruct) (c : DriveConfig) : Prop where
  quickStop : ∀ qs, optNum attrs "quick_stop_decel_rpm_per_s" (.fin 0) = .ok qs →
    RateOk qs c.countsPerRev c.gearRatio
  homingSpeed : c.homing.method ≠ 0 → RateOk c.homing.speedRpm c.countsPerRev c.gearRatio
  homingAccel : c.homing.method ≠ 0 → lt (.fin 0) c.homing.accelRpmPerS = true →
    RateOk c.homing.accelRpmPerS c.countsPerRev c.gearRatio
  cyclic : c.motionMode = .cyclicPosition → lt (.fin 0) c.maxMotorSpeedRpm = true →
    le (.fin 30) (mul (mul c.accelRpmPerS c.countsPerRev) c.gearRatio) = true ∧
      le (.fin 30) (mul (mul c.maxMotorSpeedRpm c.countsPerRev) c.gearRatio) = true

theorem cyclic_pos_iff (rpm countsPerRev gearRatio : Double) :
    (0 : ℚ) < (rpmToDeviceVelocity rpm countsPerRev gearRatio).toInt ↔
      le (.fin 30) (mul (mul rpm countsPerRev) gearRatio) = true := by
  rw [← rate_half_iff, ← clampToI32_pos_iff, Int.cast_pos, rpmToDeviceVelocity_eq_rate]

/-- For an accepted configuration the parameters are sane if and only if their inputs are. -/
theorem drive_parameters_sane_iff (undef : Cast → Int) (attrs : ProtoStruct)
    (mode : MotionModeKind) (c : DriveConfig) (log : List Cast)
    (h : configFromAttrs undef attrs mode [] = (.ok c, log)) :
    SaneParameters attrs c ↔ SaneInputs attrs c := by
  have hp := configFromAttrs_run h
  obtain ⟨-, hgear, hcounts⟩ := ServoConfig.limits_of_validate hp.valid
  obtain ⟨qs, hqs, hle, hquick⟩ := quickStopDecel_ok hp.quickStop
  have hquickStop : IsMagnitude c.quickStopDecel qs c.countsPerRev c.gearRatio ↔
      RateOk qs c.countsPerRev c.gearRatio := by
    rw [hquick]
    exact isMagnitude_iff hle hcounts hgear
  have hspeed : c.homing.method ≠ 0 →
      (IsMagnitude c.homingSpeed c.homing.speedRpm c.countsPerRev c.gearRatio ↔
        RateOk c.homing.speedRpm c.countsPerRev c.gearRatio) := fun hmethod =>
    isMagnitude_iff (by rw [le, (homing_of_validate hp.valid hmethod).1]; rfl) hcounts hgear
  have haccel : c.homing.method ≠ 0 →
      (IsMagnitude c.homingAccel c.homing.accelRpmPerS c.countsPerRev c.gearRatio ↔
        RateOk c.homing.accelRpmPerS c.countsPerRev c.gearRatio) := fun hmethod =>
    isMagnitude_iff (homing_of_validate hp.valid hmethod).2 hcounts hgear
  constructor
  · intro hsane
    refine ⟨?_, fun hm => (hspeed hm).mp (hsane.homingSpeed hm),
      fun hm ha => (haccel hm).mp (hsane.homingAccel hm ha), ?_⟩
    · intro qs' hqs'
      obtain rfl : qs = qs' := Except.ok.inj (hqs.symm.trans hqs')
      exact hquickStop.mp (hsane.quickStop qs hqs)
    · intro hmode hmax
      obtain ⟨hramp, hceiling⟩ := hsane.cyclic hmode hmax
      exact ⟨(cyclic_pos_iff _ _ _).mp hramp, (cyclic_pos_iff _ _ _).mp hceiling⟩
  · intro hsane
    refine ⟨?_, fun hm => (hspeed hm).mpr (hsane.homingSpeed hm),
      fun hm ha => (haccel hm).mpr (hsane.homingAccel hm ha), ?_⟩
    · intro qs' hqs'
      obtain rfl : qs = qs' := Except.ok.inj (hqs.symm.trans hqs')
      exact hquickStop.mpr (hsane.quickStop qs hqs)
    · intro hmode hmax
      obtain ⟨hramp, hceiling⟩ := hsane.cyclic hmode hmax
      exact ⟨(cyclic_pos_iff _ _ _).mpr hramp, (cyclic_pos_iff _ _ _).mpr hceiling⟩

/-- A drive with a homing block and a quick-stop ramp. -/
def rampAttrs (gearRatio : ℚ) : ProtoStruct :=
  servoAttrs [("gear_ratio", .number (.fin gearRatio)),
    ("quick_stop_decel_rpm_per_s", .number (.fin 6000)),
    ("homing", .struct [("method", .number (.fin (-3))), ("speed_rpm", .number (.fin 60)),
      ("acceleration_rpm_per_s", .number (.fin 600))])]

theorem drive_parameters_sane_geared :
    ∃ c log, configFromAttrs (fun _ => 0) (rampAttrs 5) .cyclicPosition [] = (.ok c, log) ∧
      SaneParameters (rampAttrs 5) c := by
  obtain ⟨c, log, hrun, hc⟩ : ∃ c log,
      configFromAttrs (fun _ => 0) (rampAttrs 5) .cyclicPosition [] = (.ok c, log) ∧
        (c.countsPerRev, c.gearRatio, c.homing.speedRpm, c.homing.accelRpmPerS, c.accelRpmPerS,
          c.maxMotorSpeedRpm) =
        (.fin 131072, .fin 5, .fin 60, .fin 600, .fin 3000, .fin 3000) :=
    exists_run (fun c : DriveConfig => (c.countsPerRev, c.gearRatio, c.homing.speedRpm,
      c.homing.accelRpmPerS, c.accelRpmPerS, c.maxMotorSpeedRpm)) (by decide +kernel)
  simp only [Prod.mk.injEq] at hc
  obtain ⟨hcounts, hgear, hspeed, haccel, hramp, hmax⟩ := hc
  have hrate : ∀ q : ℚ, q ≠ 0 → RateOk (.fin q) (.fin 131072) (.fin 5) := fun q hq =>
    ⟨nofun, fun h => absurd (Double.fin.inj h) hq,
      fun h => absurd h (by decide : ¬ lt (.fin 5) (.fin 0) = true)⟩
  refine ⟨c, log, hrun, (drive_parameters_sane_iff _ _ _ _ _ hrun).mpr ?_⟩
  constructor
  · intro qs hqs
    obtain rfl : Double.fin 6000 = qs := Except.ok.inj hqs
    rw [hcounts, hgear]
    exact hrate 6000 (by norm_num)
  · rw [hcounts, hgear, hspeed]
    exact fun _ => hrate 60 (by norm_num)
  · rw [hcounts, hgear, haccel]
    exact fun _ _ => hrate 600 (by norm_num)
  · rw [hcounts, hgear, hramp, hmax]
    exact fun _ _ => by decide +kernel

/-- A gear ratio of -1 is accepted, and the quick stop is to decelerate by more than 2^31. -/
theorem drive_parameters_negative_gear : ¬ ∀ (undef : Cast → Int) (attrs : ProtoStruct)
    (mode : MotionModeKind) (c : DriveConfig) (log : List Cast),
    configFromAttrs undef attrs mode [] = (.ok c, log) → SaneParameters attrs c := by
  intro h
  obtain ⟨c, log, hrun, hv⟩ : ∃ c log,
      configFromAttrs (fun _ => 0) (rampAttrs (-1)) .cyclicPosition [] = (.ok c, log) ∧
        c.quickStopDecel = 4281860096 :=
    exists_run (fun c : DriveConfig => c.quickStopDecel) (by decide +kernel)
  have hle := ((h _ _ _ _ _ hrun).quickStop _ rfl).1
  rw [hv] at hle
  exact absurd hle (by decide)

end Servo

end ViamEthercat
