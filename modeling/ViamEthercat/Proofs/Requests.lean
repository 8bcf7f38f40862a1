import ViamEthercat.Proofs.Session

/-!
# `ViamEthercat.Proofs.Requests`: the limits on a motion request

A request passes through `clamp_rpm`, the unit conversion, the saturation to `int32_t` and the
stop budget. Each keeps the magnitude, with one exception: the least `int32_t` has no positive
counterpart. A request that saturates there is one count faster than the configured maximum,
and it passes the stop budget unchanged, since its absolute value is itself.

`requests_sound_iff` says for each verb exactly when what it pushes comes from finite
arguments and stays within the maximum. `set_rpm` checks neither for a NaN nor for the least
value. `go_to` and `go_for` check the speed, which is positive after that, and not the
distance.
-/

set_option autoImplicit false

namespace ViamEthercat

/-! ### Saturation -/

open Lib

/-- The conversion rounds, then saturates. -/
theorem toInt_clampToI32_fin (q : ℚ) :
    (clampToI32 (.fin q)).toInt = max (-2 ^ 31) (min (llround q) (2 ^ 31 - 1)) := by
  have hmin := llround_le_iff (x := q) (n := -2 ^ 31) (by norm_num)
  have hmax := le_llround_iff (x := q) (n := 2 ^ 31 - 1) (by norm_num)
  push_cast at hmin hmax
  -- The three branches of the source: below, above, and in between.
  by_cases hlo : -2147483648 < q
  · by_cases hhi : 2147483647 ≤ q
    · have hround := hmax.mpr (by linarith)
      have hle : Double.le (.fin 2147483647) (.fin q) = true := by
        rcases hhi.lt_or_eq with h | h <;> simp [Double.le, Double.lt, Double.isNan, h]
      have hval : clampToI32 (.fin q) = Int32.maxValue := by
        simp [clampToI32, Double.lt, hlo, hle]
      rw [hval, Int32.toInt_maxValue]
      omega
    · have hle : Double.le (.fin 2147483647) (.fin q) = false := by
        simp [Double.le, Double.lt, Double.isNan]
        constructor
        · linarith
        · rintro rfl
          exact hhi le_rfl
      have hval : clampToI32 (.fin q) = Int32.ofInt (llround q) := by
        simp [clampToI32, Double.lt, hlo, hle]
      have hlow := llround_le_iff (x := q) (n := -2 ^ 31 - 1) (by norm_num)
      have hhigh := le_llround_iff (x := q) (n := 2 ^ 31) (by norm_num)
      push_cast at hlow hhigh
      have hge : ¬ llround q ≤ -2 ^ 31 - 1 := fun h => by linarith [hlow.mp h]
      have hlt : ¬ 2 ^ 31 ≤ llround q := fun h => by linarith [hhigh.mp h]
      rw [hval, Int32.toInt_ofInt_of_le (by omega) (by omega)]
      omega
  · have hround := hmin.mpr (by linarith)
    have hval : clampToI32 (.fin q) = Int32.minValue := by
      simp [clampToI32, Double.lt, hlo]
    rw [hval, Int32.toInt_minValue]
    omega

/-- The conversion gives the least value on a NaN and on everything that rounds to it. -/
theorem clampToI32_eq_minValue_iff (v : Double) :
    clampToI32 v = Int32.minValue ↔ Double.lt (.fin (-2 ^ 31 + 1 / 2)) v = false := by
  cases v with
  | nan => simp [clampToI32, Double.lt]
  | inf a => cases a <;> decide
  | fin q =>
      have hmin : llround q ≤ -2 ^ 31 ↔ q ≤ -2 ^ 31 + 1 / 2 := by
        rw [llround_le_iff (by norm_num)]
        push_cast
        rfl
      rw [← Int32.toInt_inj, toInt_clampToI32_fin, Int32.toInt_minValue]
      simp only [Double.lt, decide_eq_false_iff_not, not_lt]
      rw [← hmin]
      omega

/-- A number whose magnitude is at most that of another: of every number, when the other is
not finite. -/
def Double.Within (x y : Double) : Prop := ∀ b, y = .fin b → ∃ a, x = .fin a ∧ |a| ≤ |b|

/-- The conversion keeps the order of magnitudes below the least value. -/
theorem natAbs_clampToI32_le {x y : Double} (h : x.Within y)
    (hx : clampToI32 x ≠ Int32.minValue) :
    (clampToI32 x).toInt.natAbs ≤ (clampToI32 y).toInt.natAbs := by
  -- Without the least value, the magnitude is at most that of the largest.
  have hmin : (clampToI32 x).toInt ≠ -2 ^ 31 := fun heq => hx (Int32.toInt_inj.mp heq)
  have hlo := (clampToI32 x).le_toInt
  have hhi := (clampToI32 x).toInt_lt
  cases y with
  | nan =>
      have hy : (clampToI32 .nan).toInt = -2 ^ 31 := rfl
      omega
  | inf b =>
      have hy : (clampToI32 (.inf b)).toInt = if b then -2 ^ 31 else 2 ^ 31 - 1 := by
        cases b <;> rfl
      cases b <;> simp only [if_true, Bool.false_eq_true, if_false] at hy <;> omega
  | fin b =>
      obtain ⟨a, rfl, hab⟩ := h b rfl
      have hround := natAbs_llround_le hab
      rw [toInt_clampToI32_fin] at hmin ⊢
      rw [toInt_clampToI32_fin]
      omega

/-! ### Doubles -/

namespace Double

/-- A finite product has finite factors. -/
theorem mul_eq_fin {x y : Double} {q : ℚ} (h : mul x y = .fin q) :
    ∃ a b, x = .fin a ∧ y = .fin b ∧ q = a * b := by
  cases x with
  | nan => cases h
  | inf a =>
      cases y with
      | nan => cases h
      | inf b => simp [mul] at h
      | fin b =>
          simp only [mul] at h
          split at h <;> cases h
  | fin a =>
      cases y with
      | nan => cases h
      | inf b =>
          simp only [mul] at h
          split at h <;> cases h
      | fin b => exact ⟨a, b, rfl, rfl, by cases h; rfl⟩

/-- A common factor keeps the order of magnitudes. -/
theorem Within.mul_right {x y : Double} (h : x.Within y) (z : Double) :
    (mul x z).Within (mul y z) := by
  intro q hq
  obtain ⟨b, c, rfl, rfl, rfl⟩ := mul_eq_fin hq
  obtain ⟨a, rfl, hab⟩ := h b rfl
  refine ⟨a * c, rfl, ?_⟩
  rw [abs_mul, abs_mul]
  exact mul_le_mul_of_nonneg_right hab (abs_nonneg c)

/-- Two positive numbers in order. -/
structure PosLe (x y : Double) : Prop where
  pos : lt (.fin 0) x = true
  le : le x y = true

/-- A positive number is finite or the infinity. -/
theorem pos_cases {x : Double} (h : lt (.fin 0) x = true) :
    x = .inf false ∨ ∃ q, x = .fin q ∧ 0 < q := by
  cases x with
  | nan => cases h
  | inf a => cases a with
    | false => exact .inl rfl
    | true => cases h
  | fin q => exact .inr ⟨q, rfl, by simpa [lt] using h⟩

/-- Finite numbers in order. -/
theorem le_fin_iff {a b : ℚ} : le (.fin a) (.fin b) = true ↔ a ≤ b := by
  simp [le, lt, isNan, le_iff_lt_or_eq]

/-- Two positive numbers in order: the larger is the infinity, or both are finite. -/
theorem PosLe.cases {x y : Double} (h : PosLe x y) :
    (y = .inf false ∧ (x = .inf false ∨ ∃ a, x = .fin a ∧ 0 < a)) ∨
      ∃ a b, x = .fin a ∧ y = .fin b ∧ 0 < a ∧ a ≤ b := by
  rcases pos_cases h.pos with rfl | ⟨a, rfl, ha⟩
  · cases y with
    | nan => cases h.le
    | inf b => cases b with
      | false => exact .inl ⟨rfl, .inl rfl⟩
      | true => cases h.le
    | fin b => cases h.le
  · cases y with
    | nan => cases h.le
    | inf b => cases b with
      | false => exact .inl ⟨rfl, .inr ⟨a, rfl, ha⟩⟩
      | true => cases h.le
    | fin b => exact .inr ⟨a, b, rfl, rfl, ha, le_fin_iff.mp h.le⟩

/-- The infinity times a positive number. -/
theorem inf_mul_fin {c : ℚ} (hc : 0 < c) : mul (.inf false) (.fin c) = .inf false := by
  simp [mul, negative, hc.ne', hc.le]

/-- A positive number times an infinity. -/
theorem fin_mul_inf {a : ℚ} (ha : 0 < a) (b : Bool) : mul (.fin a) (.inf b) = .inf b := by
  simp [mul, negative, ha.ne', not_lt.mpr ha.le]

/-- A positive factor keeps the order. -/
theorem PosLe.mul_right {x y z : Double} (h : PosLe x y) (hz : lt (.fin 0) z = true) :
    PosLe (mul x z) (mul y z) := by
  rcases h.cases with ⟨rfl, rfl | ⟨a, rfl, ha⟩⟩ | ⟨a, b, rfl, rfl, ha, hab⟩ <;>
    rcases pos_cases hz with rfl | ⟨c, rfl, hc⟩
  · exact ⟨rfl, rfl⟩
  · rw [inf_mul_fin hc]
    exact ⟨rfl, rfl⟩
  · rw [fin_mul_inf ha]
    exact ⟨rfl, rfl⟩
  · rw [inf_mul_fin hc]
    exact ⟨by simp [mul, lt, ha, hc], rfl⟩
  · rw [fin_mul_inf ha, fin_mul_inf (ha.trans_le hab)]
    exact ⟨rfl, rfl⟩
  · exact ⟨by simp [mul, lt, ha, hc],
      le_fin_iff.mpr (mul_le_mul_of_nonneg_right hab hc.le)⟩

/-- Of two positive numbers in order, the larger meets the bound below with a factor when the
smaller does. -/
theorem PosLe.mul_floor {x y z : Double} {m : ℚ} (hm : m < 0) (h : PosLe x y)
    (hx : lt (.fin m) (mul x z) = false) :
    lt (.fin m) (mul y z) = false := by
  rcases h.cases with ⟨rfl, rfl | ⟨a, rfl, ha⟩⟩ | ⟨a, b, rfl, rfl, ha, hab⟩
  · exact hx
  · cases z with
    | nan => rfl
    | inf c =>
        rw [fin_mul_inf ha] at hx
        cases c with
        | false => cases hx
        | true => rfl
    | fin c =>
        have hneg : c < 0 := by
          simp only [mul, lt, decide_eq_false_iff_not, not_lt] at hx
          by_contra hc
          linarith [mul_nonneg ha.le (not_lt.mp hc)]
        simp [mul, lt, negative, hneg, hneg.ne]
  · cases z with
    | nan => rfl
    | inf c =>
        rw [fin_mul_inf ha] at hx
        rwa [fin_mul_inf (ha.trans_le hab)]
    | fin c =>
        simp only [mul, lt, decide_eq_false_iff_not, not_lt] at hx ⊢
        have hneg : c < 0 := by
          by_contra hc
          linarith [mul_nonneg ha.le (not_lt.mp hc)]
        linarith [mul_le_mul_of_nonpos_right hab hneg.le]

/-- The magnitude of a finite number that is not zero. -/
theorem abs_pos_of_finite {x : Double} (hx : x.isFinite = true) (hne : x ≠ .fin 0) :
    x.abs.isFinite = true ∧ lt (.fin 0) x.abs = true := by
  cases x with
  | nan => cases hx
  | inf a => cases hx
  | fin q =>
      have hq : q ≠ 0 := fun h => hne (h ▸ rfl)
      exact ⟨rfl, by simpa [lt, abs] using hq⟩

end Double

open Double

/-- The bound of `clamp_rpm` on a maximum that `validate` accepts. -/
theorem clampRpm_eq {max : Double} (hmax : le (.fin 0) max = true) (rpm : Double) :
    clampRpm rpm max = clamp rpm (neg max) max := by
  unfold clampRpm
  cases hpos : lt (.fin 0) max with
  | true => rfl
  | false =>
      have hzero : max = .fin 0 := by simpa [le, hpos, eq_comm, isNan] using hmax
      rw [hzero]
      rfl

/-- `clamp_rpm` brings a finite request within the maximum. -/
theorem clampRpm_within {rpm max : Double} (hmax : le (.fin 0) max = true)
    (hrpm : rpm.isFinite = true) : (clampRpm rpm max).Within max := by
  rw [clampRpm_eq hmax]
  rintro b rfl
  have hb := le_fin_iff.mp hmax
  cases rpm with
  | nan => cases hrpm
  | inf a => cases hrpm
  | fin r =>
      simp only [clamp, neg, lt, decide_eq_true_eq]
      split_ifs with hlow hhigh
      · exact ⟨-b, rfl, (abs_neg b).le⟩
      · exact ⟨b, rfl, le_rfl⟩
      · exact ⟨r, rfl, by rw [abs_of_nonneg hb, abs_le]; constructor <;> linarith⟩

/-- `clamp_rpm` of a positive request: the maximum, or a positive number up to it. -/
theorem clampRpm_pos {rpm max : Double} (hmax : le (.fin 0) max = true)
    (hrpm : rpm.isFinite = true) (hpos : lt (.fin 0) rpm = true) :
    clampRpm rpm max = max ∨ PosLe (clampRpm rpm max) max := by
  rw [clampRpm_eq hmax]
  obtain rfl | ⟨r, rfl, hr⟩ := pos_cases hpos
  · cases hrpm
  · cases max with
    | nan => cases hmax
    | inf a => cases a with
      | false => exact .inr ⟨hpos, rfl⟩
      | true => cases hmax
    | fin b =>
        have hb := le_fin_iff.mp hmax
        simp only [clamp, neg, lt, decide_eq_true_eq]
        split_ifs with hlow hhigh
        · linarith
        · exact .inl rfl
        · exact .inr ⟨hpos, le_fin_iff.mpr (not_lt.mp hhigh)⟩

/-- The velocity that a command asks for, in counts/s and without its direction. -/
def Command.speed : Command → Nat
  | .setVelocity v => v.toInt.natAbs
  | .setTarget t => t.profileVelocity.toNat
  | _ => 0

namespace Servo

namespace Session

variable (s : Session)

/-! ### The stop budget -/

/-- The absolute value, read as a `uint32_t`, is exact: also of the least value. -/
theorem absI32_toUInt32_toNat (v : Int32) : (absI32 v).toUInt32.toNat = v.toInt.natAbs := by
  have hint : v.toInt = if 2 * v.toUInt32.toNat < 2 ^ 32 then (v.toUInt32.toNat : Int)
      else v.toUInt32.toNat - 2 ^ 32 := BitVec.toInt_eq_toNat_cond v.toBitVec
  have hlt := v.toUInt32.toNat_lt
  unfold absI32
  split_ifs with hneg
  · rw [Int32.lt_iff_toInt_lt, Int32.toInt_zero] at hneg
    -- The least value is its own negative, and 2^31 as a `uint32_t`.
    rw [Int32.toUInt32_neg, UInt32.toNat_neg, show UInt32.size = 2 ^ 32 from rfl]
    split at hint <;> omega
  · rw [Int32.lt_iff_toInt_lt, Int32.toInt_zero] at hneg
    split at hint <;> omega

/-- The absolute value of all but the least value. -/
theorem toInt_absI32 {v : Int32} (h : v ≠ Int32.minValue) :
    (absI32 v).toInt = v.toInt.natAbs := by
  have hmin : v.toInt ≠ -2 ^ 31 := fun heq => h (Int32.toInt_inj.mp heq)
  have hlo := v.le_toInt
  have hhi := v.toInt_lt
  unfold absI32
  split_ifs with hneg
  · rw [Int32.lt_iff_toInt_lt, Int32.toInt_zero] at hneg
    rw [Int32.toInt_neg, Int.bmod_eq_of_le (by omega) (by omega)]
    omega
  · rw [Int32.lt_iff_toInt_lt, Int32.toInt_zero] at hneg
    omega

/-- The least value passes the stop budget, since its absolute value is itself. -/
theorem clampToStopBudget_minValue :
    s.clampToStopBudget Int32.minValue = Int32.minValue := by
  have habs : (absI32 Int32.minValue).toInt = -2 ^ 31 := by decide
  unfold clampToStopBudget
  rw [habs, if_pos (by omega)]

/-- The stop budget never raises a velocity. -/
theorem natAbs_clampToStopBudget_le (v : Int32) :
    (s.clampToStopBudget v).toInt.natAbs ≤ v.toInt.natAbs := by
  by_cases hmin : v = Int32.minValue
  · rw [hmin, clampToStopBudget_minValue]
  · have hhi := v.toInt_lt
    have hlo := v.le_toInt
    unfold clampToStopBudget
    rw [toInt_absI32 hmin]
    split_ifs with hkeep hpos
    · exact le_rfl
    · rw [Int32.toInt_ofInt_of_le (by omega) (by omega)]
      omega
    · rw [Int32.toInt_neg, Int32.toInt_ofInt_of_le (by omega) (by omega),
        Int.bmod_eq_of_le (by omega) (by omega)]
      omega

/-! ### The requests -/

/-- The configured maximum, in counts/s. -/
def speedLimit : Nat :=
  (rpmToDeviceVelocity s.config.maxMotorSpeedRpm s.config.countsPerRev
    s.config.gearRatio).toInt.natAbs

/-- A speed in counts/s, before it is rounded and saturated. -/
def countsPerSecond (rpm : Double) : Double :=
  mul (mul (divBy rpm 60) s.config.countsPerRev) s.config.gearRatio

/-- The speed does not round down to the least `int32_t`. A NaN does. -/
def AboveLeast (rpm : Double) : Prop :=
  lt (.fin (-2 ^ 31 + 1 / 2)) (s.countsPerSecond rpm) = true

/-- The session refuses the command whatever its arguments. -/
def Refuses (cmd : MotionCommand) : Prop :=
  s.degraded = true ∨ s.estopEngaged = true ∨ s.motionSlotBusy = true ∨
    s.switchesModeWhileMoving cmd = true

/-- A request throws, or pushes a command from finite arguments within the maximum. -/
def RequestSound (args : List Double) (request : Except String Command) : Prop :=
  ∀ c, request = .ok c → (∀ x ∈ args, x.isFinite = true) ∧ c.speed ≤ s.speedLimit

/-- The conversion of a speed gives the least value when it does not stay above it. -/
theorem rpmToDeviceVelocity_eq_minValue_iff (rpm : Double) :
    rpmToDeviceVelocity rpm s.config.countsPerRev s.config.gearRatio = Int32.minValue ↔
      ¬ s.AboveLeast rpm := by
  rw [AboveLeast, Bool.not_eq_true, rpmToDeviceVelocity_eq]
  exact clampToI32_eq_minValue_iff _

section
variable {s} (hcfg : s.config.validate = .ok ()) {rpm : Double} (hrpm : rpm.isFinite = true)
include hcfg hrpm

/-- A finite speed above the least value stays within the maximum. -/
theorem deviceVelocity_le
    (h : s.AboveLeast (clampRpm rpm s.config.maxMotorSpeedRpm)) :
    (s.deviceVelocity rpm).toInt.natAbs ≤ s.speedLimit := by
  -- The unit conversion is a product with common factors.
  have hwithin := clampRpm_within (ServoConfig.limits_of_validate hcfg).1 hrpm
  rw [deviceVelocity, speedLimit, rpmToDeviceVelocity_eq, rpmToDeviceVelocity_eq]
  refine natAbs_clampToI32_le (((hwithin.mul_right _).mul_right _).mul_right _) ?_
  intro hmin
  rw [← rpmToDeviceVelocity_eq] at hmin
  exact (s.rpmToDeviceVelocity_eq_minValue_iff _).mp hmin h

/-- A speed at the least value is over the maximum, unless that is at the least value too. -/
theorem deviceVelocity_le_iff :
    (s.deviceVelocity rpm).toInt.natAbs ≤ s.speedLimit ↔
      s.AboveLeast (clampRpm rpm s.config.maxMotorSpeedRpm) ∨
        ¬ s.AboveLeast s.config.maxMotorSpeedRpm := by
  by_cases habove : s.AboveLeast (clampRpm rpm s.config.maxMotorSpeedRpm)
  · exact ⟨fun _ => .inl habove, fun _ => deviceVelocity_le hcfg hrpm habove⟩
  · have hmin : s.deviceVelocity rpm = Int32.minValue :=
      (s.rpmToDeviceVelocity_eq_minValue_iff _).mpr habove
    -- Of all magnitudes only that of the least value reaches 2^31.
    rw [hmin, ← rpmToDeviceVelocity_eq_minValue_iff, ← Int32.toInt_inj, speedLimit,
      Int32.toInt_minValue]
    have hhi := (rpmToDeviceVelocity s.config.maxMotorSpeedRpm s.config.countsPerRev
      s.config.gearRatio).toInt_lt
    have hlo := (rpmToDeviceVelocity s.config.maxMotorSpeedRpm s.config.countsPerRev
      s.config.gearRatio).le_toInt
    constructor
    · intro hle
      exact .inr (by omega)
    · rintro (h | h)
      · exact absurd h habove
      · rw [h]

/-- A positive speed stays within the maximum: where it is at the least value, so is the
maximum. -/
theorem deviceVelocity_le_of_pos (hpos : lt (.fin 0) rpm = true) :
    (s.deviceVelocity rpm).toInt.natAbs ≤ s.speedLimit := by
  obtain ⟨hmax, -, hcounts⟩ := ServoConfig.limits_of_validate hcfg
  rw [deviceVelocity_le_iff hcfg hrpm]
  rcases clampRpm_pos hmax hrpm hpos with heq | hle
  · rw [heq]
    exact em _
  · by_cases habove : s.AboveLeast (clampRpm rpm s.config.maxMotorSpeedRpm)
    · exact .inl habove
    · refine .inr fun h => ?_
      -- A negative gear ratio turns a positive speed to the least value, and the maximum too.
      have hper := (hle.mul_right (z := .fin 60⁻¹) (by norm_num [lt])).mul_right hcounts
      have hfloor := hper.mul_floor (by norm_num) (Bool.not_eq_true _ ▸ habove)
      exact absurd h (by rw [AboveLeast, countsPerSecond, divBy, hfloor]; simp)

end

/-! ### The verbs -/

/-- What `set_rpm` pushes, and when. -/
theorem setRpm_ok_iff (rpm : Double) (c : Command) :
    s.setRpm rpm = .ok c ↔
      ¬ s.Refuses .velocity ∧ c = .setVelocity (s.clampToStopBudget (s.deviceVelocity rpm)) := by
  simp only [setRpm, requireAvailable, requireReleased, refuseModeSwitchWhileMoving,
    require_bind_ok_iff, Refuses, not_or, Bool.not_eq_true, Bool.not_eq_true', and_assoc]
  simp only [pure, Except.pure, Except.ok.injEq, @eq_comm _ _ c]

/-- What `go_to` pushes, and when. -/
theorem goToIn_ok_iff (round : ℚ → Double) (rpm position : Double) (c : Command) :
    s.goToIn round rpm position = .ok c ↔
      ¬ s.Refuses .position ∧ (rpm.isFinite = true ∧ lt (.fin 0) rpm = true) ∧
        c = .setTarget ⟨revsToCountsIn round position s.config.countsPerRev s.config.gearRatio +
          s.rt.zeroOffsetCounts,
          (absI32 (s.clampToStopBudget (s.deviceVelocityIn round rpm))).toUInt32, false,
          s.nextId⟩ := by
  simp only [goToIn, claimed, goToTargetIn, requireAvailable, requireReleased,
    refuseModeSwitchWhileMoving, bind_assoc, require_bind_ok_iff, Refuses, not_or,
    Bool.not_eq_true, Bool.not_eq_true', Bool.and_eq_true, pure_bind]
  simp only [pure, Except.pure, Except.ok.injEq, @eq_comm _ _ c]
  tauto

/-- What `go_for` pushes, and when. -/
theorem goForIn_ok_iff (round : ℚ → Double) (rpm revs : Double) (c : Command) :
    s.goForIn round rpm revs = .ok c ↔
      ¬ s.Refuses .position ∧ (rpm.isFinite = true ∧ rpm ≠ .fin 0) ∧
        c = .setTarget ⟨revsToCountsIn round (if lt rpm (.fin 0) then neg revs else revs)
          s.config.countsPerRev s.config.gearRatio,
          (absI32 (s.deviceVelocityIn round rpm.abs)).toUInt32, true, s.nextId⟩ := by
  simp only [goForIn, claimed, goForTargetIn, requireAvailable, requireReleased,
    refuseModeSwitchWhileMoving, bind_assoc, require_bind_ok_iff, Refuses, not_or,
    Bool.not_eq_true, Bool.not_eq_true', Bool.and_eq_true, decide_eq_true_eq, pure_bind]
  simp only [pure, Except.pure, Except.ok.injEq, @eq_comm _ _ c]
  tauto

theorem goTo_ok_iff (rpm position : Double) (c : Command) :
    s.goTo rpm position = .ok c ↔
      ¬ s.Refuses .position ∧ (rpm.isFinite = true ∧ lt (.fin 0) rpm = true) ∧
        c = .setTarget ⟨revsToCounts position s.config.countsPerRev s.config.gearRatio +
          s.rt.zeroOffsetCounts,
          (absI32 (s.clampToStopBudget (s.deviceVelocity rpm))).toUInt32, false, s.nextId⟩ :=
  s.goToIn_ok_iff .fin rpm position c

theorem goFor_ok_iff (rpm revs : Double) (c : Command) :
    s.goFor rpm revs = .ok c ↔
      ¬ s.Refuses .position ∧ (rpm.isFinite = true ∧ rpm ≠ .fin 0) ∧
        c = .setTarget ⟨revsToCounts (if lt rpm (.fin 0) then neg revs else revs)
          s.config.countsPerRev s.config.gearRatio,
          (absI32 (s.deviceVelocity rpm.abs)).toUInt32, true, s.nextId⟩ :=
  s.goForIn_ok_iff .fin rpm revs c

section
variable {s} (hcfg : s.config.validate = .ok ())
include hcfg

/-- `set_rpm` looks at neither a NaN nor the least value. -/
theorem setRpm_sound_iff (rpm : Double) :
    s.RequestSound [rpm] (s.setRpm rpm) ↔
      s.Refuses .velocity ∨ (rpm.isFinite = true ∧
        (s.AboveLeast (clampRpm rpm s.config.maxMotorSpeedRpm) ∨
          ¬ s.AboveLeast s.config.maxMotorSpeedRpm)) := by
  by_cases hrefuses : s.Refuses .velocity
  · refine ⟨fun _ => .inl hrefuses, fun _ c hc => ?_⟩
    exact absurd hrefuses ((s.setRpm_ok_iff rpm c).mp hc).1
  · constructor
    · intro h
      -- The least value passes the stop budget, so it reaches the command.
      obtain ⟨hargs, hspeed⟩ := h _ ((s.setRpm_ok_iff rpm _).mpr ⟨hrefuses, rfl⟩)
      have hrpm := hargs rpm (List.mem_singleton_self rpm)
      refine .inr ⟨hrpm, ?_⟩
      by_cases habove : s.AboveLeast (clampRpm rpm s.config.maxMotorSpeedRpm)
      · exact .inl habove
      · have hmin : s.deviceVelocity rpm = Int32.minValue :=
          (s.rpmToDeviceVelocity_eq_minValue_iff _).mpr habove
        rw [← deviceVelocity_le_iff hcfg hrpm]
        rwa [Command.speed, hmin, clampToStopBudget_minValue, ← hmin] at hspeed
    · rintro (h | ⟨hrpm, habove⟩) c hc
      · exact absurd h hrefuses
      · obtain ⟨-, rfl⟩ := (s.setRpm_ok_iff rpm c).mp hc
        refine ⟨by simpa using hrpm, ?_⟩
        exact (s.natAbs_clampToStopBudget_le _).trans
          ((deviceVelocity_le_iff hcfg hrpm).mpr habove)

/-- `go_to` checks its speed and not its position. -/
theorem goTo_sound_iff (rpm position : Double) :
    s.RequestSound [rpm, position] (s.goTo rpm position) ↔
      s.Refuses .position ∨ ¬ (rpm.isFinite = true ∧ lt (.fin 0) rpm = true) ∨
        position.isFinite = true := by
  constructor
  · intro h
    by_contra hnot
    simp only [not_or, not_not] at hnot
    obtain ⟨hrefuses, hrpm, hposition⟩ := hnot
    have hargs := (h _ ((s.goTo_ok_iff rpm position _).mpr ⟨hrefuses, hrpm, rfl⟩)).1
    exact hposition (hargs position (by simp))
  · rintro h c hc
    obtain ⟨hrefuses, hrpm, rfl⟩ := (s.goTo_ok_iff rpm position c).mp hc
    have hposition := (h.resolve_left hrefuses).resolve_left (not_not.mpr hrpm)
    refine ⟨by simpa using ⟨hrpm.1, hposition⟩, ?_⟩
    rw [Command.speed, absI32_toUInt32_toNat]
    exact (s.natAbs_clampToStopBudget_le _).trans (deviceVelocity_le_of_pos hcfg hrpm.1 hrpm.2)

/-- `go_for` checks its speed and not its distance. -/
theorem goFor_sound_iff (rpm revs : Double) :
    s.RequestSound [rpm, revs] (s.goFor rpm revs) ↔
      s.Refuses .position ∨ ¬ (rpm.isFinite = true ∧ rpm ≠ .fin 0) ∨
        revs.isFinite = true := by
  constructor
  · intro h
    by_contra hnot
    simp only [not_or, not_not] at hnot
    obtain ⟨hrefuses, hrpm, hrevs⟩ := hnot
    have hargs := (h _ ((s.goFor_ok_iff rpm revs _).mpr ⟨hrefuses, hrpm, rfl⟩)).1
    exact hrevs (hargs revs (by simp))
  · rintro h c hc
    obtain ⟨hrefuses, hrpm, rfl⟩ := (s.goFor_ok_iff rpm revs c).mp hc
    have hrevs := (h.resolve_left hrefuses).resolve_left (not_not.mpr hrpm)
    refine ⟨by simpa using ⟨hrpm.1, hrevs⟩, ?_⟩
    rw [Command.speed, absI32_toUInt32_toNat]
    -- `go_for` converts the magnitude of its speed.
    obtain ⟨habs, hpos⟩ := abs_pos_of_finite hrpm.1 hrpm.2
    exact deviceVelocity_le_of_pos hcfg habs hpos

/-- A motion verb throws, or pushes a command from finite arguments within the maximum, if and
only if: the session refuses it anyway; or `set_rpm` got a finite speed, above the least value
or with the maximum at the least value too; or `go_to` and `go_for` refuse the speed or got a
finite distance. -/
theorem requests_sound_iff (rpm distance : Double) :
    (s.RequestSound [rpm] (s.setRpm rpm) ↔
      s.Refuses .velocity ∨ (rpm.isFinite = true ∧
        (s.AboveLeast (clampRpm rpm s.config.maxMotorSpeedRpm) ∨
          ¬ s.AboveLeast s.config.maxMotorSpeedRpm))) ∧
    (s.RequestSound [rpm, distance] (s.goTo rpm distance) ↔
      s.Refuses .position ∨ ¬ (rpm.isFinite = true ∧ lt (.fin 0) rpm = true) ∨
        distance.isFinite = true) ∧
    (s.RequestSound [rpm, distance] (s.goFor rpm distance) ↔
      s.Refuses .position ∨ ¬ (rpm.isFinite = true ∧ rpm ≠ .fin 0) ∨
        distance.isFinite = true) :=
  ⟨setRpm_sound_iff hcfg rpm, goTo_sound_iff hcfg rpm distance, goFor_sound_iff hcfg rpm distance⟩

end

end Session

open Session

/-- A finite speed in range is pushed within the maximum. -/
theorem requests_sound_in_range :
    profileSession.RequestSound [.fin 100] (profileSession.setRpm (.fin 100)) :=
  (requests_sound_iff (s := profileSession) (by decide +kernel) (.fin 100) (.fin 1)).1.mpr
    (.inr ⟨rfl, .inl (by unfold AboveLeast; decide +kernel)⟩)

/-- A NaN speed is pushed as the least velocity. -/
theorem nan_request_moves : ¬ ∀ (s : Session) (rpm distance : Double),
    s.config.validate = .ok () →
    s.RequestSound [rpm] (s.setRpm rpm) ∧
    s.RequestSound [rpm, distance] (s.goTo rpm distance) ∧
    s.RequestSound [rpm, distance] (s.goFor rpm distance) := by
  intro h
  have hsound := (h (profileSession.restarted profileBringup) .nan (.fin 1) (by decide +kernel)).1
  have hfinite := (hsound (.setVelocity Int32.minValue) (by rfl)).1 .nan (List.mem_singleton_self _)
  cases hfinite

end Servo

end ViamEthercat
