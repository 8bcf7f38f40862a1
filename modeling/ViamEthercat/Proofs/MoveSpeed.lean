import ViamEthercat.Proofs.DriveParameters
import ViamEthercat.Proofs.StopBudget

/-!
# `ViamEthercat.Proofs.MoveSpeed`: the speed of an accepted move

`go_to` and `go_for` refuse a speed that is not positive in rpm, because a zero speed never
completes. The check is ahead of `clamp_rpm` and of the conversion, which rounds to whole counts
per second. So the speed that is pushed is still zero for a slow request, and for every request
when `max_motor_speed_rpm` is 0 (`move_speed_usable_iff`). The stop budget takes no speed down to
zero. A NaN saturates, and is a speed.

The products of the conversion are rounded, and a speed close to half a count per second can
fall on either side. So nothing is assumed of the rounding here; that of the hardware is
`binary64`.
-/

set_option autoImplicit false

namespace ViamEthercat

open Double

/-- A conversion gives 0 if and only if the magnitude of the number rounds to 0. -/
theorem clampToI32_ne_zero_iff (v : Double) :
    (clampToI32 v).toInt ≠ 0 ↔ v = .nan ∨ le (.fin (1 / 2)) v.abs = true := by
  cases v with
  | nan => decide
  | inf a => cases a <;> decide
  | fin q =>
      have hround : 1 ≤ Lib.llround |q| ↔ 1 / 2 ≤ |q| := by
        rw [Lib.le_llround_iff (by decide)]
        norm_num
      rw [llround_abs] at hround
      have hne : (clampToI32 (.fin q)).toInt ≠ 0 ↔ 1 ≤ ((Lib.llround q).natAbs : Int) := by
        rw [toInt_clampToI32_fin]
        omega
      rw [hne, hround, Double.abs, le_fin_iff]
      simp

namespace Servo

namespace Session

variable (s : Session)

/-- The stop budget takes no speed down to zero. -/
theorem clampToStopBudget_ne_zero_iff (v : Int32) :
    (s.clampToStopBudget v).toInt ≠ 0 ↔ v.toInt ≠ 0 := by
  by_cases hmin : v = Int32.minValue
  · rw [hmin, clampToStopBudget_minValue]
  · have hlo := v.le_toInt
    have hhi := v.toInt_lt
    unfold clampToStopBudget
    rw [toInt_absI32 hmin]
    split_ifs with hkeep hpos
    · rfl
    · rw [Int32.toInt_ofInt_of_le (by omega) (by omega)]
      omega
    · rw [Int32.toInt_neg, Int32.toInt_ofInt_of_le (by omega) (by omega),
        Int.bmod_eq_of_le (by omega) (by omega)]
      omega

/-- A request throws, or pushes a target with a speed of at least 1 count/s. No cyclic mode with a
positive acceleration refuses a goal at that speed. -/
def SpeedUsable (request : Except String Command) : Prop :=
  ∀ t, request = .ok (.setTarget t) → 1 ≤ t.profileVelocity.toNat ∧
    ∀ (g : TrapezoidGenerator ℚ) (goal : Int32) (accel : ℚ), 0 < accel →
      (g.setGoal goal t.profileVelocity.toNat accel).2 = true

/-- The speed up to the maximum, in counts per second as a `double`, comes to one half in
magnitude, or is no number. -/
def RoundsUp (round : ℚ → Double) (rpm : Double) : Prop :=
  let speed := if lt s.config.maxMotorSpeedRpm rpm then s.config.maxMotorSpeedRpm else rpm
  let rate := deviceRateIn round speed s.config.countsPerRev s.config.gearRatio
  rate = .nan ∨ le (.fin (1 / 2)) rate.abs = true

variable {s}

/-- A generator takes the goal when the speed is positive. -/
theorem speedUsable_setTarget {t : SetTarget} {request : Except String Command}
    (h : request = .ok (.setTarget t)) :
    SpeedUsable request ↔ t.profileVelocity.toNat ≠ 0 := by
  constructor
  · intro husable
    exact Nat.one_le_iff_ne_zero.mp (husable t h).1
  · intro hspeed t' h'
    obtain rfl : t = t' := by
      have heq := h.symm.trans h'
      cases heq
      rfl
    refine ⟨Nat.one_le_iff_ne_zero.mpr hspeed, fun g goal accel haccel => ?_⟩
    have hvelocity : (0 : ℚ) < t.profileVelocity.toNat :=
      Nat.cast_pos.mpr (Nat.pos_of_ne_zero hspeed)
    rw [TrapezoidGenerator.setGoal, dif_pos ⟨hvelocity, haccel⟩]

/-- A positive speed is cut to the maximum. -/
theorem clampRpm_of_pos {rpm max : Double} (hmax : le (.fin 0) max = true)
    (hrpm : rpm.isFinite = true) (hpos : lt (.fin 0) rpm = true) :
    clampRpm rpm max = if lt max rpm then max else rpm := by
  rw [clampRpm_eq hmax]
  obtain rfl | ⟨r, rfl, hr⟩ := pos_cases hpos
  · cases hrpm
  · cases max with
    | nan => cases hmax
    | inf a => cases a with
      | false => rfl
      | true => cases hmax
    | fin b =>
        have hb := le_fin_iff.mp hmax
        have hlow : lt (.fin r) (neg (.fin b)) = false := by
          simp only [neg, lt, decide_eq_false_iff_not]
          linarith
        rw [clamp, hlow]
        rfl

variable (round : ℚ → Double)

/-- The speed of a positive request is zero if and only if it rounds to zero. -/
theorem deviceVelocityIn_ne_zero_iff (hcfg : s.config.validate = .ok ()) {rpm : Double}
    (hrpm : rpm.isFinite = true) (hpos : lt (.fin 0) rpm = true) :
    (s.deviceVelocityIn round rpm).toInt ≠ 0 ↔ s.RoundsUp round rpm := by
  obtain ⟨hmax, -, -⟩ := ServoConfig.limits_of_validate hcfg
  have hclamp := clampRpm_of_pos hmax hrpm hpos
  rw [deviceVelocityIn, rpmToDeviceVelocityIn, hclamp]
  exact clampToI32_ne_zero_iff _

/-- `go_to` pushes a usable speed if and only if it does not round to zero. -/
theorem goToIn_speedUsable_iff (hcfg : s.config.validate = .ok ()) (rpm position : Double) :
    SpeedUsable (s.goToIn round rpm position) ↔
      s.Refuses .position ∨ ¬(rpm.isFinite = true ∧ lt (.fin 0) rpm = true) ∨
        s.RoundsUp round rpm := by
  have hpushed := s.goToIn_ok_iff round rpm position
  by_cases hrefuses : s.Refuses .position
  · refine iff_of_true (fun t ht => ?_) (.inl hrefuses)
    exact absurd hrefuses ((hpushed _).mp ht).1
  by_cases hrpm : rpm.isFinite = true ∧ lt (.fin 0) rpm = true
  · have hok := (hpushed _).mpr ⟨hrefuses, hrpm, rfl⟩
    have hspeed := deviceVelocityIn_ne_zero_iff round hcfg hrpm.1 hrpm.2
    rw [← s.clampToStopBudget_ne_zero_iff] at hspeed
    rw [speedUsable_setTarget hok, absI32_toUInt32_toNat, Int.natAbs_ne_zero, hspeed]
    simp [hrefuses, hrpm]
  · refine iff_of_true (fun t ht => ?_) (.inr (.inl hrpm))
    exact absurd ((hpushed _).mp ht).2.1 hrpm

/-- `go_for` has no stop budget, and converts the magnitude of its speed. -/
theorem goForIn_speedUsable_iff (hcfg : s.config.validate = .ok ()) (rpm revs : Double) :
    SpeedUsable (s.goForIn round rpm revs) ↔
      s.Refuses .position ∨ ¬(rpm.isFinite = true ∧ rpm ≠ .fin 0) ∨
        s.RoundsUp round rpm.abs := by
  have hpushed := s.goForIn_ok_iff round rpm revs
  by_cases hrefuses : s.Refuses .position
  · refine iff_of_true (fun t ht => ?_) (.inl hrefuses)
    exact absurd hrefuses ((hpushed _).mp ht).1
  by_cases hrpm : rpm.isFinite = true ∧ rpm ≠ .fin 0
  · have hok := (hpushed _).mpr ⟨hrefuses, hrpm, rfl⟩
    obtain ⟨hfinite, hpos⟩ := abs_pos_of_finite hrpm.1 hrpm.2
    have hspeed := deviceVelocityIn_ne_zero_iff round hcfg hfinite hpos
    rw [speedUsable_setTarget hok, absI32_toUInt32_toNat, Int.natAbs_ne_zero, hspeed]
    simp [hrefuses, hrpm]
  · refine iff_of_true (fun t ht => ?_) (.inr (.inl hrpm))
    exact absurd ((hpushed _).mp ht).2.1 hrpm

end Session

open Session

end Servo

end ViamEthercat
