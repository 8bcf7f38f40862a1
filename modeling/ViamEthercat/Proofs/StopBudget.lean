import ViamEthercat.Servo.Teardown
import ViamEthercat.Proofs.Requests

/-!
# `ViamEthercat.Proofs.StopBudget`: accepted speeds and the stopping window

In profile mode with a quick-stop the drive ramps down at the 0x6085 value it echoed, inside the
stopping window. `on_configured` derives a velocity budget from the window, and
`clamp_to_stop_budget` cuts a request to it.

`speeds_stoppable_iff` says for each verb exactly when what it pushes can be ramped down in the
window. The guard has three gaps: a budget that rounds to zero makes it inert, the least
`int32_t` passes it, and `go_for` does not call it.
-/

set_option autoImplicit false

namespace ViamEthercat.Servo

open Double Session

/-- The speed that the deceleration `e` ramps down in the stopping window, in counts/s. -/
def ServoConfig.stoppable (c : ServoConfig) (e : UInt32) : ℚ := e.toNat * c.stopWindowS

namespace Session

variable (s : Session)

/-- A request throws, or pushes a velocity that can be ramped down in the stopping window. -/
def Stoppable (e : UInt32) (request : Except String Command) : Prop :=
  ∀ c, request = .ok c → (c.speed : ℚ) ≤ s.config.stoppable e

/-- The guard catches the speed: the budget is not zero, and the speed does not round to the
least `int32_t`. -/
def Guarded (e : UInt32) (rpm : Double) : Prop :=
  1 ≤ s.config.stoppable e ∧ s.AboveLeast (clampRpm rpm s.config.maxMotorSpeedRpm)

/-- The speed that a request asks for can be ramped down without the guard. -/
def Slow (e : UInt32) (rpm : Double) : Prop :=
  ((s.deviceVelocity rpm).toInt.natAbs : ℚ) ≤ s.config.stoppable e

section
variable {s} {e : UInt32} (he : 0 < e) (hbudget : s.velBudgetCps = s.config.velBudget e)
include he hbudget

/-- The stored budget is the stoppable speed, rounded down, and zero when that is negative. -/
theorem velBudget_eq : s.velBudgetCps = ⌊max 0 (s.config.stoppable e)⌋ := by
  have hcast : (0 : ℚ) ≤ e.toNat := Nat.cast_nonneg _
  rw [hbudget, ServoConfig.velBudget, if_pos he, mul_max_of_nonneg _ _ hcast, mul_zero]
  rfl

/-- What the guard lets through. -/
theorem clampToStopBudget_stoppable_iff (v : Int32) :
    ((s.clampToStopBudget v).toInt.natAbs : ℚ) ≤ s.config.stoppable e ↔
      (1 ≤ s.config.stoppable e ∧ v ≠ Int32.minValue) ∨
        (v.toInt.natAbs : ℚ) ≤ s.config.stoppable e := by
  have hstored := velBudget_eq he hbudget
  by_cases hmin : v = Int32.minValue
  · -- The least value is its own absolute value, and no budget is below it.
    rw [hmin, clampToStopBudget_minValue]
    simp
  by_cases hone : 1 ≤ s.config.stoppable e
  · refine iff_of_true ?_ (.inl ⟨hone, hmin⟩)
    have hle : (s.velBudgetCps : ℚ) ≤ s.config.stoppable e := by
      rw [hstored, max_eq_right (by linarith)]
      exact Int.floor_le _
    have hpos : 1 ≤ s.velBudgetCps := by
      rw [hstored, Int.le_floor, max_eq_right (by linarith)]
      exact_mod_cast hone
    have hcut : ((s.clampToStopBudget v).toInt.natAbs : Int) ≤ s.velBudgetCps := by
      have hhi := v.toInt_lt
      have hlo := v.le_toInt
      unfold clampToStopBudget
      rw [toInt_absI32 hmin]
      split_ifs with hkeep hneg
      · omega
      · rw [Int32.toInt_ofInt_of_le (by omega) (by omega)]
        omega
      · rw [Int32.toInt_neg, Int32.toInt_ofInt_of_le (by omega) (by omega),
          Int.bmod_eq_of_le (by omega) (by omega)]
        omega
    calc ((s.clampToStopBudget v).toInt.natAbs : ℚ)
        = (((s.clampToStopBudget v).toInt.natAbs : Int) : ℚ) := (Int.cast_natCast _).symm
      _ ≤ s.velBudgetCps := Int.cast_le.mpr hcut
      _ ≤ s.config.stoppable e := hle
  · -- The budget rounds to zero, and the guard is inert.
    have hzero : s.velBudgetCps ≤ 0 := by
      rw [hstored, ← not_lt, Int.lt_iff_add_one_le, zero_add, Int.le_floor, not_le]
      exact max_lt (by norm_num) (by exact_mod_cast not_le.mp hone)
    have hkeep : s.clampToStopBudget v = v := by
      unfold clampToStopBudget
      rw [if_pos (.inl hzero)]
    rw [hkeep]
    simp [hone]

/-- The guarded speed of a request. -/
theorem guarded_stoppable_iff (rpm : Double) :
    ((s.clampToStopBudget (s.deviceVelocity rpm)).toInt.natAbs : ℚ) ≤ s.config.stoppable e ↔
      s.Guarded e rpm ∨ s.Slow e rpm := by
  have habove : s.deviceVelocity rpm ≠ Int32.minValue ↔
      s.AboveLeast (clampRpm rpm s.config.maxMotorSpeedRpm) := by
    rw [ne_eq, deviceVelocity, rpmToDeviceVelocity_eq_minValue_iff, not_not]
  rw [clampToStopBudget_stoppable_iff he hbudget, habove]
  rfl

theorem setRpm_stoppable_iff (rpm : Double) :
    s.Stoppable e (s.setRpm rpm) ↔
      s.Refuses .velocity ∨ s.Guarded e rpm ∨ s.Slow e rpm := by
  rw [← guarded_stoppable_iff he hbudget]
  constructor
  · intro h
    by_cases hrefuses : s.Refuses .velocity
    · exact .inl hrefuses
    · have hspeed := h _ ((s.setRpm_ok_iff rpm _).mpr ⟨hrefuses, rfl⟩)
      exact .inr hspeed
  · intro h c hc
    obtain ⟨hrefuses, rfl⟩ := (s.setRpm_ok_iff rpm c).mp hc
    exact h.resolve_left hrefuses

theorem goTo_stoppable_iff (rpm position : Double) :
    s.Stoppable e (s.goTo rpm position) ↔
      s.Refuses .position ∨ ¬ (rpm.isFinite = true ∧ lt (.fin 0) rpm = true) ∨
        s.Guarded e rpm ∨ s.Slow e rpm := by
  rw [← guarded_stoppable_iff he hbudget]
  constructor
  · intro h
    by_contra hnot
    simp only [not_or, not_not] at hnot
    obtain ⟨hrefuses, hrpm, hfast⟩ := hnot
    have hspeed := h _ ((s.goTo_ok_iff rpm position _).mpr ⟨hrefuses, hrpm, rfl⟩)
    rw [Command.speed, absI32_toUInt32_toNat] at hspeed
    exact hfast hspeed
  · intro h c hc
    obtain ⟨hrefuses, hrpm, rfl⟩ := (s.goTo_ok_iff rpm position c).mp hc
    rw [Command.speed, absI32_toUInt32_toNat]
    exact (h.resolve_left hrefuses).resolve_left (not_not.mpr hrpm)

omit he hbudget in
/-- `go_for` has no guard. -/
theorem goFor_stoppable_iff (rpm revs : Double) :
    s.Stoppable e (s.goFor rpm revs) ↔
      s.Refuses .position ∨ ¬ (rpm.isFinite = true ∧ rpm ≠ .fin 0) ∨ s.Slow e rpm.abs := by
  constructor
  · intro h
    by_contra hnot
    simp only [not_or, not_not] at hnot
    obtain ⟨hrefuses, hrpm, hfast⟩ := hnot
    have hspeed := h _ ((s.goFor_ok_iff rpm revs _).mpr ⟨hrefuses, hrpm, rfl⟩)
    rw [Command.speed, absI32_toUInt32_toNat] at hspeed
    exact hfast hspeed
  · intro h c hc
    obtain ⟨hrefuses, hrpm, rfl⟩ := (s.goFor_ok_iff rpm revs c).mp hc
    rw [Command.speed, absI32_toUInt32_toNat]
    exact (h.resolve_left hrefuses).resolve_left (not_not.mpr hrpm)

end

end Session

/-- A motion verb throws, or pushes a velocity that the echoed deceleration ramps down in the
stopping window, if and only if: the session refuses it anyway; or the guard of `set_rpm` and
`go_to` catches the speed; or the speed is slow enough by itself, which `go_for` needs; or `go_to`
and `go_for` refuse it. -/
theorem speeds_stoppable_iff (s : Session) (e : UInt32) (he : 0 < e) (rpm distance : Double) :
    ((s.onConfigured e).Stoppable e ((s.onConfigured e).setRpm rpm) ↔
      (s.onConfigured e).Refuses .velocity ∨ s.Guarded e rpm ∨ s.Slow e rpm) ∧
    ((s.onConfigured e).Stoppable e ((s.onConfigured e).goTo rpm distance) ↔
      (s.onConfigured e).Refuses .position ∨
        ¬ (rpm.isFinite = true ∧ lt (.fin 0) rpm = true) ∨ s.Guarded e rpm ∨ s.Slow e rpm) ∧
    ((s.onConfigured e).Stoppable e ((s.onConfigured e).goFor rpm distance) ↔
      (s.onConfigured e).Refuses .position ∨
        ¬ (rpm.isFinite = true ∧ rpm ≠ .fin 0) ∨ s.Slow e rpm.abs) :=
  ⟨setRpm_stoppable_iff he rfl rpm, goTo_stoppable_iff he rfl rpm distance,
    goFor_stoppable_iff rpm distance⟩

/-- A drive of 10000 counts per revolution that ramps down at 1000 counts/s², in a second. -/
def quickStopSession : Session :=
  .new { profileConfig with quickStopDecel := 1000 } profileBench (fun _ => "") profileController

/-- The guard brings full speed within the window. -/
theorem speeds_stoppable_guarded : (quickStopSession.onConfigured 1000).Stoppable 1000
    ((quickStopSession.onConfigured 1000).goTo (.fin 3000) (.fin 1)) :=
  (speeds_stoppable_iff quickStopSession 1000 (by decide) (.fin 3000) (.fin 1)).2.1.mpr
    (.inr (.inr (.inl ⟨by decide +kernel, by unfold AboveLeast; decide +kernel⟩)))

/-- `go_for` at 100 rpm is pushed at 16667 counts/s, of which the window takes 950. -/
theorem go_for_not_stoppable : ¬ ∀ (s : Session) (e : UInt32) (rpm distance : Double),
    s.config.validate = .ok () → s.config.motionMode = .profile → 0 < s.config.quickStopDecel →
    0 < e →
    (s.onConfigured e).Stoppable e ((s.onConfigured e).setRpm rpm) ∧
    (s.onConfigured e).Stoppable e ((s.onConfigured e).goTo rpm distance) ∧
    (s.onConfigured e).Stoppable e ((s.onConfigured e).goFor rpm distance) := by
  intro h
  have hstop := (h quickStopSession 1000 (.fin 100) (.fin 1) (by decide +kernel) rfl
    (by decide) (by decide)).2.2
  have hspeed := hstop (.setTarget ⟨10000, 16667, true, 1⟩) (by decide +kernel)
  revert hspeed
  decide +kernel

end ViamEthercat.Servo
